import Ltsm.HandshakeParties

/-! The server of the dialogue on the stream of the encoder, where reads and writes fail and nobody is
told: it sends the same, and ends the same as long as the messages go on. -/
namespace Ltsm.HandshakeParties
open Library TlsHandshake VenCrypt ServerSecurity

section
variable {β γ : Type}

/- A party on the stream of the encoder: what cannot be read are zeros. -/
def overStream : Talk β → ServerStream → β × ServerStream
  | .ended result, s => (result,s)
  | .tells message next, s => overStream next (s.sendRaw message)
  | .hears count next, s => overStream (next (s.recvData count).1) (s.recvData count).2

theorem overSendData (bytes : List UInt8) (f : Unit → Talk β) (s : ServerStream) :
    overStream (sendData bytes >>= f) s = overStream (f ()) (s.sendData bytes) := rfl

theorem overSendInt8 (val : UInt8) (f : Unit → Talk β) (s : ServerStream) :
    overStream (sendInt8 val >>= f) s = overStream (f ()) (s.sendInt8 val) := rfl

theorem overSendIntBE32 (val : UInt32) (f : Unit → Talk β) (s : ServerStream) :
    overStream (sendIntBE32 val >>= f) s = overStream (f ()) (s.sendIntBE32 val) := rfl

theorem overSendString (text : String) (f : Unit → Talk β) (s : ServerStream) :
    overStream (sendString text >>= f) s = overStream (f ()) (s.sendString text) := rfl

/- The same is sent, and as long as messages are, the same comes out of it. -/
structure Follows (out mine : β × ServerStream) : Prop where
  sent : out.2.sent = mine.2.sent
  running : out.2.rfbMessages = mine.2.rfbMessages
  same : out.2.rfbMessages = true → out = mine

theorem sendStopped {s : ServerStream} (stopped : s.rfbMessages = false) (bytes : List UInt8) : s.sendRaw bytes = s := by
  simp [ServerStream.sendRaw,stopped]

theorem recvStopped (s : ServerStream) (len : Nat) : (s.recvData len).2.sent = s.sent ∧
    (s.rfbMessages = false → (s.recvData len).2.rfbMessages = false) := by
  unfold ServerStream.recvData ServerStream.recvRaw
  split
  · rename_i enough
    split at enough
    · rename_i running
      cases enough
      exact ⟨rfl,fun stopped => by simp [stopped] at running⟩
    · cases enough
  · rename_i short
    split at short
    · cases short
    · cases short
      exact ⟨rfl,fun _ => rfl⟩

theorem overStopped (p : Talk β) {s : ServerStream} (stopped : s.rfbMessages = false) :
    (overStream p s).2.sent = s.sent ∧ (overStream p s).2.rfbMessages = false := by
  induction p generalizing s with
  | ended result => exact ⟨rfl,stopped⟩
  | tells message next ih =>
    rw [overStream,sendStopped stopped]
    exact ih stopped
  | hears count next ih =>
    obtain ⟨sent,still⟩ := recvStopped s count
    obtain ⟨later,ended⟩ := ih (s.recvData count).1 (still stopped)
    exact ⟨later.trans sent,ended⟩

theorem overBind (p : Talk β) (f : β → Talk γ) (s : ServerStream) :
    overStream (p >>= f) s = overStream (f (overStream p s).1) (overStream p s).2 := by
  induction p generalizing s with
  | ended result => rfl
  | tells message next ih => exact ih _
  | hears count next ih => exact ih _ _

theorem followsRefl (out : β × ServerStream) : Follows out out := ⟨rfl,rfl,fun _ => rfl⟩

/- A buffer that could not be filled is read by nobody but a party that sends nothing any more. -/
theorem followsBuffer {out : β × ServerStream} {f : List UInt8 → Talk β} {s : ServerStream} (count : Nat)
    (each : ∀ bytes later, s.recvBuffer count = (bytes,later) → Follows out (overStream (f bytes) later)) :
    Follows out (overStream (.hears count f) s) := by
  rw [overStream]
  rcases got : s.recvRaw count with ⟨_ | bytes,left⟩
  · have ended : left.rfbMessages = false ∧ left.sent = s.sent := by
      unfold ServerStream.recvRaw at got
      split at got
      · cases got
      · cases got
        exact ⟨rfl,rfl⟩
    have mine := each _ {left with junk := left.junk.drop count} (by rw [ServerStream.recvBuffer,got])
    have stopped := @overStopped β (f ((left.junk ++ List.replicate count 0).take count))
      {left with junk := left.junk.drop count} ended.1
    have zeros := overStopped (f (List.replicate count 0)) ended.1
    rw [ServerStream.recvData,got]
    refine ⟨(mine.sent.trans stopped.1).trans zeros.1.symm,(mine.running.trans stopped.2).trans zeros.2.symm,
      fun running => ?_⟩
    have off := mine.running.trans stopped.2
    rw [running] at off
    cases off
  · rw [ServerStream.recvData,got]
    exact each bytes left (by rw [ServerStream.recvBuffer,got])

/- A party goes on from what another one has come to. -/
theorem followsBind {p : Talk β} {f : β → Talk γ} {first : β × ServerStream} {out : γ × ServerStream} {s : ServerStream}
    (one : Follows first (overStream p s)) (two : Follows out (overStream (f first.1) first.2)) :
    Follows out (overStream (p >>= f) s) := by
  rw [overBind]
  cases running : first.2.rfbMessages with
  | true =>
    rw [← one.same running]
    exact two
  | false =>
    have stopped := overStopped (f first.1) running
    have also := overStopped (f (overStream p s).1) (one.running.symm.trans running)
    refine ⟨(two.sent.trans stopped.1).trans (one.sent.trans also.1.symm),
      (two.running.trans stopped.2).trans also.2.symm,fun on => ?_⟩
    have off := two.running.trans stopped.2
    rw [on] at off
    cases off

theorem followsRecvInt8 {out : β × ServerStream} {f : UInt8 → Talk β} {s : ServerStream}
    (each : ∀ val later, s.recvInt8 = (val,later) → Follows out (overStream (f val) later)) :
    Follows out (overStream (recvInt8 >>= f) s) :=
  followsBuffer 1 fun bytes later got => each (bytes.headD 0) later (by rw [ServerStream.recvInt8,got])

theorem followsRecvIntBE32 {out : β × ServerStream} {f : UInt32 → Talk β} {s : ServerStream}
    (each : ∀ val later, s.recvIntBE32 = (val,later) → Follows out (overStream (f val) later)) :
    Follows out (overStream (recvIntBE32 >>= f) s) :=
  followsBuffer 4 fun bytes later got => each (intBE32 bytes) later (by rw [ServerStream.recvIntBE32,got]; rfl)

end

theorem venCryptFollows (secInfo : SecurityInfo) (s : ServerStream) :
    Follows (VenCrypt.venCryptMode secInfo s) (overStream (Server.venCryptMode secInfo) s) := by
  unfold VenCrypt.venCryptMode Server.venCryptMode
  rw [overSendInt8,overSendInt8]
  refine followsRecvInt8 fun majorVer s1 first => followsRecvInt8 fun minorVer s2 second => ?_
  simp only [first,second]
  by_cases unsupported : majorVer ≠ 0 ∨ minorVer < 1 ∨ 2 < minorVer
  · rw [if_pos unsupported,if_pos unsupported]
    exact followsRefl _
  rw [if_neg unsupported,if_neg unsupported]
  by_cases older : minorVer = 1
  · simp only [if_pos older]
    cases secInfo.tlsAnonMode <;> simp only [overSendInt8,if_true,Bool.false_eq_true,if_false]
    · refine followsRecvInt8 fun mode s3 third => ?_
      rw [third]
      exact followsRefl _
    · refine followsRecvInt8 fun mode s3 third => ?_
      rw [third]
      exact followsRefl _
  · simp only [if_neg older]
    cases secInfo.tlsAnonMode <;> simp only [overSendInt8,overSendIntBE32,if_true,Bool.false_eq_true,if_false]
    · refine followsRecvIntBE32 fun mode s3 third => ?_
      rw [third]
      exact followsRefl _
    · refine followsRecvIntBE32 fun mode s3 third => ?_
      rw [third]
      exact followsRefl _

theorem versionFollows (s : ServerStream) :
    ServerSecurity.serverHandshakeVersion s = overStream Server.serverHandshakeVersion s := by
  unfold ServerSecurity.serverHandshakeVersion Server.serverHandshakeVersion
  rw [overSendString]
  rcases got : (s.sendString "RFB 003.008\n").recvData 12 with ⟨magick,later⟩
  have heard : overStream (recvData 12) (s.sendString "RFB 003.008\n") = (magick,later) := got
  rw [overBind,heard]
  dsimp only
  split
  · rfl
  split
  · rfl
  split <;> rfl

theorem authVenCryptFollows {host : Host} {secInfo : SecurityInfo} {s : ServerStream} {result : VenCrypt.Result}
    (returns : VenCrypt.authVenCryptInit host secInfo s = some result) :
    Follows (some (result.ok,result.tls),result.stream) (overStream (Server.authVenCryptInit host secInfo) s) := by
  unfold VenCrypt.authVenCryptInit at returns
  refine followsBind (venCryptFollows secInfo s) ?_
  rcases mode : VenCrypt.venCryptMode secInfo s with ⟨_ | x509Mode,later⟩ <;> rw [mode] at returns
  · cases Option.some.inj returns
    exact followsRefl _
  dsimp only at returns ⊢
  rw [Server.openTLS]
  split at returns
  · rename_i missing
    rw [if_pos missing,overSendInt8]
    cases Option.some.inj returns
    exact followsRefl _
  · rename_i files
    rw [if_neg files,overSendInt8]
    rcases opened : openSession host secInfo x509Mode with _ | _ | session <;> rw [opened] at returns
    · cases returns
    · cases Option.some.inj returns
      exact followsRefl _
    · cases Option.some.inj returns
      exact followsRefl _

/- What a party answers of a result of the encoder. -/
def answerOf (result : ServerSecurity.Result) : Answer :=
  ⟨result.verdict,result.tls,none,result.clientAuthName,result.clientAuthDomain⟩

theorem authVncFollows (host : SecurityHost) (passwdFile : String) (s : ServerStream) :
    ServerSecurity.authVncInit host passwdFile s = overStream (Server.authVncInit host passwdFile) s := by
  unfold ServerSecurity.authVncInit Server.authVncInit
  rw [overSendData,overBind]
  have heard : overStream (recvData 16) (s.sendData host.randomBytes) = (s.sendData host.randomBytes).recvData 16 := rfl
  rw [heard]
  rcases (s.sendData host.randomBytes).recvData 16 with ⟨response,later⟩
  dsimp only [Server.passwords]
  generalize matchPassword host.encryptDES host.randomBytes response
    (((host.passwdText passwdFile).map (·.splitOn 10)).getD []) = found
  rcases found with _ | _ | _ <;> rfl

theorem vncFollows (host : SecurityHost) (secInfo : SecurityInfo) (s : ServerStream) :
    Follows (answerOf (ServerSecurity.vncSecurity host secInfo s),(ServerSecurity.vncSecurity host secInfo s).stream)
      (overStream (Server.vncSecurity host secInfo) s) := by
  unfold ServerSecurity.vncSecurity Server.vncSecurity
  by_cases file : secInfo.passwdFile = "" ∨ host.fileExists secInfo.passwdFile = false
  · rw [if_pos file,if_pos file,overSendIntBE32,overSendIntBE32]
    exact followsRefl _
  rw [if_neg file,if_neg file,overBind,← authVncFollows]
  rcases ServerSecurity.authVncInit host secInfo.passwdFile s with ⟨_ | _ | _,later⟩ <;> exact followsRefl _

theorem vencryptFollows {host : SecurityHost} {secInfo : SecurityInfo} {s : ServerStream} {result : ServerSecurity.Result}
    (returns : ServerSecurity.vencryptSecurity host secInfo s = some result) :
    Follows (some (answerOf result),result.stream) (overStream (Server.vencryptSecurity host secInfo) s) := by
  obtain ⟨init,inited,made⟩ := Option.map_eq_some_iff.mp returns
  refine followsBind (authVenCryptFollows inited) ?_
  split at made
  · rename_i ok
    subst made
    rw [ok]
    exact followsRefl _
  · rename_i failed
    subst made
    rw [Bool.eq_false_iff.mpr failed]
    exact followsRefl _

/- Past the choice of any type but GSSAPI, whose tokens the encoder's own stream leaves out. -/
theorem chosenFollows {host : ServerHost} {protover : Int} {secInfo : SecurityInfo} {choice : UInt8} {s : ServerStream}
    {result : ServerSecurity.Result} (other : choice ≠ securityTypeGssapi)
    (returns : ServerSecurity.chosenSecurity host.toSecurityHost protover secInfo choice s = some result) :
    Follows (some (answerOf result),result.stream)
      (overStream (Server.chosenSecurity host protover secInfo choice) s) := by
  unfold ServerSecurity.chosenSecurity at returns
  unfold Server.chosenSecurity
  by_cases asked : protover = 38 ∨ choice ≠ securityTypeNone
  · rw [if_pos asked] at returns ⊢
    by_cases none : choice = securityTypeNone ∧ secInfo.authNone = true
    · rw [if_pos none] at returns ⊢
      cases Option.some.inj returns
      exact followsRefl _
    rw [if_neg none] at returns ⊢
    by_cases vnc : choice = securityTypeVnc ∧ secInfo.authVnc = true
    · rw [if_pos vnc] at returns ⊢
      cases Option.some.inj returns
      exact followsBind (vncFollows host.toSecurityHost secInfo s) (followsRefl _)
    rw [if_neg vnc] at returns ⊢
    by_cases vencrypt : choice = securityTypeVencrypt ∧ secInfo.authVenCrypt = true
    · rw [if_pos vencrypt] at returns ⊢
      exact vencryptFollows returns
    rw [if_neg vencrypt,if_neg other] at returns ⊢
    cases Option.some.inj returns
    exact followsRefl _
  · rw [if_neg asked] at returns ⊢
    cases Option.some.inj returns
    exact followsRefl _

theorem recvInt8Stopped {s later : ServerStream} {val : UInt8} (empty : ¬s.Delivers) (heard : s.recvInt8 = (val,later)) :
    later.rfbMessages = false := by
  have none : ¬(s.rfbMessages = true ∧ 1 ≤ s.input.length) := fun both =>
    empty ⟨both.1,List.ne_nil_of_length_pos both.2⟩
  simp only [ServerStream.recvInt8,ServerStream.recvBuffer,ServerStream.recvRaw,if_neg none] at heard
  cases heard
  rfl

/- The security part of the server as a party is the one on its stream. -/
theorem securityFollows {host : ServerHost} {protover : Int} {secInfo : SecurityInfo} {s : ServerStream}
    {result : ServerSecurity.Result}
    (other : (sendOffer host.toSecurityHost secInfo s).recvInt8.1 ≠ securityTypeGssapi)
    (returns : ServerSecurity.serverSecurityInit host.toSecurityHost protover secInfo s = some result) :
    Follows (some {answerOf result with choice := result.choice},result.stream)
      (overStream (Server.serverSecurityInit host protover secInfo) s) := by
  unfold ServerSecurity.serverSecurityInit at returns
  unfold Server.serverSecurityInit
  by_cases early : protover = 33
  · rw [if_pos early] at returns ⊢
    rw [overSendIntBE32]
    cases Option.some.inj returns
    exact followsRefl _
  rw [if_neg early] at returns ⊢
  by_cases nothing : offeredTypes host.toSecurityHost secInfo = []
  · rw [if_pos nothing] at returns ⊢
    rw [overSendInt8]
    cases Option.some.inj returns
    exact followsRefl _
  rw [if_neg nothing] at returns ⊢
  rw [overSendInt8,overSendData]
  change Follows _ (overStream _ (sendOffer host.toSecurityHost secInfo s))
  refine followsRecvInt8 fun clientSecurity later heard => ?_
  dsimp only at returns
  rw [heard] at returns other
  obtain ⟨passed,chosen,made⟩ := Option.map_eq_some_iff.mp returns
  have follows := chosenFollows other chosen
  cases made
  by_cases delivers : (sendOffer host.toSecurityHost secInfo s).Delivers
  · simp only [if_pos delivers]
    exact followsBind follows (followsRefl _)
  · simp only [if_neg delivers]
    have stopped : later.rfbMessages = false := recvInt8Stopped delivers heard
    have mine := overStopped (Server.chosenSecurity host protover secInfo clientSecurity) stopped
    rw [overBind]
    refine ⟨follows.sent,follows.running,fun running => ?_⟩
    have off := follows.running.trans mine.2
    rw [running] at off
    cases off
end Ltsm.HandshakeParties
