import Ltsm.ServerStream
import Ltsm.TlsHandshake

/-! The VeNCrypt security type of the encoder. Its result is compared with the
handshake calls that were made on the session the streams are switched to. -/
namespace Ltsm.VenCrypt
open TlsHandshake

structure SecurityInfo where
  passwdFile : String := ""
  tlsPriority : String := defaultPriority
  caFile : String := ""
  certFile : String := ""
  keyFile : String := ""
  crlFile : String := ""
  krb5Service : String := ""
  authNone : Bool := false
  authVnc : Bool := false
  authVenCrypt : Bool := false
  authKrb5 : Bool := false
  tlsAnonMode : Bool := false
  deriving DecidableEq, Repr

def vencrypt01TlsNone : UInt8 := 20
def vencrypt01X509None : UInt8 := 23
def vencrypt02TlsNone : UInt32 := 257
def vencrypt02X509None : UInt32 := 260

/- `x509Mode` after the client's choice, or `none` where the mode is refused. -/
def x509Choice {α : Type} [DecidableEq α] (secInfo : SecurityInfo) (tlsNone x509None mode : α) :
    Option Bool :=
  if mode = tlsNone then some false
  else if mode = x509None then if secInfo.tlsAnonMode then none else some true
  else none

def venCryptMode (secInfo : SecurityInfo) (s : ServerStream) : Option Bool × ServerStream :=
  let s := (s.sendInt8 0).sendInt8 2
  let (majorVer,s) := s.recvInt8
  let (minorVer,s) := s.recvInt8
  if majorVer ≠ 0 ∨ minorVer < 1 ∨ 2 < minorVer then (none,s.sendInt8 255)
  else
    let s := s.sendInt8 0
    if minorVer = 1 then
      let s := if secInfo.tlsAnonMode then (s.sendInt8 1).sendInt8 vencrypt01TlsNone
        else ((s.sendInt8 2).sendInt8 vencrypt01TlsNone).sendInt8 vencrypt01X509None
      let (mode,s) := s.recvInt8
      (x509Choice secInfo vencrypt01TlsNone vencrypt01X509None mode,s)
    else
      let s := if secInfo.tlsAnonMode then (s.sendInt8 1).sendIntBE32 vencrypt02TlsNone
        else ((s.sendInt8 2).sendIntBE32 vencrypt02TlsNone).sendIntBE32 vencrypt02X509None
      let (mode,s) := s.recvIntBE32
      (x509Choice secInfo vencrypt02TlsNone vencrypt02X509None mode,s)

def FilesExist (host : Host) (secInfo : SecurityInfo) : Prop :=
  host.fileExists secInfo.caFile = true ∧ host.fileExists secInfo.certFile = true ∧
    host.fileExists secInfo.keyFile = true
instance (host secInfo) : Decidable (FilesExist host secInfo) := by unfold FilesExist; infer_instance

def openSession (host : Host) (secInfo : SecurityInfo) : Bool → Option (Option Session)
  | true => x509Session host secInfo.caFile secInfo.certFile secInfo.keyFile secInfo.crlFile
      secInfo.tlsPriority
  | false => anonSession host secInfo.tlsPriority

/- What authVenCryptInit returns and the TLS session the streams go through then. -/
structure Result where
  ok : Bool
  stream : ServerStream
  tls : Option Session
  deriving DecidableEq, Repr

/- `none` while the handshake is still retried. -/
def authVenCryptInit (host : Host) (secInfo : SecurityInfo) (s : ServerStream) : Option Result :=
  match venCryptMode secInfo s with
  | (none,s) => some ⟨false,s,none⟩
  | (some x509Mode,s) =>
    if x509Mode = true ∧ ¬FilesExist host secInfo then some ⟨false,s.sendInt8 0,none⟩
    else
      (openSession host secInfo x509Mode).map fun
        | none => ⟨false,s.sendInt8 1,none⟩
        | some session => ⟨true,s.sendInt8 1,some session⟩

/- Success and the switch of the streams stand on a completed handshake. -/
def Result.Backed (result : Result) : Prop :=
  result.ok = true ∨ result.tls ≠ none →
    ∃ session, result.tls = some session ∧ Completed session.calls

/-- Success is only ever reported for a completed handshake: by the handshake
loop itself and by the security type that is built on it. -/
def SuccessIsHandshake (host : Host) (secInfo : SecurityInfo) (s : ServerStream) : Prop :=
  (∀ handshake, startHandshake host.isFatal host.handshakes = some handshake →
      handshake.ok = true → Completed handshake.calls) ∧
    ∀ result, authVenCryptInit host secInfo s = some result → result.Backed

/-! When a session is opened at all, and when its handshake succeeds, in terms of
what the client, the files and gnutls answer. -/

/- The first call throws, or some call decides the loop. -/
def HandshakeEnds (host : Host) : Prop :=
  host.handshakes.head? = some .thrown ∨
    (host.handshakes.find? (Outcome.decisive host.isFatal)).isSome = true

/- The first call does not throw, and the one that decides is a success. -/
def HandshakeSucceeds (host : Host) : Prop :=
  host.handshakes.head? ≠ some .thrown ∧
    ∃ value, 0 ≤ value ∧ host.handshakes.find? (Outcome.decisive host.isFatal) = some (.code value)

def SessionFiles (host : Host) (secInfo : SecurityInfo) : Prop :=
  secInfo.certFile ≠ "" ∧ secInfo.keyFile ≠ "" ∧
    host.sessionFileExists secInfo.certFile = true ∧ host.sessionFileExists secInfo.keyFile = true

def SessionOpens (host : Host) (secInfo : SecurityInfo) : Bool → Prop
  | true => SessionFiles host secInfo →
      host.x509Setup (orDefault secInfo.tlsPriority) secInfo.caFile secInfo.certFile secInfo.keyFile
        secInfo.crlFile = true ∧ HandshakeEnds host
  | false => host.anonSetup (orDefault secInfo.tlsPriority) = true ∧ HandshakeEnds host

def SessionSucceeds (host : Host) (secInfo : SecurityInfo) (x509Mode : Bool) : Prop :=
  (x509Mode = true → SessionFiles host secInfo) ∧ HandshakeSucceeds host

/- The mode both sides agree on, with its files in place. -/
def Agreed (host : Host) (secInfo : SecurityInfo) (s : ServerStream) (x509Mode : Bool) : Prop :=
  (venCryptMode secInfo s).1 = some x509Mode ∧ (x509Mode = true → FilesExist host secInfo)

def TlsOpens (host : Host) (secInfo : SecurityInfo) (s : ServerStream) : Prop :=
  ∃ x509Mode, Agreed host secInfo s x509Mode ∧ SessionOpens host secInfo x509Mode

def TlsSucceeds (host : Host) (secInfo : SecurityInfo) (s : ServerStream) : Prop :=
  ∃ x509Mode, Agreed host secInfo s x509Mode ∧ SessionSucceeds host secInfo x509Mode

section
variable {host : Host} {secInfo : SecurityInfo} {s : ServerStream}

theorem startSource (host : Host) :
    (¬HandshakeEnds host ∧ startHandshake host.isFatal host.handshakes = none) ∨
      HandshakeEnds host ∧ ∃ handshake,
        startHandshake host.isFatal host.handshakes = some handshake ∧
          (Completed handshake.calls ↔ HandshakeSucceeds host) := by
  by_cases entered : host.handshakes.head? = some .thrown
  · right
    obtain ⟨rest,first⟩ := List.head?_eq_some_iff.mp entered
    refine ⟨.inl entered,⟨true,[.thrown]⟩,by rw [first,startThrown],?_⟩
    simp [Completed,HandshakeSucceeds,entered]
  · rcases startDecisive host.isFatal entered with
      ⟨nothing,stuck⟩ | ⟨value,calls,first,result,exact⟩
    · exact .inl ⟨by simp [HandshakeEnds,entered,nothing],stuck⟩
    · refine .inr ⟨.inr (by simp [first]),_,result,?_⟩
      simp [HandshakeSucceeds,entered,first,exact]

/- What the handshake loop reports, wherever the session is opened from. -/
theorem startBacked :
    (∀ handshake, startHandshake host.isFatal host.handshakes = some handshake →
      handshake.ok = true → Completed handshake.calls) ↔ host.handshakes.head? ≠ some .thrown := by
  constructor
  · intro backed thrown
    obtain ⟨rest,first⟩ := List.head?_eq_some_iff.mp thrown
    rw [first] at backed
    obtain ⟨value,_,inside⟩ := backed _ (startThrown rest) rfl
    simp at inside
  · intro entered handshake ends ok
    rcases startDecisive host.isFatal entered with ⟨_,stuck⟩ | ⟨value,calls,_,result,exact⟩
    · simp [stuck] at ends
    · rw [result] at ends
      cases Option.some.inj ends
      exact exact.mpr (by simpa using ok)

/- Past the setup the session object shows the calls, whatever their result was. -/
theorem constructSource (host : Host) :
    (¬HandshakeEnds host ∧ ∀ session,
        ((startHandshake host.isFatal host.handshakes).map .returned).map construct ≠
          some (some session)) ∨
      HandshakeEnds host ∧ ∃ session,
        ((startHandshake host.isFatal host.handshakes).map .returned).map construct =
          some (some session) ∧ (Completed session.calls ↔ HandshakeSucceeds host) := by
  rcases startSource host with ⟨retries,stuck⟩ | ⟨ends,handshake,result,exact⟩
  · exact .inl ⟨retries,by simp [stuck]⟩
  · exact .inr ⟨ends,⟨handshake.calls⟩,by rw [result]; rfl,exact⟩

theorem anonSource :
    (¬SessionOpens host secInfo false ∧
        ∀ session, openSession host secInfo false ≠ some (some session)) ∨
      SessionOpens host secInfo false ∧ ∃ session,
        openSession host secInfo false = some (some session) ∧
          (Completed session.calls ↔ SessionSucceeds host secInfo false) := by
  unfold openSession anonSession initAnonHandshake SessionOpens SessionSucceeds
  by_cases setup : host.anonSetup (orDefault secInfo.tlsPriority) = true
  · simpa [setup] using constructSource host
  · exact .inl (by simp [setup,construct])

/- Without its files the session is there, but no call was made on it. -/
theorem x509Lost (lost : ¬SessionFiles host secInfo) :
    openSession host secInfo true = some (some ⟨[]⟩) := by
  unfold openSession x509Session initX509Handshake
  by_cases cert : secInfo.certFile = ""
  · rw [if_pos cert]
    rfl
  by_cases key : secInfo.keyFile = ""
  · rw [if_neg cert,if_pos key]
    rfl
  by_cases certLost : host.sessionFileExists secInfo.certFile = false
  · rw [if_neg cert,if_neg key,if_pos certLost]
    rfl
  have keyLost : host.sessionFileExists secInfo.keyFile = false := by
    by_contra keyFound
    exact lost ⟨cert,key,by simpa using certLost,by simpa using keyFound⟩
  rw [if_neg cert,if_neg key,if_neg certLost,if_pos keyLost]
  rfl

theorem x509Source :
    (¬SessionOpens host secInfo true ∧
        ∀ session, openSession host secInfo true ≠ some (some session)) ∨
      SessionOpens host secInfo true ∧ ∃ session,
        openSession host secInfo true = some (some session) ∧
          (Completed session.calls ↔ SessionSucceeds host secInfo true) := by
  by_cases files : SessionFiles host secInfo
  · have opened := files
    obtain ⟨cert,key,certFound,keyFound⟩ := files
    unfold openSession x509Session initX509Handshake SessionOpens SessionSucceeds
    simp only [cert,key,certFound,keyFound,opened,if_false,Bool.true_eq_false,forall_const,true_and]
    by_cases setup : host.x509Setup (orDefault secInfo.tlsPriority) secInfo.caFile secInfo.certFile
        secInfo.keyFile secInfo.crlFile = true
    · simpa [setup] using constructSource host
    · exact .inl (by simp [setup,construct])
  · exact .inr ⟨fun found => absurd found files,⟨[]⟩,x509Lost files,
      by simp [Completed,SessionSucceeds,files]⟩

theorem sessionSource (host : Host) (secInfo : SecurityInfo) (x509Mode : Bool) :
    (¬SessionOpens host secInfo x509Mode ∧
        ∀ session, openSession host secInfo x509Mode ≠ some (some session)) ∨
      SessionOpens host secInfo x509Mode ∧ ∃ session,
        openSession host secInfo x509Mode = some (some session) ∧
          (Completed session.calls ↔ SessionSucceeds host secInfo x509Mode) := by
  cases x509Mode with
  | true => exact x509Source
  | false => exact anonSource

theorem agreedUnique {mode other : Bool} (one : Agreed host secInfo s mode)
    (two : Agreed host secInfo s other) : mode = other :=
  Option.some.inj (one.1.symm.trans two.1)

/-- Nothing is switched and false is returned, or both happen with the session of
the agreed mode. -/
theorem initSource (host : Host) (secInfo : SecurityInfo) (s : ServerStream) :
    (¬TlsOpens host secInfo s ∧ ∀ result, authVenCryptInit host secInfo s = some result →
        result.ok = false ∧ result.tls = none) ∨
      TlsOpens host secInfo s ∧ ∃ result session, authVenCryptInit host secInfo s = some result ∧
        result.ok = true ∧ result.tls = some session ∧
          (Completed session.calls ↔ TlsSucceeds host secInfo s) := by
  unfold authVenCryptInit
  rcases mode : venCryptMode secInfo s with ⟨_ | x509Mode,stream⟩
  · exact .inl (by simp [TlsOpens,Agreed,mode])
  by_cases missing : x509Mode = true ∧ ¬FilesExist host secInfo
  · exact .inl (by simp [TlsOpens,Agreed,mode,missing])
  have agreed : Agreed host secInfo s x509Mode := by
    refine ⟨by rw [mode],fun x509 => ?_⟩
    by_contra absent
    exact missing ⟨x509,absent⟩
  have only (P : Bool → Prop) : (∃ other, Agreed host secInfo s other ∧ P other) ↔ P x509Mode := by
    constructor
    · rintro ⟨other,also,holds⟩
      exact agreedUnique also agreed ▸ holds
    · exact fun holds => ⟨x509Mode,agreed,holds⟩
  simp only [TlsOpens,TlsSucceeds,only,if_neg missing]
  rcases sessionSource host secInfo x509Mode with
    ⟨closed,never⟩ | ⟨opens,session,result,exact⟩
  · refine .inl ⟨closed,?_⟩
    rcases opened : openSession host secInfo x509Mode with _ | _ | session
    · simp
    · simp
    · exact absurd opened (never session)
  · exact .inr ⟨opens,_,session,by rw [result]; rfl,rfl,rfl,exact⟩

theorem initBacked :
    (∀ result, authVenCryptInit host secInfo s = some result → result.Backed) ↔
      (TlsOpens host secInfo s → TlsSucceeds host secInfo s) := by
  rcases initSource host secInfo s with
    ⟨closed,refused⟩ | ⟨opens,result,session,returns,ok,switched,exact⟩
  · refine iff_of_true ?_ fun opens => absurd opens closed
    intro result returns
    simp [Result.Backed,refused result returns]
  · simp [returns,opens,Result.Backed,ok,switched,exact]

theorem successIsHandshakeIff (host : Host) (secInfo : SecurityInfo) (s : ServerStream) :
    SuccessIsHandshake host secInfo s ↔
      host.handshakes.head? ≠ some .thrown ∧
        (TlsOpens host secInfo s → TlsSucceeds host secInfo s) :=
  and_congr startBacked initBacked

end

/- A client that agrees on the anonymous mode of version 0.2 and then only
sends what makes the handshake throw. -/
def brokenClient : ServerStream := ⟨[0,2,0,0,1,1],20,[],true,[]⟩
def brokenHost : Host := ⟨fun _ => false,fun _ => false,fun _ => true,
  fun _ _ _ _ _ => true,fun _ => true,[.thrown]⟩
def anonInfo : SecurityInfo := {authVenCrypt := true, tlsAnonMode := true}

theorem thrownHandshakeAccepted :
    (startHandshake brokenHost.isFatal brokenHost.handshakes).map (·.ok) = some true ∧
      (authVenCryptInit brokenHost anonInfo brokenClient).map (·.ok) = some true ∧
      ¬SuccessIsHandshake brokenHost anonInfo brokenClient := by
  refine ⟨by decide,by decide,?_⟩
  rintro ⟨started,_⟩
  obtain ⟨value,_,inside⟩ := started ⟨true,[.thrown]⟩ (by decide) rfl
  simp at inside

end Ltsm.VenCrypt
