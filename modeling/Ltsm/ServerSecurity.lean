import Ltsm.VenCrypt

/-! The security part of the RFB handshake. The types are offered by the flags of
the SecurityInfo and taken by the byte the client answers with; the primitives
behind each type are given by the host. -/
namespace Ltsm.ServerSecurity
open TlsHandshake VenCrypt

/- What follows an accepted kerberos exchange: nothing, a JSON object, or
something the layer or the parser throws at. -/
inductive KerberosInfo
  | failed
  | absent
  | object (continueTls : Bool)
  deriving DecidableEq, Repr

/- `accepts` is `none` when the exchange throws; it reads `consumed` bytes. -/
structure Kerberos where
  acquires : Bool
  accepts : Option Bool
  remoteName : String
  info : KerberosInfo
  consumed : Nat
  deriving DecidableEq, Repr

/- `passwdText` is `none` for a file that cannot be opened, `encryptDES` where
the cipher throws. -/
structure SecurityHost extends Host where
  noVncMode : Bool
  randomBytes : List UInt8
  passwdText : String → Option (List UInt8)
  encryptDES : List UInt8 → List UInt8 → Option (List UInt8)
  kerberos : Kerberos

def securityTypeNone : UInt8 := 1
def securityTypeVnc : UInt8 := 2
def securityTypeVencrypt : UInt8 := 19
def securityTypeGssapi : UInt8 := 77
def securityResultOk : UInt32 := 0
def securityResultErr : UInt32 := 1

def sendSecurityError (s : ServerStream) (err : String) : ServerStream :=
  ((s.sendIntBE32 securityResultErr).sendIntBE32 (UInt32.ofNat err.utf8ByteSize)).sendString err

/- The magic of the client, twelve zeros if it could not be read. -/
def serverHandshakeVersion (s : ServerStream) : Int × ServerStream :=
  let (magick,s) := (s.sendString "RFB 003.008\n").recvData 12
  if magick = "RFB 003.003\n".toUTF8.data.toList then (33,s)
  else if magick = "RFB 003.007\n".toUTF8.data.toList then (37,s)
  else if magick ≠ "RFB 003.008\n".toUTF8.data.toList then (0,s)
  else (38,s)

theorem negotiatedVersion (s : ServerStream) : (serverHandshakeVersion s).1 ∈ [0,33,37,38] := by
  unfold serverHandshakeVersion
  dsimp only
  split
  · simp
  split
  · simp
  split <;> simp

/- One pass over the lines of the passwd file; `none` is the exception of the cipher. -/
def matchPassword (encryptDES : List UInt8 → List UInt8 → Option (List UInt8))
    (challenge response : List UInt8) : List (List UInt8) → Option Bool
  | [] => some false
  | pass :: rest => do
    let crypt ← encryptDES challenge pass
    if crypt = response then some true else matchPassword encryptDES challenge response rest

def authVncInit (host : SecurityHost) (passwdFile : String) (s : ServerStream) :
    Option Bool × ServerStream :=
  let (response,s) := (s.sendData host.randomBytes).recvData 16
  -- getline also returns the empty rest behind the last line end
  let lines := ((host.passwdText passwdFile).map (·.splitOn 10)).getD []
  match matchPassword host.encryptDES host.randomBytes response lines with
  | none => (none,s)
  | some true => (some true,s)
  | some false => (some false,sendSecurityError s "password mismatch")

def offeredTypes (host : SecurityHost) (secInfo : SecurityInfo) : List UInt8 :=
  let res := [securityTypeGssapi]
  let res := if secInfo.authVenCrypt then res ++ [securityTypeVencrypt] else res
  let res := if secInfo.authVnc then res ++ [securityTypeVnc] else res
  let res := if host.noVncMode then [] else res
  if secInfo.authNone then res ++ [securityTypeNone] else res

/- An exception can leave the function, and a null security context ends the process. -/
inductive Verdict
  | returned (ok : Bool)
  | raised
  | crashed
  deriving DecidableEq, Repr

/- `choice` is the type byte, if the client sent one. -/
structure Result where
  verdict : Verdict
  stream : ServerStream
  tls : Option Session := none
  choice : Option UInt8 := none
  clientAuthName : String := ""
  clientAuthDomain : String := ""
  deriving DecidableEq, Repr

def vncSecurity (host : SecurityHost) (secInfo : SecurityInfo) (s : ServerStream) : Result :=
  if secInfo.passwdFile = "" ∨ host.fileExists secInfo.passwdFile = false then
    {verdict := .returned false, stream := (s.sendIntBE32 securityResultErr).sendIntBE32 0}
  else
    match authVncInit host secInfo.passwdFile s with
    | (none,s) => {verdict := .raised, stream := s}
    | (some false,s) =>
      {verdict := .returned false, stream := (s.sendIntBE32 securityResultErr).sendIntBE32 0}
    | (some true,s) => {verdict := .returned true, stream := s.sendIntBE32 securityResultOk}

def vencryptSecurity (host : SecurityHost) (secInfo : SecurityInfo) (s : ServerStream) : Option Result :=
  (authVenCryptInit host.toHost secInfo s).map fun init =>
    if init.ok then
      {verdict := .returned true, stream := init.stream.sendIntBE32 securityResultOk, tls := init.tls}
    else
      {verdict := .returned false, tls := init.tls,
        stream := (init.stream.sendIntBE32 securityResultErr).sendIntBE32 0}

/- Without a service credential the layer still reports success. -/
def handshakeLayer (kerberos : Kerberos) : Option Bool :=
  if kerberos.acquires then kerberos.accepts else some true

def kerberosStream (host : SecurityHost) (s : ServerStream) : ServerStream :=
  {s with input := s.input.drop host.kerberos.consumed}

/- The name and the domain around the first `@`. -/
def splitRemoteName (remoteName : String) : String × String :=
  let chars := remoteName.toList
  if '@' ∈ chars then
    (String.ofList (chars.takeWhile (· ≠ '@')),String.ofList (chars.dropWhile (· ≠ '@')).tail)
  else (remoteName,"")

def gssapiSecurity (host : SecurityHost) (secInfo : SecurityInfo) (s : ServerStream) : Option Result :=
  let s := kerberosStream host s
  let failed : Result :=
    {verdict := .returned false, stream := sendSecurityError s "security kerberos failed"}
  match handshakeLayer host.kerberos with
  | none => some failed
  | some false => some failed
  | some true =>
    if host.kerberos.acquires = false then some {verdict := .crashed, stream := s}
    else
      let (name,domain) := splitRemoteName host.kerberos.remoteName
      match host.kerberos.info with
      | .failed => some failed
      | .object true =>
        (authVenCryptInit host.toHost secInfo s).map fun init =>
          if init.ok then
            {verdict := .returned true, stream := init.stream.sendIntBE32 securityResultOk,
              tls := init.tls, clientAuthName := name, clientAuthDomain := domain}
          else
            {verdict := .returned false, stream := init.stream, tls := init.tls,
              clientAuthName := name, clientAuthDomain := domain}
      | .absent | .object false => some
          {verdict := .returned true, stream := s.sendIntBE32 securityResultOk,
            clientAuthName := name, clientAuthDomain := domain}

/- The branches on the type byte, behind the offer. -/
def chosenSecurity (host : SecurityHost) (protover : Int) (secInfo : SecurityInfo)
    (clientSecurity : UInt8) (s : ServerStream) : Option Result :=
  if protover = 38 ∨ clientSecurity ≠ securityTypeNone then
    if clientSecurity = securityTypeNone ∧ secInfo.authNone = true then
      some {verdict := .returned true, stream := s.sendIntBE32 securityResultOk}
    else if clientSecurity = securityTypeVnc ∧ secInfo.authVnc = true then
      some (vncSecurity host secInfo s)
    else if clientSecurity = securityTypeVencrypt ∧ secInfo.authVenCrypt = true then
      vencryptSecurity host secInfo s
    else if clientSecurity = securityTypeGssapi then gssapiSecurity host secInfo s
    else some {verdict := .returned false, stream := sendSecurityError s "no matching security types"}
  else some {verdict := .returned true, stream := s}

def sendOffer (host : SecurityHost) (secInfo : SecurityInfo) (s : ServerStream) : ServerStream :=
  let res := offeredTypes host secInfo
  (s.sendInt8 (UInt8.ofNat res.length)).sendData res

/- `none` while a TLS handshake is still retried. -/
def serverSecurityInit (host : SecurityHost) (protover : Int) (secInfo : SecurityInfo)
    (s : ServerStream) : Option Result :=
  if protover = 33 then
    let res := (if secInfo.authVnc then securityTypeVnc.toUInt32 else 0) |||
      (if secInfo.authNone then securityTypeNone.toUInt32 else 0)
    some {verdict := .returned true, stream := s.sendIntBE32 res}
  else if offeredTypes host secInfo = [] then
    some {verdict := .returned false, stream := s.sendInt8 0}
  else
    let offer := sendOffer host secInfo s
    let (clientSecurity,s) := offer.recvInt8
    (chosenSecurity host protover secInfo clientSecurity s).map fun result =>
      {result with choice := if offer.Delivers then some clientSecurity else none}

/-! What a success of the handshake has to stand on. -/

def Enabled (secInfo : SecurityInfo) (type : UInt8) : Prop :=
  (type = securityTypeNone ∧ secInfo.authNone = true) ∨
    (type = securityTypeVnc ∧ secInfo.authVnc = true) ∨
    (type = securityTypeVencrypt ∧ secInfo.authVenCrypt = true) ∨
    (type = securityTypeGssapi ∧ secInfo.authKrb5 = true)

/- The streams were switched to a session whose handshake completed. -/
def TlsCompleted (host : SecurityHost) (secInfo : SecurityInfo) (s : ServerStream) : Prop :=
  ∃ init session, authVenCryptInit host.toHost secInfo s = some init ∧ init.ok = true ∧
    init.tls = some session ∧ Completed session.calls

def KerberosAccepted (host : SecurityHost) : Prop :=
  host.kerberos.acquires = true ∧ host.kerberos.accepts = some true ∧ host.kerberos.info ≠ .failed

structure Completes (host : SecurityHost) (secInfo : SecurityInfo) (type : UInt8) (s : ServerStream) :
    Prop where
  vnc : type = securityTypeVnc → (authVncInit host secInfo.passwdFile s).1 = some true
  vencrypt : type = securityTypeVencrypt → TlsCompleted host secInfo s
  gssapi : type = securityTypeGssapi → KerberosAccepted host
  continueTls : type = securityTypeGssapi → host.kerberos.info = .object true →
    TlsCompleted host secInfo (kerberosStream host s)

/-- True is returned for a client that chose one of the types it was offered, an
enabled one, and completed it. -/
def SuccessIsAuthentication (host : SecurityHost) (protover : Int) (secInfo : SecurityInfo)
    (s : ServerStream) : Prop :=
  ∀ result, serverSecurityInit host protover secInfo s = some result →
    result.verdict = .returned true → ∃ type, result.choice = some type ∧
      type ∈ offeredTypes host secInfo ∧ Enabled secInfo type ∧
        Completes host secInfo type (sendOffer host secInfo s).recvInt8.2

/-! The inputs that pass each branch. -/

def PasswordAccepted (host : SecurityHost) (secInfo : SecurityInfo) (s : ServerStream) : Prop :=
  secInfo.passwdFile ≠ "" ∧ host.fileExists secInfo.passwdFile = true ∧
    (authVncInit host secInfo.passwdFile s).1 = some true

def Passes (host : SecurityHost) (protover : Int) (secInfo : SecurityInfo) (type : UInt8)
    (s : ServerStream) : Prop :=
  (type = securityTypeNone ∧ (secInfo.authNone = true ∨ protover ≠ 38)) ∨
    (type = securityTypeVnc ∧ secInfo.authVnc = true ∧ PasswordAccepted host secInfo s) ∨
    (type = securityTypeVencrypt ∧ secInfo.authVenCrypt = true ∧ TlsOpens host.toHost secInfo s) ∨
    (type = securityTypeGssapi ∧ KerberosAccepted host ∧
      (host.kerberos.info = .object true → TlsOpens host.toHost secInfo (kerberosStream host s)))

/- The choices that must not pass: one the client never sent, NONE where it is
disabled and version 3.7 skips the test, a type kept from the offer for noVNC, a
disabled kerberos, and TLS without its handshake. -/
structure ChoiceSound (host : SecurityHost) (protover : Int) (secInfo : SecurityInfo)
    (sent : Prop) (type : UInt8) (s : ServerStream) : Prop where
  received : Passes host protover secInfo type s → sent
  noneEnabled : type = securityTypeNone → protover ≠ 38 → secInfo.authNone = true
  withheld : type ≠ securityTypeNone → host.noVncMode = true → ¬Passes host protover secInfo type s
  kerberosEnabled : type = securityTypeGssapi → Passes host protover secInfo type s →
    secInfo.authKrb5 = true
  tls : type = securityTypeVencrypt → secInfo.authVenCrypt = true →
    TlsOpens host.toHost secInfo s → TlsSucceeds host.toHost secInfo s
  continueTls : type = securityTypeGssapi → KerberosAccepted host →
    host.kerberos.info = .object true → TlsOpens host.toHost secInfo (kerberosStream host s) →
      TlsSucceeds host.toHost secInfo (kerberosStream host s)

/-- Version 3.3 is not negotiated, and whatever stands in the type byte is sound. -/
structure HandshakeSound (host : SecurityHost) (protover : Int) (secInfo : SecurityInfo)
    (s : ServerStream) : Prop where
  version : protover ≠ 33
  choice : offeredTypes host secInfo ≠ [] →
    ChoiceSound host protover secInfo (sendOffer host secInfo s).Delivers
      (sendOffer host secInfo s).recvInt8.1 (sendOffer host secInfo s).recvInt8.2

section
variable {host : SecurityHost} {protover : Int} {secInfo : SecurityInfo} {type : UInt8}
  {s : ServerStream}

theorem initOk :
    (∃ init, authVenCryptInit host.toHost secInfo s = some init ∧ init.ok = true) ↔
      TlsOpens host.toHost secInfo s := by
  rcases initSource host.toHost secInfo s with
    ⟨closed,refused⟩ | ⟨opens,init,_,returns,ok,_⟩
  · refine iff_of_false ?_ closed
    rintro ⟨init,returns,ok⟩
    rw [(refused init returns).1] at ok
    contradiction
  · exact iff_of_true ⟨init,returns,ok⟩ opens

theorem tlsCompletedIff :
    TlsCompleted host secInfo s ↔
      TlsOpens host.toHost secInfo s ∧ TlsSucceeds host.toHost secInfo s := by
  rcases initSource host.toHost secInfo s with
    ⟨closed,refused⟩ | ⟨opens,init,session,returns,ok,switched,exact⟩
  · refine iff_of_false ?_ fun both => closed both.1
    rintro ⟨init,_,returns,ok,_⟩
    rw [(refused init returns).1] at ok
    contradiction
  · simp [TlsCompleted,returns,ok,switched,exact,opens]

theorem vncTrue :
    (vncSecurity host secInfo s).verdict = .returned true ↔ PasswordAccepted host secInfo s := by
  unfold vncSecurity PasswordAccepted
  by_cases missing : secInfo.passwdFile = "" ∨ host.fileExists secInfo.passwdFile = false
  · rw [if_pos missing]
    refine iff_of_false (by simp) ?_
    rintro ⟨named,found,_⟩
    rcases missing with empty | lost
    · exact named empty
    · simp [lost] at found
  · rw [if_neg missing]
    push Not at missing
    rw [and_iff_right missing.1,and_iff_right (by simpa using missing.2)]
    rcases authVncInit host secInfo.passwdFile s with ⟨_ | ok,s⟩
    · simp
    · cases ok <;> simp

theorem vencryptTrue :
    (∃ result, vencryptSecurity host secInfo s = some result ∧ result.verdict = .returned true) ↔
      TlsOpens host.toHost secInfo s := by
  rw [← initOk]
  unfold vencryptSecurity
  cases authVenCryptInit host.toHost secInfo s with
  | none => simp
  | some init => cases ok : init.ok <;> simp [ok]

theorem gssapiTrue :
    (∃ result, gssapiSecurity host secInfo s = some result ∧ result.verdict = .returned true) ↔
      KerberosAccepted host ∧ (host.kerberos.info = .object true →
        TlsOpens host.toHost secInfo (kerberosStream host s)) := by
  unfold gssapiSecurity KerberosAccepted handshakeLayer
  cases credential : host.kerberos.acquires with
  | false => simp
  | true =>
    simp only [if_true,true_and,Bool.true_eq_false,if_false]
    rcases accepted : host.kerberos.accepts with _ | _ | _
    · simp
    · simp
    · cases info : host.kerberos.info with
      | failed => simp
      | absent => simp
      | object continueTls =>
        cases continueTls with
        | false => simp
        | true =>
          rw [← initOk]
          cases authVenCryptInit host.toHost secInfo (kerberosStream host s) with
          | none => simp
          | some init => cases ok : init.ok <;> simp [ok]

theorem noneTrue :
    (∃ result, chosenSecurity host protover secInfo securityTypeNone s = some result ∧
      result.verdict = .returned true) ↔ secInfo.authNone = true ∨ protover ≠ 38 := by
  unfold chosenSecurity
  by_cases version : protover = 38
  · cases enabled : secInfo.authNone <;>
      simp [version,securityTypeNone,securityTypeVnc,securityTypeVencrypt,securityTypeGssapi]
  · simp [version]

theorem chosenTrue :
    (∃ result, chosenSecurity host protover secInfo type s = some result ∧
      result.verdict = .returned true) ↔ Passes host protover secInfo type s := by
  by_cases isNone : type = securityTypeNone
  · subst isNone
    rw [noneTrue]
    simp [Passes,securityTypeNone,securityTypeVnc,securityTypeVencrypt,securityTypeGssapi]
  unfold chosenSecurity Passes
  simp only [isNone,ne_eq,not_false_eq_true,or_true,if_true,false_and,if_false,false_or]
  by_cases isVnc : type = securityTypeVnc
  · subst isVnc
    cases enabled : secInfo.authVnc
    · simp [securityTypeVnc,securityTypeVencrypt,securityTypeGssapi]
    · simp [vncTrue,securityTypeVnc,securityTypeVencrypt,securityTypeGssapi]
  simp only [isVnc,false_and,if_false,false_or]
  by_cases isVencrypt : type = securityTypeVencrypt
  · subst isVencrypt
    cases enabled : secInfo.authVenCrypt
    · simp [securityTypeVencrypt,securityTypeGssapi]
    · simpa [securityTypeVencrypt,securityTypeGssapi] using vencryptTrue
  simp only [isVencrypt,false_and,if_false,false_or]
  by_cases isGssapi : type = securityTypeGssapi
  · simpa [isGssapi] using gssapiTrue
  · simp [isGssapi]

theorem offeredIff : type ∈ offeredTypes host secInfo ↔
    (type = securityTypeNone ∧ secInfo.authNone = true) ∨ (host.noVncMode = false ∧
      (type = securityTypeGssapi ∨ (type = securityTypeVencrypt ∧ secInfo.authVenCrypt = true) ∨
        (type = securityTypeVnc ∧ secInfo.authVnc = true))) := by
  unfold offeredTypes
  cases secInfo.authNone <;> cases host.noVncMode <;> cases secInfo.authVenCrypt <;>
    cases secInfo.authVnc <;> simp <;> tauto

/- For a choice that passes, soundness is what the success has to stand on. -/
theorem choiceSoundIff {sent : Prop} :
    ChoiceSound host protover secInfo sent type s ↔ (Passes host protover secInfo type s →
      sent ∧ type ∈ offeredTypes host secInfo ∧ Enabled secInfo type ∧
        Completes host secInfo type s) := by
  constructor
  · intro sound passes
    refine ⟨sound.received passes,?_⟩
    have visible (other : type ≠ securityTypeNone) : host.noVncMode = false := by
      by_contra hidden
      exact sound.withheld other (by simpa using hidden) passes
    have krb5 (chosen : type = securityTypeGssapi) := sound.kerberosEnabled chosen passes
    rcases passes with ⟨rfl,enabled⟩ | ⟨rfl,enabled,accepted⟩ | ⟨rfl,enabled,opens⟩ |
      ⟨rfl,accepted,opens⟩
    · have authNone : secInfo.authNone = true :=
        enabled.elim id fun version => sound.noneEnabled rfl version
      refine ⟨offeredIff.mpr (.inl ⟨rfl,authNone⟩),.inl ⟨rfl,authNone⟩,?_,?_,?_,?_⟩ <;>
        exact fun clash => absurd clash (by decide)
    · refine ⟨offeredIff.mpr (.inr ⟨visible (by decide),.inr (.inr ⟨rfl,enabled⟩)⟩),
        .inr (.inl ⟨rfl,enabled⟩),fun _ => accepted.2.2,?_,?_,?_⟩ <;>
        exact fun clash => absurd clash (by decide)
    · have completed : TlsCompleted host secInfo s :=
        tlsCompletedIff.mpr ⟨opens,sound.tls rfl enabled opens⟩
      refine ⟨offeredIff.mpr (.inr ⟨visible (by decide),.inr (.inl ⟨rfl,enabled⟩)⟩),
        .inr (.inr (.inl ⟨rfl,enabled⟩)),?_,fun _ => completed,?_,?_⟩ <;>
        exact fun clash => absurd clash (by decide)
    · refine ⟨offeredIff.mpr (.inr ⟨visible (by decide),.inl rfl⟩),
        .inr (.inr (.inr ⟨rfl,krb5 rfl⟩)),fun clash => absurd clash (by decide),
        fun clash => absurd clash (by decide),fun _ => accepted,fun _ continued => ?_⟩
      exact tlsCompletedIff.mpr
        ⟨opens continued,sound.continueTls rfl accepted continued (opens continued)⟩
  · intro backed
    refine ⟨fun passes => (backed passes).1,?_,?_,?_,?_,?_⟩
    · rintro rfl version
      obtain ⟨_,_,enabled,_⟩ := backed (.inl ⟨rfl,.inr version⟩)
      simpa [Enabled,securityTypeNone,securityTypeVnc,securityTypeVencrypt,securityTypeGssapi]
        using enabled
    · intro other hidden passes
      rcases offeredIff.mp (backed passes).2.1 with ⟨isNone,_⟩ | ⟨visible,_⟩
      · exact other isNone
      · simp [hidden] at visible
    · rintro rfl passes
      simpa [Enabled,securityTypeNone,securityTypeVnc,securityTypeVencrypt,securityTypeGssapi]
        using (backed passes).2.2.1
    · rintro rfl enabled opens
      have completes := (backed (.inr (.inr (.inl ⟨rfl,enabled,opens⟩)))).2.2.2
      exact (tlsCompletedIff.mp (completes.vencrypt rfl)).2
    · rintro rfl accepted continued opens
      have completes := (backed (.inr (.inr (.inr ⟨rfl,accepted,fun _ => opens⟩)))).2.2.2
      exact (tlsCompletedIff.mp (completes.continueTls rfl continued)).2

theorem successIsAuthenticationIff (host : SecurityHost) (protover : Int) (secInfo : SecurityInfo)
    (s : ServerStream) :
    SuccessIsAuthentication host protover secInfo s ↔ HandshakeSound host protover secInfo s := by
  unfold SuccessIsAuthentication serverSecurityInit
  by_cases version : protover = 33
  · rw [if_pos version]
    refine iff_of_false (by simp) fun sound => sound.version version
  rw [if_neg version]
  by_cases nothing : offeredTypes host secInfo = []
  · rw [if_pos nothing]
    exact iff_of_true (by simp) ⟨version,fun offered => absurd nothing offered⟩
  rw [if_neg nothing]
  have sound : HandshakeSound host protover secInfo s ↔
      ChoiceSound host protover secInfo (sendOffer host secInfo s).Delivers
        (sendOffer host secInfo s).recvInt8.1 (sendOffer host secInfo s).recvInt8.2 :=
    ⟨fun h => h.choice nothing,fun h => ⟨version,fun _ => h⟩⟩
  rw [sound,choiceSoundIff,← chosenTrue]
  simp only [Option.map_eq_some_iff]
  by_cases sent : (sendOffer host secInfo s).Delivers
  · simp only [sent,if_true,true_and]
    constructor
    · rintro backed ⟨result,returns,ok⟩
      obtain ⟨_,chosen,rest⟩ := backed _ ⟨result,returns,rfl⟩ ok
      cases Option.some.inj chosen
      exact rest
    · rintro backed _ ⟨result,returns,rfl⟩ ok
      exact ⟨_,rfl,backed ⟨result,returns,ok⟩⟩
  · simp only [sent,if_false,false_and]
    constructor
    · rintro backed ⟨result,returns,ok⟩
      obtain ⟨_,chosen,_⟩ := backed _ ⟨result,returns,rfl⟩ ok
      exact absurd chosen (by simp)
    · rintro backed _ ⟨result,returns,rfl⟩ ok
      exact (backed ⟨result,returns,ok⟩).elim

end

/- A host with kerberos set up, and a client that takes GSSAPI from a server that
has it switched off. -/
def kerberosHost : SecurityHost :=
  {fileExists := fun _ => false, sessionFileExists := fun _ => false, anonSetup := fun _ => true,
    x509Setup := fun _ _ _ _ _ => true, isFatal := fun _ => true, handshakes := [.code 0],
    noVncMode := false, randomBytes := [], passwdText := fun _ => none,
    encryptDES := fun _ _ => none, kerberos := ⟨true,some true,"eve@REALM",.absent,0⟩}
def noKerberosInfo : SecurityInfo := {authVenCrypt := true, authKrb5 := false}
def gssapiClient : ServerStream := ⟨[77],20,[],true,[]⟩

theorem disabledKerberosAccepted :
    (serverSecurityInit kerberosHost 38 noKerberosInfo gssapiClient).map
        (fun result => (result.verdict,result.choice)) =
      some (.returned true,some securityTypeGssapi) ∧
      ¬Enabled noKerberosInfo securityTypeGssapi ∧
      ¬SuccessIsAuthentication kerberosHost 38 noKerberosInfo gssapiClient := by
  have accepted : (serverSecurityInit kerberosHost 38 noKerberosInfo gssapiClient).map
      (fun result => (result.verdict,result.choice)) =
        some (.returned true,some securityTypeGssapi) := by decide
  have disabled : ¬Enabled noKerberosInfo securityTypeGssapi := by
    unfold Enabled
    decide
  refine ⟨accepted,disabled,fun backed => ?_⟩
  obtain ⟨result,returns,same⟩ := Option.map_eq_some_iff.mp accepted
  obtain ⟨type,chosen,_,enabled,_⟩ := backed result returns (congrArg Prod.fst same)
  have gssapi : type = securityTypeGssapi :=
    Option.some.inj (chosen.symm.trans (congrArg Prod.snd same))
  exact disabled (gssapi ▸ enabled)

end Ltsm.ServerSecurity
