import Ltsm.HandshakeParties

/-! Both ends of a handshake against each other, in every order in which their turns can be taken: when
a client gets a session, that the server then is at the same end, and where the two wait for each other. -/
namespace Ltsm.HandshakeAgreement
open Library Dialogue TlsHandshake VenCrypt ServerSecurity HandshakeParties
open ClientMessages (LocalFormat)

abbrev Handshake := Dialogue UInt8 ServerEnd ClientEnd

/- What the client takes for a format. -/
def Accepted (format : LocalFormat) : Prop :=
  Client.knownBits format.bitsPerPixel = true ∧ format.redMax ≠ 0 ∧ format.greenMax ≠ 0 ∧ format.blueMax ≠ 0
instance acceptedDecidable (format : LocalFormat) : Decidable (Accepted format) := by unfold Accepted; infer_instance

def sessionOf (desktop : Desktop) (choice : UInt8) (x509Mode : Option Bool) (name : List UInt8) : ClientSession :=
  ⟨choice,x509Mode,desktop.width,desktop.height,desktop.format,desktop.platformBigEndian,name⟩

section
variable (host : ServerHost) (secInfo : SecurityInfo) (desktop : Desktop) (client : ClientHost) (sec : ClientInfo)

def start : Handshake :=
  ⟨Server.rfbCommunication host secInfo desktop,Client.rfbHandshake client sec,[],[]⟩

variable {host secInfo desktop client sec} {e : Handshake}

theorem versionsAgree (later : Leads ⟨Server.serverSecurityInit host 38 secInfo >>= Server.initialised desktop,
      recvInt8 >>= fun counts => if counts = 0 then Client.recvError
        else recvData counts.toNat >>= Client.takeOffer client sec,[],[]⟩ e) :
    Leads (start host secInfo desktop client sec) e := by
  unfold start Server.rfbCommunication Server.serverHandshakeVersion Client.rfbHandshake
  simp only [sendString,sendData,Party.say,recvData,Party.hear,Party.tellsBind,Party.hearsBind,Party.endedBind]
  have length : "RFB 003.008\n".toUTF8.data.toList.length = 12 := by decide
  refine leadsTellsLeft (leadsHearsRight "RFB 003.008\n".toUTF8.data.toList [] length ?_)
  rw [if_neg (not_not.mpr rfl)]
  refine leadsTellsRight (leadsHearsLeft "RFB 003.008\n".toUTF8.data.toList [] length ?_)
  rw [if_neg (by decide),if_neg (by decide),if_neg (not_not.mpr rfl)]
  exact later

def initBytes (desktop : Desktop) : List UInt8 :=
  bytesBE16 desktop.width ++ (bytesBE16 desktop.height ++ Server.formatBytes desktop)

theorem initRead (desktop : Desktop) (choice : UInt8) (x509Mode : Option Bool) (name : List UInt8) :
    Client.readInit choice x509Mode (initBytes desktop) name =
      sessionOf desktop choice x509Mode name := by
  rcases desktop with ⟨_,width,height,depth,⟨bpp,redMax,greenMax,blueMax,redShift,greenShift,blueShift⟩,be⟩
  have red := intBytesBE16 redMax
  have green := intBytesBE16 greenMax
  have blue := intBytesBE16 blueMax
  have wide := intBytesBE16 width
  have high := intBytesBE16 height
  simp only [bytesBE16] at red green blue wide high
  cases be <;> simp [Client.readInit,sessionOf,initBytes,Server.formatBytes,bytesBE16,red,green,blue,wide,high]

/- What the client checks of the initialisation are the fields of the format. -/
theorem initChecked (desktop : Desktop) :
    (initBytes desktop).getD 4 0 = desktop.format.bitsPerPixel ∧
      (initBytes desktop).getD 7 0 ≠ 0 ∧
      intBE16 (((initBytes desktop).drop 8).take 2) = desktop.format.redMax ∧
      intBE16 (((initBytes desktop).drop 10).take 2) = desktop.format.greenMax ∧
      intBE16 (((initBytes desktop).drop 12).take 2) = desktop.format.blueMax := by
  have read : (Client.readInit 0 none (initBytes desktop) []).format = desktop.format :=
    congrArg ClientSession.format (initRead desktop 0 none [])
  have fields := LocalFormat.mk.inj read
  exact ⟨fields.1,show (1 : UInt8) ≠ 0 by decide,fields.2.1,fields.2.2.1,fields.2.2.2.1⟩

/- The server has let the client in, and sends its initialisation. -/
theorem initialisationSent (choice : UInt8) (x509Mode : Option Bool) {answer : Answer}
    (success : answer.verdict = .returned true)
    (later : Leads ⟨.ended (.connected answer),
      if Client.knownBits desktop.format.bitsPerPixel = false then pure .refused
      else if desktop.format.redMax = 0 ∨ desktop.format.greenMax = 0 ∨ desktop.format.blueMax = 0 then
        pure .refused
      else recvIntBE32 >>= fun nameLen => recvData nameLen.toNat >>= fun nameDesktop =>
        pure (.connected (sessionOf desktop choice x509Mode nameDesktop)),[],
      bytesBE32 (UInt32.ofNat desktop.name.length) ++ desktop.name⟩ e) :
    Leads ⟨sendIntBE32 securityResultOk >>= fun _ => Server.initialised desktop (some answer),
      Client.finished choice (.done x509Mode),[],[]⟩ e := by
  obtain ⟨bits,colours,red,green,blue⟩ := initChecked desktop
  simp only [Server.initialised,success,Client.finished,sendIntBE32,sendData,Party.say,recvIntBE32,
    Party.tellsBind,Party.hearsBind,Party.endedBind]
  refine leadsTellsLeft (leadsHearsRight (bytesBE32 securityResultOk) [] rfl ?_)
  rw [intBytesBE32,if_neg (not_not.mpr rfl)]
  simp only [Client.serverInit,Server.serverClientInit,sendInt8,recvInt8,sendIntBE16,sendIntBE32,sendData,
    recvData,Party.say,Party.hear,Party.tellsBind,Party.hearsBind,Party.endedBind]
  refine leadsTellsRight (leadsHearsLeft [0] [] rfl ?_)
  refine leadsTellsLeft (leadsTellsLeft (leadsTellsLeft (leadsTellsLeft (leadsTellsLeft ?_))))
  have sent : [] ++ bytesBE16 desktop.width ++ bytesBE16 desktop.height ++ Server.formatBytes desktop ++
      bytesBE32 (UInt32.ofNat desktop.name.length) ++ desktop.name =
        initBytes desktop ++ (bytesBE32 (UInt32.ofNat desktop.name.length) ++ desktop.name) := by
    simp only [initBytes,List.nil_append,List.append_assoc]
  rw [sent]
  refine leadsHearsRight (initBytes desktop) _ rfl ?_
  rw [bits,red,green,blue]
  simp only [initRead,colours,false_or]
  exact later

theorem initialisationAgrees (choice : UInt8) (x509Mode : Option Bool) {answer : Answer}
    (success : answer.verdict = .returned true) (accepted : Accepted desktop.format)
    (named : desktop.name.length < 4294967296) :
    Leads ⟨sendIntBE32 securityResultOk >>= fun _ => Server.initialised desktop (some answer),
      Client.finished choice (.done x509Mode),[],[]⟩
      ⟨.ended (.connected answer),.ended (.connected (sessionOf desktop choice x509Mode desktop.name)),[],[]⟩ := by
  obtain ⟨bits,red,green,blue⟩ := accepted
  refine initialisationSent choice x509Mode success ?_
  rw [if_neg (by simp [bits]),if_neg (by simp [red,green,blue])]
  simp only [recvIntBE32,recvData,Party.hear,Party.hearsBind,Party.endedBind]
  refine leadsHearsRight (bytesBE32 (UInt32.ofNat desktop.name.length)) desktop.name rfl ?_
  rw [intBytesBE32,UInt32.toNat_ofNat_of_lt' named]
  exact leadsHearsAllRight rfl .refl

theorem initialisationRefused (choice : UInt8) (x509Mode : Option Bool) {answer : Answer}
    (success : answer.verdict = .returned true) (refused : ¬Accepted desktop.format) :
    Leads ⟨sendIntBE32 securityResultOk >>= fun _ => Server.initialised desktop (some answer),
      Client.finished choice (.done x509Mode),[],[]⟩
      ⟨.ended (.connected answer),.ended .refused,[],
        bytesBE32 (UInt32.ofNat desktop.name.length) ++ desktop.name⟩ := by
  refine initialisationSent choice x509Mode success ?_
  by_cases bits : Client.knownBits desktop.format.bitsPerPixel = true
  · rw [if_neg (by simp [bits]),if_pos]
    · exact .refl
    · by_contra all
      push Not at all
      exact refused ⟨bits,all⟩
  · rw [if_pos (by simpa using bits)]
    exact .refl

/- The server goes on with the type it has read. -/
def chosen (desktop : Desktop) (choice : UInt8) (answer : Option Answer) : Talk ServerEnd :=
  Server.initialised desktop (answer.map fun answer => {answer with choice := some choice})

theorem offeredSome (host : SecurityHost) (secInfo : SecurityInfo) (offered : offeredTypes host secInfo ≠ []) :
    UInt8.ofNat (offeredTypes host secInfo).length ≠ 0 ∧
      (UInt8.ofNat (offeredTypes host secInfo).length).toNat = (offeredTypes host secInfo).length := by
  revert offered
  unfold offeredTypes
  cases secInfo.authVenCrypt <;> cases secInfo.authVnc <;> cases host.noVncMode <;> cases secInfo.authNone <;> decide

/- Nothing is on offer: the client waits for a reason. -/
theorem nothingOffered (nothing : offeredTypes host.toSecurityHost secInfo = []) :
    Leads (start host secInfo desktop client sec) ⟨.ended .refused,Client.recvError,[],[]⟩ := by
  refine versionsAgree ?_
  rw [Server.serverSecurityInit,if_neg (by decide),if_pos nothing]
  simp only [sendInt8,sendData,Party.say,recvInt8,Party.tellsBind,Party.hearsBind,Party.endedBind]
  exact leadsTellsLeft (leadsHearsRight [0] [] rfl .refl)

theorem offerTaken (offered : offeredTypes host.toSecurityHost secInfo ≠ [])
    (later : Leads ⟨recvInt8 >>= fun choice => Server.chosenSecurity host 38 secInfo choice >>= chosen desktop choice,
      Client.takeOffer client sec (offeredTypes host.toSecurityHost secInfo),[],[]⟩ e) :
    Leads (start host secInfo desktop client sec) e := by
  obtain ⟨nonzero,whole⟩ := offeredSome host.toSecurityHost secInfo offered
  refine versionsAgree ?_
  rw [Server.serverSecurityInit,if_neg (by decide),if_neg offered]
  simp only [sendInt8,sendData,Party.say,recvInt8,recvData,Party.hear,Party.tellsBind,Party.hearsBind,Party.endedBind,
    Party.bindAssoc]
  refine leadsTellsLeft (leadsHearsRight [UInt8.ofNat (offeredTypes host.toSecurityHost secInfo).length] [] rfl ?_)
  rw [List.headD_cons,if_neg nonzero]
  refine leadsTellsLeft (leadsHearsAllRight whole.symm ?_)
  exact later

theorem offerRefused (offered : offeredTypes host.toSecurityHost secInfo ≠ [])
    (nothing : Client.chooseSecurity client sec (offeredTypes host.toSecurityHost secInfo) = none) :
    Leads (start host secInfo desktop client sec) ⟨recvInt8 >>= fun choice =>
      Server.chosenSecurity host 38 secInfo choice >>= chosen desktop choice,.ended .refused,[],[]⟩ := by
  refine offerTaken offered ?_
  rw [Client.takeOffer,nothing]
  exact .refl

theorem typeChosen {choice : UInt8}
    (takes : Client.chooseSecurity client sec (offeredTypes host.toSecurityHost secInfo) = some choice)
    (later : Leads ⟨Server.chosenSecurity host 38 secInfo choice >>= chosen desktop choice,
      Client.authenticate client sec choice >>= Client.finished choice,[],[]⟩ e) :
    Leads (start host secInfo desktop client sec) e := by
  have offered : offeredTypes host.toSecurityHost secInfo ≠ [] := by
    intro nothing
    rw [nothing] at takes
    simp [Client.chooseSecurity] at takes
  refine offerTaken offered ?_
  rw [Client.takeOffer,takes]
  simp only [sendInt8,sendData,Party.say,recvInt8,Party.tellsBind,Party.hearsBind,Party.endedBind]
  exact leadsTellsRight (leadsHearsLeft [choice] [] rfl later)

/- A dialogue that is over, or stuck, without a session for the client. -/
def Apart (e : Handshake) : Prop := e.Rests ∧ ∀ session, e.right ≠ .ended (.connected session)

theorem apartEnded {left : Talk ServerEnd} {toLeft toRight : List UInt8} {result : ClientEnd}
    (waits : Waits left toLeft) (other : ∀ session, result ≠ .connected session) :
    Apart ⟨left,.ended result,toLeft,toRight⟩ :=
  ⟨(restsIff _).mpr ⟨waits,trivial⟩,fun session same => other session (Party.ended.inj same)⟩

theorem apartWaits {left : Talk ServerEnd} {toLeft toRight : List UInt8} {count : Nat} {next : List UInt8 → Talk ClientEnd}
    (waits : Waits left toLeft) (short : toRight.length < count) :
    Apart ⟨left,.hears count next,toLeft,toRight⟩ :=
  ⟨(restsIff _).mpr ⟨waits,short⟩,fun _ same => nomatch same⟩

/- An error is read with its text. -/
theorem errorHeard (left : Talk ServerEnd) (choice : UInt8) (x509Mode : Option Bool)
    (text rest : List UInt8) (short : text.length < 4294967296) :
    Leads ⟨left,Client.finished choice (.done x509Mode),[],
      bytesBE32 securityResultErr ++ (bytesBE32 (UInt32.ofNat text.length) ++ (text ++ rest))⟩
      ⟨left,.ended .refused,[],rest⟩ := by
  simp only [Client.finished,Client.recvError,recvIntBE32,recvData,Party.hear,Party.hearsBind,Party.endedBind]
  refine leadsHearsRight (bytesBE32 securityResultErr) _ rfl ?_
  rw [intBytesBE32,if_pos (by decide)]
  refine leadsHearsRight (bytesBE32 (UInt32.ofNat text.length)) _ rfl ?_
  rw [intBytesBE32,UInt32.toNat_ofNat_of_lt' short]
  exact leadsHearsRight text rest rfl .refl

/- The response is one of a password in the file. -/
def PasswordKnown (host : SecurityHost) (secInfo : SecurityInfo) (client : ClientHost) (sec : ClientInfo) : Prop :=
  ∃ crypt, client.encryptDES host.randomBytes sec.passwdFile.toUTF8.data.toList = some crypt ∧
    matchPassword host.encryptDES host.randomBytes crypt (Server.passwords host secInfo.passwdFile) = some true

/- What has to go well for a type at both ends, with the mode and the session of a TLS layer. -/
inductive Passes (host : ServerHost) (secInfo : SecurityInfo) (client : ClientHost) (sec : ClientInfo) :
    UInt8 → Option Bool → Option Session → Prop
  | none : Passes host secInfo client sec securityTypeNone none none
  | vnc (defined : secInfo.passwdFile ≠ "") (present : host.fileExists secInfo.passwdFile = true)
      (known : PasswordKnown host.toSecurityHost secInfo client sec) :
      Passes host secInfo client sec securityTypeVnc none none
  | vencrypt (x509Mode : Bool) (session : Session) (wanted : sec.tlsAnonMode = !x509Mode)
      (supported : x509Mode = true → secInfo.tlsAnonMode = false ∧ FilesExist host.toHost secInfo)
      (opened : openSession host.toHost secInfo x509Mode = some (some session))
      (shook : client.sslHandshake x509Mode = true) :
      Passes host secInfo client sec securityTypeVencrypt (some x509Mode) (some session)

def passed (choice : UInt8) (tls : Option Session) : Answer :=
  {verdict := .returned true, tls := tls, choice := some choice}

/- A type passes in one way at most. -/
theorem passesUnique {choice : UInt8} {x509Mode mode : Option Bool} {tls session : Option Session}
    (one : Passes host secInfo client sec choice x509Mode tls) (other : Passes host secInfo client sec choice mode session) :
    x509Mode = mode ∧ tls = session := by
  cases one with
  | none =>
    cases other
    exact ⟨rfl,rfl⟩
  | vnc =>
    cases other
    exact ⟨rfl,rfl⟩
  | vencrypt x509 first wanted _ opened _ =>
    cases other with
    | vencrypt mode second also _ reopened _ =>
      have same : x509 = mode := Bool.not_inj (wanted.symm.trans also)
      subst same
      cases Option.some.inj (Option.some.inj (opened.symm.trans reopened))
      exact ⟨rfl,rfl⟩

/- The server says that the client has passed. -/
def letIn (desktop : Desktop) (choice : UInt8) (x509Mode : Option Bool) (tls : Option Session) : Handshake :=
  ⟨sendIntBE32 securityResultOk >>= fun _ =>
      Server.initialised desktop (some (passed choice tls)),
    Client.finished choice (.done x509Mode),[],[]⟩

/- Where the two ends are once the type is chosen. -/
def choosing (host : ServerHost) (secInfo : SecurityInfo) (desktop : Desktop) (client : ClientHost) (sec : ClientInfo)
    (choice : UInt8) : Handshake :=
  ⟨Server.chosenSecurity host 38 secInfo choice >>= chosen desktop choice,
    Client.authenticate client sec choice >>= Client.finished choice,[],[]⟩

/- Both ends wait for the length of a token, or one of them has given up. -/
theorem gssapiApart : Apart (choosing host secInfo desktop client sec securityTypeGssapi) := by
  have left : Waits (choosing host secInfo desktop client sec securityTypeGssapi).left [] := by
    rw [choosing,Server.chosenSecurity,if_pos (.inl rfl),if_neg (fun both => absurd both.1 (by decide)),
      if_neg (fun both => absurd both.1 (by decide)),if_neg (fun both => absurd both.1 (by decide)),if_pos rfl,
      Server.gssapiSecurity]
    by_cases acquires : host.kerberos.acquires = false
    · rw [if_pos acquires]
      trivial
    · rw [if_neg acquires]
      exact Nat.zero_lt_succ 3
  rw [choosing] at left ⊢
  rw [Client.authenticate,if_pos rfl,Client.authGssApiInit]
  by_cases lost : sec.krb5Name ≠ "" ∧ client.ticket = false
  · rw [if_pos lost]
    exact apartEnded left (fun _ => ClientEnd.noConfusion)
  rw [if_neg lost,Client.connectService]
  by_cases service : client.serviceName = false
  · rw [if_pos service]
    exact apartEnded left (fun _ => ClientEnd.noConfusion)
  rw [if_neg service]
  by_cases token : client.token = []
  · rw [if_pos token]
    cases client.initiator with
    | complete => exact apartWaits left (Nat.zero_lt_succ 3)
    | failed => exact apartEnded left (fun _ => ClientEnd.noConfusion)
    | continues answer next => exact apartWaits left (Nat.zero_lt_succ 3)
  · rw [if_neg token]
    exact apartWaits left (Nat.zero_lt_succ 3)

theorem nonePasses (enabled : secInfo.authNone = true) :
    Leads (choosing host secInfo desktop client sec securityTypeNone) (letIn desktop securityTypeNone none none) := by
  rw [choosing,Server.chosenSecurity,if_pos (.inl rfl),if_pos ⟨rfl,enabled⟩,Client.authenticate,
    if_neg (by decide),if_neg (by decide),if_neg (by decide)]
  exact .refl

/- The client answers the challenge with as many bytes. -/
theorem challengeAnswered {next : List UInt8 → Talk ServerEnd} {bytes crypt : List UInt8} (challenge : bytes.length = 16)
    (padding : crypt.length = bytes.length)
    (encrypted : client.encryptDES bytes sec.passwdFile.toUTF8.data.toList = some crypt)
    (later : Leads ⟨next crypt,Client.finished securityTypeVnc (.done none),[],[]⟩ e) :
    Leads ⟨.tells bytes (.hears 16 next),
      Client.authVncInit client sec.passwdFile.toUTF8.data.toList >>= Client.finished securityTypeVnc,[],[]⟩ e := by
  simp only [Client.authVncInit,sendData,recvData,Party.say,Party.hear,Party.hearsBind,Party.endedBind]
  refine leadsTellsLeft (leadsHearsAllRight challenge ?_)
  rw [List.nil_append,encrypted]
  refine leadsTellsRight (leadsHearsAllLeft (padding.trans challenge) ?_)
  exact later

theorem challengeRefused {next : List UInt8 → Talk ServerEnd} {bytes : List UInt8} (challenge : bytes.length = 16)
    (raised : client.encryptDES bytes sec.passwdFile.toUTF8.data.toList = none) :
    Leads ⟨.tells bytes (.hears 16 next),
      Client.authVncInit client sec.passwdFile.toUTF8.data.toList >>= Client.finished securityTypeVnc,[],[]⟩
      ⟨.hears 16 next,.ended .raised,[],[]⟩ := by
  simp only [Client.authVncInit,sendData,recvData,Party.say,Party.hear,Party.hearsBind,Party.endedBind]
  refine leadsTellsLeft (leadsHearsAllRight challenge ?_)
  rw [List.nil_append,raised]
  exact .refl

/- The server's answer once it has looked through the passwords. -/
def vncAnswered (desktop : Desktop) : Option Bool → Talk ServerEnd
  | none => pure .raised
  | some true => sendIntBE32 securityResultOk >>= fun _ =>
      Server.initialised desktop (some {verdict := .returned true, choice := some securityTypeVnc})
  | some false => Server.sendSecurityError "password mismatch" >>= fun _ =>
      sendIntBE32 securityResultErr >>= fun _ => sendIntBE32 0 >>= fun _ => pure .refused

theorem vncChallenged (enabled : secInfo.authVnc = true) (defined : secInfo.passwdFile ≠ "")
    (present : host.fileExists secInfo.passwdFile = true) :
    choosing host secInfo desktop client sec securityTypeVnc =
      ⟨.tells host.randomBytes (.hears 16 fun response => vncAnswered desktop
        (matchPassword host.encryptDES host.randomBytes response (Server.passwords host.toSecurityHost secInfo.passwdFile))),
        Client.authVncInit client sec.passwdFile.toUTF8.data.toList >>= Client.finished securityTypeVnc,[],[]⟩ := by
  rw [choosing,Server.chosenSecurity,if_pos (.inl rfl),if_neg (fun both => absurd both.1 (by decide)),
    if_pos ⟨rfl,enabled⟩,Client.authenticate,if_neg (by decide),if_neg (by decide),if_pos rfl,
    Server.vncSecurity,if_neg (by simp [defined,present])]
  simp only [Server.authVncInit,sendData,recvData,Party.say,Party.hear,Party.tellsBind,Party.hearsBind,Party.endedBind,
    Party.bindAssoc]
  congr 2
  refine congrArg (Party.hears 16) (funext fun response => ?_)
  generalize matchPassword host.encryptDES host.randomBytes response
    (Server.passwords host.toSecurityHost secInfo.passwdFile) = found
  rcases found with _ | _ | _ <;> rfl

section
variable (challenge : host.randomBytes.length = 16)
  (padding : ∀ data password crypt, client.encryptDES data password = some crypt → crypt.length = data.length)
include challenge padding

theorem vncPasses (enabled : secInfo.authVnc = true) (defined : secInfo.passwdFile ≠ "")
    (present : host.fileExists secInfo.passwdFile = true)
    (known : PasswordKnown host.toSecurityHost secInfo client sec) :
    Leads (choosing host secInfo desktop client sec securityTypeVnc) (letIn desktop securityTypeVnc none none) := by
  obtain ⟨crypt,encrypted,found⟩ := known
  rw [vncChallenged enabled defined present]
  refine challengeAnswered challenge (padding _ _ _ encrypted) encrypted ?_
  rw [found]
  exact .refl

theorem vncApart (enabled : secInfo.authVnc = true)
    (fails : ¬(secInfo.passwdFile ≠ "" ∧ host.fileExists secInfo.passwdFile = true ∧
      PasswordKnown host.toSecurityHost secInfo client sec)) :
    ∃ e, Leads (choosing host secInfo desktop client sec securityTypeVnc) e ∧ Apart e := by
  by_cases file : secInfo.passwdFile = "" ∨ host.fileExists secInfo.passwdFile = false
  -- the client still waits for the challenge
  · rw [choosing,Server.chosenSecurity,if_pos (.inl rfl),if_neg (fun both => absurd both.1 (by decide)),
      if_pos ⟨rfl,enabled⟩,Client.authenticate,if_neg (by decide),if_neg (by decide),if_pos rfl,
      Server.vncSecurity,if_pos file]
    simp only [sendIntBE32,sendData,Party.say,Party.tellsBind,Party.endedBind]
    refine ⟨_,leadsTellsLeft (leadsTellsLeft .refl),?_⟩
    exact apartWaits trivial (by decide)
  rw [not_or,Bool.not_eq_false] at file
  rw [vncChallenged enabled file.1 file.2]
  cases encrypted : client.encryptDES host.randomBytes sec.passwdFile.toUTF8.data.toList with
  | none =>
    exact ⟨_,challengeRefused challenge encrypted,apartEnded (Nat.zero_lt_succ 15) (fun _ => ClientEnd.noConfusion)⟩
  | some crypt =>
    have answered {next : List UInt8 → Talk ServerEnd} {e : Handshake} :=
      @challengeAnswered client sec e next _ crypt challenge (padding _ _ _ encrypted) encrypted
    rcases found : matchPassword host.encryptDES host.randomBytes crypt
      (Server.passwords host.toSecurityHost secInfo.passwdFile) with _ | _ | _
    · refine ⟨⟨.ended .raised,Client.finished securityTypeVnc (.done none),[],[]⟩,answered ?_,
        apartWaits trivial (Nat.zero_lt_succ 3)⟩
      rw [found]
      exact .refl
    · have heard := errorHeard (.ended .refused) securityTypeVnc none "password mismatch".toUTF8.data.toList
        (bytesBE32 securityResultErr ++ bytesBE32 0) (by decide)
      refine ⟨⟨.ended .refused,.ended .refused,[],bytesBE32 securityResultErr ++ bytesBE32 0⟩,answered ?_,
        apartEnded trivial (fun _ => ClientEnd.noConfusion)⟩
      rw [found]
      refine leadsTellsLeft (leadsTellsLeft (leadsTellsLeft (leadsTellsLeft (leadsTellsLeft ?_))))
      exact heard
    · exact absurd ⟨file.1,file.2,crypt,encrypted,found⟩ fails

end

/- Both ends are at version 0.2, and the client has the modes of the server. -/
theorem typesTold {next : Option Bool → Talk ServerEnd} {back : Auth → Talk ClientEnd}
    (later : Leads ⟨recvIntBE32 >>= fun mode =>
        next (x509Choice secInfo vencrypt02TlsNone vencrypt02X509None mode),
      Client.takeTypes client sec (if secInfo.tlsAnonMode then [vencrypt02TlsNone]
        else [vencrypt02TlsNone,vencrypt02X509None]) >>= back,[],[]⟩ e) :
    Leads ⟨Server.venCryptMode secInfo >>= next,Client.authVenCryptInit client sec >>= back,[],[]⟩ e := by
  simp only [Server.venCryptMode,Client.authVenCryptInit,sendInt8,sendIntBE32,sendData,Party.say,recvInt8,
    recvIntBE32,Party.tellsBind,Party.hearsBind,Party.endedBind]
  refine leadsTellsLeft (leadsTellsLeft (leadsHearsRight [0] [2] rfl (leadsHearsRight [2] [] rfl ?_)))
  refine leadsTellsRight (leadsTellsRight (leadsHearsLeft [0] [2] rfl (leadsHearsLeft [2] [] rfl ?_)))
  have supported : ¬(([0] : List UInt8).headD 0 ≠ 0 ∨ ([2] : List UInt8).headD 0 < 1 ∨ 2 < ([2] : List UInt8).headD 0) := by
    decide
  have newer : ¬([2] : List UInt8).headD 0 = 1 := by decide
  have zero : ¬([0] : List UInt8).headD 0 ≠ 0 := by decide
  rw [if_neg supported]
  refine leadsTellsLeft (leadsHearsRight [0] [] rfl ?_)
  rw [if_neg newer,if_neg zero]
  cases anon : secInfo.tlsAnonMode with
  | true =>
    rw [anon,if_pos rfl] at later
    rw [if_pos rfl]
    refine leadsTellsLeft (leadsHearsRight [1] [] rfl ?_)
    refine leadsTellsLeft (leadsHearsRight (bytesBE32 vencrypt02TlsNone) [] rfl ?_)
    exact later
  | false =>
    rw [anon,if_neg (by decide)] at later
    rw [if_neg (by decide)]
    refine leadsTellsLeft (leadsHearsRight [2] [] rfl ?_)
    refine leadsTellsLeft (leadsHearsRight (bytesBE32 vencrypt02TlsNone) [] rfl ?_)
    refine leadsTellsLeft (leadsHearsRight (bytesBE32 vencrypt02X509None) [] rfl ?_)
    exact later

/- The client has no use for the modes, and the server waits for its choice. -/
theorem modeRefused {next : Option Bool → Talk ServerEnd} {back : Auth → Talk ClientEnd}
    (wanted : sec.tlsAnonMode = false) (anon : secInfo.tlsAnonMode = true) :
    Leads ⟨Server.venCryptMode secInfo >>= next,Client.authVenCryptInit client sec >>= back,[],[]⟩
      ⟨recvIntBE32 >>= fun mode => next (x509Choice secInfo vencrypt02TlsNone vencrypt02X509None mode),
        back .failed,[],[]⟩ := by
  refine typesTold ?_
  rw [anon,if_pos rfl,Client.takeTypes,wanted,if_neg (by decide),if_pos (by decide)]
  exact .refl

/- Both ends know the mode, and the client waits for the server to be ready. -/
theorem modeAgreed {next : Option Bool → Talk ServerEnd} {back : Auth → Talk ClientEnd} {x509Mode : Bool}
    (wanted : sec.tlsAnonMode = !x509Mode) (agreed : x509Mode = true → secInfo.tlsAnonMode = false)
    (later : Leads ⟨next (some x509Mode),recvInt8 >>= fun status =>
        (if status = 0 then pure .failed
        else if client.sslHandshake x509Mode then pure (.done (some x509Mode)) else pure .failed) >>= back,[],[]⟩ e) :
    Leads ⟨Server.venCryptMode secInfo >>= next,Client.authVenCryptInit client sec >>= back,[],[]⟩ e := by
  refine typesTold ?_
  cases x509Mode with
  | false =>
    have offered : vencrypt02TlsNone ∈ (if secInfo.tlsAnonMode then [vencrypt02TlsNone]
        else [vencrypt02TlsNone,vencrypt02X509None]) := by
      cases secInfo.tlsAnonMode <;> decide
    have mode : x509Choice secInfo vencrypt02TlsNone vencrypt02X509None (intBE32 (bytesBE32 vencrypt02TlsNone)) =
        some false := by
      rw [intBytesBE32,x509Choice,if_pos rfl]
    rw [Client.takeTypes,wanted,Bool.not_false,if_pos rfl,if_neg (not_not.mpr offered)]
    refine leadsTellsRight (leadsHearsLeft (bytesBE32 vencrypt02TlsNone) [] rfl ?_)
    change Leads ⟨next (x509Choice secInfo _ _ (intBE32 (bytesBE32 vencrypt02TlsNone))),_,[],[]⟩ e
    rw [mode]
    exact later
  | true =>
    have server := agreed rfl
    have mode : x509Choice secInfo vencrypt02TlsNone vencrypt02X509None (intBE32 (bytesBE32 vencrypt02X509None)) =
        some true := by
      rw [intBytesBE32,x509Choice,if_neg (by decide),if_pos rfl,server,if_neg (by decide)]
    rw [Client.takeTypes,wanted,server,Bool.not_true,if_neg (by decide),if_neg (by decide)]
    refine leadsTellsRight (leadsHearsLeft (bytesBE32 vencrypt02X509None) [] rfl ?_)
    change Leads ⟨next (x509Choice secInfo _ _ (intBE32 (bytesBE32 vencrypt02X509None))),_,[],[]⟩ e
    rw [mode]
    exact later

theorem choosingTLS (enabled : secInfo.authVenCrypt = true) :
    choosing host secInfo desktop client sec securityTypeVencrypt =
      ⟨Server.venCryptMode secInfo >>= fun mode => Server.openTLS host.toHost secInfo mode >>= fun init =>
          Server.tlsOpened init >>= chosen desktop securityTypeVencrypt,
        Client.authVenCryptInit client sec >>= Client.finished securityTypeVencrypt,[],[]⟩ := by
  rw [choosing,Server.chosenSecurity,if_pos (.inl rfl),if_neg (fun both => absurd both.1 (by decide)),
    if_neg (fun both => absurd both.1 (by decide)),if_pos ⟨rfl,enabled⟩,Client.authenticate,if_neg (by decide),
    if_pos rfl,Server.vencryptSecurity,Server.authVenCryptInit]
  simp only [Party.bindAssoc]

/- The server is ready, and both ends are in their TLS handshakes. -/
theorem tlsReady (enabled : secInfo.authVenCrypt = true) {x509Mode : Bool} (wanted : sec.tlsAnonMode = !x509Mode)
    (supported : x509Mode = true → secInfo.tlsAnonMode = false ∧ FilesExist host.toHost secInfo)
    (later : Leads ⟨(match openSession host.toHost secInfo x509Mode with
        | none => pure none
        | some none => pure (some (false,none))
        | some (some session) => pure (some (true,some session)) : Talk (Option (Bool × Option Session))) >>= fun init =>
          Server.tlsOpened init >>= chosen desktop securityTypeVencrypt,
      (if client.sslHandshake x509Mode then pure (.done (some x509Mode)) else pure .failed) >>=
        Client.finished securityTypeVencrypt,[],[]⟩ e) :
    Leads (choosing host secInfo desktop client sec securityTypeVencrypt) e := by
  rw [choosingTLS enabled]
  refine modeAgreed wanted (fun x509 => (supported x509).1) ?_
  rw [Server.openTLS,if_neg (fun missing => missing.2 (supported missing.1).2)]
  refine leadsTellsLeft (leadsHearsRight [1] [] rfl ?_)
  exact later

theorem vencryptPasses (enabled : secInfo.authVenCrypt = true) {x509Mode : Bool} {session : Session}
    (wanted : sec.tlsAnonMode = !x509Mode)
    (supported : x509Mode = true → secInfo.tlsAnonMode = false ∧ FilesExist host.toHost secInfo)
    (opened : openSession host.toHost secInfo x509Mode = some (some session))
    (shook : client.sslHandshake x509Mode = true) :
    Leads (choosing host secInfo desktop client sec securityTypeVencrypt)
      (letIn desktop securityTypeVencrypt (some x509Mode) (some session)) := by
  refine tlsReady enabled wanted supported ?_
  rw [opened,if_pos shook]
  exact .refl

theorem vencryptApart (enabled : secInfo.authVenCrypt = true)
    (fails : ∀ x509Mode session, ¬Passes host secInfo client sec securityTypeVencrypt (some x509Mode) (some session)) :
    ∃ e, Leads (choosing host secInfo desktop client sec securityTypeVencrypt) e ∧ Apart e := by
  obtain ⟨x509Mode,wanted⟩ : ∃ x509Mode, sec.tlsAnonMode = !x509Mode := ⟨!sec.tlsAnonMode,(Bool.not_not _).symm⟩
  by_cases anon : x509Mode = true ∧ secInfo.tlsAnonMode = true
  · rw [choosingTLS enabled]
    exact ⟨_,modeRefused (by rw [wanted,anon.1]; rfl) anon.2,
      apartEnded (Nat.zero_lt_succ 3) (fun _ => ClientEnd.noConfusion)⟩
  have agreed : x509Mode = true → secInfo.tlsAnonMode = false := by
    intro x509
    by_contra other
    exact anon ⟨x509,by simpa using other⟩
  by_cases missing : x509Mode = true ∧ ¬FilesExist host.toHost secInfo
  · rw [choosingTLS enabled]
    refine ⟨⟨.ended .refused,.ended .refused,[],bytesBE32 securityResultErr ++ bytesBE32 0⟩,
      modeAgreed wanted agreed ?_,apartEnded trivial (fun _ => ClientEnd.noConfusion)⟩
    rw [Server.openTLS,if_pos missing]
    refine leadsTellsLeft (leadsHearsRight [0] [] rfl ?_)
    exact leadsTellsLeft (leadsTellsLeft .refl)
  have supported : x509Mode = true → secInfo.tlsAnonMode = false ∧ FilesExist host.toHost secInfo := by
    intro x509
    refine ⟨agreed x509,?_⟩
    by_contra lost
    exact missing ⟨x509,lost⟩
  have ready {e : Handshake} := @tlsReady host secInfo desktop client sec e enabled x509Mode wanted supported
  rcases opened : openSession host.toHost secInfo x509Mode with _ | _ | session <;>
    cases shook : client.sslHandshake x509Mode
  · refine ⟨⟨.ended .handshaking,.ended .refused,[],[]⟩,ready ?_,
      apartEnded trivial (fun _ => ClientEnd.noConfusion)⟩
    rw [opened,shook]
    exact .refl
  · refine ⟨⟨.ended .handshaking,Client.finished securityTypeVencrypt (.done (some x509Mode)),[],[]⟩,ready ?_,
      apartWaits trivial (Nat.zero_lt_succ 3)⟩
    rw [opened,shook]
    exact .refl
  · refine ⟨⟨.ended .refused,.ended .refused,[],bytesBE32 securityResultErr ++ bytesBE32 0⟩,ready ?_,
      apartEnded trivial (fun _ => ClientEnd.noConfusion)⟩
    rw [opened,shook]
    exact leadsTellsLeft (leadsTellsLeft .refl)
  · refine ⟨⟨.ended .refused,.ended .refused,[],[]⟩,ready ?_,apartEnded trivial (fun _ => ClientEnd.noConfusion)⟩
    rw [opened,shook]
    refine leadsTellsLeft (leadsTellsLeft ?_)
    exact errorHeard (.ended .refused) securityTypeVencrypt (some x509Mode) [] [] (by decide)
  -- the server takes its handshake for granted, and waits for the client to go on
  · refine ⟨⟨Server.initialised desktop (some (passed securityTypeVencrypt (some session))),.ended .refused,[],
        bytesBE32 securityResultOk⟩,ready ?_,
      apartEnded (Nat.zero_lt_succ 0) (fun _ => ClientEnd.noConfusion)⟩
    rw [opened,shook]
    exact leadsTellsLeft .refl
  · exact absurd (.vencrypt x509Mode session wanted supported opened shook) (fails x509Mode session)

/- What the client takes is on offer, and then enabled at the server. -/
theorem chosenEnabled {choice : UInt8}
    (takes : Client.chooseSecurity client sec (offeredTypes host.toSecurityHost secInfo) = some choice) :
    choice = securityTypeGssapi ∨ (choice = securityTypeVencrypt ∧ secInfo.authVenCrypt = true) ∨
      (choice = securityTypeVnc ∧ secInfo.authVnc = true) ∨ (choice = securityTypeNone ∧ secInfo.authNone = true) := by
  have vencrypt : securityTypeVencrypt ∈ offeredTypes host.toSecurityHost secInfo → secInfo.authVenCrypt = true := by
    unfold offeredTypes
    cases secInfo.authVenCrypt <;> cases secInfo.authVnc <;> cases host.noVncMode <;> cases secInfo.authNone <;> decide
  have vnc : securityTypeVnc ∈ offeredTypes host.toSecurityHost secInfo → secInfo.authVnc = true := by
    unfold offeredTypes
    cases secInfo.authVenCrypt <;> cases secInfo.authVnc <;> cases host.noVncMode <;> cases secInfo.authNone <;> decide
  have none : securityTypeNone ∈ offeredTypes host.toSecurityHost secInfo → secInfo.authNone = true := by
    unfold offeredTypes
    cases secInfo.authVenCrypt <;> cases secInfo.authVnc <;> cases host.noVncMode <;> cases secInfo.authNone <;> decide
  unfold Client.chooseSecurity at takes
  split at takes
  · exact .inl (Option.some.inj takes).symm
  split at takes
  · rename_i both
    exact .inr (.inl ⟨(Option.some.inj takes).symm,vencrypt both.2⟩)
  split at takes
  · rename_i both
    split at takes
    · cases takes
    · exact .inr (.inr (.inl ⟨(Option.some.inj takes).symm,vnc both.2⟩))
  split at takes
  · rename_i both
    exact .inr (.inr (.inr ⟨(Option.some.inj takes).symm,none both.2⟩))
  · cases takes

/- The client gets a session of this type. -/
def Connects (host : ServerHost) (secInfo : SecurityInfo) (desktop : Desktop) (client : ClientHost) (sec : ClientInfo)
    (choice : UInt8) (x509Mode : Option Bool) (tls : Option Session) : Prop :=
  Client.chooseSecurity client sec (offeredTypes host.toSecurityHost secInfo) = some choice ∧
    Passes host secInfo client sec choice x509Mode tls ∧ Accepted desktop.format

/- Both are through, and nothing is left on either stream. -/
def connected (desktop : Desktop) (choice : UInt8) (x509Mode : Option Bool) (tls : Option Session) : Handshake :=
  ⟨.ended (.connected (passed choice tls)),.ended (.connected (sessionOf desktop choice x509Mode desktop.name)),[],[]⟩

theorem connectedRests (desktop : Desktop) (choice : UInt8) (x509Mode : Option Bool) (tls : Option Session) :
    Rests (connected desktop choice x509Mode tls) :=
  (restsIff _).mpr ⟨trivial,trivial⟩

theorem connectedInj {choice other : UInt8} {x509Mode mode : Option Bool} {tls session : Option Session}
    (same : connected desktop choice x509Mode tls = connected desktop other mode session) :
    choice = other ∧ x509Mode = mode ∧ tls = session := by
  have server := ServerEnd.connected.inj (Party.ended.inj (congrArg Dialogue.left same))
  have client := ClientEnd.connected.inj (Party.ended.inj (congrArg Dialogue.right same))
  exact ⟨congrArg ClientSession.choice client,congrArg ClientSession.x509Mode client,congrArg Answer.tls server⟩

/- A client with a ticket takes kerberos, and both ends then wait for four bytes of the other: the
client reads over the length it should send. Every order of the turns ends there. -/
theorem ticketDeadlocks (wanted : sec.authKrb5 = true) (ticket : client.ticket = true)
    (service : client.serviceName = true) (token : client.token ≠ [])
    (offers : host.noVncMode = false) (acquires : host.kerberos.acquires = true) :
    ∃ left right, ∀ d, Leads (start host secInfo desktop client sec) d →
      Leads d ⟨.hears 4 left,.hears 4 right,[],[]⟩ := by
  have offered : securityTypeGssapi ∈ offeredTypes host.toSecurityHost secInfo := by
    unfold offeredTypes
    rw [offers]
    cases secInfo.authVenCrypt <;> cases secInfo.authVnc <;> cases secInfo.authNone <;> decide
  have takes : Client.chooseSecurity client sec (offeredTypes host.toSecurityHost secInfo) =
      some securityTypeGssapi := by
    rw [Client.chooseSecurity,if_pos ⟨wanted,offered,ticket⟩]
  have ends : Leads (start host secInfo desktop client sec)
      (choosing host secInfo desktop client sec securityTypeGssapi) := typeChosen takes .refl
  obtain ⟨left,waits⟩ : ∃ left, (choosing host secInfo desktop client sec securityTypeGssapi).left = .hears 4 left := by
    rw [choosing,Server.chosenSecurity,if_pos (.inl rfl),if_neg (fun both => absurd both.1 (by decide)),
      if_neg (fun both => absurd both.1 (by decide)),if_neg (fun both => absurd both.1 (by decide)),if_pos rfl,
      Server.gssapiSecurity,if_neg (by simp [acquires])]
    exact ⟨_,rfl⟩
  obtain ⟨right,also⟩ : ∃ right, (choosing host secInfo desktop client sec securityTypeGssapi).right = .hears 4 right := by
    rw [choosing,Client.authenticate,if_pos rfl,Client.authGssApiInit,if_neg (by simp [ticket]),
      Client.connectService,if_neg (by simp [service]),if_neg token]
    exact ⟨_,rfl⟩
  have whole : choosing host secInfo desktop client sec securityTypeGssapi = ⟨.hears 4 left,.hears 4 right,[],[]⟩ := by
    rw [← waits,← also]
    rfl
  rw [whole] at ends
  exact ⟨left,right,fun d leads => restReached ends
    ((restsIff _).mpr ⟨Nat.zero_lt_succ 3,Nat.zero_lt_succ 3⟩) leads⟩

def plainHost : ServerHost where
  fileExists := fun _ => false
  sessionFileExists := fun _ => false
  anonSetup := fun _ => true
  x509Setup := fun _ _ _ _ _ => true
  isFatal := fun _ => true
  handshakes := []
  noVncMode := false
  randomBytes := List.replicate 16 7
  passwdText := fun _ => none
  encryptDES := fun data _ => some data
  kerberos := ⟨true,some true,"eve@REALM",.absent,0⟩
  answer := fun _ => []
  next := fun _ => .complete
  security := pure .absent
def plainDesktop : Desktop := ⟨[88],640,480,24,⟨32,255,255,255,16,8,0⟩,false⟩
def plainClient : ClientHost := ⟨true,true,[96],.complete,fun data _ => some data,fun _ => true⟩

theorem ticketStands : ∃ left right, ∀ d,
    Leads (start plainHost {authNone := true} plainDesktop plainClient {authNone := true, authKrb5 := true}) d →
      Leads d ⟨.hears 4 left,.hears 4 right,[],[]⟩ :=
  ticketDeadlocks rfl rfl rfl (by decide) rfl rfl

section
variable (challenge : host.randomBytes.length = 16)
  (padding : ∀ data password crypt, client.encryptDES data password = some crypt → crypt.length = data.length)
include challenge padding

/- The type is let in, or the dialogue comes to rest before that. -/
theorem choiceDecides {choice : UInt8}
    (takes : Client.chooseSecurity client sec (offeredTypes host.toSecurityHost secInfo) = some choice) :
    (∃ x509Mode tls, Passes host secInfo client sec choice x509Mode tls ∧
      Leads (choosing host secInfo desktop client sec choice) (letIn desktop choice x509Mode tls)) ∨
    ((∀ x509Mode tls, ¬Passes host secInfo client sec choice x509Mode tls) ∧
      ∃ e, Leads (choosing host secInfo desktop client sec choice) e ∧ Apart e) := by
  rcases chosenEnabled takes with rfl | ⟨rfl,enabled⟩ | ⟨rfl,enabled⟩ | ⟨rfl,enabled⟩
  · exact .inr ⟨fun _ _ passes => (nomatch passes),_,.refl,gssapiApart⟩
  · by_cases passes : ∃ x509Mode session, Passes host secInfo client sec securityTypeVencrypt (some x509Mode) (some session)
    · obtain ⟨x509Mode,session,passes⟩ := passes
      refine .inl ⟨_,_,passes,?_⟩
      cases passes with
      | vencrypt _ _ wanted supported opened shook => exact vencryptPasses enabled wanted supported opened shook
    · have fails : ∀ x509Mode session, ¬Passes host secInfo client sec securityTypeVencrypt (some x509Mode) (some session) :=
        fun x509Mode session one => passes ⟨x509Mode,session,one⟩
      refine .inr ⟨fun x509Mode tls one => ?_,vencryptApart enabled fails⟩
      cases one with
      | vencrypt mode session wanted supported opened shook =>
        exact fails mode session (.vencrypt mode session wanted supported opened shook)
  · by_cases passes : secInfo.passwdFile ≠ "" ∧ host.fileExists secInfo.passwdFile = true ∧
        PasswordKnown host.toSecurityHost secInfo client sec
    · obtain ⟨defined,present,known⟩ := passes
      exact .inl ⟨none,none,.vnc defined present known,vncPasses challenge padding enabled defined present known⟩
    · refine .inr ⟨fun x509Mode tls one => ?_,vncApart challenge padding enabled passes⟩
      cases one with
      | vnc defined present known => exact passes ⟨defined,present,known⟩
  · exact .inl ⟨none,none,.none,nonePasses enabled⟩

/- Where a handshake comes to rest, whatever the order of the turns. -/
theorem handshakeRests (named : desktop.name.length < 4294967296) :
    (∃ choice x509Mode tls, Connects host secInfo desktop client sec choice x509Mode tls ∧
      Leads (start host secInfo desktop client sec) (connected desktop choice x509Mode tls)) ∨
    ((∀ choice x509Mode tls, ¬Connects host secInfo desktop client sec choice x509Mode tls) ∧
      ∃ e, Leads (start host secInfo desktop client sec) e ∧ Apart e) := by
  cases takes : Client.chooseSecurity client sec (offeredTypes host.toSecurityHost secInfo) with
  | none =>
    refine .inr ⟨fun choice _ _ connects => ?_,?_⟩
    · cases takes.symm.trans connects.1
    by_cases nothing : offeredTypes host.toSecurityHost secInfo = []
    · exact ⟨_,nothingOffered nothing,apartWaits trivial (Nat.zero_lt_succ 3)⟩
    · exact ⟨_,offerRefused nothing takes,apartEnded (Nat.zero_lt_succ 0) (fun _ => ClientEnd.noConfusion)⟩
  | some choice =>
    have decided := @choiceDecides host secInfo desktop client sec challenge padding choice takes
    rcases decided with ⟨x509Mode,tls,passes,leads⟩ | ⟨fails,e,leads,apart⟩
    · by_cases accepted : Accepted desktop.format
      · exact .inl ⟨choice,x509Mode,tls,⟨takes,passes,accepted⟩,
          typeChosen takes (leads.trans (initialisationAgrees choice x509Mode rfl accepted named))⟩
      · refine .inr ⟨fun _ _ _ connects => accepted connects.2.2,_,
          typeChosen takes (leads.trans (initialisationRefused choice x509Mode rfl accepted)),?_⟩
        exact apartEnded trivial (fun _ => ClientEnd.noConfusion)
    · refine .inr ⟨fun other x509Mode tls connects => ?_,e,typeChosen takes leads,apart⟩
      cases takes.symm.trans connects.1
      exact fails x509Mode tls connects.2.1

/- Whatever the order of the turns was, a client that has got a session agrees with the server on all
of it, and the server can only come to the same end, with nothing left on either stream. -/
theorem handshakeAgrees (named : desktop.name.length < 4294967296) {d : Handshake} {session : ClientSession}
    (leads : Leads (start host secInfo desktop client sec) d) (got : d.right = .ended (.connected session)) :
    ∃ tls, Connects host secInfo desktop client sec session.choice session.x509Mode tls ∧
      session = sessionOf desktop session.choice session.x509Mode desktop.name ∧
      Leads d (connected desktop session.choice session.x509Mode tls) := by
  rcases handshakeRests challenge padding named with ⟨choice,x509Mode,tls,connects,ends⟩ | ⟨_,e,ends,rests,apart⟩
  · have last := restReached ends (connectedRests desktop choice x509Mode tls) leads
    have same := ClientEnd.connected.inj (Party.ended.inj (endedRight last got))
    subst same
    exact ⟨tls,connects,rfl,last⟩
  · exact absurd (endedRight (restReached ends rests leads) got) (apart session)

omit challenge padding in
theorem noneTaken : Client.chooseSecurity plainClient {authNone := true}
    (offeredTypes plainHost.toSecurityHost {authNone := true}) = some securityTypeNone := by decide

omit challenge padding in
theorem plainAgrees : ∃ tls,
    Connects plainHost {authNone := true} plainDesktop plainClient {authNone := true} securityTypeNone none tls ∧
      sessionOf plainDesktop securityTypeNone none [88] = sessionOf plainDesktop securityTypeNone none [88] ∧
      Leads (connected plainDesktop securityTypeNone none none) (connected plainDesktop securityTypeNone none tls) :=
  @handshakeAgrees plainHost {authNone := true} plainDesktop plainClient {authNone := true} rfl
    (fun _ _ _ made => by cases made; rfl) (by decide) _ (sessionOf plainDesktop securityTypeNone none [88])
    (typeChosen noneTaken ((nonePasses rfl).trans
      (initialisationAgrees securityTypeNone none rfl (by decide) (by decide)))) rfl

/- A type connects exactly if every order of the turns, however far it has gone, comes to its end. -/
theorem handshakeConnectsIff (named : desktop.name.length < 4294967296) (choice : UInt8) (x509Mode : Option Bool)
    (tls : Option Session) : Connects host secInfo desktop client sec choice x509Mode tls ↔
      ∀ d, Leads (start host secInfo desktop client sec) d → Leads d (connected desktop choice x509Mode tls) := by
  have still := connectedRests desktop
  rcases handshakeRests challenge padding named with ⟨other,mode,session,connects,ends⟩ | ⟨never,e,ends,rests,apart⟩
  · constructor
    · intro also d leads
      cases connects.1.symm.trans also.1
      obtain ⟨rfl,rfl⟩ := passesUnique connects.2.1 also.2.1
      exact restReached ends (still choice _ _) leads
    · intro all
      have same := restUnique ends (still other mode session) (all _ .refl) (still choice x509Mode tls)
      obtain ⟨rfl,rfl,rfl⟩ := connectedInj same
      exact connects
  · refine iff_of_false (never choice x509Mode tls) fun all => ?_
    have same := restUnique ends rests (all _ .refl) (still choice x509Mode tls)
    exact apart _ (congrArg Dialogue.right same).symm

omit challenge padding in
theorem plainConnects : Leads (start plainHost {authNone := true} plainDesktop plainClient {authNone := true})
    (connected plainDesktop securityTypeNone none none) :=
  (@handshakeConnectsIff plainHost {authNone := true} plainDesktop plainClient {authNone := true} rfl
    (fun _ _ _ made => by cases made; rfl) (by decide) securityTypeNone none none).mp ⟨noneTaken,.none,by decide⟩
    _ .refl

end
end

end Ltsm.HandshakeAgreement
