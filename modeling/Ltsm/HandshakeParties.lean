import Ltsm.Library.Dialogue
import Ltsm.ServerSecurity
import Ltsm.ClientMessages
import Ltsm.JsonStreams
import Mathlib.Tactic.IntervalCases

/-! The handshake of both ends, each as a party of a dialogue: what it sends, and how many bytes it
then waits for. The server is followed to the end of its initialisation, the client to the name of
the desktop. -/
namespace Ltsm.HandshakeParties
open Library TlsHandshake VenCrypt ServerSecurity
open ClientMessages (LocalFormat)

abbrev Talk (β : Type) := Party UInt8 β

def sendData (bytes : List UInt8) : Talk Unit := .say bytes
def sendInt8 (val : UInt8) : Talk Unit := sendData [val]
def sendString (text : String) : Talk Unit := sendData text.toUTF8.data.toList

def bytesBE16 (val : UInt16) : List UInt8 := [(val >>> 8).toUInt8,val.toUInt8]

def bytesBE32 (val : UInt32) : List UInt8 :=
  [(val >>> 24).toUInt8,(val >>> 16).toUInt8,(val >>> 8).toUInt8,val.toUInt8]

def intBE16 (bytes : List UInt8) : UInt16 := bytes.foldl (fun val byte => val <<< 8 ||| byte.toUInt16) 0
def intBE32 (bytes : List UInt8) : UInt32 := bytes.foldl (fun val byte => val <<< 8 ||| byte.toUInt32) 0

def sendIntBE16 (val : UInt16) : Talk Unit := sendData (bytesBE16 val)
def sendIntBE32 (val : UInt32) : Talk Unit := sendData (bytesBE32 val)

def recvData (len : Nat) : Talk (List UInt8) := .hear len
def recvInt8 : Talk UInt8 := .hears 1 fun bytes => .ended (bytes.headD 0)
def recvIntBE32 : Talk UInt32 := .hears 4 fun bytes => .ended (intBE32 bytes)

theorem intBytesBE16 (val : UInt16) : intBE16 (bytesBE16 val) = val := by
  apply UInt16.toBitVec_inj.mp
  apply BitVec.eq_of_getLsbD_eq
  intro i hi
  simp only [intBE16,bytesBE16,List.foldl_cons,List.foldl_nil,UInt16.toBitVec_or,UInt16.toBitVec_shiftLeft,
    UInt8.toBitVec_toUInt16,UInt16.toBitVec_toUInt8,UInt16.toBitVec_shiftRight,UInt16.toBitVec_ofNat]
  simp only [show ((8#16 % 16) : BitVec 16).toNat = 8 from rfl,BitVec.shiftLeft_eq',BitVec.ushiftRight_eq',
    BitVec.getLsbD_shiftLeft,BitVec.getLsbD_ushiftRight,BitVec.getLsbD_or,BitVec.getLsbD_setWidth]
  interval_cases i <;> simp

theorem intBytesBE32 (val : UInt32) : intBE32 (bytesBE32 val) = val := by
  apply UInt32.toBitVec_inj.mp
  apply BitVec.eq_of_getLsbD_eq
  intro i hi
  simp only [intBE32,bytesBE32,List.foldl_cons,List.foldl_nil,UInt32.toBitVec_or,UInt32.toBitVec_shiftLeft,
    UInt8.toBitVec_toUInt32,UInt32.toBitVec_toUInt8,UInt32.toBitVec_shiftRight,UInt32.toBitVec_ofNat]
  simp only [show ((8#32 % 32) : BitVec 32).toNat = 8 from rfl,show ((16#32 % 32) : BitVec 32).toNat = 16 from rfl,
    show ((24#32 % 32) : BitVec 32).toNat = 24 from rfl,BitVec.shiftLeft_eq',BitVec.ushiftRight_eq',
    BitVec.getLsbD_shiftLeft,BitVec.getLsbD_ushiftRight,BitVec.getLsbD_or,BitVec.getLsbD_setWidth]
  interval_cases i <;> simp

/- A context of the GSS library between two calls: the answer to a token may be empty. -/
inductive Context
  | complete
  | failed
  | continues (answer : List UInt8 → List UInt8) (next : List UInt8 → Context)

/- The desktop of the server, and its format without the alpha channel. -/
structure Desktop where
  name : List UInt8
  width : UInt16
  height : UInt16
  depth : UInt8
  format : LocalFormat
  platformBigEndian : Bool

/-! The server. -/

/- The first call of an acceptor takes a token as well. `security` is what is told in the layer of
an accepted context. -/
structure ServerHost extends SecurityHost where
  answer : List UInt8 → List UInt8
  next : List UInt8 → Context
  security : Talk KerberosInfo

structure Answer where
  verdict : Verdict
  tls : Option Session := none
  choice : Option UInt8 := none
  clientAuthName : String := ""
  clientAuthDomain : String := ""
  deriving DecidableEq, Repr

inductive ServerEnd
  | refused
  | raised
  | crashed
  | handshaking
  | connected (answer : Answer)
  deriving DecidableEq, Repr

namespace Server

def sendSecurityError (err : String) : Talk Unit := do
  sendIntBE32 securityResultErr
  sendIntBE32 (UInt32.ofNat err.utf8ByteSize)
  sendString err

def serverHandshakeVersion : Talk Int := do
  sendString "RFB 003.008\n"
  let magick ← recvData 12
  if magick = "RFB 003.003\n".toUTF8.data.toList then pure 33
  else if magick = "RFB 003.007\n".toUTF8.data.toList then pure 37
  else if magick ≠ "RFB 003.008\n".toUTF8.data.toList then pure 0
  else pure 38

/- The lines of the passwd file, the empty rest behind the last line end among them. -/
def passwords (host : SecurityHost) (passwdFile : String) : List (List UInt8) :=
  ((host.passwdText passwdFile).map (·.splitOn 10)).getD []

def authVncInit (host : SecurityHost) (passwdFile : String) : Talk (Option Bool) := do
  sendData host.randomBytes
  let response ← recvData 16
  match matchPassword host.encryptDES host.randomBytes response (passwords host passwdFile) with
  | none => pure none
  | some true => pure (some true)
  | some false => do
    sendSecurityError "password mismatch"
    pure (some false)

def venCryptMode (secInfo : SecurityInfo) : Talk (Option Bool) := do
  sendInt8 0
  sendInt8 2
  let majorVer ← recvInt8
  let minorVer ← recvInt8
  if majorVer ≠ 0 ∨ minorVer < 1 ∨ 2 < minorVer then do
    sendInt8 255
    pure none
  else do
    sendInt8 0
    if minorVer = 1 then
      if secInfo.tlsAnonMode then do
        sendInt8 1
        sendInt8 vencrypt01TlsNone
        let mode ← recvInt8
        pure (x509Choice secInfo vencrypt01TlsNone vencrypt01X509None mode)
      else do
        sendInt8 2
        sendInt8 vencrypt01TlsNone
        sendInt8 vencrypt01X509None
        let mode ← recvInt8
        pure (x509Choice secInfo vencrypt01TlsNone vencrypt01X509None mode)
    else if secInfo.tlsAnonMode then do
      sendInt8 1
      sendIntBE32 vencrypt02TlsNone
      let mode ← recvIntBE32
      pure (x509Choice secInfo vencrypt02TlsNone vencrypt02X509None mode)
    else do
      sendInt8 2
      sendIntBE32 vencrypt02TlsNone
      sendIntBE32 vencrypt02X509None
      let mode ← recvIntBE32
      pure (x509Choice secInfo vencrypt02TlsNone vencrypt02X509None mode)

/- The server's part once the mode is known, `none` while the TLS handshake is still retried. -/
def openTLS (host : Host) (secInfo : SecurityInfo) : Option Bool → Talk (Option (Bool × Option Session))
  | none => pure (some (false,none))
  | some x509Mode =>
    if x509Mode = true ∧ ¬FilesExist host secInfo then do
      sendInt8 0
      pure (some (false,none))
    else do
      sendInt8 1
      match openSession host secInfo x509Mode with
      | none => pure none
      | some none => pure (some (false,none))
      | some (some session) => pure (some (true,some session))

def authVenCryptInit (host : Host) (secInfo : SecurityInfo) : Talk (Option (Bool × Option Session)) :=
  venCryptMode secInfo >>= openTLS host secInfo

def vncSecurity (host : SecurityHost) (secInfo : SecurityInfo) : Talk Answer :=
  if secInfo.passwdFile = "" ∨ host.fileExists secInfo.passwdFile = false then do
    sendIntBE32 securityResultErr
    sendIntBE32 0
    pure {verdict := .returned false}
  else do
    match ← authVncInit host secInfo.passwdFile with
    | none => pure {verdict := .raised}
    | some false => do
      sendIntBE32 securityResultErr
      sendIntBE32 0
      pure {verdict := .returned false}
    | some true => do
      sendIntBE32 securityResultOk
      pure {verdict := .returned true}

def tlsOpened : Option (Bool × Option Session) → Talk (Option Answer)
  | none => pure none
  | some (true,tls) => do
    sendIntBE32 securityResultOk
    pure (some {verdict := .returned true, tls := tls})
  | some (false,tls) => do
    sendIntBE32 securityResultErr
    sendIntBE32 0
    pure (some {verdict := .returned false, tls := tls})

def vencryptSecurity (host : SecurityHost) (secInfo : SecurityInfo) : Talk (Option Answer) :=
  authVenCryptInit host.toHost secInfo >>= tlsOpened

def recvLayer : Talk (List UInt8) := do
  let len ← recvIntBE32
  recvData len.toNat

def sendLayer (buf : List UInt8) : Talk Unit := do
  sendIntBE32 (UInt32.ofNat buf.length)
  sendData buf

def acceptClient : Context → Talk Bool
  | .complete => pure true
  | .failed => pure false
  | .continues answer next => do
    let token ← recvLayer
    if answer token = [] then acceptClient (next token)
    else do
      sendLayer (answer token)
      acceptClient (next token)

/- The user of a context is the name before the first `@`. -/
def kerberosAnswer (host : ServerHost) (ok : Bool) (tls : Option Session) : Answer where
  verdict := .returned ok
  tls := tls
  clientAuthName := (splitRemoteName host.kerberos.remoteName).1
  clientAuthDomain := (splitRemoteName host.kerberos.remoteName).2

/- Without a service credential the layer reports success, and there is no context. -/
def gssapiSecurity (host : ServerHost) (secInfo : SecurityInfo) : Talk (Option Answer) :=
  if host.kerberos.acquires = false then pure (some {verdict := .crashed})
  else do
    match ← acceptClient (.continues host.answer host.next) with
    | false => do
      sendSecurityError "security kerberos failed"
      pure (some {verdict := .returned false})
    | true =>
      match ← host.security with
      | .failed => do
        sendSecurityError "security kerberos failed"
        pure (some {verdict := .returned false})
      | .object true => do
        match ← authVenCryptInit host.toHost secInfo with
        | none => pure none
        | some (true,tls) => do
          sendIntBE32 securityResultOk
          pure (some (kerberosAnswer host true tls))
        | some (false,tls) => pure (some (kerberosAnswer host false tls))
      | .absent | .object false => do
        sendIntBE32 securityResultOk
        pure (some (kerberosAnswer host true none))

def chosenSecurity (host : ServerHost) (protover : Int) (secInfo : SecurityInfo) (clientSecurity : UInt8) :
    Talk (Option Answer) :=
  if protover = 38 ∨ clientSecurity ≠ securityTypeNone then
    if clientSecurity = securityTypeNone ∧ secInfo.authNone = true then do
      sendIntBE32 securityResultOk
      pure (some {verdict := .returned true})
    else if clientSecurity = securityTypeVnc ∧ secInfo.authVnc = true then
      vncSecurity host.toSecurityHost secInfo >>= fun answer => pure (some answer)
    else if clientSecurity = securityTypeVencrypt ∧ secInfo.authVenCrypt = true then
      vencryptSecurity host.toSecurityHost secInfo
    else if clientSecurity = securityTypeGssapi then gssapiSecurity host secInfo
    else do
      sendSecurityError "no matching security types"
      pure (some {verdict := .returned false})
  else pure (some {verdict := .returned true})

def serverSecurityInit (host : ServerHost) (protover : Int) (secInfo : SecurityInfo) : Talk (Option Answer) :=
  if protover = 33 then do
    sendIntBE32 ((if secInfo.authVnc then securityTypeVnc.toUInt32 else 0) |||
      (if secInfo.authNone then securityTypeNone.toUInt32 else 0))
    pure (some {verdict := .returned true})
  else if offeredTypes host.toSecurityHost secInfo = [] then do
    sendInt8 0
    pure (some {verdict := .returned false})
  else do
    sendInt8 (UInt8.ofNat (offeredTypes host.toSecurityHost secInfo).length)
    sendData (offeredTypes host.toSecurityHost secInfo)
    let clientSecurity ← recvInt8
    let answer ← chosenSecurity host protover secInfo clientSecurity
    pure (answer.map fun answer => {answer with choice := some clientSecurity})

/- The fields of the pixel format, three bytes of padding behind them. -/
def formatBytes (desktop : Desktop) : List UInt8 :=
  [desktop.format.bitsPerPixel,desktop.depth,if desktop.platformBigEndian then 1 else 0,1] ++
    bytesBE16 desktop.format.redMax ++ bytesBE16 desktop.format.greenMax ++
    bytesBE16 desktop.format.blueMax ++
    [desktop.format.redShift,desktop.format.greenShift,desktop.format.blueShift,0,0,0]

def serverClientInit (desktop : Desktop) : Talk Unit := do
  let _clientSharedFlag ← recvInt8
  sendIntBE16 desktop.width
  sendIntBE16 desktop.height
  sendData (formatBytes desktop)
  sendIntBE32 (UInt32.ofNat desktop.name.length)
  sendData desktop.name

/- What becomes of the session behind the security part. -/
def initialised (desktop : Desktop) : Option Answer → Talk ServerEnd
  | none => pure .handshaking
  | some answer =>
    match answer.verdict with
    | .raised => pure .raised
    | .crashed => pure .crashed
    | .returned false => pure .refused
    | .returned true => do
      serverClientInit desktop
      pure (.connected answer)

/- The beginning of rfbCommunication. -/
def rfbCommunication (host : ServerHost) (secInfo : SecurityInfo) (desktop : Desktop) : Talk ServerEnd := do
  let protover ← serverHandshakeVersion
  if protover = 0 then pure .refused
  else serverSecurityInit host protover secInfo >>= initialised desktop

end Server

/-! The client. -/

structure ClientInfo extends SecurityInfo where
  krb5Name : String := ""
  deriving DecidableEq, Repr

/- `ticket` is whether a credential is found for the name, `token` the first token of the context. -/
structure ClientHost where
  ticket : Bool
  serviceName : Bool
  token : List UInt8
  initiator : Context
  encryptDES : List UInt8 → List UInt8 → Option (List UInt8)
  sslHandshake : Bool → Bool

/- `x509Mode` is set where the stream goes through TLS. -/
structure ClientSession where
  choice : UInt8
  x509Mode : Option Bool
  width : UInt16
  height : UInt16
  format : LocalFormat
  serverBigEndian : Bool
  name : List UInt8
  deriving DecidableEq, Repr

inductive ClientEnd
  | refused
  | raised
  | connected (session : ClientSession)
  deriving DecidableEq, Repr

/- How one of the security types ended: an exception leaves the handshake. -/
inductive Auth
  | failed
  | raised
  | done (x509Mode : Option Bool)
  deriving DecidableEq, Repr

namespace Client

def authVncInit (host : ClientHost) (password : List UInt8) : Talk Auth := do
  let challenge ← recvData 16
  match host.encryptDES challenge password with
  | none => pure .raised
  | some crypt => do
    sendData crypt
    pure (.done none)

def recvTypes : Nat → Talk (List UInt32)
  | 0 => pure []
  | count + 1 => do
    let val ← recvIntBE32
    let rest ← recvTypes count
    pure (val :: rest)

def startTLS (host : ClientHost) (x509Mode : Bool) : Talk Auth := do
  sendIntBE32 (if x509Mode then vencrypt02X509None else vencrypt02TlsNone)
  let status ← recvInt8
  if status = 0 then pure .failed
  else if host.sslHandshake x509Mode then pure (.done (some x509Mode))
  else pure .failed

def takeTypes (host : ClientHost) (sec : ClientInfo) (venCryptTypes : List UInt32) : Talk Auth :=
  if sec.tlsAnonMode then
    if vencrypt02TlsNone ∉ venCryptTypes then pure .failed else startTLS host false
  else if vencrypt02X509None ∉ venCryptTypes then pure .failed
  else startTLS host true

def authVenCryptInit (host : ClientHost) (sec : ClientInfo) : Talk Auth := do
  let _majorVer ← recvInt8
  let _minorVer ← recvInt8
  sendInt8 0
  sendInt8 2
  let zeroVer ← recvInt8
  if zeroVer ≠ 0 then pure .failed
  else do
    let typesCount ← recvInt8
    if typesCount = 0 then pure .failed
    else recvTypes typesCount.toNat >>= takeTypes host sec

/- The length is read over before it is sent. -/
def sendToken (buf : List UInt8) : Talk Unit := do
  let _val ← recvData 4
  sendData buf

def recvToken : Talk (List UInt8) := do
  let len ← recvIntBE32
  recvData len.toNat

def connectContext : Context → Talk Bool
  | .complete => pure true
  | .failed => pure false
  | .continues answer next => do
    let token ← recvToken
    if answer token = [] then connectContext (next token)
    else do
      sendToken (answer token)
      connectContext (next token)

/- The first call of the context is made without a token. -/
def connectService (host : ClientHost) : Talk Bool :=
  if host.serviceName = false then pure false
  else if host.token = [] then connectContext host.initiator
  else do
    sendToken host.token
    connectContext host.initiator

/- Kept in the size of its text. -/
def securityJson (authVenCrypt : Bool) : List UInt8 :=
  JsonStreams.JsonObjectStream.flush (JsonStreams.JsonObjectStream.push JsonStreams.JsonObjectStream.start
    "continue:tls".toUTF8.data.toList (.boolean authVenCrypt))

/- Whether the layer of the kerberos session goes on to TLS does not decide the result. -/
def authGssApiInit (host : ClientHost) (sec : ClientInfo) : Talk Auth :=
  if sec.krb5Name ≠ "" ∧ host.ticket = false then pure .failed
  else do
    match ← connectService host with
    | false => pure .failed
    | true => do
      sendToken (securityJson sec.authVenCrypt)
      if sec.authVenCrypt then do
        match ← authVenCryptInit host sec with
        | .done x509Mode => pure (.done x509Mode)
        | .raised => pure .failed
        | .failed => pure (.done none)
      else pure (.done none)

/- The type the client takes of those on offer. -/
def chooseSecurity (host : ClientHost) (sec : ClientInfo) (offer : List UInt8) : Option UInt8 :=
  if sec.authKrb5 ∧ securityTypeGssapi ∈ offer ∧ host.ticket then some securityTypeGssapi
  else if sec.authVenCrypt ∧ securityTypeVencrypt ∈ offer then some securityTypeVencrypt
  else if sec.authVnc ∧ securityTypeVnc ∈ offer then
    if sec.passwdFile = "" then none else some securityTypeVnc
  else if sec.authNone ∧ securityTypeNone ∈ offer then some securityTypeNone
  else none

def authenticate (host : ClientHost) (sec : ClientInfo) (choice : UInt8) : Talk Auth :=
  if choice = securityTypeGssapi then authGssApiInit host sec
  else if choice = securityTypeVencrypt then authVenCryptInit host sec
  else if choice = securityTypeVnc then authVncInit host sec.passwdFile.toUTF8.data.toList
  else pure (.done none)

/- The framebuffer and the format of the server, out of the 20 bytes of its initialisation. -/
def readInit (choice : UInt8) (x509Mode : Option Bool) (buf name : List UInt8) : ClientSession where
  choice := choice
  x509Mode := x509Mode
  width := intBE16 (buf.take 2)
  height := intBE16 ((buf.drop 2).take 2)
  format := ⟨buf.getD 4 0,intBE16 ((buf.drop 8).take 2),intBE16 ((buf.drop 10).take 2),
    intBE16 ((buf.drop 12).take 2),buf.getD 14 0,buf.getD 15 0,buf.getD 16 0⟩
  serverBigEndian := buf.getD 6 0 ≠ 0
  name := name

def knownBits (bpp : UInt8) : Bool := bpp = 32 || bpp = 24 || bpp = 16 || bpp = 8

def serverInit (choice : UInt8) (x509Mode : Option Bool) : Talk ClientEnd := do
  sendInt8 0
  let buf ← recvData 20
  if knownBits (buf.getD 4 0) = false then pure .refused
  else if buf.getD 7 0 = 0 ∨ intBE16 ((buf.drop 8).take 2) = 0 ∨ intBE16 ((buf.drop 10).take 2) = 0 ∨
      intBE16 ((buf.drop 12).take 2) = 0 then pure .refused
  else do
    let nameLen ← recvIntBE32
    let nameDesktop ← recvData nameLen.toNat
    pure (.connected (readInit choice x509Mode buf nameDesktop))

def recvError : Talk ClientEnd := do
  let len ← recvIntBE32
  let _err ← recvData len.toNat
  pure .refused

/- The security result, and the initialisation behind it. -/
def finished (choice : UInt8) : Auth → Talk ClientEnd
  | .failed => pure .refused
  | .raised => pure .raised
  | .done x509Mode => do
    let secReply ← recvIntBE32
    if secReply ≠ securityResultOk then recvError
    else serverInit choice x509Mode

def takeOffer (host : ClientHost) (sec : ClientInfo) (security : List UInt8) : Talk ClientEnd :=
  match chooseSecurity host sec security with
  | none => pure .refused
  | some choice => do
    sendInt8 choice
    authenticate host sec choice >>= finished choice

def rfbHandshake (host : ClientHost) (sec : ClientInfo) : Talk ClientEnd := do
  let magick ← recvData 12
  if magick ≠ "RFB 003.008\n".toUTF8.data.toList then pure .refused
  else do
    sendString "RFB 003.008\n"
    let counts ← recvInt8
    if counts = 0 then recvError
    else recvData counts.toNat >>= takeOffer host sec

end Client
end Ltsm.HandshakeParties
