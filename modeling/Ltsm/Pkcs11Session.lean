import Ltsm.FuseReplies
import Ltsm.Pkcs11Replies

/-! The session's end of the token channel: what it asks the client's connector for, and how it
takes the answers. -/
namespace Ltsm.Pkcs11Session
open Library StreamBufs Pkcs11Commands Pkcs11Replies
open FuseReplies (recvIntLE readsLE recvLE32 recvLE64 reads32 reads64)

/- The calls of Pkcs11Client. -/
inductive Call
  | remoteHandshake
  | updateTokens
  | loadMechanisms (slotId : UInt64)
  | loadCertificates (slotId : UInt64)
  | loadSignData (use : KeyUse)
  | loadDecryptData (use : KeyUse)
  deriving DecidableEq, Repr

def sendKeyUse (cmd : Nat) (use : KeyUse) : Bytes :=
  littleEndian 2 cmd ++ littleEndian 8 use.slotId.toNat ++ littleEndian 8 use.mechType.toNat ++
    littleEndian 2 use.pin.length ++ use.pin ++ littleEndian 2 use.certId.length ++ use.certId ++
    littleEndian 4 use.values.length ++ use.values

def request : Call → Bytes
  | .remoteHandshake => littleEndian 2 Pkcs11Op.Init ++ littleEndian 2 Pkcs11Op.ProtoVer
  | .updateTokens => littleEndian 2 Pkcs11Op.GetSlots ++ [1]
  | .loadMechanisms slotId => littleEndian 2 Pkcs11Op.GetSlotMechanisms ++ littleEndian 8 slotId.toNat
  | .loadCertificates slotId => littleEndian 2 Pkcs11Op.GetSlotCertificates ++ littleEndian 8 slotId.toNat ++ [1]
  | .loadSignData use => sendKeyUse Pkcs11Op.SignData use
  | .loadDecryptData use => sendKeyUse Pkcs11Op.DecryptData use

/- What the connector has to take a call for. -/
def command : Call → Command
  | .remoteHandshake => .init
  | .updateTokens => .getSlots true
  | .loadMechanisms slotId => .getSlotMechanisms slotId
  | .loadCertificates slotId => .getSlotCertificates slotId true
  | .loadSignData use => .signData use
  | .loadDecryptData use => .decryptData use

structure Mechanism where
  mechId : UInt64
  minKey : UInt64
  maxKey : UInt64
  flags : UInt64
  name : Bytes

/- What the session makes of an answer; `failed` is one for another command. -/
inductive Answer
  | refused (error : Bytes)
  | library (info : LibraryInfo)
  | tokens (slots : List Slot)
  | mechanisms (mechs : List (Option Mechanism))
  | certificates (certs : List Certificate)
  | result (bytes : Bytes)
  | failed

def recvInt8 : Reader UInt8 := do
  let bytes ← takeBytes 1
  pure (bytes.headD 0)

def recvChars (size : Nat) : Reader (Chars size) := do
  let bytes ← takeBytes size
  if whole : bytes.length = size then pure ⟨bytes,whole⟩ else fail

def recvVersion : Reader Version := do
  let major ← recvInt8
  let minor ← recvInt8
  pure ⟨major,minor⟩

def recvLibraryInfo : Reader LibraryInfo := do
  let cryptokiVersion ← recvVersion
  let manufacturerID ← recvChars 32
  let flags ← recvLE64
  let libraryDescription ← recvChars 32
  let libraryVersion ← recvVersion
  pure ⟨cryptokiVersion,manufacturerID,flags,libraryDescription,libraryVersion⟩

/- An error is the length of its text. -/
def recvHandshake : Reader Answer := do
  let cmd ← recvIntLE 2
  let err ← recvIntLE 2
  if cmd ≠ Pkcs11Op.Init then fail
  else if err ≠ 0 then
    let str ← takeBytes err
    pure (.refused str)
  else
    let protoVer ← recvIntLE 2
    if protoVer ≠ Pkcs11Op.ProtoVer then fail
    else
      let info ← recvLibraryInfo
      pure (.library info)

def recvSlotInfo : Reader (Option SlotInfo) := do
  let slotValid ← recvInt8
  if slotValid = 0 then pure none
  else
    let slotDescription ← recvChars 64
    let manufacturerID ← recvChars 32
    let flags ← recvLE64
    let hardwareVersion ← recvVersion
    let firmwareVersion ← recvVersion
    pure (some ⟨slotDescription,manufacturerID,flags,hardwareVersion,firmwareVersion⟩)

def recvTokenInfo : Reader (Option TokenInfo) := do
  let tokenValid ← recvInt8
  if tokenValid = 0 then pure none
  else
    let label ← recvChars 32
    let manufacturerID ← recvChars 32
    let model ← recvChars 16
    let serialNumber ← recvChars 16
    let flags ← recvLE64
    let ulMaxSessionCount ← recvLE64
    let ulSessionCount ← recvLE64
    let ulMaxRwSessionCount ← recvLE64
    let ulRwSessionCount ← recvLE64
    let ulMaxPinLen ← recvLE64
    let ulMinPinLen ← recvLE64
    let ulTotalPublicMemory ← recvLE64
    let ulFreePublicMemory ← recvLE64
    let ulTotalPrivateMemory ← recvLE64
    let ulFreePrivateMemory ← recvLE64
    let hardwareVersion ← recvVersion
    let firmwareVersion ← recvVersion
    let utcTime ← recvChars 16
    pure (some ⟨label,manufacturerID,model,serialNumber,flags,ulMaxSessionCount,ulSessionCount,ulMaxRwSessionCount,
      ulRwSessionCount,ulMaxPinLen,ulMinPinLen,ulTotalPublicMemory,ulFreePublicMemory,ulTotalPrivateMemory,
      ulFreePrivateMemory,hardwareVersion,firmwareVersion,utcTime⟩)

def recvSlot : Reader Slot := do
  let slotId ← recvLE64
  let slotInfo ← recvSlotInfo
  let tokenInfo ← recvTokenInfo
  pure ⟨slotId,slotInfo,tokenInfo⟩

def recvTokens : Reader Answer := do
  let cmd ← recvIntLE 2
  let counts ← recvIntLE 2
  if cmd ≠ Pkcs11Op.GetSlots then fail
  else
    let slots ← recvMany recvSlot counts
    pure (.tokens slots)

def recvMechanism : Reader (Option Mechanism) := do
  let mechId ← recvLE64
  let minKey ← recvLE64
  let maxKey ← recvLE64
  let flags ← recvLE64
  let len ← recvIntLE 2
  let name ← takeBytes len
  pure (some ⟨mechId,minKey,maxKey,flags,name⟩)

def recvMechanisms : Reader Answer := do
  let cmd ← recvIntLE 2
  let counts ← recvIntLE 2
  if cmd ≠ Pkcs11Op.GetSlotMechanisms then pure .failed
  else
    let mechs ← recvMany recvMechanism counts
    pure (.mechanisms mechs)

def recvCertificate : Reader Certificate := do
  let idLen ← recvIntLE 2
  let rawId ← takeBytes idLen
  let valueLen ← recvIntLE 4
  let rawValue ← takeBytes valueLen
  pure ⟨rawId,rawValue⟩

def recvCertificates : Reader Answer := do
  let cmd ← recvIntLE 2
  let counts ← recvIntLE 2
  if cmd ≠ Pkcs11Op.GetSlotCertificates then pure .failed
  else
    let certs ← recvMany recvCertificate counts
    pure (.certificates certs)

/- loadSignData and loadDecryptData wait for the command in front of the length. -/
def recvResult (op : Nat) : Reader Answer := do
  let cmd ← recvIntLE 2
  let length ← recvIntLE 4
  if cmd ≠ op then pure .failed
  else if length ≠ 0 then
    let bytes ← takeBytes length
    pure (.result bytes)
  else pure (.result [])

def recvReply : Call → Reader Answer
  | .remoteHandshake => recvHandshake
  | .updateTokens => recvTokens
  | .loadMechanisms _ => recvMechanisms
  | .loadCertificates _ => recvCertificates
  | .loadSignData _ => recvResult Pkcs11Op.SignData
  | .loadDecryptData _ => recvResult Pkcs11Op.DecryptData

def mechanism (library : TokenLibrary) (mech : UInt64 × Option MechInfo) : Option Mechanism :=
  mech.2.map fun info => ⟨mech.1,info.ulMinKeySize,info.ulMaxKeySize,info.flags,library.mechStringEx mech.1⟩

/- What the library has for a call: nothing where it opens no session. -/
def outcome (library : TokenLibrary) : Call → Option Answer
  | .remoteHandshake => some (match library.loadLibrary with
    | .error error => .refused error
    | .ok info => .library info)
  | .updateTokens => some (.tokens (library.getSlots true))
  | .loadMechanisms slotId => some (.mechanisms ((library.getMechanisms slotId).map (mechanism library)))
  | .loadCertificates slotId => (library.getCertificates slotId).map .certificates
  | .loadSignData use => (library.signData use).map .result
  | .loadDecryptData use => (library.decryptData use).map .result

/- The connector takes the request for the call and has an answer, and the session takes
exactly the bytes of that, for what the library has. -/
def Agrees (library : TokenLibrary) (call : Call) : Prop :=
  (readIntLE16 >>= pkcs11Cmd) (request call) = .ok (command call,[]) ∧
    ∃ bytes out, reply library (command call) = some bytes ∧ outcome library call = some out ∧
      Reads (recvReply call) bytes out

/- No answer to a signature or a decryption has a command in front; the other answers have all
that the session waits for, where each mechanism has its info, a session can be opened for the
certificates, an error has a text, and all lengths fit their fields. -/
def Answerable (library : TokenLibrary) : Call → Prop
  | .remoteHandshake => ∀ error, library.loadLibrary = .error error → error ≠ [] ∧ error.length < 65536
  | .updateTokens => (library.getSlots true).length < 65536
  | .loadMechanisms slotId => (library.getMechanisms slotId).length < 65536 ∧
      ∀ mech ∈ library.getMechanisms slotId, mech.2.isSome ∧ (library.mechStringEx mech.1).length < 65536
  | .loadCertificates slotId => ∃ certs, library.getCertificates slotId = some certs ∧ certs.length < 65536 ∧
      ∀ cert ∈ certs, cert.rawId.length < 65536 ∧ cert.rawValue.length < 4294967296
  | .loadSignData _ | .loadDecryptData _ => False

theorem readsInt8 (v : UInt8) : Reads recvInt8 [v] v := readsMap (readsTake [v]) fun bytes => bytes.headD 0

theorem readsChars {size : Nat} (chars : Chars size) : Reads (recvChars size) chars.val chars := by
  obtain ⟨bytes,rfl⟩ := chars
  have taken := readsTake bytes
  intro rest
  rw [recvChars,StateT.run_bind,taken rest]
  simp

theorem readsVersion (version : Version) : Reads recvVersion (versionBytes version) version :=
  readsBind (readsInt8 version.major) (readsMap (readsInt8 version.minor) (Version.mk version.major))

theorem readsLibraryInfo (info : LibraryInfo) : Reads recvLibraryInfo (libraryBytes info) info := by
  simp only [libraryBytes,List.append_assoc]
  exact readsBind (readsVersion info.cryptokiVersion) (readsBind (readsChars info.manufacturerID)
    (readsBind (reads64 info.flags) (readsBind (readsChars info.libraryDescription)
      (readsMap (readsVersion info.libraryVersion) _))))

theorem readsSlotInfo (info : Option SlotInfo) : Reads recvSlotInfo (slotInfoBytes info) info := by
  cases info with
  | none => exact readsMap (readsInt8 0) fun _ => none
  | some info =>
    simp only [slotInfoBytes,List.append_assoc]
    refine readsBind (readsInt8 1) (readsBind (readsChars info.slotDescription) (readsBind (readsChars info.manufacturerID)
      (readsBind (reads64 info.flags) (readsBind (readsVersion info.hardwareVersion) ?_))))
    exact readsMap (readsVersion info.firmwareVersion) fun firmwareVersion => some {info with firmwareVersion}

theorem readsTokenInfo (info : Option TokenInfo) : Reads recvTokenInfo (tokenInfoBytes info) info := by
  cases info with
  | none => exact readsMap (readsInt8 0) fun _ => none
  | some info =>
    simp only [tokenInfoBytes,List.append_assoc]
    refine readsBind (readsInt8 1) (readsBind (readsChars info.label) (readsBind (readsChars info.manufacturerID)
      (readsBind (readsChars info.model) (readsBind (readsChars info.serialNumber) (readsBind (reads64 info.flags) ?_)))))
    refine readsBind (reads64 info.ulMaxSessionCount) (readsBind (reads64 info.ulSessionCount)
      (readsBind (reads64 info.ulMaxRwSessionCount) (readsBind (reads64 info.ulRwSessionCount)
        (readsBind (reads64 info.ulMaxPinLen) (readsBind (reads64 info.ulMinPinLen) ?_)))))
    refine readsBind (reads64 info.ulTotalPublicMemory) (readsBind (reads64 info.ulFreePublicMemory)
      (readsBind (reads64 info.ulTotalPrivateMemory) (readsBind (reads64 info.ulFreePrivateMemory)
        (readsBind (readsVersion info.hardwareVersion) (readsBind (readsVersion info.firmwareVersion) ?_)))))
    exact readsMap (readsChars info.utcTime) fun utcTime => some {info with utcTime}

theorem readsSlot (slot : Slot) : Reads recvSlot (slotBytes slot) slot := by
  simp only [slotBytes,List.append_assoc]
  exact readsBind (reads64 slot.slotId) (readsBind (readsSlotInfo slot.slotInfo)
    (readsMap (readsTokenInfo slot.tokenInfo) (Slot.mk slot.slotId slot.slotInfo)))

theorem readsMechanism {name : Bytes} (small : name.length < 65536) (mech : UInt64) (info : MechInfo) :
    Reads recvMechanism (mechBytes name mech (some info))
      (some ⟨mech,info.ulMinKeySize,info.ulMaxKeySize,info.flags,name⟩) := by
  simp only [mechBytes,List.append_assoc]
  refine readsBind (reads64 mech) (readsBind (reads64 info.ulMinKeySize) (readsBind (reads64 info.ulMaxKeySize)
    (readsBind (reads64 info.flags) (readsBind (@readsLE 2 _ small) ?_))))
  exact readsMap (readsTake name) fun name => some (Mechanism.mk mech info.ulMinKeySize info.ulMaxKeySize info.flags name)

theorem readsCertificate (cert : Certificate) (idSmall : cert.rawId.length < 65536)
    (valueSmall : cert.rawValue.length < 4294967296) : Reads recvCertificate (certificateBytes cert) cert := by
  simp only [certificateBytes,List.append_assoc]
  exact readsBind (@readsLE 2 _ idSmall) (readsBind (readsTake cert.rawId) (readsBind (@readsLE 4 _ valueSmall)
    (readsMap (readsTake cert.rawValue) (Certificate.mk cert.rawId))))

/- What the session can take for an answer at all. -/
def InRange : Answer → Prop
  | .refused error => error ≠ [] ∧ error.length < 65536
  | .tokens slots => slots.length < 65536
  | .mechanisms mechs => mechs.length < 65536 ∧ ∀ mech ∈ mechs, ∃ found, mech = some found ∧ found.name.length < 65536
  | .certificates certs => certs.length < 65536 ∧
      ∀ cert ∈ certs, cert.rawId.length < 65536 ∧ cert.rawValue.length < 4294967296
  | _ => True

theorem yieldsLE (count : Nat) : Yields (recvIntLE count) fun value => value < 256 ^ count := by
  refine yieldsBind (yieldsTake count) fun bytes length => yieldsPure ?_
  rw [← length]
  exact ofLittleEndianLt bytes

theorem yieldsHandshake : Yields recvHandshake InRange := by
  refine yieldsBind (yieldsAny _) fun cmd _ => yieldsBind (yieldsLE 2) fun err small => ?_
  split
  · exact yieldsFail _
  · split
    · rename_i some
      refine yieldsBind (yieldsTake err) fun str length => yieldsPure ⟨?_,by rw [length]; exact small⟩
      rintro rfl
      exact some length.symm
    · refine yieldsBind (yieldsAny _) fun protoVer _ => ?_
      split
      · exact yieldsFail _
      · exact yieldsBind (yieldsAny _) fun info _ => yieldsPure trivial

theorem yieldsTokens : Yields recvTokens InRange := by
  refine yieldsBind (yieldsAny _) fun cmd _ => yieldsBind (yieldsLE 2) fun counts small => ?_
  split
  · exact yieldsFail _
  · refine yieldsBind (yieldsMany (yieldsAny recvSlot) counts) fun slots all => yieldsPure ?_
    rw [InRange,all.1]
    exact small

theorem yieldsMechanism : Yields recvMechanism fun mech => ∃ found, mech = some found ∧ found.name.length < 65536 := by
  refine yieldsBind (yieldsAny _) fun mechId _ => yieldsBind (yieldsAny _) fun minKey _ => yieldsBind (yieldsAny _)
    fun maxKey _ => yieldsBind (yieldsAny _) fun flags _ => yieldsBind (yieldsLE 2) fun len small => ?_
  refine yieldsBind (yieldsTake len) fun name length => yieldsPure ⟨_,rfl,?_⟩
  rw [length]
  exact small

theorem yieldsMechanisms : Yields recvMechanisms InRange := by
  refine yieldsBind (yieldsAny _) fun cmd _ => yieldsBind (yieldsLE 2) fun counts small => ?_
  split
  · exact yieldsPure trivial
  · refine yieldsBind (yieldsMany yieldsMechanism counts) fun mechs all => yieldsPure ⟨?_,all.2⟩
    rw [all.1]
    exact small

theorem yieldsCertificate :
    Yields recvCertificate fun cert => cert.rawId.length < 65536 ∧ cert.rawValue.length < 4294967296 := by
  refine yieldsBind (yieldsLE 2) fun idLen idSmall => yieldsBind (yieldsTake idLen) fun rawId id =>
    yieldsBind (yieldsLE 4) fun valueLen valueSmall => yieldsBind (yieldsTake valueLen) fun rawValue value =>
      yieldsPure ⟨?_,?_⟩
  · rw [id]
    exact idSmall
  · rw [value]
    exact valueSmall

theorem yieldsCertificates : Yields recvCertificates InRange := by
  refine yieldsBind (yieldsAny _) fun cmd _ => yieldsBind (yieldsLE 2) fun counts small => ?_
  split
  · exact yieldsPure trivial
  · refine yieldsBind (yieldsMany yieldsCertificate counts) fun certs all => yieldsPure ⟨?_,all.2⟩
    rw [all.1]
    exact small

theorem leConsumes {count value : Nat} {bytes rest : Bytes} (ran : (recvIntLE count).run bytes = some (value,rest)) :
    bytes.length = count + rest.length := by
  rw [recvIntLE,StateT.run_bind] at ran
  obtain ⟨⟨taken,left⟩,one,two⟩ := Option.bind_eq_some_iff.mp ran
  have size : bytes.length = taken.length + left.length ∧ taken.length = count := takeConsumes one
  have last : left = rest := congrArg Prod.snd (Option.some.inj two)
  rw [← last]
  omega

/- What is given was read behind a command and a length. -/
theorem resultSize {op : Nat} {bytes rest out : Bytes} (ran : (recvResult op).run bytes = some (.result out,rest)) :
    bytes.length = 6 + out.length + rest.length := by
  rw [recvResult,StateT.run_bind] at ran
  obtain ⟨⟨cmd,behind⟩,first,ran⟩ := Option.bind_eq_some_iff.mp ran
  rw [StateT.run_bind] at ran
  obtain ⟨⟨length,left⟩,second,ran⟩ := Option.bind_eq_some_iff.mp ran
  have two : bytes.length = 2 + behind.length := leConsumes first
  have four : behind.length = 4 + left.length := leConsumes second
  dsimp only at ran
  split at ran
  · cases ran
  · split at ran
    · rw [StateT.run_bind] at ran
      obtain ⟨⟨taken,last⟩,third,ran⟩ := Option.bind_eq_some_iff.mp ran
      have size : left.length = taken.length + last.length := (takeConsumes third).1
      have same : (Answer.result taken,last) = (.result out,rest) := Option.some.inj ran
      rw [Prod.mk.injEq,Answer.result.injEq] at same
      rw [← same.1,← same.2]
      omega
    · have same : (Answer.result [],left) = (.result out,rest) := Option.some.inj ran
      rw [Prod.mk.injEq,Answer.result.injEq] at same
      rw [← same.1,← same.2,List.length_nil]
      omega

theorem yieldsResult (op : Nat) : Yields (recvResult op) InRange := by
  refine yieldsBind (yieldsAny _) fun cmd _ => yieldsBind (yieldsAny _) fun length _ => ?_
  split
  · exact yieldsPure trivial
  · split
    · exact yieldsBind (yieldsAny _) fun bytes _ => yieldsPure trivial
    · exact yieldsPure trivial

/- The answer to a signature has no command in front. -/
theorem notReadsResult (op : Nat) (result : Bytes) : ¬Reads (recvResult op) (resultBytes result) (.result result) := by
  intro reads
  have size := resultSize (reads [])
  rw [List.append_nil,resultLength,List.length_nil] at size
  omega

theorem requestBytes (call : Call) : request call = littleEndian 2 (code (command call)).toNat ++ body (command call) := by
  cases call with
  | loadSignData use => simp [request,command,code,body,sendKeyUse,useBytes,Pkcs11Op.SignData]
  | loadDecryptData use => simp [request,command,code,body,sendKeyUse,useBytes,Pkcs11Op.DecryptData]
  | _ => rfl

theorem connectorTakes {call : Call} (other : keyUse (command call) = none) :
    (readIntLE16 >>= pkcs11Cmd) (request call) = .ok (command call,[]) := by
  have valid : Valid (command call) := by
    intro use inside
    rw [other] at inside
    cases inside
  have takes := pkcs11CmdTakes (command call) valid
  have whole := @Takes.whole _ _ _ _ _ _ takes [] []
  rw [List.append_nil] at whole
  rw [requestBytes,readIntLE16Front]
  refine whole.mpr ⟨rfl,fun use inside => ?_⟩
  rw [other] at inside
  cases inside

theorem readsLibrary (library : TokenLibrary) (answerable : Answerable library .remoteHandshake) :
    Agrees library .remoteHandshake := by
  refine ⟨connectorTakes rfl,_,_,rfl,rfl,?_⟩
  have version : Reads (recvIntLE 2) (littleEndian 2 Pkcs11Op.ProtoVer) Pkcs11Op.ProtoVer := readsLE (by decide)
  cases loaded : library.loadLibrary with
  | error error =>
    obtain ⟨filled,small⟩ := answerable error loaded
    have some : error.length ≠ 0 := fun none => filled (List.eq_nil_of_length_eq_zero none)
    refine readsBind (readsLE (by decide)) (readsBind (@readsLE 2 _ small) ?_)
    have op : ¬Pkcs11Op.Init ≠ Pkcs11Op.Init := by simp
    rw [if_neg op,if_pos some]
    exact readsMap (readsTake error) Answer.refused
  | ok info =>
    dsimp only
    rw [List.append_assoc]
    refine readsBind (readsLE (by decide)) (readsBind (readsLE (by decide)) (readsBind version ?_))
    exact readsMap (readsLibraryInfo info) Answer.library

/- The answers that are a list behind its count. -/
theorem readsCounted {α β : Type} {r : Reader β} {items : List α} {send : α → Bytes} {got : α → β} {op : Nat}
    {mismatch : Reader Answer} (small : op < 256 ^ 2) (few : items.length < 65536)
    (each : ∀ item ∈ items, Reads r (send item) (got item)) (make : List β → Answer) :
    Reads (do
      let cmd ← recvIntLE 2
      let counts ← recvIntLE 2
      if cmd ≠ op then mismatch
      else
        let all ← recvMany r counts
        pure (make all)) (littleEndian 2 op ++ littleEndian 2 items.length ++ items.flatMap send) (make (items.map got)) := by
  rw [List.append_assoc]
  refine readsBind (readsLE small) (readsBind (@readsLE 2 _ few) ?_)
  have same : ¬op ≠ op := by simp
  rw [if_neg same]
  exact readsMap (readsMany each) make

theorem readsTokens {slots : List Slot} (few : slots.length < 65536) :
    Reads recvTokens (littleEndian 2 Pkcs11Op.GetSlots ++ littleEndian 2 slots.length ++ slots.flatMap slotBytes)
      (.tokens slots) := by
  have all := @readsCounted _ _ recvSlot slots slotBytes id Pkcs11Op.GetSlots fail (by decide) few (fun slot _ => readsSlot slot)
    Answer.tokens
  rwa [List.map_id] at all

theorem readsCertificates {certs : List Certificate} (few : certs.length < 65536)
    (each : ∀ cert ∈ certs, cert.rawId.length < 65536 ∧ cert.rawValue.length < 4294967296) :
    Reads recvCertificates (littleEndian 2 Pkcs11Op.GetSlotCertificates ++ littleEndian 2 certs.length ++
      certs.flatMap certificateBytes) (.certificates certs) := by
  have all := @readsCounted _ _ recvCertificate certs certificateBytes id Pkcs11Op.GetSlotCertificates (pure .failed)
    (by decide) few
    (fun cert inside => readsCertificate cert (each cert inside).1 (each cert inside).2) Answer.certificates
  rwa [List.map_id] at all

theorem readsMechanisms (library : TokenLibrary) {mechs : List (UInt64 × Option MechInfo)} (few : mechs.length < 65536)
    (each : ∀ mech ∈ mechs, mech.2.isSome ∧ (library.mechStringEx mech.1).length < 65536) :
    Reads recvMechanisms (littleEndian 2 Pkcs11Op.GetSlotMechanisms ++ littleEndian 2 mechs.length ++
      mechs.flatMap fun mech => mechBytes (library.mechStringEx mech.1) mech.1 mech.2)
      (.mechanisms (mechs.map (mechanism library))) := by
  refine readsCounted (by decide) few (fun mech inside => ?_) Answer.mechanisms
  obtain ⟨has,small⟩ := each mech inside
  obtain ⟨id,info⟩ := mech
  obtain ⟨info,rfl⟩ := Option.isSome_iff_exists.mp has
  exact readsMechanism small id info

theorem yieldsReply (call : Call) : Yields (recvReply call) InRange := by
  cases call with
  | remoteHandshake => exact yieldsHandshake
  | updateTokens => exact yieldsTokens
  | loadMechanisms slotId => exact yieldsMechanisms
  | loadCertificates slotId => exact yieldsCertificates
  | loadSignData use => exact yieldsResult _
  | loadDecryptData use => exact yieldsResult _

theorem answerableOf {library : TokenLibrary} {call : Call} (agrees : Agrees library call) : Answerable library call := by
  obtain ⟨_,bytes,out,replies,has,reads⟩ := agrees
  have range := yieldsOf (yieldsReply call) reads
  cases call with
  | remoteHandshake =>
    intro error loaded
    simp only [outcome,loaded,Option.some.injEq] at has
    rwa [← has] at range
  | updateTokens =>
    cases has
    exact range
  | loadMechanisms slotId =>
    cases has
    obtain ⟨few,each⟩ := range
    rw [List.length_map] at few
    refine ⟨few,fun mech inside => ?_⟩
    obtain ⟨found,same,small⟩ := each _ (List.mem_map_of_mem inside)
    obtain ⟨info,there,rfl⟩ := Option.map_eq_some_iff.mp same
    exact ⟨Option.isSome_iff_exists.mpr ⟨info,there⟩,small⟩
  | loadCertificates slotId =>
    obtain ⟨certs,opened,rfl⟩ := Option.map_eq_some_iff.mp has
    exact ⟨certs,opened,range⟩
  | loadSignData use =>
    obtain ⟨result,signed,rfl⟩ := Option.map_eq_some_iff.mp has
    obtain ⟨same,again,rfl⟩ := Option.map_eq_some_iff.mp replies
    cases signed.symm.trans again
    exact notReadsResult _ result reads
  | loadDecryptData use =>
    obtain ⟨result,signed,rfl⟩ := Option.map_eq_some_iff.mp has
    obtain ⟨same,again,rfl⟩ := Option.map_eq_some_iff.mp replies
    cases signed.symm.trans again
    exact notReadsResult _ result reads

/- A call and its answer agree exactly where the library leaves no gap in the answer, and never
for a signature or a decryption. -/
theorem tokenCallAgreesIff (library : TokenLibrary) (call : Call) : Agrees library call ↔ Answerable library call := by
  refine ⟨answerableOf,fun answerable => ?_⟩
  cases call with
  | remoteHandshake => exact readsLibrary library answerable
  | updateTokens => exact ⟨connectorTakes rfl,_,_,rfl,rfl,readsTokens answerable⟩
  | loadMechanisms slotId => exact ⟨connectorTakes rfl,_,_,rfl,rfl,readsMechanisms library answerable.1 answerable.2⟩
  | loadCertificates slotId =>
    obtain ⟨certs,opened,few,each⟩ := answerable
    refine ⟨connectorTakes rfl,_,_,?_,?_,readsCertificates few each⟩
    · rw [command,reply,opened]
      rfl
    · rw [outcome,opened]
      rfl
  | loadSignData use => exact absurd answerable id
  | loadDecryptData use => exact absurd answerable id

/- A token that signs everything with one byte. -/
def signer : TokenLibrary where
  loadLibrary := .error [0x6E,0x6F]
  getSlots _ := []
  getMechanisms _ := []
  mechStringEx _ := []
  getCertificates _ := none
  signData _ := some [1]
  decryptData _ := none

theorem signatureLost : ¬Agrees signer (.loadSignData ⟨1,1,[0x31],[1],[1,2,3]⟩) := by
  intro agrees
  exact answerableOf agrees

end Ltsm.Pkcs11Session
