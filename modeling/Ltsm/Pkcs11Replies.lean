import Ltsm.Pkcs11Commands

/-! What the client's token connector answers a command with. The library of the tokens is
given; where a session cannot be opened there is no answer. -/
namespace Ltsm.Pkcs11Replies
open Library Pkcs11Commands

/- The characters of a field of the library, filled up with blanks. -/
abbrev Chars (size : Nat) := {bytes : Bytes // bytes.length = size}

structure Version where
  major : UInt8
  minor : UInt8

structure LibraryInfo where
  cryptokiVersion : Version
  manufacturerID : Chars 32
  flags : UInt64
  libraryDescription : Chars 32
  libraryVersion : Version

structure SlotInfo where
  slotDescription : Chars 64
  manufacturerID : Chars 32
  flags : UInt64
  hardwareVersion : Version
  firmwareVersion : Version

structure TokenInfo where
  label : Chars 32
  manufacturerID : Chars 32
  model : Chars 16
  serialNumber : Chars 16
  flags : UInt64
  ulMaxSessionCount : UInt64
  ulSessionCount : UInt64
  ulMaxRwSessionCount : UInt64
  ulRwSessionCount : UInt64
  ulMaxPinLen : UInt64
  ulMinPinLen : UInt64
  ulTotalPublicMemory : UInt64
  ulFreePublicMemory : UInt64
  ulTotalPrivateMemory : UInt64
  ulFreePrivateMemory : UInt64
  hardwareVersion : Version
  firmwareVersion : Version
  utcTime : Chars 16

structure MechInfo where
  ulMinKeySize : UInt64
  ulMaxKeySize : UInt64
  flags : UInt64

structure Slot where
  slotId : UInt64
  slotInfo : Option SlotInfo
  tokenInfo : Option TokenInfo

structure Certificate where
  rawId : Bytes
  rawValue : Bytes

/- The library and its tokens; `mechStringEx` is the table of the names of mechanisms. A
library that does not load has a text for that, and no session is `none`. -/
structure TokenLibrary where
  loadLibrary : Except Bytes LibraryInfo
  getSlots : Bool → List Slot
  getMechanisms : UInt64 → List (UInt64 × Option MechInfo)
  mechStringEx : UInt64 → Bytes
  getCertificates : UInt64 → Option (List Certificate)
  signData : KeyUse → Option Bytes
  decryptData : KeyUse → Option Bytes

def versionBytes (version : Version) : Bytes := [version.major,version.minor]

def libraryBytes (info : LibraryInfo) : Bytes :=
  versionBytes info.cryptokiVersion ++ info.manufacturerID.val ++ littleEndian 8 info.flags.toNat ++
    info.libraryDescription.val ++ versionBytes info.libraryVersion

def slotInfoBytes : Option SlotInfo → Bytes
  | none => [0]
  | some info => 1 :: (info.slotDescription.val ++ info.manufacturerID.val ++ littleEndian 8 info.flags.toNat ++
      versionBytes info.hardwareVersion ++ versionBytes info.firmwareVersion)

def tokenInfoBytes : Option TokenInfo → Bytes
  | none => [0]
  | some info => 1 :: (info.label.val ++ info.manufacturerID.val ++ info.model.val ++ info.serialNumber.val ++
      littleEndian 8 info.flags.toNat ++ littleEndian 8 info.ulMaxSessionCount.toNat ++
      littleEndian 8 info.ulSessionCount.toNat ++ littleEndian 8 info.ulMaxRwSessionCount.toNat ++
      littleEndian 8 info.ulRwSessionCount.toNat ++ littleEndian 8 info.ulMaxPinLen.toNat ++
      littleEndian 8 info.ulMinPinLen.toNat ++ littleEndian 8 info.ulTotalPublicMemory.toNat ++
      littleEndian 8 info.ulFreePublicMemory.toNat ++ littleEndian 8 info.ulTotalPrivateMemory.toNat ++
      littleEndian 8 info.ulFreePrivateMemory.toNat ++ versionBytes info.hardwareVersion ++
      versionBytes info.firmwareVersion ++ info.utcTime.val)

def slotBytes (slot : Slot) : Bytes :=
  littleEndian 8 slot.slotId.toNat ++ slotInfoBytes slot.slotInfo ++ tokenInfoBytes slot.tokenInfo

def mechBytes (name : Bytes) (mech : UInt64) : Option MechInfo → Bytes
  | none => littleEndian 2 0
  | some info => littleEndian 8 mech.toNat ++ littleEndian 8 info.ulMinKeySize.toNat ++
      littleEndian 8 info.ulMaxKeySize.toNat ++ littleEndian 8 info.flags.toNat ++ littleEndian 2 name.length ++ name

def certificateBytes (cert : Certificate) : Bytes :=
  littleEndian 2 cert.rawId.length ++ cert.rawId ++ littleEndian 4 cert.rawValue.length ++ cert.rawValue

def resultBytes (result : Bytes) : Bytes := littleEndian 4 result.length ++ result

def reply (library : TokenLibrary) : Command → Option Bytes
  | .init =>
    some (littleEndian 2 Pkcs11Op.Init ++ match library.loadLibrary with
      | .error error => littleEndian 2 error.length ++ error
      | .ok info => littleEndian 2 0 ++ littleEndian 2 Pkcs11Op.ProtoVer ++ libraryBytes info)
  | .getSlots tokenPresentOnly =>
    let slots := library.getSlots tokenPresentOnly
    some (littleEndian 2 Pkcs11Op.GetSlots ++ littleEndian 2 slots.length ++ slots.flatMap slotBytes)
  | .getSlotMechanisms slotId =>
    let mechs := library.getMechanisms slotId
    some (littleEndian 2 Pkcs11Op.GetSlotMechanisms ++ littleEndian 2 mechs.length ++
      mechs.flatMap fun mech => mechBytes (library.mechStringEx mech.1) mech.1 mech.2)
  | .getSlotCertificates slotId _ => (library.getCertificates slotId).map fun certs =>
    littleEndian 2 Pkcs11Op.GetSlotCertificates ++ littleEndian 2 certs.length ++ certs.flatMap certificateBytes
  | .signData use => (library.signData use).map resultBytes
  | .decryptData use => (library.decryptData use).map resultBytes

def slotSize (slot : Slot) : Nat :=
  8 + (if slot.slotInfo.isSome then 109 else 1) + (if slot.tokenInfo.isSome then 205 else 1)

def mechSize (name : Bytes) (info : Option MechInfo) : Nat := if info.isSome then 34 + name.length else 2

/- What goes into a frame: the text of an error, all slots, all mechanisms with their names,
all certificates, and what the token has signed or decrypted. -/
def Fits (library : TokenLibrary) : Command → Prop
  | .init => ∀ error, library.loadLibrary = .error error → 4 + error.length ≤ 65535
  | .getSlots tokenPresentOnly => 4 + ((library.getSlots tokenPresentOnly).map slotSize).sum ≤ 65535
  | .getSlotMechanisms slotId =>
    4 + ((library.getMechanisms slotId).map fun mech => mechSize (library.mechStringEx mech.1) mech.2).sum ≤ 65535
  | .getSlotCertificates slotId _ => ∀ certs, library.getCertificates slotId = some certs →
    4 + (certs.map fun cert => 6 + (cert.rawId.length + cert.rawValue.length)).sum ≤ 65535
  | .signData use => ∀ result, library.signData use = some result → 4 + result.length ≤ 65535
  | .decryptData use => ∀ result, library.decryptData use = some result → 4 + result.length ≤ 65535

theorem libraryLength (info : LibraryInfo) : (libraryBytes info).length = 76 := by
  have maker := info.manufacturerID.property
  have description := info.libraryDescription.property
  simp [libraryBytes,versionBytes,maker,description]

theorem slotInfoLength (info : Option SlotInfo) : (slotInfoBytes info).length = if info.isSome then 109 else 1 := by
  cases info with
  | none => rfl
  | some info =>
    have description := info.slotDescription.property
    have maker := info.manufacturerID.property
    simp [slotInfoBytes,versionBytes,description,maker]

theorem tokenInfoLength (info : Option TokenInfo) : (tokenInfoBytes info).length = if info.isSome then 205 else 1 := by
  cases info with
  | none => rfl
  | some info =>
    have label := info.label.property
    have maker := info.manufacturerID.property
    have model := info.model.property
    have serial := info.serialNumber.property
    have time := info.utcTime.property
    simp [tokenInfoBytes,versionBytes,label,maker,model,serial,time]

theorem slotLength (slot : Slot) : (slotBytes slot).length = slotSize slot := by
  simp only [slotBytes,slotSize,List.length_append,lengthLittleEndian,slotInfoLength,tokenInfoLength]

theorem mechLength (name : Bytes) (mech : UInt64) (info : Option MechInfo) :
    (mechBytes name mech info).length = mechSize name info := by
  cases info with
  | none => rfl
  | some info => simp only [mechBytes,mechSize,List.length_append,lengthLittleEndian,Option.isSome_some,if_true]

theorem certificateLength (cert : Certificate) :
    (certificateBytes cert).length = 6 + (cert.rawId.length + cert.rawValue.length) := by
  simp only [certificateBytes,List.length_append,lengthLittleEndian]
  omega

theorem resultLength (result : Bytes) : (resultBytes result).length = 4 + result.length := by
  rw [resultBytes,List.length_append,lengthLittleEndian]

theorem replyFitsIff (library : TokenLibrary) (cmd : Command) :
    (∀ bytes ∈ reply library cmd, bytes.length ≤ 65535) ↔ Fits library cmd := by
  cases cmd with
  | init =>
    cases loaded : library.loadLibrary with
    | error error => simp only [reply,Fits,loaded,Option.mem_some_iff,forall_eq',List.length_append,lengthLittleEndian,
        Except.error.injEq,← Nat.add_assoc]
    | ok info => simp [reply,Fits,loaded,libraryLength]
  | getSlots tokenPresentOnly =>
    simp only [reply,Fits,Option.mem_some_iff,forall_eq',List.length_append,lengthLittleEndian,List.length_flatMap,
      slotLength]
  | getSlotMechanisms slotId =>
    simp only [reply,Fits,Option.mem_some_iff,forall_eq',List.length_append,lengthLittleEndian,List.length_flatMap,
      mechLength]
  | getSlotCertificates slotId pair =>
    cases got : library.getCertificates slotId with
    | none => simp [reply,Fits,got]
    | some certs => simp only [reply,Fits,got,Option.map_some,Option.mem_some_iff,forall_eq',Option.some.injEq,
        List.length_append,lengthLittleEndian,List.length_flatMap,certificateLength]
  | signData use =>
    cases got : library.signData use with
    | none => simp [reply,Fits,got]
    | some result => simp [reply,Fits,got,resultLength]
  | decryptData use =>
    cases got : library.decryptData use with
    | none => simp [reply,Fits,got]
    | some result => simp [reply,Fits,got,resultLength]

end Ltsm.Pkcs11Replies
