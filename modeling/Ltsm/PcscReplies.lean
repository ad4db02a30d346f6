import Ltsm.PcscCommands

/-! What the client's smart card connector answers a command with. The smart card system of
the client is given. -/
namespace Ltsm.PcscReplies
open Library PcscCommands

def MAX_READERNAME : Nat := 128
def MAX_BUFFER_SIZE : Nat := 264
def MAX_BUFFER_SIZE_EXTENDED : Nat := 4 + 3 + 65536 + 3 + 2

/- What a call has put into a buffer of this size. -/
abbrev Filled (size : Nat) := {bytes : Bytes // bytes.length ≤ size}

def nothing (size : Nat) : Filled size := ⟨[],Nat.zero_le _⟩

/- The buffer for an answer of a card. -/
def recvSize (recvLength : UInt32) : Nat := if recvLength ≠ 0 then recvLength.toNat else MAX_BUFFER_SIZE_EXTENDED

structure Transmitted (size : Nat) where
  dwProtocol : UInt32
  cbPciLength : UInt32
  recvBuffer : Filled size
  ret : UInt32

structure CardStatus where
  state : UInt32
  protocol : UInt32
  readerName : Filled MAX_READERNAME
  atr : Filled MAX_ATR_SIZE
  ret : UInt32

/- What a call has put into the state of a reader. -/
structure ReaderEvent where
  dwEventState : UInt32
  rgbAtr : Filled MAX_ATR_SIZE

/- The calls into the system; the names of the readers come one behind the other, each with a
zero behind it. -/
structure CardSystem where
  establishContext : UInt32 → UInt64 × UInt32
  releaseContext : UInt64 → UInt32
  listReaders : UInt64 → Option Bytes
  connect : UInt64 → Bytes → UInt32 → UInt32 → UInt64 × UInt32 × UInt32
  reconnect : UInt64 → UInt32 → UInt32 → UInt32 → UInt32 × UInt32
  disconnect : UInt64 → UInt32 → UInt32
  beginTransaction : UInt64 → UInt32
  endTransaction : UInt64 → UInt32 → UInt32
  transmit : UInt64 → UInt32 → UInt32 → Bytes → (recvLength : UInt32) → Transmitted (recvSize recvLength)
  status : UInt64 → CardStatus
  getStatusChange : UInt64 → UInt32 → List ReaderState → (Nat → ReaderEvent) × UInt32
  control : UInt64 → UInt32 → Bytes → (recvLength : UInt32) → Filled (recvSize recvLength) × UInt32
  cancel : UInt64 → UInt32
  getAttrib : UInt64 → UInt32 → Filled MAX_BUFFER_SIZE × UInt32
  setAttrib : UInt64 → UInt32 → Bytes → UInt32

/- The names in the buffer, the empty ones left out. -/
def readerNames (readersBuf : Bytes) : List Bytes := (readersBuf.splitOn 0).filter (· ≠ [])

def getListReaders (system : CardSystem) (hContext : UInt64) : List Bytes :=
  match system.listReaders hContext with
  | none => []
  | some readersBuf => readerNames readersBuf

/- A reader of a status change, with what has become of it. -/
def eventBytes (state : ReaderState) (event : ReaderEvent) : Bytes :=
  littleEndian 4 state.dwCurrentState.toNat ++ littleEndian 4 event.dwEventState.toNat ++
    littleEndian 4 state.szReader.length ++ littleEndian 4 event.rgbAtr.val.length ++ state.szReader ++ event.rgbAtr.val

def reply (system : CardSystem) : Command → Bytes
  | .init => littleEndian 2 PcscOp.Init ++ littleEndian 2 0 ++ littleEndian 2 PcscOp.ProtoVer
  | .establishContext scope =>
    let (hContext,ret) := system.establishContext scope
    littleEndian 8 hContext.toNat ++ littleEndian 4 ret.toNat
  | .releaseContext hContext => littleEndian 4 (system.releaseContext hContext).toNat
  | .listReaders hContext =>
    let readers := getListReaders system hContext
    littleEndian 4 readers.length ++ readers.flatMap fun reader => littleEndian 4 reader.length ++ reader
  | .connect hContext shareMode prefferedProtocols readerName =>
    let (hCard,activeProtocol,ret) := system.connect hContext readerName shareMode prefferedProtocols
    littleEndian 8 hCard.toNat ++ littleEndian 4 activeProtocol.toNat ++ littleEndian 4 ret.toNat
  | .reconnect hCard shareMode prefferedProtocols initialization =>
    let (activeProtocol,ret) := system.reconnect hCard shareMode prefferedProtocols initialization
    littleEndian 4 activeProtocol.toNat ++ littleEndian 4 ret.toNat
  | .disconnect hCard disposition => littleEndian 4 (system.disconnect hCard disposition).toNat
  | .beginTransaction hCard => littleEndian 4 (system.beginTransaction hCard).toNat
  | .endTransaction hCard disposition => littleEndian 4 (system.endTransaction hCard disposition).toNat
  | .transmit hCard dwProtocol cbPciLength recvLength sendBuffer =>
    let out := system.transmit hCard dwProtocol cbPciLength sendBuffer recvLength
    littleEndian 4 out.dwProtocol.toNat ++ littleEndian 4 out.cbPciLength.toNat ++
      littleEndian 4 out.recvBuffer.val.length ++ littleEndian 4 out.ret.toNat ++ out.recvBuffer.val
  | .status hCard =>
    let out := system.status hCard
    let readerName := out.readerName.val.takeWhile (· ≠ 0)
    littleEndian 4 out.state.toNat ++ littleEndian 4 out.protocol.toNat ++ littleEndian 4 readerName.length ++
      littleEndian 4 out.atr.val.length ++ littleEndian 4 out.ret.toNat ++ readerName ++ out.atr.val
  | .getStatusChange hContext timeout states =>
    let out := system.getStatusChange hContext timeout states
    littleEndian 4 states.length ++ littleEndian 4 out.2.toNat ++
      (states.mapIdx fun i state => eventBytes state (out.1 i)).flatten
  | .control hCard controlCode recvLength sendBuffer =>
    let out := system.control hCard controlCode sendBuffer recvLength
    littleEndian 4 out.1.val.length ++ littleEndian 4 out.2.toNat ++ out.1.val
  | .cancel hContext => littleEndian 4 (system.cancel hContext).toNat
  | .getAttrib hCard attrId =>
    let out := system.getAttrib hCard attrId
    littleEndian 4 out.1.val.length ++ littleEndian 4 out.2.toNat ++ out.1.val
  | .setAttrib hCard attrId attrBuf => littleEndian 4 (system.setAttrib hCard attrId attrBuf).toNat

/- What goes into a frame: the names of all readers, the readers that were asked for with an
ATR each, or what the card answers. -/
def Fits (system : CardSystem) : Command → Prop
  | .listReaders hContext => 4 + ((getListReaders system hContext).map fun reader => 4 + reader.length).sum ≤ 65535
  | .transmit hCard dwProtocol cbPciLength recvLength sendBuffer =>
    16 + (system.transmit hCard dwProtocol cbPciLength sendBuffer recvLength).recvBuffer.val.length ≤ 65535
  | .getStatusChange hContext timeout states =>
    8 + (states.mapIdx fun i state => 16 + (state.szReader.length +
      ((system.getStatusChange hContext timeout states).1 i).rgbAtr.val.length)).sum ≤ 65535
  | .control hCard controlCode recvLength sendBuffer =>
    8 + (system.control hCard controlCode sendBuffer recvLength).1.val.length ≤ 65535
  | _ => True

theorem eventLength (state : ReaderState) (event : ReaderEvent) :
    (eventBytes state event).length = 16 + (state.szReader.length + event.rgbAtr.val.length) := by
  simp [eventBytes]
  omega

theorem eventsLength (states : List ReaderState) (events : Nat → ReaderEvent) :
    (states.mapIdx fun i state => eventBytes state (events i)).flatten.length =
      (states.mapIdx fun i state => 16 + (state.szReader.length + (events i).rgbAtr.val.length)).sum := by
  rw [List.length_flatten,List.mapIdx_eq_zipIdx_map,List.mapIdx_eq_zipIdx_map,List.map_map]
  simp only [Function.comp_def,eventLength]

theorem replyFitsIff (system : CardSystem) (cmd : Command) : (reply system cmd).length ≤ 65535 ↔ Fits system cmd := by
  cases cmd with
  | listReaders hContext =>
    simp only [reply,Fits,List.length_append,lengthLittleEndian,List.length_flatMap]
  | transmit hCard dwProtocol cbPciLength recvLength sendBuffer =>
    simp only [reply,Fits,List.length_append,lengthLittleEndian]
  | getStatusChange hContext timeout states =>
    simp only [reply,Fits,List.length_append,lengthLittleEndian,eventsLength]
  | control hCard controlCode recvLength sendBuffer =>
    simp only [reply,Fits,List.length_append,lengthLittleEndian]
  | status hCard =>
    have name := (system.status hCard).readerName.property
    have atr := (system.status hCard).atr.property
    have shown := (List.takeWhile_sublist (· ≠ 0) (l := (system.status hCard).readerName.val)).length_le
    simp only [MAX_READERNAME,MAX_ATR_SIZE] at name atr
    simp only [reply,Fits,List.length_append,lengthLittleEndian,iff_true]
    omega
  | getAttrib hCard attrId =>
    have room := (system.getAttrib hCard attrId).1.property
    simp only [MAX_BUFFER_SIZE] at room
    simp only [reply,Fits,List.length_append,lengthLittleEndian,iff_true]
    omega
  | _ => simp [reply,Fits]

end Ltsm.PcscReplies
