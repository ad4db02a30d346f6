import Ltsm.StreamBufs

/-! The commands of the smart card channel, as the client's connector reads them. -/
namespace Ltsm.PcscCommands
open Library StreamBufs

namespace PcscOp

def ProtoVer : Nat := 2
def Init : Nat := 0xFD01
def Lite : Nat := 0xFD02

end PcscOp

namespace PcscLite

def EstablishContext : Nat := 0x01
def ReleaseContext : Nat := 0x02
def ListReaders : Nat := 0x03
def Connect : Nat := 0x04
def Reconnect : Nat := 0x05
def Disconnect : Nat := 0x06
def BeginTransaction : Nat := 0x07
def EndTransaction : Nat := 0x08
def Transmit : Nat := 0x09
def Control : Nat := 0x0A
def Status : Nat := 0x0B
def GetStatusChange : Nat := 0x0C
def Cancel : Nat := 0x0D
def GetAttrib : Nat := 0x0F
def SetAttrib : Nat := 0x10
def GetVersion : Nat := 0x11
def GetReaderState : Nat := 0x12
def WaitReaderStateChangeStart : Nat := 0x13
def WaitReaderStateChangeStop : Nat := 0x14

end PcscLite

/- An empty name is none. -/
structure ReaderState where
  szReader : Bytes
  dwCurrentState : UInt32
  rgbAtr : Bytes
  deriving DecidableEq, Repr

inductive Command
  | init
  | establishContext (scope : UInt32)
  | releaseContext (hContext : UInt64)
  | listReaders (hContext : UInt64)
  | connect (hContext : UInt64) (shareMode prefferedProtocols : UInt32) (readerName : Bytes)
  | reconnect (hCard : UInt64) (shareMode prefferedProtocols initialization : UInt32)
  | disconnect (hCard : UInt64) (disposition : UInt32)
  | beginTransaction (hCard : UInt64)
  | endTransaction (hCard : UInt64) (disposition : UInt32)
  | transmit (hCard : UInt64) (dwProtocol cbPciLength recvLength : UInt32) (sendBuffer : Bytes)
  | status (hCard : UInt64)
  | getStatusChange (hContext : UInt64) (timeout : UInt32) (states : List ReaderState)
  | control (hCard : UInt64) (controlCode recvLength : UInt32) (sendBuffer : Bytes)
  | cancel (hContext : UInt64)
  | getAttrib (hCard : UInt64) (attrId : UInt32)
  | setAttrib (hCard : UInt64) (attrId : UInt32) (attrBuf : Bytes)
  deriving DecidableEq, Repr

def pcscOpInit : Parse Command := do
  need 2
  let protoVer ← readIntLE16
  if protoVer.toNat ≠ PcscOp.ProtoVer then thrown else pure .init

def pcscLiteEstablishContext : Parse Command := do
  need 4
  let scope ← readIntLE32
  pure (.establishContext scope)

def pcscLiteReleaseContext : Parse Command := do
  need 8
  let hContext ← readIntLE64
  pure (.releaseContext hContext)

def pcscLiteListReaders : Parse Command := do
  need 8
  let hContext ← readIntLE64
  pure (.listReaders hContext)

def pcscLiteConnect : Parse Command := do
  need 20
  let hContext ← readIntLE64
  let shareMode ← readIntLE32
  let prefferedProtocols ← readIntLE32
  let len ← readIntLE32
  need len.toNat
  let readerName ← read len.toNat
  pure (.connect hContext shareMode prefferedProtocols readerName)

def pcscLiteReconnect : Parse Command := do
  need 20
  let hCard ← readIntLE64
  let shareMode ← readIntLE32
  let prefferedProtocols ← readIntLE32
  let initialization ← readIntLE32
  pure (.reconnect hCard shareMode prefferedProtocols initialization)

def pcscLiteDisconnect : Parse Command := do
  need 12
  let hCard ← readIntLE64
  let disposition ← readIntLE32
  pure (.disconnect hCard disposition)

def pcscLiteBeginTransaction : Parse Command := do
  need 8
  let hCard ← readIntLE64
  pure (.beginTransaction hCard)

def pcscLiteEndTransaction : Parse Command := do
  need 12
  let hCard ← readIntLE64
  let disposition ← readIntLE32
  pure (.endTransaction hCard disposition)

def pcscLiteTransmit : Parse Command := do
  need 24
  let hCard ← readIntLE64
  let dwProtocol ← readIntLE32
  let cbPciLength ← readIntLE32
  let recvLength ← readIntLE32
  let sendLength ← readIntLE32
  need sendLength.toNat
  let sendBuffer ← read sendLength.toNat
  pure (.transmit hCard dwProtocol cbPciLength recvLength sendBuffer)

def pcscLiteStatus : Parse Command := do
  need 8
  let hCard ← readIntLE64
  pure (.status hCard)

def readName (szReader : UInt32) : Parse Bytes := if szReader = 0 then pure [] else read szReader.toNat

/- The sums are of 32 bits. The length of the ATR is only asserted. -/
def readStates : Nat → Parse (List ReaderState)
  | 0 => pure []
  | count + 1 => do
    need 12
    let szReader ← readIntLE32
    let dwCurrentState ← readIntLE32
    let cbAtr ← readIntLE32
    need (szReader + cbAtr).toNat
    let name ← readName szReader
    let rgbAtr ← getRaw cbAtr.toNat
    let states ← readStates count
    pure (⟨name,dwCurrentState,rgbAtr⟩ :: states)

def pcscLiteGetStatusChange : Parse Command := do
  need 16
  let hContext ← readIntLE64
  let timeout ← readIntLE32
  let statesCount ← readIntLE32
  need (statesCount * 12).toNat
  let states ← readStates statesCount.toNat
  pure (.getStatusChange hContext timeout states)

def pcscLiteControl : Parse Command := do
  need 20
  let hCard ← readIntLE64
  let controlCode ← readIntLE32
  let sendLength ← readIntLE32
  let recvLength ← readIntLE32
  need sendLength.toNat
  let sendBuffer ← read sendLength.toNat
  pure (.control hCard controlCode recvLength sendBuffer)

def pcscLiteCancel : Parse Command := do
  need 8
  let hContext ← readIntLE64
  pure (.cancel hContext)

def pcscLiteGetAttrib : Parse Command := do
  need 12
  let hCard ← readIntLE64
  let attrId ← readIntLE32
  pure (.getAttrib hCard attrId)

def pcscLiteSetAttrib : Parse Command := do
  need 16
  let hCard ← readIntLE64
  let attrId ← readIntLE32
  let attrLen ← readIntLE32
  need attrLen.toNat
  let attrBuf ← read attrLen.toNat
  pure (.setAttrib hCard attrId attrBuf)

def pcscLiteCommand (cmd : UInt16) : Parse Command :=
  if cmd.toNat = PcscLite.EstablishContext then pcscLiteEstablishContext
  else if cmd.toNat = PcscLite.ReleaseContext then pcscLiteReleaseContext
  else if cmd.toNat = PcscLite.ListReaders then pcscLiteListReaders
  else if cmd.toNat = PcscLite.Connect then pcscLiteConnect
  else if cmd.toNat = PcscLite.Reconnect then pcscLiteReconnect
  else if cmd.toNat = PcscLite.Disconnect then pcscLiteDisconnect
  else if cmd.toNat = PcscLite.BeginTransaction then pcscLiteBeginTransaction
  else if cmd.toNat = PcscLite.EndTransaction then pcscLiteEndTransaction
  else if cmd.toNat = PcscLite.Transmit then pcscLiteTransmit
  else if cmd.toNat = PcscLite.Status then pcscLiteStatus
  else if cmd.toNat = PcscLite.GetStatusChange then pcscLiteGetStatusChange
  else if cmd.toNat = PcscLite.Control then pcscLiteControl
  else if cmd.toNat = PcscLite.Cancel then pcscLiteCancel
  else if cmd.toNat = PcscLite.GetAttrib then pcscLiteGetAttrib
  else if cmd.toNat = PcscLite.SetAttrib then pcscLiteSetAttrib
  else thrown

def pcscCmd (cmd : UInt16) : Parse Command :=
  if cmd.toNat = PcscOp.Init then pcscOpInit
  else if cmd.toNat = PcscOp.Lite then do
    let liteCmd ← readIntLE16
    pcscLiteCommand liteCmd
  else thrown

instance : Keeps pcscOpInit := by unfold pcscOpInit; infer_instance
instance : Keeps pcscLiteEstablishContext := by unfold pcscLiteEstablishContext; infer_instance
instance : Keeps pcscLiteReleaseContext := by unfold pcscLiteReleaseContext; infer_instance
instance : Keeps pcscLiteListReaders := by unfold pcscLiteListReaders; infer_instance
instance : Keeps pcscLiteConnect := by unfold pcscLiteConnect; infer_instance
instance : Keeps pcscLiteReconnect := by unfold pcscLiteReconnect; infer_instance
instance : Keeps pcscLiteDisconnect := by unfold pcscLiteDisconnect; infer_instance
instance : Keeps pcscLiteBeginTransaction := by unfold pcscLiteBeginTransaction; infer_instance
instance : Keeps pcscLiteEndTransaction := by unfold pcscLiteEndTransaction; infer_instance
instance : Keeps pcscLiteTransmit := by unfold pcscLiteTransmit; infer_instance
instance : Keeps pcscLiteStatus := by unfold pcscLiteStatus; infer_instance

instance (szReader : UInt32) : Keeps (readName szReader) := by unfold readName; infer_instance

instance (count : Nat) : Keeps (readStates count) := by
  induction count with
  | zero => unfold readStates; infer_instance
  | succ count ih => unfold readStates; infer_instance

instance : Keeps pcscLiteGetStatusChange := by unfold pcscLiteGetStatusChange; infer_instance
instance : Keeps pcscLiteControl := by unfold pcscLiteControl; infer_instance
instance : Keeps pcscLiteCancel := by unfold pcscLiteCancel; infer_instance
instance : Keeps pcscLiteGetAttrib := by unfold pcscLiteGetAttrib; infer_instance
instance : Keeps pcscLiteSetAttrib := by unfold pcscLiteSetAttrib; infer_instance

instance (cmd : UInt16) : Keeps (pcscLiteCommand cmd) := by
  unfold pcscLiteCommand
  infer_instance

theorem pcscCmdKeeps (cmd : UInt16) : Keeps (pcscCmd cmd) := by
  unfold pcscCmd
  infer_instance

/- The code of a command of the second kind. -/
def liteCmd : Command → Option Nat
  | .init => none
  | .establishContext _ => some PcscLite.EstablishContext
  | .releaseContext _ => some PcscLite.ReleaseContext
  | .listReaders _ => some PcscLite.ListReaders
  | .connect .. => some PcscLite.Connect
  | .reconnect .. => some PcscLite.Reconnect
  | .disconnect .. => some PcscLite.Disconnect
  | .beginTransaction _ => some PcscLite.BeginTransaction
  | .endTransaction .. => some PcscLite.EndTransaction
  | .transmit .. => some PcscLite.Transmit
  | .status _ => some PcscLite.Status
  | .getStatusChange .. => some PcscLite.GetStatusChange
  | .control .. => some PcscLite.Control
  | .cancel _ => some PcscLite.Cancel
  | .getAttrib .. => some PcscLite.GetAttrib
  | .setAttrib .. => some PcscLite.SetAttrib

def stateBytes (state : ReaderState) : Bytes :=
  littleEndian 4 state.szReader.length ++ littleEndian 4 state.dwCurrentState.toNat ++
    littleEndian 4 state.rgbAtr.length ++ state.szReader ++ state.rgbAtr

/- What stands behind the codes. -/
def args : Command → Bytes
  | .init => littleEndian 2 PcscOp.ProtoVer
  | .establishContext scope => littleEndian 4 scope.toNat
  | .releaseContext hContext => littleEndian 8 hContext.toNat
  | .listReaders hContext => littleEndian 8 hContext.toNat
  | .connect hContext shareMode prefferedProtocols readerName => littleEndian 8 hContext.toNat ++
      littleEndian 4 shareMode.toNat ++ littleEndian 4 prefferedProtocols.toNat ++
      littleEndian 4 readerName.length ++ readerName
  | .reconnect hCard shareMode prefferedProtocols initialization => littleEndian 8 hCard.toNat ++
      littleEndian 4 shareMode.toNat ++ littleEndian 4 prefferedProtocols.toNat ++ littleEndian 4 initialization.toNat
  | .disconnect hCard disposition => littleEndian 8 hCard.toNat ++ littleEndian 4 disposition.toNat
  | .beginTransaction hCard => littleEndian 8 hCard.toNat
  | .endTransaction hCard disposition => littleEndian 8 hCard.toNat ++ littleEndian 4 disposition.toNat
  | .transmit hCard dwProtocol cbPciLength recvLength sendBuffer => littleEndian 8 hCard.toNat ++
      littleEndian 4 dwProtocol.toNat ++ littleEndian 4 cbPciLength.toNat ++ littleEndian 4 recvLength.toNat ++
      littleEndian 4 sendBuffer.length ++ sendBuffer
  | .status hCard => littleEndian 8 hCard.toNat
  | .getStatusChange hContext timeout states => littleEndian 8 hContext.toNat ++ littleEndian 4 timeout.toNat ++
      littleEndian 4 states.length ++ states.flatMap stateBytes
  | .control hCard controlCode recvLength sendBuffer => littleEndian 8 hCard.toNat ++
      littleEndian 4 controlCode.toNat ++ littleEndian 4 sendBuffer.length ++ littleEndian 4 recvLength.toNat ++ sendBuffer
  | .cancel hContext => littleEndian 8 hContext.toNat
  | .getAttrib hCard attrId => littleEndian 8 hCard.toNat ++ littleEndian 4 attrId.toNat
  | .setAttrib hCard attrId attrBuf =>
    littleEndian 8 hCard.toNat ++ littleEndian 4 attrId.toNat ++ littleEndian 4 attrBuf.length ++ attrBuf

def code (cmd : Command) : UInt16 := UInt16.ofNat (if (liteCmd cmd).isNone then PcscOp.Init else PcscOp.Lite)

def body (cmd : Command) : Bytes := ((liteCmd cmd).map (littleEndian 2)).getD [] ++ args cmd

/- The data that a command ends in. -/
def data : Command → Option Bytes
  | .connect _ _ _ readerName => some readerName
  | .transmit _ _ _ _ sendBuffer => some sendBuffer
  | .control _ _ _ sendBuffer => some sendBuffer
  | .setAttrib _ _ attrBuf => some attrBuf
  | _ => none

def states : Command → List ReaderState
  | .getStatusChange _ _ states => states
  | _ => []

def MAX_ATR_SIZE : Nat := 33

/- Lengths that fit their fields, and the buffer of an ATR. -/
def Valid (cmd : Command) : Prop :=
  (∀ bytes ∈ data cmd, bytes.length < 2 ^ 32) ∧ (states cmd).length < 2 ^ 32 ∧
    ∀ state ∈ states cmd, state.rgbAtr.length ≤ MAX_ATR_SIZE ∧ state.szReader.length + state.rgbAtr.length < 2 ^ 32

theorem readNameFront {α : Type} (name more : Bytes) (f : Bytes → Parse α) (small : name.length < 2 ^ 32) :
    (readName (UInt32.ofNat name.length) >>= f) (name ++ more) = f name more := by
  cases name with
  | nil => rfl
  | cons c name =>
    have some : UInt32.ofNat (c :: name).length ≠ 0 := by
      intro zero
      have value := congrArg UInt32.toNat zero
      rw [UInt32.toNat_ofNat_of_lt' small] at value
      simp at value
    rw [readName,if_neg some,UInt32.toNat_ofNat_of_lt' small,readFront (by simp)]

theorem stateLength (state : ReaderState) :
    (stateBytes state).length = 12 + (state.szReader.length + state.rgbAtr.length) := by
  simp [stateBytes]
  omega

theorem readStatesTakes (list : List ReaderState)
    (valid : ∀ state ∈ list, state.szReader.length + state.rgbAtr.length < 2 ^ 32) :
    Takes (readStates list.length) (list.flatMap stateBytes) list (fun _ => True) (fun _ => True) := by
  induction list with
  | nil => exact takesDone []
  | cons state list ih =>
    obtain ⟨first,later⟩ := List.forall_mem_cons.mp valid
    have nameSmall : state.szReader.length < 2 ^ 32 := by omega
    have atrSmall : state.rgbAtr.length < 2 ^ 32 := by omega
    have sum : (UInt32.ofNat state.szReader.length + UInt32.ofNat state.rgbAtr.length).toNat =
        (state.szReader ++ state.rgbAtr).length := by
      rw [UInt32.toNat_add,UInt32.toNat_ofNat_of_lt' nameSmall,UInt32.toNat_ofNat_of_lt' atrSmall,
        Nat.mod_eq_of_lt first,List.length_append]
    have others := takesMap (f := (state :: ·)) (ih later) (by simp)
    have names := takesFrontAny others (p := readName (UInt32.ofNat state.szReader.length) >>= fun name =>
      getRaw state.rgbAtr.length >>= fun rgbAtr => readStates list.length >>= fun states =>
        pure (⟨name,state.dwCurrentState,rgbAtr⟩ :: states)) rfl fun more => by
      rw [List.append_assoc,readNameFront _ _ _ nameSmall,getRawFront]
    have shape : (state :: list).flatMap stateBytes = (littleEndian 4 state.szReader.length ++
        littleEndian 4 state.dwCurrentState.toNat ++ littleEndian 4 state.rgbAtr.length) ++
          ((state.szReader ++ state.rgbAtr) ++ list.flatMap stateBytes) := by simp [stateBytes]
    rw [shape]
    refine takesFrontAny names (by simp) fun more => ?_
    rw [List.append_assoc,List.append_assoc,readIntLE32Number nameSmall,readIntLE32Front,readIntLE32Number atrSmall,
      sum,UInt32.toNat_ofNat_of_lt' atrSmall]

theorem pcscLiteGetStatusChangeTakes (hContext : UInt64) (timeout : UInt32) (list : List ReaderState)
    (few : list.length < 2 ^ 32)
    (valid : ∀ state ∈ list, state.szReader.length + state.rgbAtr.length < 2 ^ 32) :
    Takes pcscLiteGetStatusChange (args (.getStatusChange hContext timeout list)) (.getStatusChange hContext timeout list)
      (fun _ => True) (fun _ => True) := by
  have size : (UInt32.ofNat list.length * 12).toNat ≤ (list.flatMap stateBytes).length := by
    have each : list.length * 12 ≤ (list.flatMap stateBytes).length := by
      clear few valid
      induction list with
      | nil => simp
      | cons state list ih =>
        rw [List.flatMap_cons,List.length_append,stateLength,List.length_cons]
        omega
    rw [UInt32.toNat_mul,UInt32.toNat_ofNat_of_lt' few]
    exact (Nat.mod_le _ _).trans each
  have rest := takesNeed (takesMap (f := Command.getStatusChange hContext timeout) (readStatesTakes list valid)
    (by simp)) size
  refine takesFrontAny rest (by simp) fun more => ?_
  rw [List.append_assoc,List.append_assoc,readIntLE64Front,readIntLE32Front,readIntLE32Number few,
    UInt32.toNat_ofNat_of_lt' few]

/- The commands of fixed size, and those that end in data. -/
theorem takesLite {p : Parse Command} {cmd : Command} {size : Nat} (length : (args cmd).length = size)
    (reads : ∀ more, p (args cmd ++ more) = (pure cmd : Parse Command) more) (fixed : data cmd = none) :
    Takes (need size >>= fun _ => p) (args cmd) cmd (fun more => data cmd = some [] → more = []) (fun _ => True) :=
  (takesFixed length reads).congr (fun more => by simp [fixed]) fun _ _ => Iff.rfl

theorem takesLiteData (make : Bytes → Command) {p : Parse Command} {cmd : Command} {head tail : Bytes} {size : Nat}
    (split : args cmd = head ++ tail) (made : cmd = make tail) (ends : data cmd = some tail)
    (injective : ∀ more, make more = make [] → more = []) (length : head.length = size)
    (reads : ∀ more, p (head ++ more) =
      (need tail.length >>= fun _ => read tail.length >>= fun tail => pure (make tail)) more) :
    Takes (need size >>= fun _ => p) (args cmd) cmd (fun more => data cmd = some [] → more = []) (fun _ => True) := by
  have takes := takesFrontAny (takesRest injective) length reads
  rw [← made] at takes
  rw [split]
  exact takes.congr (fun more => by simp [ends]) fun _ _ => Iff.rfl

/- A command behind its second code. -/
theorem pcscLiteCommandTakes (cmd : Command) (valid : Valid cmd) (lite : Nat) (coded : liteCmd cmd = some lite) :
    Takes (pcscLiteCommand (UInt16.ofNat lite)) (args cmd) cmd (fun more => data cmd = some [] → more = [])
      (fun _ => True) := by
  obtain ⟨small,few,atrs⟩ := valid
  cases cmd with
  | init => cases coded
  | establishContext scope =>
    cases coded
    have here : pcscLiteCommand (UInt16.ofNat PcscLite.EstablishContext) = pcscLiteEstablishContext := rfl
    rw [here]
    refine takesLite (by simp [args]) (fun more => ?_) rfl
    simp only [args,readIntLE32Front]
  | releaseContext hContext =>
    cases coded
    have here : pcscLiteCommand (UInt16.ofNat PcscLite.ReleaseContext) = pcscLiteReleaseContext := rfl
    rw [here]
    refine takesLite (by simp [args]) (fun more => ?_) rfl
    simp only [args,readIntLE64Front]
  | listReaders hContext =>
    cases coded
    have here : pcscLiteCommand (UInt16.ofNat PcscLite.ListReaders) = pcscLiteListReaders := rfl
    rw [here]
    refine takesLite (by simp [args]) (fun more => ?_) rfl
    simp only [args,readIntLE64Front]
  | reconnect hCard shareMode prefferedProtocols initialization =>
    cases coded
    have here : pcscLiteCommand (UInt16.ofNat PcscLite.Reconnect) = pcscLiteReconnect := rfl
    rw [here]
    refine takesLite (by simp [args]) (fun more => ?_) rfl
    simp only [args,List.append_assoc,readIntLE64Front,readIntLE32Front]
  | disconnect hCard disposition =>
    cases coded
    have here : pcscLiteCommand (UInt16.ofNat PcscLite.Disconnect) = pcscLiteDisconnect := rfl
    rw [here]
    refine takesLite (by simp [args]) (fun more => ?_) rfl
    simp only [args,List.append_assoc,readIntLE64Front,readIntLE32Front]
  | beginTransaction hCard =>
    cases coded
    have here : pcscLiteCommand (UInt16.ofNat PcscLite.BeginTransaction) = pcscLiteBeginTransaction := rfl
    rw [here]
    refine takesLite (by simp [args]) (fun more => ?_) rfl
    simp only [args,readIntLE64Front]
  | endTransaction hCard disposition =>
    cases coded
    have here : pcscLiteCommand (UInt16.ofNat PcscLite.EndTransaction) = pcscLiteEndTransaction := rfl
    rw [here]
    refine takesLite (by simp [args]) (fun more => ?_) rfl
    simp only [args,List.append_assoc,readIntLE64Front,readIntLE32Front]
  | status hCard =>
    cases coded
    have here : pcscLiteCommand (UInt16.ofNat PcscLite.Status) = pcscLiteStatus := rfl
    rw [here]
    refine takesLite (by simp [args]) (fun more => ?_) rfl
    simp only [args,readIntLE64Front]
  | cancel hContext =>
    cases coded
    have here : pcscLiteCommand (UInt16.ofNat PcscLite.Cancel) = pcscLiteCancel := rfl
    rw [here]
    refine takesLite (by simp [args]) (fun more => ?_) rfl
    simp only [args,readIntLE64Front]
  | getAttrib hCard attrId =>
    cases coded
    have here : pcscLiteCommand (UInt16.ofNat PcscLite.GetAttrib) = pcscLiteGetAttrib := rfl
    rw [here]
    refine takesLite (by simp [args]) (fun more => ?_) rfl
    simp only [args,List.append_assoc,readIntLE64Front,readIntLE32Front]
  | connect hContext shareMode prefferedProtocols readerName =>
    cases coded
    have fits := small readerName rfl
    have here : pcscLiteCommand (UInt16.ofNat PcscLite.Connect) = pcscLiteConnect := rfl
    rw [here]
    refine takesLiteData (Command.connect hContext shareMode prefferedProtocols) rfl rfl rfl (by simp) (by simp) fun more => ?_
    simp only [List.append_assoc,readIntLE64Front,readIntLE32Front,readIntLE32Number fits,
      UInt32.toNat_ofNat_of_lt' fits]
  | transmit hCard dwProtocol cbPciLength recvLength sendBuffer =>
    cases coded
    have fits := small sendBuffer rfl
    have here : pcscLiteCommand (UInt16.ofNat PcscLite.Transmit) = pcscLiteTransmit := rfl
    rw [here]
    refine takesLiteData (Command.transmit hCard dwProtocol cbPciLength recvLength) rfl rfl rfl (by simp) (by simp) fun more => ?_
    simp only [List.append_assoc,readIntLE64Front,readIntLE32Front,readIntLE32Number fits,
      UInt32.toNat_ofNat_of_lt' fits]
  | control hCard controlCode recvLength sendBuffer =>
    cases coded
    have fits := small sendBuffer rfl
    have here : pcscLiteCommand (UInt16.ofNat PcscLite.Control) = pcscLiteControl := rfl
    rw [here]
    refine takesLiteData (Command.control hCard controlCode recvLength) rfl rfl rfl (by simp) (by simp) fun more => ?_
    simp only [List.append_assoc,readIntLE64Front,readIntLE32Front,readIntLE32Number fits,
      UInt32.toNat_ofNat_of_lt' fits]
  | setAttrib hCard attrId attrBuf =>
    cases coded
    have fits := small attrBuf rfl
    have here : pcscLiteCommand (UInt16.ofNat PcscLite.SetAttrib) = pcscLiteSetAttrib := rfl
    rw [here]
    refine takesLiteData (Command.setAttrib hCard attrId) rfl rfl rfl (by simp) (by simp) fun more => ?_
    simp only [List.append_assoc,readIntLE64Front,readIntLE32Front,readIntLE32Number fits,
      UInt32.toNat_ofNat_of_lt' fits]
  | getStatusChange hContext timeout list =>
    cases coded
    exact (pcscLiteGetStatusChangeTakes hContext timeout list few fun state mem => (atrs state mem).2).congr
      (fun more => by simp [data]) fun _ _ => Iff.rfl

theorem pcscOpInitTakes : Takes pcscOpInit (args .init) .init (fun _ => True) (fun _ => True) := by
  refine takesFixed (by simp [args]) fun more => ?_
  have two : PcscOp.ProtoVer < 2 ^ 16 := by decide
  have same : ¬ (UInt16.ofNat PcscOp.ProtoVer).toNat ≠ PcscOp.ProtoVer := by decide
  rw [args,readIntLE16Number two,if_neg same]

/- With its header there the second code is there. -/
def Begun (cmd : Command) (n : Nat) : Prop := cmd = .init ∨ 2 ≤ n

theorem liteSmall (cmd : Command) (lite : Nat) (coded : liteCmd cmd = some lite) : lite < 2 ^ 16 := by
  cases cmd <;> cases coded <;> decide

theorem pcscCmdTakes (cmd : Command) (valid : Valid cmd) :
    Takes (pcscCmd (code cmd)) (body cmd) cmd (fun more => data cmd = some [] → more = []) (Begun cmd) := by
  cases coded : liteCmd cmd with
  | none =>
    have init : cmd = .init := by cases cmd <;> first | rfl | cases coded
    subst init
    have here : pcscCmd (code .init) = pcscOpInit := rfl
    have plain : body .init = args .init := rfl
    rw [here,plain]
    exact pcscOpInitTakes.congr (fun more => by simp [data]) fun n _ => by simp [Begun]
  | some lite =>
    have other : cmd ≠ .init := fun same => by rw [same] at coded; cases coded
    have small : (UInt16.ofNat lite).toNat = lite := UInt16.toNat_ofNat_of_lt' (liteSmall cmd lite coded)
    have here : pcscCmd (code cmd) = readIntLE16 >>= pcscLiteCommand := by
      rw [code,coded]
      rfl
    have front : body cmd = littleEndian 2 (UInt16.ofNat lite).toNat ++ args cmd := by
      rw [body,coded,small]
      rfl
    rw [here,front]
    exact (takesNumber (pcscLiteCommandTakes cmd valid lite coded)).congr (fun _ => Iff.rfl) fun n _ => by simp [Begun,other]

theorem bodyFilled (cmd : Command) : 4 ≤ 2 + (body cmd).length := by
  cases cmd <;> simp [body,liteCmd,args] <;> omega

/- `S` is the smart card system. -/
def format (S : Type) : Format S Command where
  header := 4
  dispatch _ := pcscCmd
  keeps _ := pcscCmdKeeps
  Valid := Valid
  code := code
  body := body
  Closed _ cmd more := data cmd = some [] → more = []
  Splits _ cmd n := Begun cmd n
  afterCode := Nat.le_add_right 2 2
  filled := bodyFilled
  takes _ := pcscCmdTakes

end Ltsm.PcscCommands
