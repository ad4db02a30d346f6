import Ltsm.FuseReplies
import Ltsm.PcscReplies
import Mathlib.Data.List.TakeDrop
import Mathlib.Data.List.TakeWhile

/-! The calls of the session to the smart card system of the client: what goes out for a call,
and what is made of the reply. -/
namespace Ltsm.PcscRemote
open Library StreamBufs PcscCommands PcscReplies
open FuseReplies (recvIntLE readsLE recvLE32 recvLE64 reads32 reads64)

/- Up to the first zero, and no further than this. -/
def strnlen (str : Bytes) (maxlen : Nat) : Nat := ((str.take maxlen).takeWhile (· ≠ 0)).length

section
variable (pointer : Nat)

/- The length of a name is looked for in as many bytes as a pointer has. -/
def sendState (state : ReaderState) : Bytes :=
  let len := strnlen state.szReader pointer
  littleEndian 4 len ++ littleEndian 4 state.dwCurrentState.toNat ++ littleEndian 4 state.rgbAtr.length ++
    state.szReader.take len ++ state.rgbAtr

def sendLite (cmd : Nat) (args : Bytes) : Bytes := littleEndian 2 PcscOp.Lite ++ littleEndian 2 cmd ++ args

/- What PcscRemote writes, `pointer` is the size of one. -/
def request : Command → Bytes
  | .init => littleEndian 2 PcscOp.Init ++ littleEndian 2 PcscOp.ProtoVer
  | .establishContext scope => sendLite PcscLite.EstablishContext (littleEndian 4 scope.toNat)
  | .releaseContext context => sendLite PcscLite.ReleaseContext (littleEndian 8 context.toNat)
  | .listReaders context => sendLite PcscLite.ListReaders (littleEndian 8 context.toNat)
  | .connect context shareMode prefferedProtocols readerName => sendLite PcscLite.Connect
      (littleEndian 8 context.toNat ++ littleEndian 4 shareMode.toNat ++ littleEndian 4 prefferedProtocols.toNat ++
        littleEndian 4 readerName.length ++ readerName)
  | .reconnect handle shareMode prefferedProtocols initialization => sendLite PcscLite.Reconnect
      (littleEndian 8 handle.toNat ++ littleEndian 4 shareMode.toNat ++ littleEndian 4 prefferedProtocols.toNat ++
        littleEndian 4 initialization.toNat)
  | .disconnect handle disposition =>
    sendLite PcscLite.Disconnect (littleEndian 8 handle.toNat ++ littleEndian 4 disposition.toNat)
  | .beginTransaction handle => sendLite PcscLite.BeginTransaction (littleEndian 8 handle.toNat)
  | .endTransaction handle disposition =>
    sendLite PcscLite.EndTransaction (littleEndian 8 handle.toNat ++ littleEndian 4 disposition.toNat)
  | .transmit handle ioSendPciProtocol ioSendPciLength recvLength data1 => sendLite PcscLite.Transmit
      (littleEndian 8 handle.toNat ++ littleEndian 4 ioSendPciProtocol.toNat ++ littleEndian 4 ioSendPciLength.toNat ++
        littleEndian 4 recvLength.toNat ++ littleEndian 4 data1.length ++ data1)
  | .status handle => sendLite PcscLite.Status (littleEndian 8 handle.toNat)
  | .getStatusChange context timeout states => sendLite PcscLite.GetStatusChange
      (littleEndian 8 context.toNat ++ littleEndian 4 timeout.toNat ++ littleEndian 4 states.length ++
        states.flatMap (sendState pointer))
  | .control handle controlCode recvLength data1 => sendLite PcscLite.Control
      (littleEndian 8 handle.toNat ++ littleEndian 4 controlCode.toNat ++ littleEndian 4 data1.length ++
        littleEndian 4 recvLength.toNat ++ data1)
  | .cancel context => sendLite PcscLite.Cancel (littleEndian 8 context.toNat)
  | .getAttrib handle attrId => sendLite PcscLite.GetAttrib (littleEndian 8 handle.toNat ++ littleEndian 4 attrId.toNat)
  | .setAttrib handle attrId attr => sendLite PcscLite.SetAttrib
      (littleEndian 8 handle.toNat ++ littleEndian 4 attrId.toNat ++ littleEndian 4 attr.length ++ attr)

/- The name as it goes out. -/
def cutState (state : ReaderState) : ReaderState :=
  {state with szReader := state.szReader.take (strnlen state.szReader pointer)}

def cut : Command → Command
  | .getStatusChange context timeout states => .getStatusChange context timeout (states.map (cutState pointer))
  | cmd => cmd

end

/- What a call gives back. -/
inductive Answer
  | init
  | establishedContext (context : UInt64) (ret : UInt32)
  | ret (ret : UInt32)
  | listReaders (names : List Bytes)
  | connect (handle : UInt64) (activeProtocol ret : UInt32)
  | reconnect (activeProtocol ret : UInt32)
  | transmit (ioRecvPciProtocol ioRecvPciLength ret : UInt32) (data2 : Bytes)
  | status (readerName : Bytes) (state protocol ret : UInt32) (atr : Bytes)
  | getStatusChange (ret : UInt32) (states : List (UInt32 × UInt32 × Bytes))
  | data (ret : UInt32) (data2 : Bytes)
  deriving DecidableEq, Repr

def fixedStringName (str : Bytes) : Bytes := (str.reverse.dropWhile (· = 0)).reverse

/- An error is the length of its text. -/
def remoteHandshake : Reader Answer := do
  let cmd ← recvIntLE 2
  let err ← recvIntLE 2
  if cmd ≠ PcscOp.Init then fail
  else if err ≠ 0 then fail
  else
    let ver ← recvIntLE 2
    if ver ≠ PcscOp.ProtoVer then fail else pure .init

def recvRet : Reader Answer := do
  let ret ← recvLE32
  pure (.ret ret)

def recvEstablishedContext : Reader Answer := do
  let context ← recvLE64
  let ret ← recvLE32
  pure (.establishedContext context ret)

def recvReader : Reader Bytes := do
  let readerLen ← recvIntLE 4
  let readerName ← takeBytes readerLen
  pure (readerName.take (MAX_READERNAME - 1))

def recvListReaders : Reader Answer := do
  let readersCount ← recvIntLE 4
  let names ← recvMany recvReader readersCount
  pure (.listReaders names)

def recvConnect : Reader Answer := do
  let handle ← recvLE64
  let activeProtocol ← recvLE32
  let ret ← recvLE32
  pure (.connect handle activeProtocol ret)

def recvReconnect : Reader Answer := do
  let activeProtocol ← recvLE32
  let ret ← recvLE32
  pure (.reconnect activeProtocol ret)

def recvTransmit : Reader Answer := do
  let ioRecvPciProtocol ← recvLE32
  let ioRecvPciLength ← recvLE32
  let bytesReturned ← recvIntLE 4
  let ret ← recvLE32
  let data2 ← takeBytes bytesReturned
  pure (.transmit ioRecvPciProtocol ioRecvPciLength ret data2)

def recvStatus : Reader Answer := do
  let state ← recvLE32
  let protocol ← recvLE32
  let nameLen ← recvIntLE 4
  let atrLen ← recvIntLE 4
  let ret ← recvLE32
  let readerName ← takeBytes nameLen
  let atr ← takeBytes atrLen
  pure (.status (fixedStringName readerName) state protocol ret atr)

/- The name that comes back is only compared. -/
def recvState : Reader (UInt32 × UInt32 × Bytes) := do
  let curState ← recvLE32
  let dwState ← recvLE32
  let readerLen ← recvIntLE 4
  let cbAtr ← recvIntLE 4
  if MAX_ATR_SIZE < cbAtr then fail
  else
    let _ ← takeBytes readerLen
    let rgbAtr ← takeBytes cbAtr
    pure (curState,dwState,rgbAtr)

def recvGetStatusChange (statesCount : Nat) : Reader Answer := do
  let counts ← recvIntLE 4
  let ret ← recvLE32
  if counts ≠ statesCount then fail
  else
    let states ← recvMany recvState statesCount
    pure (.getStatusChange ret states)

def recvData : Reader Answer := do
  let bytesReturned ← recvIntLE 4
  let ret ← recvLE32
  let data2 ← takeBytes bytesReturned
  pure (.data ret data2)

def recvAttrib : Reader Answer := do
  let attrLen ← recvIntLE 4
  let ret ← recvLE32
  if MAX_BUFFER_SIZE < attrLen then fail
  else
    let attr ← takeBytes attrLen
    pure (.data ret attr)

/- What PcscRemote reads behind its request. -/
def recvAnswer : Command → Reader Answer
  | .init => remoteHandshake
  | .establishContext _ => recvEstablishedContext
  | .listReaders _ => recvListReaders
  | .connect .. => recvConnect
  | .reconnect .. => recvReconnect
  | .transmit .. => recvTransmit
  | .status _ => recvStatus
  | .getStatusChange _ _ states => recvGetStatusChange states.length
  | .control .. => recvData
  | .getAttrib .. => recvAttrib
  | .releaseContext _ | .disconnect .. | .beginTransaction _ | .endTransaction .. | .cancel _ | .setAttrib .. => recvRet

/- What the smart card system has answered. -/
def answer (system : CardSystem) : Command → Answer
  | .init => .init
  | .establishContext scope => .establishedContext (system.establishContext scope).1 (system.establishContext scope).2
  | .releaseContext hContext => .ret (system.releaseContext hContext)
  | .listReaders hContext => .listReaders (getListReaders system hContext)
  | .connect hContext shareMode prefferedProtocols readerName =>
    let (hCard,activeProtocol,ret) := system.connect hContext readerName shareMode prefferedProtocols
    .connect hCard activeProtocol ret
  | .reconnect hCard shareMode prefferedProtocols initialization =>
    let (activeProtocol,ret) := system.reconnect hCard shareMode prefferedProtocols initialization
    .reconnect activeProtocol ret
  | .disconnect hCard disposition => .ret (system.disconnect hCard disposition)
  | .beginTransaction hCard => .ret (system.beginTransaction hCard)
  | .endTransaction hCard disposition => .ret (system.endTransaction hCard disposition)
  | .transmit hCard dwProtocol cbPciLength recvLength sendBuffer =>
    let out := system.transmit hCard dwProtocol cbPciLength sendBuffer recvLength
    .transmit out.dwProtocol out.cbPciLength out.ret out.recvBuffer.val
  | .status hCard =>
    let out := system.status hCard
    .status (out.readerName.val.takeWhile (· ≠ 0)) out.state out.protocol out.ret out.atr.val
  | .getStatusChange hContext timeout states =>
    let out := system.getStatusChange hContext timeout states
    .getStatusChange out.2 (states.mapIdx fun i state => (state.dwCurrentState,(out.1 i).dwEventState,(out.1 i).rgbAtr.val))
  | .control hCard controlCode recvLength sendBuffer =>
    let out := system.control hCard controlCode sendBuffer recvLength
    .data out.2 out.1.val
  | .cancel hContext => .ret (system.cancel hContext)
  | .getAttrib hCard attrId => .data (system.getAttrib hCard attrId).2 (system.getAttrib hCard attrId).1.val
  | .setAttrib hCard attrId attrBuf => .ret (system.setAttrib hCard attrId attrBuf)

/- A call whose lengths fit their fields; the name of a reader is a string of C. -/
structure Call where
  cmd : Command
  valid : Valid cmd
  named : ∀ state ∈ states cmd, 0 ∉ state.szReader

/- The names of the readers are no longer than the system allows, and can be counted. -/
structure NamedSystem extends CardSystem where
  names : ∀ hContext, ∀ name ∈ getListReaders toCardSystem hContext, name.length ≤ MAX_READERNAME - 1
  few : ∀ hContext, (getListReaders toCardSystem hContext).length < 256 ^ 4

/- The client takes the whole request for this command, and the session takes the whole reply
for what the system has answered. -/
def Agrees (pointer : Nat) (system : CardSystem) (cmd : Command) : Prop :=
  (readIntLE16 >>= pcscCmd) (request pointer cmd) = .ok (cmd,[]) ∧
    Reads (recvAnswer cmd) (reply system cmd) (answer system cmd)

section
variable {pointer : Nat}

theorem strnlenFew (str : Bytes) : strnlen str pointer ≤ str.length :=
  ((List.takeWhile_sublist _).trans (List.take_sublist _ _)).length_le

theorem strnlenPlain {str : Bytes} (plain : 0 ∉ str) : strnlen str pointer = min pointer str.length := by
  have all : ∀ c ∈ str.take pointer, decide (c ≠ 0) = true := by
    intro c inside
    have other : c ≠ 0 := by
      rintro rfl
      exact plain (List.mem_of_mem_take inside)
    simpa using other
  rw [strnlen,List.takeWhile_eq_self_iff.mpr all,List.length_take]

theorem cutStateIff {state : ReaderState} (plain : 0 ∉ state.szReader) :
    cutState pointer state = state ↔ state.szReader.length ≤ pointer := by
  have name : cutState pointer state = state ↔ state.szReader.take (strnlen state.szReader pointer) = state.szReader := by
    constructor
    · exact fun same => congrArg ReaderState.szReader same
    · intro same
      rw [cutState,same]
  rw [name,strnlenPlain plain,List.take_eq_self_iff]
  omega

/- A name goes out whole where it is no longer than a pointer. -/
theorem cutIff (call : Call) :
    cut pointer call.cmd = call.cmd ↔ ∀ state ∈ states call.cmd, state.szReader.length ≤ pointer := by
  obtain ⟨cmd,_,named⟩ := call
  dsimp only at named ⊢
  cases cmd with
  | getStatusChange context timeout list =>
    have each : list.map (cutState pointer) = list ↔ ∀ state ∈ list, cutState pointer state = state := by
      have all := @List.map_inj_left _ _ (l := list) (cutState pointer) id
      rwa [List.map_id] at all
    rw [cut,Command.getStatusChange.injEq,each]
    simp only [true_and]
    exact forall₂_congr fun state inside => cutStateIff (named state inside)
  | _ => simp [cut,states]

theorem sendStateBytes (state : ReaderState) : sendState pointer state = stateBytes (cutState pointer state) := by
  have length : (state.szReader.take (strnlen state.szReader pointer)).length = strnlen state.szReader pointer := by
    rw [List.length_take]
    exact Nat.min_eq_left (strnlenFew _)
  rw [sendState,stateBytes,cutState]
  dsimp only
  rw [length]

theorem requestBytes (cmd : Command) :
    request pointer cmd = littleEndian 2 (code (cut pointer cmd)).toNat ++ body (cut pointer cmd) := by
  cases cmd with
  | getStatusChange context timeout list =>
    have all : list.flatMap (sendState pointer) = (list.map (cutState pointer)).flatMap stateBytes := by
      rw [List.flatMap_map]
      exact congrArg (List.flatMap · list) (funext sendStateBytes)
    rw [request,all,cut,body,args,List.length_map]
    rfl
  | _ => rfl

theorem cutValid {cmd : Command} (valid : Valid cmd) : Valid (cut pointer cmd) := by
  obtain ⟨small,few,atrs⟩ := valid
  cases cmd with
  | getStatusChange context timeout list =>
    refine ⟨small,by simpa [cut,states] using few,fun state inside => ?_⟩
    obtain ⟨was,there,rfl⟩ := List.mem_map.mp inside
    obtain ⟨atr,sum⟩ := atrs was there
    refine ⟨atr,lt_of_le_of_lt ?_ sum⟩
    have less := (List.take_sublist (strnlen was.szReader pointer) was.szReader).length_le
    dsimp only [cutState]
    omega
  | _ => exact ⟨small,few,atrs⟩

theorem clientReads (call : Call) :
    (readIntLE16 >>= pcscCmd) (request pointer call.cmd) = .ok (cut pointer call.cmd,[]) := by
  have takes := pcscCmdTakes (cut pointer call.cmd) (cutValid call.valid)
  have whole := @Takes.whole _ _ _ _ _ _ takes [] []
  rw [List.append_nil] at whole
  rw [requestBytes,readIntLE16Front]
  exact whole.mpr ⟨rfl,fun _ => rfl⟩

theorem recvSizeFits (recvLength : UInt32) : recvSize recvLength < 256 ^ 4 := by
  have small := recvLength.toNat_lt
  rw [recvSize]
  split
  · exact small
  · decide

theorem readsRet (ret : UInt32) : Reads recvRet (littleEndian 4 ret.toNat) (.ret ret) := readsMap (reads32 ret) Answer.ret

theorem fixedPlain (name : Bytes) : fixedStringName (name.takeWhile (· ≠ 0)) = name.takeWhile (· ≠ 0) := by
  have whole : (name.takeWhile (· ≠ 0)).reverse.dropWhile (· = 0) = (name.takeWhile (· ≠ 0)).reverse := by
    cases turned : (name.takeWhile (· ≠ 0)).reverse with
    | nil => rfl
    | cons c rest =>
      have inside : c ∈ name.takeWhile (· ≠ 0) := List.mem_reverse.mp (turned ▸ List.mem_cons_self)
      have passed : decide (c ≠ 0) = true := List.mem_takeWhile_imp (p := fun c => decide (c ≠ 0)) inside
      have other := of_decide_eq_true passed
      rw [List.dropWhile_cons_of_neg (by simpa using other)]
  rw [fixedStringName,whole,List.reverse_reverse]

theorem readsReader {name : Bytes} (short : name.length ≤ MAX_READERNAME - 1) :
    Reads recvReader (littleEndian 4 name.length ++ name) name := by
  have whole := readsMap (readsTake name) (List.take (MAX_READERNAME - 1))
  rw [List.take_of_length_le short] at whole
  have small : name.length < 256 ^ 4 := lt_of_le_of_lt short (by decide)
  exact readsBind (readsLE small) whole

theorem readsReaders {names : List Bytes} (short : ∀ name ∈ names, name.length ≤ MAX_READERNAME - 1) :
    Reads (recvMany recvReader names.length) (names.flatMap fun reader => littleEndian 4 reader.length ++ reader) names := by
  induction names with
  | nil => exact readsPure []
  | cons name names ih =>
    obtain ⟨first,later⟩ := List.forall_mem_cons.mp short
    exact readsBind (readsReader first) (readsMap (ih later) _)

theorem readsState {state : ReaderState} (named : state.szReader.length < 256 ^ 4) (event : ReaderEvent) :
    Reads recvState (eventBytes state event) (state.dwCurrentState,event.dwEventState,event.rgbAtr.val) := by
  obtain ⟨event,atr,room⟩ := event
  have few : ¬MAX_ATR_SIZE < atr.length := Nat.not_lt.mpr room
  have small : atr.length < 256 ^ 4 := lt_of_le_of_lt room (by decide)
  simp only [eventBytes,List.append_assoc]
  refine readsBind (reads32 _) (readsBind (reads32 _) (readsBind (readsLE named) (readsBind (readsLE small) ?_)))
  rw [if_neg few]
  refine readsBind (readsTake state.szReader) ?_
  exact readsMap (readsTake atr) fun rgbAtr => (state.dwCurrentState,event,rgbAtr)

theorem readsStates (list : List ReaderState) (events : Nat → ReaderEvent)
    (named : ∀ state ∈ list, state.szReader.length < 256 ^ 4) :
    Reads (recvMany recvState list.length) (list.mapIdx fun i state => eventBytes state (events i)).flatten
      (list.mapIdx fun i state => (state.dwCurrentState,(events i).dwEventState,(events i).rgbAtr.val)) := by
  induction list generalizing events with
  | nil => exact readsPure []
  | cons state list ih =>
    obtain ⟨first,later⟩ := List.forall_mem_cons.mp named
    rw [List.mapIdx_cons,List.mapIdx_cons,List.flatten_cons]
    exact readsBind (readsState first _) (readsMap (ih (fun i => events (i + 1)) later) _)

theorem readsData {bytes : Bytes} (small : bytes.length < 256 ^ 4) (ret : UInt32) :
    Reads recvData (littleEndian 4 bytes.length ++ littleEndian 4 ret.toNat ++ bytes) (.data ret bytes) := by
  rw [List.append_assoc]
  exact readsBind (readsLE small) (readsBind (reads32 ret) (readsMap (readsTake bytes) (Answer.data ret)))

/- The session takes each reply for what was answered, whatever the names are. -/
theorem sessionReads (system : NamedSystem) {cmd : Command} (valid : Valid cmd) :
    Reads (recvAnswer cmd) (reply system.toCardSystem cmd) (answer system.toCardSystem cmd) := by
  cases cmd with
  | init =>
    have version : Reads (recvIntLE 2) (littleEndian 2 PcscOp.ProtoVer) PcscOp.ProtoVer := readsLE (by decide)
    simp only [recvAnswer,reply,List.append_assoc]
    refine readsBind (readsLE (by decide)) (readsBind (readsLE (by decide)) ?_)
    exact readsMap version fun _ => Answer.init
  | establishContext scope =>
    rcases outcome : system.establishContext scope with ⟨hContext,ret⟩
    simp only [recvAnswer,reply,answer,outcome]
    exact readsBind (reads64 hContext) (readsMap (reads32 ret) (Answer.establishedContext hContext))
  | listReaders hContext =>
    have few := system.few hContext
    have names := readsReaders (system.names hContext)
    simp only [recvAnswer,reply,answer]
    exact readsBind (readsLE few) (readsMap names Answer.listReaders)
  | connect hContext shareMode prefferedProtocols readerName =>
    rcases outcome : system.connect hContext readerName shareMode prefferedProtocols with ⟨hCard,activeProtocol,ret⟩
    simp only [recvAnswer,reply,answer,outcome,List.append_assoc]
    exact readsBind (reads64 hCard) (readsBind (reads32 activeProtocol)
      (readsMap (reads32 ret) (Answer.connect hCard activeProtocol)))
  | reconnect hCard shareMode prefferedProtocols initialization =>
    rcases outcome : system.reconnect hCard shareMode prefferedProtocols initialization with ⟨activeProtocol,ret⟩
    simp only [recvAnswer,reply,answer,outcome]
    exact readsBind (reads32 activeProtocol) (readsMap (reads32 ret) (Answer.reconnect activeProtocol))
  | transmit hCard dwProtocol cbPciLength recvLength sendBuffer =>
    have small := lt_of_le_of_lt
      (system.transmit hCard dwProtocol cbPciLength sendBuffer recvLength).recvBuffer.property (recvSizeFits recvLength)
    simp only [recvAnswer,reply,answer,List.append_assoc]
    generalize system.transmit hCard dwProtocol cbPciLength sendBuffer recvLength = out at small ⊢
    exact readsBind (reads32 out.dwProtocol) (readsBind (reads32 out.cbPciLength) (readsBind (readsLE small)
      (readsBind (reads32 out.ret) (readsMap (readsTake out.recvBuffer.val)
        (Answer.transmit out.dwProtocol out.cbPciLength out.ret)))))
  | status hCard =>
    simp only [recvAnswer,reply,answer,List.append_assoc]
    generalize system.status hCard = out
    have shown := (List.takeWhile_sublist (· ≠ 0) (l := out.readerName.val)).length_le
    have name : (out.readerName.val.takeWhile (· ≠ 0)).length < 256 ^ 4 :=
      lt_of_le_of_lt (shown.trans out.readerName.property) (by decide)
    have atr : out.atr.val.length < 256 ^ 4 := lt_of_le_of_lt out.atr.property (by decide)
    refine readsBind (reads32 out.state) (readsBind (reads32 out.protocol) (readsBind (readsLE name)
      (readsBind (readsLE atr) (readsBind (reads32 out.ret) (readsBind (readsTake _) ?_)))))
    rw [fixedPlain]
    exact readsMap (readsTake out.atr.val) _
  | getStatusChange hContext timeout list =>
    obtain ⟨_,few,names⟩ := valid
    have named : ∀ state ∈ list, state.szReader.length < 256 ^ 4 := by
      intro state inside
      have sum := (names state inside).2
      omega
    have events := readsStates list (system.getStatusChange hContext timeout list).1 named
    have same : ¬list.length ≠ list.length := by simp
    simp only [recvAnswer,reply,answer,List.append_assoc]
    refine readsBind (readsLE few) (readsBind (reads32 (system.getStatusChange hContext timeout list).2) ?_)
    rw [if_neg same]
    exact readsMap events (Answer.getStatusChange (system.getStatusChange hContext timeout list).2)
  | control hCard controlCode recvLength sendBuffer =>
    exact readsData (lt_of_le_of_lt (system.control hCard controlCode sendBuffer recvLength).1.property
      (recvSizeFits recvLength)) _
  | getAttrib hCard attrId =>
    have room := (system.getAttrib hCard attrId).1.property
    have few : ¬MAX_BUFFER_SIZE < (system.getAttrib hCard attrId).1.val.length := Nat.not_lt.mpr room
    have small : (system.getAttrib hCard attrId).1.val.length < 256 ^ 4 := lt_of_le_of_lt room (by decide)
    simp only [recvAnswer,reply,answer,List.append_assoc]
    refine readsBind (readsLE small) (readsBind (reads32 (system.getAttrib hCard attrId).2) ?_)
    rw [if_neg few]
    exact readsMap (readsTake _) (Answer.data (system.getAttrib hCard attrId).2)
  | releaseContext hContext => exact readsRet _
  | disconnect hCard disposition => exact readsRet _
  | beginTransaction hCard => exact readsRet _
  | endTransaction hCard disposition => exact readsRet _
  | cancel hContext => exact readsRet _
  | setAttrib hCard attrId attrBuf => exact readsRet _

/- A call agrees exactly where no name that it asks for is longer than a pointer. -/
theorem callAgreesIff (system : NamedSystem) (call : Call) : Agrees pointer system.toCardSystem call.cmd ↔
    ∀ state ∈ states call.cmd, state.szReader.length ≤ pointer := by
  rw [Agrees,clientReads,Except.ok.injEq,Prod.mk.injEq,and_iff_left rfl,cutIff,and_iff_left (sessionReads system call.valid)]

end

/- The call of syncReaderStatus for a reader, with the whole buffer of the ATR. -/
def statusOf (readerName : Bytes) : Command := .getStatusChange 1 0 [⟨readerName,0,List.replicate MAX_ATR_SIZE 0⟩]

def nineLetters : Bytes := [0x41,0x43,0x53,0x2D,0x41,0x43,0x52,0x33,0x38]

/- A system that has this one reader, with nothing in it. -/
def oneReader : CardSystem where
  establishContext _ := (1,0)
  releaseContext _ := 0
  listReaders _ := some (nineLetters ++ [0,0])
  connect _ _ _ _ := (0,0,0x8010000C)
  reconnect _ _ _ _ := (0,0x8010000C)
  disconnect _ _ := 0x80100003
  beginTransaction _ := 0x80100003
  endTransaction _ _ := 0x80100003
  transmit _ _ _ _ _ := ⟨0,0,nothing _,0x80100003⟩
  status _ := ⟨0,0,nothing _,nothing _,0x80100003⟩
  getStatusChange _ _ _ := (fun _ => ⟨0x12,nothing _⟩,0)
  control _ _ _ _ := (nothing _,0x80100003)
  cancel _ := 0
  getAttrib _ _ := (nothing _,0x80100003)
  setAttrib _ _ _ := 0x80100003

theorem nineLettersValid : Valid (statusOf nineLetters) := by
  simp [Valid,statusOf,data,states,MAX_ATR_SIZE,nineLetters]

/- Of nine letters eight go out, where a pointer has eight bytes. -/
theorem longNameCut : ¬Agrees 8 oneReader (statusOf nineLetters) := by
  intro agrees
  have parsed := (@clientReads 8 ⟨statusOf nineLetters,nineLettersValid,by decide⟩).symm.trans agrees.1
  rw [Except.ok.injEq,Prod.mk.injEq] at parsed
  exact absurd parsed.1 (by decide)

end Ltsm.PcscRemote
