import Ltsm.TransferRequests
import Ltsm.SystemMessages

/-! The signals of the service at the connectors. A signal goes to every process; each of them has
its own display, and only a handler can tell whether the signal is for it. Texts of the log, sleeps
and times are left out. -/
namespace Ltsm.ConnectorSignals
open Library Channel SystemMessages TransferRequests

structure TupleRegion where
  x : Int16
  y : Int16
  width : UInt16
  height : UInt16
  deriving DecidableEq, Repr

structure TuplePosition where
  x : Int16
  y : Int16
  deriving DecidableEq, Repr

structure TupleColor where
  r : UInt8
  g : UInt8
  b : UInt8
  deriving DecidableEq, Repr

inductive RenderPrimitive
  | rect (region : TupleRegion) (color : TupleColor) (fill : Bool)
  | text (text : String) (region : TupleRegion) (color : TupleColor)
  deriving DecidableEq, Repr

def RenderPrimitive.region : RenderPrimitive → TupleRegion
  | .rect region _ _ => region
  | .text _ region _ => region

inductive Signal
  | helperSetTimezone (display : Int) (tz : String)
  | helperSetLoginPassword (display : Int) (login pass : String) (autologin : Bool)
  | helperPkcs11ListennerStarted (display connectorId : Int)
  | loginFailure (display : Int) (msg : String)
  | loginSuccess (display : Int) (userName : String) (userUid : UInt32)
  | shutdownConnector (display : Int)
  | pingConnector (display : Int)
  | sendBellSignal (display : Int)
  | sessionOnline (display : Int) (userName : String)
  | sessionOffline (display : Int) (userName : String)
  | sessionIdleTimeout (display : Int) (userName : String)
  | sessionReconnect (removeAddr connType : String)
  | displayRemoved (display : Int)
  | clearRenderPrimitives (display : Int)
  | createChannel (display : Int) (client cmode server smode speed : String)
  | destroyChannel (display : Int) (channel : UInt8)
  | transferAllow (display : Int) (allow : TransferAllow)
  | createListener (display : Int) (client cmode server smode speed : String) (limit : UInt8) (flags : UInt32)
  | destroyListener (display : Int) (client server : String)
  | addRenderRect (display : Int) (rect : TupleRegion) (color : TupleColor) (fill : Bool)
  | addRenderText (display : Int) (text : String) (pos : TuplePosition) (color : TupleColor)
  | debugChannel (display : Int) (channel : UInt8) (debug : Bool)
  deriving DecidableEq, Repr

def Signal.display : Signal → Option Int
  | .helperSetTimezone display _ | .helperSetLoginPassword display _ _ _ | .helperPkcs11ListennerStarted display _
  | .loginFailure display _ | .loginSuccess display _ _ | .shutdownConnector display | .pingConnector display
  | .sendBellSignal display | .sessionOnline display _ | .sessionOffline display _ | .sessionIdleTimeout display _
  | .displayRemoved display | .clearRenderPrimitives display | .createChannel display _ _ _ _ _
  | .destroyChannel display _ | .transferAllow display _ | .createListener display _ _ _ _ _ _ _
  | .destroyListener display _ _ | .addRenderRect display _ _ _ | .addRenderText display _ _ _
  | .debugChannel display _ _ => some display
  | .sessionReconnect _ _ => none

inductive Kind
  | ltsm
  | rdp
  deriving DecidableEq, Repr

/- `rfbMessages` and `clientLtsmSupported` are of the encoder, `loopShutdown` is of the other class. -/
structure Connector where
  kind : Kind
  displayNum : Int
  xcbDisable : Bool := false
  noDamage : Bool := false
  renderPrimitives : List RenderPrimitive := []
  shmUid : UInt32 := 0
  idleTimeoutSec : UInt32 := 0
  userSession : Bool := false
  transferPlanned : List FileSize := []
  clientLtsmSupported : Bool := true
  rfbMessages : Bool := true
  loopShutdown : Bool := false
  deriving DecidableEq, Repr

/- Calls to the service, and what is done to the screen, the channels and the client. -/
inductive Effect
  | busStartUserSession (display : Int) (userName : String)
  | busShutdownDisplay (display : Int)
  | busConnectorConnected (display : Int)
  | busSetSessionEncodings (display : Int)
  | busConnectorAlive (display : Int)
  | busTransferFileStarted (display : Int) (tmpfile : String) (filesz : UInt32) (dstfile : String)
  | setRandrScreenSize
  | serverScreenUpdateRequest (region : Option TupleRegion)
  | createChannel (client server : UrlMode) (opts : Opts)
  | destroyChannel (channel : UInt8)
  | createListener (client server : UrlMode) (limit : UInt8) (opts : Opts)
  | destroyListener (client server : String)
  | setChannelDebug (channel : UInt8) (debug : Bool)
  | rfbMessagesShutdown
  | stopEventLoop
  | sendBell
  | sendLtsmChannelData (buf : Bytes)
  deriving DecidableEq, Repr

/- What the service and the display answer while a handler runs. -/
structure Answers where
  newDisplay : Int
  xcbConnect : Bool
  sameSize : Bool
  idleTimeout : UInt32
  told : Bool
  systemFont : UInt16 × UInt16

abbrev Outcome := Connector × List Effect

/- The test that the handlers make. -/
def whenShown (display : Int) (body : Connector → Outcome) (k : Connector) : Outcome :=
  if display = k.displayNum then body k else (k,[])

def urlMode (url mode : String) : UrlMode :=
  ⟨(parseUrl url).1,(parseUrl url).2,connectorMode mode,url⟩

/- The system channel of the client, where it has channels and is still served. -/
def sendSystem (pushes : List (String × JsonStreams.Pushed)) (k : Connector) : List Effect :=
  if k.clientLtsmSupported && k.rfbMessages then [.sendLtsmChannelData (objectText pushes)] else []

def screenUpdate (region : TupleRegion) (k : Connector) : List Effect :=
  if k.xcbDisable || (k.kind = .ltsm && k.noDamage) then [] else [.serverScreenUpdateRequest (some region)]

/-! DBusProxy, for both classes. -/

def onClearRenderPrimitives (display : Int) : Connector → Outcome :=
  whenShown display fun k =>
    ({k with renderPrimitives := []},k.renderPrimitives.flatMap fun prim => screenUpdate prim.region k)

def onAddRenderRect (display : Int) (rect : TupleRegion) (color : TupleColor) (fill : Bool) : Connector → Outcome :=
  whenShown display fun k =>
    ({k with renderPrimitives := k.renderPrimitives ++ [.rect rect color fill]},screenUpdate rect k)

def textRegion (a : Answers) (text : String) (pos : TuplePosition) : TupleRegion :=
  ⟨pos.x,pos.y,UInt16.ofNat (a.systemFont.1.toNat * text.utf8ByteSize),a.systemFont.2⟩

def onAddRenderText (a : Answers) (display : Int) (text : String) (pos : TuplePosition) (color : TupleColor) :
    Connector → Outcome :=
  whenShown display fun k =>
    ({k with renderPrimitives := k.renderPrimitives ++ [.text text (textRegion a text pos) color]},
      screenUpdate (textRegion a text pos) k)

def onPingConnector (display : Int) : Connector → Outcome :=
  whenShown display fun k => (k,[.busConnectorAlive display])

/-! ConnectorLtsm. -/

/- Behind the move to the new display. -/
def ConnectorLtsm.sessionShown (a : Answers) (k : Connector) : Outcome :=
  ({k with xcbDisable := false,idleTimeoutSec := a.idleTimeout,userSession := true},
    (if a.sameSize then (if k.noDamage then [] else [.serverScreenUpdateRequest none]) else [.setRandrScreenSize]) ++
      [.busConnectorConnected a.newDisplay,.busSetSessionEncodings a.newDisplay] ++
      sendSystem [("cmd",.string (chars "LoginSuccess")),("action",.boolean true)] k)

def ConnectorLtsm.onLoginSuccess (a : Answers) (display : Int) (userName : String) (userUid : UInt32) (k : Connector) : Outcome :=
  if display ≠ k.displayNum then (k,[])
  else
    let k := {k with xcbDisable := true,shmUid := userUid}
    let start := Effect.busStartUserSession k.displayNum userName
    if a.newDisplay < 0 then (k,[start])
    else if a.newDisplay ≠ k.displayNum then
      if a.xcbConnect then
        let (shown,effects) := sessionShown a {k with displayNum := a.newDisplay}
        (shown,start :: .busShutdownDisplay k.displayNum :: effects)
      else (k,[start])
    else
      let (shown,effects) := sessionShown a k
      (shown,start :: effects)

def ConnectorLtsm.onShutdownConnector (display : Int) : Connector → Outcome :=
  whenShown display fun k => ({k with xcbDisable := true,rfbMessages := false},[.rfbMessagesShutdown])

def ConnectorLtsm.onSendBellSignal (display : Int) : Connector → Outcome :=
  whenShown display fun k => (k,if k.rfbMessages then [.sendBell] else [])

/- The one handler without the test. -/
def ConnectorLtsm.onLoginFailure (_ : Int) (msg : String) (k : Connector) : Outcome :=
  (k,sendSystem [("cmd",.string (chars "LoginSuccess")),("action",.boolean false),("error",.string (chars msg))] k)

def filename (path : String) : String := String.ofList (path.toList.reverse.takeWhile (· ≠ '/')).reverse

def transferEffects (a : TransferAllow) (told : Bool) (k : Connector) : List Effect :=
  match k.transferPlanned.find? fun st => a.filepath = st.name with
  | none => []
  | some st =>
    if a.accepts then
      Effect.createChannel (.ofParts .file a.filepath .readOnly) (.ofParts .file a.tmpfile .writeOnly) ⟨.slow,0⟩ ::
        if told then [.busTransferFileStarted k.displayNum a.tmpfile st.size (joined a.dstdir (filename a.filepath))] else []
    else []

def ConnectorLtsm.onTransferAllow (a : Answers) (display : Int) (allow : TransferAllow) : Connector → Outcome :=
  whenShown display fun k =>
    ({k with transferPlanned := transferAllowed allow a.told k.transferPlanned},transferEffects allow a.told k)

def ConnectorLtsm.onCreateChannel (display : Int) (client cmode server smode speed : String) : Connector → Outcome :=
  whenShown display fun k => (k,[.createChannel (urlMode client cmode) (urlMode server smode) ⟨connectorSpeed speed,0⟩])

def ConnectorLtsm.onDestroyChannel (display : Int) (channel : UInt8) : Connector → Outcome :=
  whenShown display fun k => (k,[.destroyChannel channel])

def ConnectorLtsm.onCreateListener (display : Int) (client cmode server smode speed : String) (limit : UInt8) (flags : UInt32) :
    Connector → Outcome :=
  whenShown display fun k =>
    (k,[.createListener (urlMode client cmode) (urlMode server smode) limit ⟨connectorSpeed speed,flags⟩])

def ConnectorLtsm.onDestroyListener (display : Int) (client server : String) : Connector → Outcome :=
  whenShown display fun k => (k,[.destroyListener client server])

def ConnectorLtsm.onDebugChannel (display : Int) (channel : UInt8) (debug : Bool) : Connector → Outcome :=
  whenShown display fun k => (k,[.setChannelDebug channel debug])

def ConnectorLtsm.onSignal (a : Answers) : Signal → Connector → Outcome
  | .loginFailure display msg => onLoginFailure display msg
  | .loginSuccess display userName userUid => onLoginSuccess a display userName userUid
  | .shutdownConnector display => onShutdownConnector display
  | .sendBellSignal display => onSendBellSignal display
  | .createChannel display client cmode server smode speed => onCreateChannel display client cmode server smode speed
  | .destroyChannel display channel => onDestroyChannel display channel
  | .transferAllow display allow => onTransferAllow a display allow
  | .createListener display client cmode server smode speed limit flags =>
    onCreateListener display client cmode server smode speed limit flags
  | .destroyListener display client server => onDestroyListener display client server
  | .debugChannel display channel debug => onDebugChannel display channel debug
  | _ => fun k => (k,[])

/-! ConnectorRdp. -/

def ConnectorRdp.sessionShown (a : Answers) (k : Connector) : Outcome :=
  ({k with xcbDisable := false},
    [if a.sameSize then .serverScreenUpdateRequest none else .setRandrScreenSize,.busConnectorConnected a.newDisplay])

def ConnectorRdp.onLoginSuccess (a : Answers) (display : Int) (userName : String) (k : Connector) : Outcome :=
  if display ≠ k.displayNum then (k,[])
  else
    let k := {k with xcbDisable := true}
    let start := Effect.busStartUserSession k.displayNum userName
    if a.newDisplay < 0 then (k,[start])
    else if a.newDisplay ≠ k.displayNum then
      if a.xcbConnect then
        let (shown,effects) := sessionShown a {k with displayNum := a.newDisplay}
        (shown,start :: .busShutdownDisplay k.displayNum :: effects)
      else (k,[start])
    else
      let (shown,effects) := sessionShown a k
      (shown,start :: effects)

def ConnectorRdp.onShutdownConnector (display : Int) : Connector → Outcome :=
  whenShown display fun k => ({k with xcbDisable := true,loopShutdown := true},[.stopEventLoop])

/- There is no beep. -/
def ConnectorRdp.onSendBellSignal (display : Int) : Connector → Outcome := whenShown display fun k => (k,[])

def ConnectorRdp.onSignal (a : Answers) : Signal → Connector → Outcome
  | .loginSuccess display userName _ => onLoginSuccess a display userName
  | .shutdownConnector display => onShutdownConnector display
  | .sendBellSignal display => onSendBellSignal display
  | _ => fun k => (k,[])

/- The handlers of the common class are not overridden; those that do nothing are of the class too. -/
def onSignal (a : Answers) (signal : Signal) (k : Connector) : Outcome :=
  match signal with
  | .pingConnector display => onPingConnector display k
  | .clearRenderPrimitives display => onClearRenderPrimitives display k
  | .addRenderRect display rect color fill => onAddRenderRect display rect color fill k
  | .addRenderText display text pos color => onAddRenderText a display text pos color k
  | signal =>
    match k.kind with
    | .ltsm => ConnectorLtsm.onSignal a signal k
    | .rdp => ConnectorRdp.onSignal a signal k

/-! The processes. -/

/- Signals come to a process in the order they were sent. -/
structure Process where
  connector : Connector
  signals : List Signal
  deriving DecidableEq, Repr

inductive Action
  | started (k : Connector)
  | emit (signal : Signal)
  | handle (index : Nat) (a : Answers)
  | exited (index : Nat)

def handle (index : Nat) (a : Answers) (processes : List Process) : List Process :=
  match processes[index]? with
  | some ⟨k,signal :: rest⟩ => processes.set index ⟨(onSignal a signal k).1,rest⟩
  | _ => processes

def step (processes : List Process) : Action → List Process
  | .started k => processes ++ [⟨k,[]⟩]
  | .emit signal => processes.map fun p => {p with signals := p.signals ++ [signal]}
  | .handle index a => handle index a processes
  | .exited index => processes.eraseIdx index

/- What a class does for a signal of its display; the others are taken by the helpers. -/
def Handled (signal : Signal) (k : Connector) : Bool :=
  match signal with
  | .loginSuccess .. | .shutdownConnector .. | .pingConnector .. | .addRenderRect .. | .addRenderText .. => true
  | .clearRenderPrimitives .. => k.renderPrimitives ≠ []
  | .sendBellSignal .. => k.kind = .ltsm && k.rfbMessages
  | .loginFailure .. => k.kind = .ltsm && k.clientLtsmSupported && k.rfbMessages
  | .transferAllow _ allow => k.kind = .ltsm && k.transferPlanned.any fun st => allow.filepath = st.name
  | .createChannel .. | .destroyChannel .. | .createListener .. | .destroyListener .. | .debugChannel .. => k.kind = .ltsm
  | _ => false

/- It changes, calls or sends something. -/
def Reacts (a : Answers) (signal : Signal) (k : Connector) : Prop := onSignal a signal k ≠ (k,[])

def Directed (a : Answers) (signal : Signal) (k : Connector) : Prop :=
  Reacts a signal k ↔ signal.display = some k.displayNum ∧ Handled signal k = true

/- A login that failed on another display is not heard by a connector that would tell its client. -/
def Apart (signal : Signal) (k : Connector) : Prop :=
  ∀ display msg, signal = .loginFailure display msg → Handled signal k = true → display = k.displayNum

/- Of the signal that the step takes, and the other processes stay. -/
def Addressed (processes : List Process) (action : Action) : Prop :=
  match action with
  | .handle index a =>
    (∀ k signal rest, processes[index]? = some ⟨k,signal :: rest⟩ → Directed a signal k) ∧
      ∀ other, other ≠ index → (step processes action)[other]? = processes[other]?
  | _ => True

def HeardApart (processes : List Process) : Action → Prop
  | .handle index _ => ∀ k signal rest, processes[index]? = some ⟨k,signal :: rest⟩ → Apart signal k
  | _ => True

section
variable {a : Answers} {signal : Signal} {k : Connector} {display : Int}

theorem shownReacts (body : Connector → Outcome) :
    whenShown display body k ≠ (k,[]) ↔ display = k.displayNum ∧ body k ≠ (k,[]) := by
  unfold whenShown
  split
  · rename_i shown
    simp [shown]
  · rename_i other
    simp [other]

/- With a call behind it. -/
theorem callsReacts (after : Connector) (effect : Effect) (more : List Effect) :
    ((after,effect :: more) : Outcome) ≠ (k,[]) := by simp

/- A handler that makes the test itself. -/
theorem testReacts {rest : Outcome} (reacts : rest ≠ (k,[])) :
    (if display ≠ k.displayNum then (k,[]) else rest) ≠ (k,[]) ↔ display = k.displayNum := by
  by_cases shown : display = k.displayNum
  · rw [if_neg (not_not.mpr shown)]
    exact iff_of_true reacts shown
  · rw [if_pos shown]
    exact iff_of_false (fun other => other rfl) shown

theorem ltsmLogin (userName : String) (userUid : UInt32) :
    ConnectorLtsm.onLoginSuccess a display userName userUid k ≠ (k,[]) ↔ display = k.displayNum := by
  unfold ConnectorLtsm.onLoginSuccess
  refine testReacts ?_
  dsimp only
  split_ifs <;> exact callsReacts _ _ _

theorem rdpLogin (userName : String) :
    ConnectorRdp.onLoginSuccess a display userName k ≠ (k,[]) ↔ display = k.displayNum := by
  unfold ConnectorRdp.onLoginSuccess
  refine testReacts ?_
  dsimp only
  split_ifs <;> exact callsReacts _ _ _

theorem transferReacts (allow : TransferAllow) :
    ConnectorLtsm.onTransferAllow a display allow k ≠ (k,[]) ↔
      display = k.displayNum ∧ (k.transferPlanned.any fun st => allow.filepath = st.name) = true := by
  rw [ConnectorLtsm.onTransferAllow,shownReacts]
  refine and_congr_right fun _ => ?_
  cases found : k.transferPlanned.find? fun st => allow.filepath = st.name with
  | none =>
    have absent : (k.transferPlanned.any fun st => allow.filepath = st.name) = false := by
      rw [List.any_eq_false]
      exact List.find?_eq_none.mp found
    simp [transferAllowed,transferEffects,found,absent]
  | some st =>
    have inside := List.mem_of_find?_eq_some found
    have named := List.find?_some found
    refine iff_of_true ?_ (List.any_eq_true.mpr ⟨st,inside,named⟩)
    unfold transferAllowed transferEffects
    rw [found]
    dsimp only
    cases accepts : allow.accepts with
    | true =>
      rw [if_pos rfl]
      exact callsReacts _ _ _
    | false =>
      intro same
      have planned := congrArg (fun out : Outcome => out.1.transferPlanned.length) same
      have shorter := List.length_eraseP_of_mem (p := fun st => allow.filepath = st.name) inside named
      simp only [Bool.false_and,Bool.false_eq_true,if_false,shorter] at planned
      have some := List.length_pos_of_mem inside
      omega

theorem failureReacts (msg : String) : ConnectorLtsm.onLoginFailure display msg k ≠ (k,[]) ↔
    (k.clientLtsmSupported && k.rfbMessages) = true := by
  unfold ConnectorLtsm.onLoginFailure sendSystem
  split
  · rename_i speaks
    exact iff_of_true (callsReacts _ _ _) speaks
  · rename_i silent
    exact iff_of_false (fun reacts => reacts rfl) silent

theorem clearReacts : onClearRenderPrimitives display k ≠ (k,[]) ↔
    display = k.displayNum ∧ k.renderPrimitives ≠ [] := by
  rw [onClearRenderPrimitives,shownReacts]
  refine and_congr_right fun _ => not_congr ⟨fun same => ?_,fun none => ?_⟩
  · exact (congrArg (fun out : Outcome => out.1.renderPrimitives) same).symm
  · rw [none]
    exact Prod.ext (by rw [← none]) rfl

/- One more primitive. -/
theorem addReacts (prim : RenderPrimitive) (effects : List Effect) :
    ((({k with renderPrimitives := k.renderPrimitives ++ [prim]} : Connector),effects) : Outcome) ≠ (k,[]) := by
  intro same
  have longer := congrArg (fun out : Outcome => out.1.renderPrimitives.length) same
  simp at longer

theorem rectReacts (rect : TupleRegion) (color : TupleColor) (fill : Bool) :
    onAddRenderRect display rect color fill k ≠ (k,[]) ↔ display = k.displayNum := by
  rw [onAddRenderRect,shownReacts]
  exact and_iff_left (addReacts _ _)

theorem textReacts (text : String) (pos : TuplePosition) (color : TupleColor) :
    onAddRenderText a display text pos color k ≠ (k,[]) ↔ display = k.displayNum := by
  rw [onAddRenderText,shownReacts]
  exact and_iff_left (addReacts _ _)

theorem pingReacts : onPingConnector display k ≠ (k,[]) ↔ display = k.displayNum := by
  rw [onPingConnector,shownReacts]
  exact and_iff_left (callsReacts _ _ _)

/- All handlers but one have the test. -/
theorem directed (shows : ∀ display msg, signal ≠ .loginFailure display msg) : Directed a signal k := by
  unfold Directed Reacts onSignal
  cases signal with
  | loginFailure display msg => exact absurd rfl (shows display msg)
  | pingConnector display => simp [pingReacts,Handled,Signal.display]
  | clearRenderPrimitives display => simp [clearReacts,Handled,Signal.display]
  | addRenderRect display rect color fill => simp [rectReacts,Handled,Signal.display]
  | addRenderText display text pos color => simp [textReacts,Handled,Signal.display]
  | loginSuccess display userName userUid =>
    cases kind : k.kind with
    | ltsm => simp [ConnectorLtsm.onSignal,ltsmLogin,Handled,Signal.display]
    | rdp => simp [ConnectorRdp.onSignal,rdpLogin,Handled,Signal.display]
  | shutdownConnector display =>
    cases kind : k.kind with
    | ltsm => simp [ConnectorLtsm.onSignal,ConnectorLtsm.onShutdownConnector,shownReacts,Handled,Signal.display]
    | rdp => simp [ConnectorRdp.onSignal,ConnectorRdp.onShutdownConnector,shownReacts,Handled,Signal.display]
  | sendBellSignal display =>
    cases kind : k.kind with
    | ltsm => simp [ConnectorLtsm.onSignal,ConnectorLtsm.onSendBellSignal,shownReacts,Handled,Signal.display,kind]
    | rdp => simp [ConnectorRdp.onSignal,ConnectorRdp.onSendBellSignal,shownReacts,Handled,kind]
  | transferAllow display allow =>
    cases kind : k.kind with
    | ltsm => simp [ConnectorLtsm.onSignal,transferReacts,Handled,Signal.display,kind]
    | rdp => simp [ConnectorRdp.onSignal,Handled,kind]
  | createChannel display client cmode server smode speed =>
    cases kind : k.kind with
    | ltsm => simp [ConnectorLtsm.onSignal,ConnectorLtsm.onCreateChannel,shownReacts,Handled,Signal.display,kind]
    | rdp => simp [ConnectorRdp.onSignal,Handled,kind]
  | destroyChannel display channel =>
    cases kind : k.kind with
    | ltsm => simp [ConnectorLtsm.onSignal,ConnectorLtsm.onDestroyChannel,shownReacts,Handled,Signal.display,kind]
    | rdp => simp [ConnectorRdp.onSignal,Handled,kind]
  | createListener display client cmode server smode speed limit flags =>
    cases kind : k.kind with
    | ltsm => simp [ConnectorLtsm.onSignal,ConnectorLtsm.onCreateListener,shownReacts,Handled,Signal.display,kind]
    | rdp => simp [ConnectorRdp.onSignal,Handled,kind]
  | destroyListener display client server =>
    cases kind : k.kind with
    | ltsm => simp [ConnectorLtsm.onSignal,ConnectorLtsm.onDestroyListener,shownReacts,Handled,Signal.display,kind]
    | rdp => simp [ConnectorRdp.onSignal,Handled,kind]
  | debugChannel display channel debug =>
    cases kind : k.kind with
    | ltsm => simp [ConnectorLtsm.onSignal,ConnectorLtsm.onDebugChannel,shownReacts,Handled,Signal.display,kind]
    | rdp => simp [ConnectorRdp.onSignal,Handled,kind]
  | _ => cases k.kind <;> simp [ConnectorLtsm.onSignal,ConnectorRdp.onSignal,Handled]

theorem failureDirected (msg : String) : Directed a (.loginFailure display msg) k ↔
    (Handled (.loginFailure display msg) k = true → display = k.displayNum) := by
  unfold Directed Reacts onSignal
  cases kind : k.kind with
  | ltsm =>
    simp only [ConnectorLtsm.onSignal,failureReacts,Handled,Signal.display,kind,decide_true,Bool.true_and,
      Option.some.injEq]
    exact ⟨fun same speaks => (same.mp speaks).1,fun apart => ⟨fun speaks => ⟨apart speaks,speaks⟩,fun both => both.2⟩⟩
  | rdp => simp [ConnectorRdp.onSignal,Handled,kind]

theorem directedIff : Directed a signal k ↔ Apart signal k := by
  by_cases shows : ∀ display msg, signal ≠ .loginFailure display msg
  · exact iff_of_true (directed shows) fun display msg same => absurd same (shows display msg)
  · push Not at shows
    obtain ⟨display,msg,rfl⟩ := shows
    rw [failureDirected]
    constructor
    · rintro apart _ _ ⟨⟩
      exact apart
    · exact fun apart => apart display msg rfl

theorem handleOthers (index : Nat) (processes : List Process) :
    ∀ other, other ≠ index → (handle index a processes)[other]? = processes[other]? := by
  intro other apart
  unfold handle
  split
  · exact List.getElem?_set_ne apart.symm
  · rfl

end

theorem addressedIff (processes : List Process) (actions : List Action) :
    Meets step Addressed processes actions ↔ Meets step HeardApart processes actions := by
  refine meetsCongr (P := fun _ => True) (fun _ _ _ _ => trivial) (fun processes action _ => ?_) trivial
  cases action with
  | handle index a =>
    refine (and_iff_left (handleOthers index processes)).trans ?_
    exact forall₃_congr fun k signal rest => imp_congr_right fun _ => directedIff
  | started k => exact Iff.rfl
  | emit signal => exact Iff.rfl
  | exited index => exact Iff.rfl

def answers : Answers := ⟨11,true,true,0,true,(8,16)⟩

/- A wrong password on display 10 is told to the client on display 11. -/
theorem failureOverheard : ¬ ∀ processes actions, Meets step Addressed processes actions := by
  intro all
  have taken := (all [⟨{kind := .ltsm,displayNum := 10},[]⟩,⟨{kind := .ltsm,displayNum := 11},[]⟩]
    [.emit (.loginFailure 10 "failed"),.handle 1 answers]).2.1.1 _ _ _ rfl
  have shown := (taken.mp ((@failureReacts _ 10 "failed").mpr rfl)).1
  exact absurd shown (by decide)

end Ltsm.ConnectorSignals
