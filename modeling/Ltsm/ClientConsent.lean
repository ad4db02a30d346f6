import Ltsm.ChannelClient
import Ltsm.Library.Run

/-! The client's end. A server opens channels on it by messages whose every field
it chooses; the user's options say which resources are meant to be reachable. -/
namespace Ltsm.ClientConsent
open Channel ChannelClient Library

/- What the user switched on: files dropped for transfer, the printer and the
scanner url, shared folders, audio, smart cards and the PKCS#11 library. -/
structure Options where
  dropFiles : List String := []
  printerUrl : String := ""
  saneUrl : String := ""
  shareFolders : List String := []
  audioEnable : Bool := false
  pcscEnable : Bool := false
  pkcs11Auth : String := ""
  deriving DecidableEq, Repr

def createChannelAllow (options : Options) (type : ConnectorType) (content : String)
    (_ : ConnectorMode) : Bool :=
  if type = .fuse then options.shareFolders.contains content else true

def clientEnd (options : Options) (parse : List UInt8 → SystemMessage) : Endpoint :=
  ⟨true,false,createChannelAllow options,parse⟩

inductive ClientAction
  | receive (os : Os) (channel : UInt8) (buf : List UInt8)
  | destroyThread (index : Nat)
  | stopped (channel : UInt8)

/- The guards of systemChannelOpen, before it looks at the type. -/
structure Admitted (s : State) (msg : ChannelOpen) : Prop where
  user : s.userSession = true
  proper : 0 < msg.id ∧ msg.id < 255
  mode : connectorMode msg.mode ≠ .unknown
  free : s.findChannel (UInt8.ofInt msg.id) = none

instance (s : State) (msg : ChannelOpen) : Decidable (Admitted s msg) :=
  decidable_of_iff (s.userSession = true ∧ (0 < msg.id ∧ msg.id < 255) ∧
      connectorMode msg.mode ≠ .unknown ∧ s.findChannel (UInt8.ofInt msg.id) = none)
    ⟨fun h => ⟨h.1,h.2.1,h.2.2.1,h.2.2.2⟩,fun h => ⟨h.user,h.proper,h.mode,h.free⟩⟩

def createRequested (ep : Endpoint) (os : Os) (msg : ChannelOpen) (s : State) : Bool × State :=
  let channel := UInt8.ofInt msg.id
  let mode := connectorMode msg.mode
  let chopts : Opts := ⟨connectorSpeed msg.speed,msg.flags⟩
  match connectorType msg.type with
  | .file => createChannelFile ep os none channel msg.path mode chopts s
  | .audio => createChannelClient ep .audio channel msg.audio mode chopts s
  | .fuse => createChannelClient ep .fuse channel msg.fuse mode chopts s
  | .pcsc => createChannelClient ep .pcsc channel msg.pcsc mode chopts s
  | .unix => createChannelUnix ep os none channel msg.path mode chopts s
  | .socket => createChannelSocket ep os none channel (msg.ipaddr,msg.port) mode chopts s
  | .pkcs11 => createChannelClient ep .pkcs11 channel msg.pkcs11 mode chopts s
  | .command => createChannelCommand ep os none channel msg.runcmd mode chopts s
  | .unknown => (false,s)

def systemChannelOpen (ep : Endpoint) (os : Os) (msg : ChannelOpen) (s : State) : State :=
  let (ok,s) := if Admitted s msg then createRequested ep os msg s else (false,s)
  if ok then s
  else {s with sent := s.sent ++ [.channelConnected (UInt8.ofInt msg.id) msg.flags false]}

def recvChannelSystemEvent (ep : Endpoint) (os : Os) (msg : SystemMessage) (s : State) : State :=
  match msg with
  | .channelOpen msg => systemChannelOpen ep os msg s
  | .channelClose id => systemChannelClose id s
  | .channelConnected id error flags => systemChannelConnected ep os id error flags s
  | .channelListen | .channelError | .loginSuccess | .clientVariables | .keyboardChange
  | .cursorFailed | .transferFiles | .broken => s

def recvLtsmEvent (ep : Endpoint) (os : Os) (channel : UInt8) (buf : List UInt8) (s : State) : State :=
  if channel = 255 then s
  else if channel = 0 then recvChannelSystemEvent ep os (ep.parse buf) s
  else recvChannelData ep channel buf s

def clientStep (ep : Endpoint) (s : State) : ClientAction → State
  | .receive os channel buf => recvLtsmEvent ep os channel buf s
  | .destroyThread index => ChannelClient.destroyThread index s
  | .stopped channel => channelStopped channel s

/- The session of a client is the user's one from the start. -/
def clientStart : State := {userSession := true}

/-! The resources the options stand for; `names` is what a host name of a url
resolves to. -/

def addressOf (names : String → String) (content ipaddr : String) (port : Int) : Bool :=
  match split content ':' with
  | [host,service] => (ipaddr = host || ipaddr = names host) && stoi service = some port
  | _ => false

def urlNames (names : String → String) (url : String) : Resource → Bool
  | .file path _ => parseUrl url = (.file,path)
  | .command runcmd _ => parseUrl url = (.command,runcmd)
  | .unix path _ => parseUrl url = (.unix,path)
  | .socket ipaddr port _ => (parseUrl url).1 = .socket && addressOf names (parseUrl url).2 ipaddr port
  | _ => false

def redirected (options : Options) (names : String → String) (resource : Resource) : Bool :=
  urlNames names options.printerUrl resource || urlNames names options.saneUrl resource

def consented (options : Options) (names : String → String) : Resource → Bool
  | .audio _ _ => options.audioEnable
  | .fuse _ _ => options.shareFolders ≠ []
  | .pcsc _ _ => options.pcscEnable
  | .pkcs11 _ _ => options.pkcs11Auth ≠ ""
  | .file path mode => (options.dropFiles.contains path && mode = .readOnly) ||
      redirected options names (.file path mode)
  | resource => redirected options names resource

/- What a message asks for, as far as the system lets it be opened. -/
def requested (os : Os) (msg : ChannelOpen) : Option Resource :=
  let mode := connectorMode msg.mode
  match connectorType msg.type with
  | .file => createFileConnector os msg.path mode
  | .audio => createClientConnector .audio msg.audio mode
  | .fuse => createClientConnector .fuse msg.fuse mode
  | .pcsc => createClientConnector .pcsc msg.pcsc mode
  | .unix => createUnixConnector os msg.path mode
  | .socket => if msg.port < 0 then none else createTcpConnector os msg.ipaddr msg.port mode
  | .pkcs11 => createClientConnector .pkcs11 msg.pkcs11 mode
  | .command => createCommandConnector os msg.runcmd mode
  | .unknown => none

/- Nothing was ever opened that the user did not switch on. -/
def OpensOnlyConsented (options : Options) (names : String → String) (s : State) : Prop :=
  ∀ resource ∈ s.opened, consented options names resource = true
instance (options names s) : Decidable (OpensOnlyConsented options names s) := by
  unfold OpensOnlyConsented; infer_instance

/- A ChannelOpen with a proper free id and a known mode, whose resource the system
lets be opened, asks for one the user switched on. -/
def AsksConsented (options : Options) (names : String → String) (parse : List UInt8 → SystemMessage)
    (s : State) : ClientAction → Prop
  | .receive os channel buf => channel = 0 → ∀ msg, parse buf = .channelOpen msg → Admitted s msg →
      ∀ resource, requested os msg = some resource → consented options names resource = true
  | _ => True

section
variable {options : Options} {names : String → String} {parse : List UInt8 → SystemMessage} {s : State}

theorem requestedOpened (os : Os) (msg : ChannelOpen) :
    (createRequested (clientEnd options parse) os msg s).2.opened =
      s.opened ++ (requested os msg).toList := by
  unfold createRequested requested
  dsimp only
  cases type : connectorType msg.type with
  | unknown => simp
  | file => simp [createChannelFile,clientEnd,createChannelAllow]
  | unix => simp [createChannelUnix,clientEnd,createChannelAllow]
  | command => simp [createChannelCommand,clientEnd,createChannelAllow]
  | socket =>
    unfold createChannelSocket
    by_cases port : msg.port < 0
    · simp [clientEnd,createChannelAllow,port]
    · simp [clientEnd,createChannelAllow,port]
  | fuse | audio | pcsc | pkcs11 => simp [createChannelClient,clientEnd]

theorem openOpened (os : Os) (msg : ChannelOpen) :
    (systemChannelOpen (clientEnd options parse) os msg s).opened =
      s.opened ++ if Admitted s msg then (requested os msg).toList else [] := by
  have replied (answer : Bool × State) :
      (if answer.1 = true then answer.2 else {answer.2 with
        sent := answer.2.sent ++ [.channelConnected (UInt8.ofInt msg.id) msg.flags false]}).opened =
        answer.2.opened := by
    split <;> rfl
  unfold systemChannelOpen
  by_cases admitted : Admitted s msg
  · rw [if_pos admitted,if_pos admitted]
    exact (replied _).trans (requestedOpened os msg)
  · rw [if_neg admitted,if_neg admitted]
    exact (replied (false,s)).trans (List.append_nil _).symm

/- The client plans no jobs, so a reply of the server finds none. -/
theorem clientConnected (ep : Endpoint) (os : Os) (id : Int) (error : Bool) (flags : UInt32)
    (none : s.channelsPlanned = []) :
    systemChannelConnected ep os id error flags s = s.setRemoteConnected id := by
  unfold systemChannelConnected
  simp [none]

theorem recvDataOpened (ep : Endpoint) (channel : UInt8) (buf : List UInt8) :
    (recvChannelData ep channel buf s).opened = s.opened ∧
      (recvChannelData ep channel buf s).channelsPlanned = s.channelsPlanned := by
  unfold recvChannelData
  cases s.findChannel channel with
  | none => exact ⟨rfl,rfl⟩
  | some c =>
    dsimp only
    split
    · exact ⟨rfl,rfl⟩
    split
    · exact ⟨rfl,rfl⟩
    split
    · exact ⟨rfl,rfl⟩
    split <;> exact ⟨rfl,rfl⟩

theorem plannedUntouched (os : Os) (msg : ChannelOpen) (ep : Endpoint) :
    (systemChannelOpen ep os msg s).channelsPlanned = s.channelsPlanned := by
  have made : (createRequested ep os msg s).2.channelsPlanned = s.channelsPlanned := by
    unfold createRequested createChannelFile createChannelUnix createChannelCommand createChannelSocket
      createChannelClient
    dsimp only
    cases connectorType msg.type with
    | unknown => rfl
    | socket =>
      dsimp only
      split
      · rfl
      split
      · rfl
      split
      · rfl
      · exact addConnectorPlanned ..
    | _ =>
      dsimp only
      split
      · exact addConnectorPlanned ..
      · rfl
  unfold systemChannelOpen
  by_cases admitted : Admitted s msg
  · rw [if_pos admitted]
    dsimp only
    split <;> exact made
  · rw [if_neg admitted]
    rfl

theorem stepPlansNothing (ep : Endpoint) (s : State) (a : ClientAction) (none : s.channelsPlanned = []) :
    (clientStep ep s a).channelsPlanned = [] := by
  cases a with
  | receive os channel buf =>
    change (recvLtsmEvent ep os channel buf s).channelsPlanned = []
    unfold recvLtsmEvent
    split
    · exact none
    split
    · cases ep.parse buf with
      | channelOpen msg => exact (plannedUntouched os msg ep).trans none
      | channelConnected id error flags =>
        change (systemChannelConnected ep os id error flags s).channelsPlanned = []
        rw [clientConnected ep os id error flags none]
        exact none
      | _ => exact none
    · rw [(recvDataOpened ep channel buf).2]
      exact none
  | destroyThread index =>
    change (ChannelClient.destroyThread index s).channelsPlanned = []
    unfold ChannelClient.destroyThread
    split <;> exact none
  | stopped channel => exact none

/- One step opens what an admitted message asks for, and nothing else. -/
theorem stepOpened (names : String → String) (s : State) (a : ClientAction)
    (none : s.channelsPlanned = []) :
    ∃ added, (clientStep (clientEnd options parse) s a).opened = s.opened ++ added ∧
      (AsksConsented options names parse s a ↔
        ∀ resource ∈ added, consented options names resource = true) := by
  have idle {t : State} (same : t.opened = s.opened) (asks : AsksConsented options names parse s a) :
      ∃ added, t.opened = s.opened ++ added ∧ (AsksConsented options names parse s a ↔
        ∀ resource ∈ added, consented options names resource = true) :=
    ⟨[],by simp [same],iff_of_true asks (by simp)⟩
  cases a with
  | receive os channel buf =>
    change ∃ added, (recvLtsmEvent (clientEnd options parse) os channel buf s).opened = _ ∧ _
    unfold recvLtsmEvent
    split
    · rename_i reserved
      exact idle rfl fun system => by simp [reserved] at system
    split
    · rename_i system
      change ∃ added, (recvChannelSystemEvent (clientEnd options parse) os (parse buf) s).opened = _ ∧ _
      cases message : parse buf with
      | channelOpen msg =>
        refine ⟨_,openOpened os msg,?_⟩
        simp only [AsksConsented,system,message,SystemMessage.channelOpen.injEq,forall_const,forall_eq']
        by_cases admitted : Admitted s msg <;> simp [admitted]
      | channelConnected id error flags =>
        refine idle ?_ fun _ msg other => by simp [message] at other
        change (systemChannelConnected (clientEnd options parse) os id error flags s).opened = s.opened
        rw [clientConnected _ os id error flags none]
        rfl
      | _ => exact idle rfl fun _ msg other => by simp [message] at other
    · rename_i data
      exact idle (recvDataOpened _ channel buf).1 fun system => absurd system data
  | destroyThread index =>
    refine idle ?_ trivial
    change (ChannelClient.destroyThread index s).opened = s.opened
    unfold ChannelClient.destroyThread
    split <;> rfl
  | stopped channel => exact idle rfl trivial

end

theorem opensOnlyConsentedIff (options : Options) (names : String → String)
    (parse : List UInt8 → SystemMessage) (actions : List ClientAction) :
    OpensOnlyConsented options names (run (clientStep (clientEnd options parse)) clientStart actions) ↔
      Meets (clientStep (clientEnd options parse)) (AsksConsented options names parse) clientStart
        actions := by
  have start : clientStart.channelsPlanned = [] := rfl
  have exact := meetsLog State.opened (stepPlansNothing (clientEnd options parse))
    (stepOpened names) start actions
  simpa [OpensOnlyConsented,clientStart] using exact

/-! A server that runs a command on a client with everything switched off. -/

def permissiveOs : Os := ⟨fun _ => true,fun _ => true,fun _ _ => true,fun _ => "",fun _ => true,
  fun _ _ _ => true,fun _ => false,fun _ => true,fun _ => "",fun _ _ => true⟩

def commandOpen : ChannelOpen :=
  {id := 1, type := "command", mode := "ro", speed := "fast", flags := 0, runcmd := "/bin/id"}

theorem unaskedCommandRuns :
    (run (clientStep (clientEnd {} fun _ => .channelOpen commandOpen)) clientStart
      [.receive permissiveOs 0 []]).opened = [.command "/bin/id" .readOnly] ∧
    ¬OpensOnlyConsented {} (fun host => host) (run (clientStep (clientEnd {} fun _ =>
      .channelOpen commandOpen)) clientStart [.receive permissiveOs 0 []]) := by
  decide

end Ltsm.ClientConsent
