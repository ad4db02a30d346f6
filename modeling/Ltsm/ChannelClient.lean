import Ltsm.ChannelTypes
import Ltsm.Library.FirstMatch

/-! The channels of one end of a connection: the jobs it planned, the connectors
it runs and the local resources it opened for them. What the system answers is
given for each step. A handler that throws has done what stands before the throw. -/
namespace Ltsm.ChannelClient
open Channel Library

inductive Resource
  | file (path : String) (mode : ConnectorMode)
  | command (runcmd : String) (mode : ConnectorMode)
  | unix (path : String) (mode : ConnectorMode)
  | socket (ipaddr : String) (port : Int) (mode : ConnectorMode)
  | unixFd (sock : Int) (mode : ConnectorMode)
  | socketFd (sock : Int) (mode : ConnectorMode)
  | fuse (url : String) (mode : ConnectorMode)
  | audio (url : String) (mode : ConnectorMode)
  | pcsc (url : String) (mode : ConnectorMode)
  | pkcs11 (url : String) (mode : ConnectorMode)
  deriving DecidableEq, Repr

/- `job` is the planned job the connector was made for, as it was planned. -/
structure Connector where
  channel : UInt8
  resource : Resource
  mode : ConnectorMode
  flags : UInt32
  job : Option Planned := none
  running : Bool := true
  remoteConnected : Bool := false
  queue : List (List UInt8) := []
  deriving DecidableEq, Repr

def Connector.isAllowSessionFor (c : Connector) (user : Bool) : Bool :=
  if c.flags &&& allowLoginSession ≠ 0 then !user else user

inductive Sent
  | channelOpen (channel : UInt8) (clientOpts : UrlMode) (chOpts : Opts)
  | channelConnected (channel : UInt8) (flags : UInt32) (noerror : Bool)
  deriving DecidableEq, Repr

/- Data handed to a connector, with the phase it came in. -/
structure Relay where
  connector : Connector
  userSession : Bool
  buf : List UInt8
  deriving DecidableEq, Repr

/- `jobs`, `opened`, `closed`, `relayed` and `sent` are the history of the end:
every job ever planned, every resource opened, and so on, oldest first. -/
structure State where
  userSession : Bool
  channels : List Connector := []
  channelsPlanned : List Planned := []
  destroying : List UInt8 := []
  jobs : List Planned := []
  opened : List Resource := []
  closed : List Int := []
  relayed : List Relay := []
  sent : List Sent := []
  deriving DecidableEq, Repr

structure Os where
  isSocket : String → Bool
  connectUnix : String → Bool
  connectTcp : String → Int → Bool
  resolvHostname : String → String
  fileExists : String → Bool
  openFile : String → ConnectorMode → Bool → Bool
  isSymlink : String → Bool
  isRegularFile : String → Bool
  resolveSymLink : String → String
  popen : String → ConnectorMode → Bool

structure ChannelOpen where
  id : Int
  type : String
  mode : String
  speed : String
  flags : UInt32
  path : String := ""
  runcmd : String := ""
  ipaddr : String := ""
  port : Int := 0
  audio : String := ""
  fuse : String := ""
  pcsc : String := ""
  pkcs11 : String := ""
  deriving DecidableEq, Repr

/- The `cmd` of a system message and the fields its handler reads. `broken` is
anything the receiver throws at: no object, no command, an unknown one. -/
inductive SystemMessage
  | clientVariables | keyboardChange | cursorFailed | transferFiles | loginSuccess
  | channelListen | channelError | broken
  | channelOpen (msg : ChannelOpen)
  | channelClose (id : Int)
  | channelConnected (id : Int) (error : Bool) (flags : UInt32)
  deriving DecidableEq, Repr

/- The hooks of an end, with the JSON reader of its system channel. -/
structure Endpoint where
  client : Bool
  serverSide : Bool
  createChannelAllow : ConnectorType → String → ConnectorMode → Bool
  parse : List UInt8 → SystemMessage

def State.findChannel (s : State) (channel : UInt8) : Option Connector :=
  s.channels.find? (·.channel = channel)

def State.findPlanned (s : State) (channel : UInt8) : Option Planned :=
  s.channelsPlanned.find? (·.channel = channel)

/-! What each connector opens, or `none` where its creation throws before that. -/

def createUnixConnector (os : Os) (path : String) (mode : ConnectorMode) : Option Resource :=
  if os.isSocket path = true ∧ os.connectUnix path = true then some (.unix path mode) else none

def createUnixFdConnector (sock : Int) (mode : ConnectorMode) : Option Resource :=
  if sock < 0 then none else some (.unixFd sock mode)

def createTcpConnector (os : Os) (ipaddr : String) (port : Int) (mode : ConnectorMode) : Option Resource :=
  if os.connectTcp ipaddr port then some (.socket ipaddr port mode) else none

def createTcpFdConnector (sock : Int) (mode : ConnectorMode) : Option Resource :=
  if sock < 0 then none else some (.socketFd sock mode)

def createFileConnector (os : Os) (path : String) (mode : ConnectorMode) : Option Resource :=
  match mode with
  | .readWrite | .unknown => none
  | .readOnly =>
    if os.fileExists path = true ∧ os.openFile path mode false = true then some (.file path mode) else none
  | .writeOnly => if os.openFile path mode (os.fileExists path) then some (.file path mode) else none

def createCommandConnector (os : Os) (runcmd : String) (mode : ConnectorMode) : Option Resource :=
  match mode,split runcmd ' ' with
  | .readWrite,_ | .unknown,_ | _,[] => none
  | mode,cmd :: args =>
    let runcmd2 := if os.isSymlink cmd then String.intercalate " " (os.resolveSymLink cmd :: args) else runcmd
    if os.fileExists cmd = true ∧ (os.isSymlink cmd = true ∨ os.isRegularFile cmd = true) ∧
        os.popen runcmd2 mode = true then some (.command runcmd mode)
    else none

def createClientConnector (make : String → ConnectorMode → Resource) (url : String)
    (mode : ConnectorMode) : Option Resource :=
  if mode = .unknown then none else some (make url mode)

/- A resource opened in an unknown mode is never turned into a connector. -/
def addConnector (job : Option Planned) (channel : UInt8) (mode : ConnectorMode) (chOpts : Opts)
    (s : State) : Option Resource → Bool × State
  | none => (false,s)
  | some resource =>
    let s := {s with opened := s.opened ++ [resource]}
    if mode = .unknown then (false,s)
    else (true,{s with
      channels := s.channels ++ [{channel, resource, mode, flags := chOpts.flags, job}]
      sent := s.sent ++ [.channelConnected channel chOpts.flags true]})

def createChannelUnix (ep : Endpoint) (os : Os) (job : Option Planned) (channel : UInt8) (path : String)
    (mode : ConnectorMode) (chOpts : Opts) (s : State) : Bool × State :=
  if ep.createChannelAllow .unix path mode then
    addConnector job channel mode chOpts s (createUnixConnector os path mode)
  else (false,s)

def createChannelUnixFd (job : Option Planned) (channel : UInt8) (sock : Int)
    (mode : ConnectorMode) (chOpts : Opts) (s : State) : Bool × State :=
  addConnector job channel mode chOpts s (createUnixFdConnector sock mode)

def createChannelSocketFd (job : Option Planned) (channel : UInt8) (sock : Int)
    (mode : ConnectorMode) (chOpts : Opts) (s : State) : Bool × State :=
  addConnector job channel mode chOpts s (createTcpFdConnector sock mode)

def createChannelFile (ep : Endpoint) (os : Os) (job : Option Planned) (channel : UInt8) (path : String)
    (mode : ConnectorMode) (chOpts : Opts) (s : State) : Bool × State :=
  if ep.createChannelAllow .file path mode then
    addConnector job channel mode chOpts s (createFileConnector os path mode)
  else (false,s)

def createChannelCommand (ep : Endpoint) (os : Os) (job : Option Planned) (channel : UInt8) (runcmd : String)
    (mode : ConnectorMode) (chOpts : Opts) (s : State) : Bool × State :=
  if ep.createChannelAllow .command runcmd mode then
    addConnector job channel mode chOpts s (createCommandConnector os runcmd mode)
  else (false,s)

def isLoopback (ipaddr : String) : Bool := "127.".toList.isPrefixOf ipaddr.toList

def createChannelSocket (ep : Endpoint) (os : Os) (job : Option Planned) (channel : UInt8)
    (ipAddrPort : String × Int) (mode : ConnectorMode) (chOpts : Opts) (s : State) : Bool × State :=
  if ep.createChannelAllow .socket ipAddrPort.1 mode = false then (false,s)
  else if ep.serverSide = true ∧ isLoopback ipAddrPort.1 = false then (false,s)
  else if ipAddrPort.2 < 0 then (false,s)
  else addConnector job channel mode chOpts s (createTcpConnector os ipAddrPort.1 ipAddrPort.2 mode)

/- createChannelClientAudio, -Fuse, -Pcsc and -Pkcs11 are compiled into the client only. -/
def createChannelClient (ep : Endpoint) (make : String → ConnectorMode → Resource) (channel : UInt8)
    (url : String) (mode : ConnectorMode) (chOpts : Opts) (s : State) : Bool × State :=
  if ep.client then addConnector none channel mode chOpts s (createClientConnector make url mode)
  else (false,s)

/- The first result is `none` where the function throws. -/
def channelPlannedCreate (ep : Endpoint) (os : Os) (origin job : Planned) (s : State) :
    Option Bool × State :=
  let opts := job.serverOpts
  if 0 ≤ job.serverFd then
    match opts.type with
    | .unix =>
      (some true,(createChannelUnixFd (some origin) job.channel job.serverFd opts.mode job.chOpts s).2)
    | .socket =>
      (some true,(createChannelSocketFd (some origin) job.channel job.serverFd opts.mode job.chOpts s).2)
    | _ => (none,s)
  else if opts.content ≠ "" then
    match opts.type with
    | .unix =>
      (some true,(createChannelUnix ep os (some origin) job.channel opts.content opts.mode job.chOpts s).2)
    | .socket => (some true,(createChannelSocket ep os (some origin) job.channel
        (parseAddrPort os.resolvHostname opts.content) opts.mode job.chOpts s).2)
    | .file =>
      (some true,(createChannelFile ep os (some origin) job.channel opts.content opts.mode job.chOpts s).2)
    | .command =>
      (some true,(createChannelCommand ep os (some origin) job.channel opts.content opts.mode job.chOpts s).2)
    | _ => (some false,s)
  else (some true,s)

def closeServerFd (job : Planned) (s : State) : State :=
  if 0 ≤ job.serverFd then {s with closed := s.closed ++ [job.serverFd]} else s

def State.setRemoteConnected (s : State) (id : Int) : State :=
  {s with channels := updateFirst (·.channel = UInt8.ofInt id) ({· with remoteConnected := true}) s.channels}

def plannedFor (id : Int) (job : Planned) : Bool := (job.channel.toNat : Int) = id

def systemChannelConnected (ep : Endpoint) (os : Os) (id : Int) (error : Bool) (flags : UInt32)
    (s : State) : State :=
  match s.channelsPlanned.find? (plannedFor id) with
  | none => s.setRemoteConnected id
  | some origin =>
    let s := {s with channelsPlanned := s.channelsPlanned.eraseP (plannedFor id)}
    let job := {origin with chOpts := {origin.chOpts with flags}}
    if error = true then closeServerFd job s
    else if job.channel ≤ 0 ∨ 255 ≤ job.channel then closeServerFd job s
    else if (s.findChannel job.channel).isSome then closeServerFd job s
    else
      match channelPlannedCreate ep os origin job s with
      | (some true,s) => s.setRemoteConnected id
      | (_,s) => s

def systemChannelClose (id : Int) (s : State) : State :=
  {s with destroying := s.destroying ++ [UInt8.ofInt id]}

/- One of the threads of destroyChannel, whenever it gets the lock. -/
def destroyThread (index : Nat) (s : State) : State :=
  match s.destroying[index]? with
  | none => s
  | some channel => {s with
      destroying := s.destroying.eraseIdx index
      channels := s.channels.eraseP (·.channel = channel)}

/- A connector of another phase is refused; the test is not compiled into the client. -/
def phaseRefused (ep : Endpoint) (s : State) (c : Connector) : Bool :=
  !ep.client && ((c.isAllowSessionFor true && !s.userSession) || (c.isAllowSessionFor false && s.userSession))

def recvChannelData (ep : Endpoint) (channel : UInt8) (buf : List UInt8) (s : State) : State :=
  match s.findChannel channel with
  | none => s
  | some c =>
    if phaseRefused ep s c then s
    else if c.remoteConnected = false then s
    else if c.running = false then s
    else if buf = [] ∨ c.mode = .readOnly then s
    else {s with
      channels := updateFirst (·.channel = channel) (fun c => {c with queue := c.queue ++ [buf]}) s.channels
      relayed := s.relayed ++ [⟨c,s.userSession,buf⟩]}

def channelStopped (channel : UInt8) (s : State) : State :=
  {s with channels := updateFirst (·.channel = channel) ({· with running := false}) s.channels}

def freeChannel (s : State) : Option UInt8 :=
  ((List.range 254).map fun i => UInt8.ofNat (i + 1)).find? fun channel =>
    (s.findChannel channel).isNone && (s.findPlanned channel).isNone

/- The modes a pair of ends can work with: both known, and not both one-way the same way. -/
def modesFit (client server : ConnectorMode) : Bool :=
  client ≠ .unknown && server ≠ .unknown && !(server = client && (server = .readOnly || server = .writeOnly))

def planJob (job : Planned) (s : State) : State :=
  match freeChannel s with
  | none => s
  | some channel =>
    let job := {job with channel}
    {s with
      channelsPlanned := s.channelsPlanned ++ [job]
      jobs := s.jobs ++ [job]
      sent := s.sent ++ [.channelOpen channel job.clientOpts job.chOpts]}

def createChannel (clientOpts serverOpts : UrlMode) (chOpts : Opts) (s : State) : State :=
  if modesFit clientOpts.mode serverOpts.mode = false then s
  else if clientOpts.type = .unknown ∨ serverOpts.type = .unknown then s
  else planJob {serverOpts, clientOpts, chOpts} s

/- The listener closes the accepted socket itself when no job is planned for it. -/
def createChannelAcceptFd (clientOpts : UrlMode) (sock : Int) (serverOpts : UrlMode) (chOpts : Opts)
    (s : State) : State :=
  if modesFit clientOpts.mode serverOpts.mode = false ∨ clientOpts.type = .unknown ∨
      (freeChannel s).isNone then {s with closed := s.closed ++ [sock]}
  else planJob {serverOpts, clientOpts, chOpts, serverFd := sock} s

/-! A connector opens what it was asked for and nothing else. -/
section
variable {os : Os} {mode : ConnectorMode} {resource : Resource}

theorem unixSource {path : String} (h : createUnixConnector os path mode = some resource) :
    resource = .unix path mode := by
  unfold createUnixConnector at h
  split at h <;> try contradiction
  exact (Option.some.inj h).symm

theorem unixFdSource {sock : Int} (h : createUnixFdConnector sock mode = some resource) :
    resource = .unixFd sock mode := by
  unfold createUnixFdConnector at h
  split at h <;> try contradiction
  exact (Option.some.inj h).symm

theorem tcpSource {ipaddr : String} {port : Int} (h : createTcpConnector os ipaddr port mode = some resource) :
    resource = .socket ipaddr port mode := by
  unfold createTcpConnector at h
  split at h <;> try contradiction
  exact (Option.some.inj h).symm

theorem tcpFdSource {sock : Int} (h : createTcpFdConnector sock mode = some resource) :
    resource = .socketFd sock mode := by
  unfold createTcpFdConnector at h
  split at h <;> try contradiction
  exact (Option.some.inj h).symm

theorem fileSource {path : String} (h : createFileConnector os path mode = some resource) :
    resource = .file path mode := by
  unfold createFileConnector at h
  split at h <;> try contradiction
  all_goals
    split at h <;> try contradiction
    exact (Option.some.inj h).symm

theorem commandSource {runcmd : String} (h : createCommandConnector os runcmd mode = some resource) :
    resource = .command runcmd mode := by
  unfold createCommandConnector at h
  split at h <;> try contradiction
  extract_lets runcmd2 at h
  split at h <;> try contradiction
  exact (Option.some.inj h).symm

end

/-! What adding a connector leaves alone. -/
section
variable {s : State} (job : Option Planned) (channel : UInt8) (mode : ConnectorMode) (chOpts : Opts)
  (resource : Option Resource)

@[simp] theorem addConnectorOpened :
    (addConnector job channel mode chOpts s resource).2.opened = s.opened ++ resource.toList := by
  cases resource with
  | none => simp [addConnector]
  | some resource => cases mode <;> simp [addConnector]

@[simp] theorem addConnectorPlanned :
    (addConnector job channel mode chOpts s resource).2.channelsPlanned = s.channelsPlanned := by
  cases resource with
  | none => rfl
  | some resource => cases mode <;> rfl

@[simp] theorem addConnectorJobs :
    (addConnector job channel mode chOpts s resource).2.jobs = s.jobs := by
  cases resource with
  | none => rfl
  | some resource => cases mode <;> rfl

end
end Ltsm.ChannelClient
