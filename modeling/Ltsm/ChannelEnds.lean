import Ltsm.ChannelPlanned
import Ltsm.ClientConsent

/-! Both ends of a connection and what is under way between them. Connectors over a
descriptor have loops, which stop on an error of their own or when the connector is
taken down, and of which one then says that the channel is closed; the client's own
connectors have none. A channel's id is one byte at either end. -/
namespace Ltsm.ChannelEnds
open Channel ChannelClient Library

/- `closeSent` is whether the loop that closes the channel has ended. -/
structure Live where
  channel : UInt8
  mode : ConnectorMode
  flags : UInt32
  looped : Bool
  running : Bool := true
  remoteConnected : Bool := false
  closeSent : Bool := false
  queue : List (List UInt8) := []
  deriving DecidableEq, Repr

def Live.isAllowSessionFor (c : Live) (user : Bool) : Bool :=
  if c.flags &&& allowLoginSession ≠ 0 then !user else user

inductive Message
  | channelOpen (id : UInt8) (msg : ChannelOpen)
  | channelConnected (id : UInt8) (flags : UInt32) (noerror : Bool)
  | channelClose (id : UInt8)
  | data (id : UInt8) (buf : List UInt8)
  deriving DecidableEq, Repr

structure End where
  userSession : Bool
  channels : List Live := []
  planned : List Planned := []
  destroying : List UInt8 := []
  deriving DecidableEq, Repr

/- What a handler leaves behind, and what it has sent. -/
structure Handled where
  after : End
  sent : List Message := []
  threw : Bool := false
  deriving DecidableEq, Repr

/- How the making of a connector goes. The base of every connector tells the peer at
once; what fails after that fails in starting the loops. -/
inductive Creation
  | failed
  | unstarted
  | created (looped : Bool)
  deriving DecidableEq, Repr

def isLooped : Resource → Bool
  | .fuse _ _ | .audio _ _ | .pcsc _ _ | .pkcs11 _ _ => false
  | _ => true

/- `starts` is whether the system lets the loops start. -/
def creationOf (starts : Bool) : Option Resource → Creation
  | none => .failed
  | some resource =>
    if isLooped resource = false then .created false else if starts then .created true else .unstarted

def clientCreation (os : Os) (starts : Bool) (msg : ChannelOpen) : Creation :=
  creationOf starts (ClientConsent.requested os msg)

def serverCreation (ep : Endpoint) (os : Os) (starts : Bool) (job : Planned) : Creation :=
  creationOf starts (ChannelPlanned.plannedResource ep os job)

namespace End
variable (e : End)

def findChannel (id : UInt8) : Option Live := e.channels.find? (·.channel = id)
def findPlanned (id : UInt8) : Option Planned := e.planned.find? (·.channel = id)

def updateChannel (id : UInt8) (f : Live → Live) : End :=
  {e with channels := updateFirst (·.channel = id) f e.channels}

def addChannel (c : Live) : End := {e with channels := e.channels ++ [c]}
def dropChannel (id : UInt8) : End := {e with channels := e.channels.eraseP (·.channel = id)}
def dropPlanned (id : UInt8) : End := {e with planned := e.planned.eraseP (·.channel = id)}

def freeChannel : Option UInt8 :=
  ((List.range 254).map fun i => UInt8.ofNat (i + 1)).find? fun id =>
    (e.findChannel id).isNone && (e.findPlanned id).isNone

/- channelsShutdown. -/
def shutdown : End := {e with channels := e.channels.map ({· with running := false})}

end End

/- sendSystemChannelOpen. -/
def openRequest (os : Os) (channel : UInt8) (clientOpts : UrlMode) (chOpts : Opts) : ChannelOpen :=
  let msg : ChannelOpen :=
    { id := channel.toNat
      type := typeString clientOpts.type
      mode := modeString clientOpts.mode
      speed := speedString chOpts.speed
      flags := chOpts.flags }
  match clientOpts.type with
  | .socket =>
    let (ipaddr,port) := parseAddrPort os.resolvHostname clientOpts.content
    {msg with ipaddr, port}
  | .command => {msg with runcmd := clientOpts.content}
  | .fuse => {msg with fuse := clientOpts.content}
  | .audio => {msg with audio := clientOpts.content}
  | .pcsc => {msg with pcsc := clientOpts.content}
  | .pkcs11 => {msg with pkcs11 := clientOpts.content}
  | _ => {msg with path := clientOpts.content}

def planJob (os : Os) (job : Planned) (e : End) : Handled :=
  match e.freeChannel with
  | none => {after := e}
  | some channel =>
    { after := {e with planned := e.planned ++ [{job with channel}]}
      sent := [.channelOpen channel (openRequest os channel job.clientOpts job.chOpts)] }

def createChannel (os : Os) (clientOpts serverOpts : UrlMode) (chOpts : Opts) (e : End) : Handled :=
  if modesFit clientOpts.mode serverOpts.mode = false then {after := e}
  else if clientOpts.type = .unknown ∨ serverOpts.type = .unknown then {after := e}
  else planJob os {serverOpts, clientOpts, chOpts} e

def createChannelAcceptFd (os : Os) (clientOpts : UrlMode) (sock : Int) (serverOpts : UrlMode)
    (chOpts : Opts) (e : End) : Handled :=
  if modesFit clientOpts.mode serverOpts.mode = false ∨ clientOpts.type = .unknown then {after := e}
  else planJob os {serverOpts, clientOpts, chOpts, serverFd := sock} e

/- The guards of systemChannelOpen. -/
structure Admitted (e : End) (id : UInt8) (msg : ChannelOpen) : Prop where
  user : e.userSession = true
  proper : 0 < id ∧ id < 255
  mode : connectorMode msg.mode ≠ .unknown
  free : e.findChannel id = none

instance (e : End) (id : UInt8) (msg : ChannelOpen) : Decidable (Admitted e id msg) :=
  decidable_of_iff (e.userSession = true ∧ (0 < id ∧ id < 255) ∧
      connectorMode msg.mode ≠ .unknown ∧ e.findChannel id = none)
    ⟨fun h => ⟨h.1,h.2.1,h.2.2.1,h.2.2.2⟩,fun h => ⟨h.user,h.proper,h.mode,h.free⟩⟩

def systemChannelOpen (os : Os) (starts : Bool) (id : UInt8) (msg : ChannelOpen) (e : End) : Handled :=
  let refusal : Handled := {after := e, sent := [.channelConnected id msg.flags false]}
  if Admitted e id msg then
    match clientCreation os starts msg with
    | .failed => refusal
    | .unstarted => {refusal with sent := .channelConnected id msg.flags true :: refusal.sent}
    | .created looped =>
      { after := e.addChannel {channel := id, mode := connectorMode msg.mode, flags := msg.flags, looped}
        sent := [.channelConnected id msg.flags true] }
  else refusal

/- Only these two kinds of connectors are made from a descriptor. -/
def fdRefused (job : Planned) : Bool :=
  0 ≤ job.serverFd && job.serverOpts.type ≠ .unix && job.serverOpts.type ≠ .socket

/- What keeps an answer from being taken up. -/
def Hindered (e : End) (id : UInt8) (noerror : Bool) : Prop :=
  noerror = false ∨ id ≤ 0 ∨ 255 ≤ id ∨ (e.findChannel id).isSome
instance (e id noerror) : Decidable (Hindered e id noerror) := by unfold Hindered; infer_instance

/- The planned job is forgotten before its connector is made. -/
def systemChannelConnected (ep : Endpoint) (os : Os) (starts : Bool) (id : UInt8) (flags : UInt32)
    (noerror : Bool) (e : End) : Handled :=
  match e.findPlanned id with
  | none => {after := e.updateChannel id ({· with remoteConnected := true})}
  | some job =>
    let e := e.dropPlanned id
    if Hindered e id noerror then {after := e}
    else
      match serverCreation ep os starts job with
      | .failed => {after := e, threw := fdRefused job}
      | .unstarted => {after := e, sent := [.channelConnected id flags true]}
      | .created looped =>
        { after := e.addChannel
            {channel := id, mode := job.serverOpts.mode, flags, looped, remoteConnected := true}
          sent := [.channelConnected id flags true] }

def systemChannelClose (id : UInt8) (e : End) : Handled :=
  {after := {e with destroying := e.destroying ++ [id]}}

/- A connector of another phase is refused by the server. -/
def phaseRefused (server : Bool) (e : End) (c : Live) : Bool :=
  server && ((c.isAllowSessionFor true && !e.userSession) || (c.isAllowSessionFor false && e.userSession))

/- What recvChannelData asks of the connector it finds. -/
def takesData (server : Bool) (e : End) (c : Live) : Bool :=
  !phaseRefused server e c && c.remoteConnected && c.running

def recvChannelData (server : Bool) (id : UInt8) (buf : List UInt8) (e : End) : Handled :=
  match e.findChannel id with
  | none => {after := e, threw := true}
  | some c =>
    if takesData server e c = false then {after := e, threw := true}
    else if buf = [] ∨ (c.looped = true ∧ c.mode = .readOnly) then {after := e}
    else {after := e.updateChannel id fun c => {c with queue := c.queue ++ [buf]}}

/- One of the threads of destroyChannel; taking the connector down ends its loops. -/
def destroyThread (index : Nat) (e : End) : Handled :=
  match e.destroying[index]? with
  | none => {after := e}
  | some id =>
    let e' := {e with destroying := e.destroying.eraseIdx index}
    match e.findChannel id with
    | none => {after := e'}
    | some c =>
      { after := e'.dropChannel id
        sent := if c.looped = true ∧ c.closeSent = false then [.channelClose id] else [] }

/- A loop that meets an error stops the connector. The notice of the error it sends
changes nothing at the other end. -/
def loopFails (id : UInt8) (e : End) : Handled :=
  match e.findChannel id with
  | none => {after := e}
  | some c => {after := if c.looped then e.updateChannel id ({· with running := false}) else e}

/- The loop that closes the channel comes to its end: the writer's of a connector that
only writes, the reader's of any other. -/
def loopEnds (id : UInt8) (e : End) : Handled :=
  match e.findChannel id with
  | none => {after := e}
  | some c =>
    if c.looped = true ∧ c.running = false ∧ c.closeSent = false then
      {after := e.updateChannel id ({· with closeSent := true}), sent := [.channelClose id]}
    else {after := e}

/- A reader sends until it has ended; a connector of the client's own whenever it answers. -/
def sendData (id : UInt8) (buf : List UInt8) (e : End) : Handled :=
  match e.findChannel id with
  | none => {after := e}
  | some c =>
    if buf ≠ [] ∧ (c.looped = true → c.mode ≠ .writeOnly ∧ c.closeSent = false) then
      {after := e, sent := [.data id buf]}
    else {after := e}

/-! The two ends together. -/

inductive Side | server | client
  deriving DecidableEq, Repr

structure Ends where
  server : End
  client : End
  toClient : List Message := []
  toServer : List Message := []
  ended : Bool := false
  deriving DecidableEq, Repr

namespace Ends
variable (s : Ends)

def endOf : Side → End
  | .server => s.server
  | .client => s.client

def incoming : Side → List Message
  | .server => s.toServer
  | .client => s.toClient

/- An exception in a handler reaches the message loop, which shuts the session down. -/
def handle (side : Side) (handler : End → Handled) : Ends :=
  let h := handler (s.endOf side)
  let after := if h.threw then h.after.shutdown else h.after
  match side with
  | .server => {s with server := after, toClient := s.toClient ++ h.sent, ended := h.threw}
  | .client => {s with client := after, toServer := s.toServer ++ h.sent, ended := h.threw}

def drop : Side → Ends
  | .server => {s with toServer := s.toServer.tail}
  | .client => {s with toClient := s.toClient.tail}

end Ends

/- The client handles ChannelOpen and the server does not know it. -/
def recvMessage (ep : Endpoint) (os : Os) (starts : Bool) (side : Side) (m : Message) (e : End) : Handled :=
  match m,side with
  | .channelOpen id msg,.client => systemChannelOpen os starts id msg e
  | .channelOpen _ _,.server => {after := e, threw := true}
  | .channelConnected id flags noerror,_ => systemChannelConnected ep os starts id flags noerror e
  | .channelClose id,_ => systemChannelClose id e
  | .data id buf,side => recvChannelData (side = .server) id buf e

inductive Action
  | createChannel (os : Os) (clientOpts serverOpts : UrlMode) (chOpts : Opts)
  | accept (os : Os) (clientOpts : UrlMode) (sock : Int) (serverOpts : UrlMode) (chOpts : Opts)
  | loginSuccess
  | destroyChannel (id : UInt8)
  | deliver (side : Side) (os : Os) (starts : Bool)
  | destroyThread (side : Side) (index : Nat)
  | loopFails (side : Side) (id : UInt8)
  | loopEnds (side : Side) (id : UInt8)
  | sendData (side : Side) (id : UInt8) (buf : List UInt8)

def deliver (ep : Endpoint) (side : Side) (os : Os) (starts : Bool) (s : Ends) : Ends :=
  match s.incoming side with
  | [] => s
  | m :: _ => (s.drop side).handle side (recvMessage ep os starts side m)

def step (ep : Endpoint) (s : Ends) (a : Action) : Ends :=
  if s.ended then s
  else match a with
    | .createChannel os clientOpts serverOpts chOpts =>
      s.handle .server (createChannel os clientOpts serverOpts chOpts)
    | .accept os clientOpts sock serverOpts chOpts =>
      s.handle .server (createChannelAcceptFd os clientOpts sock serverOpts chOpts)
    | .loginSuccess => {s with server := {s.server with userSession := true}}
    | .destroyChannel id => s.handle .server (systemChannelClose id)
    | .deliver side os starts => deliver ep side os starts s
    | .destroyThread side index => s.handle side (destroyThread index)
    | .loopFails side id => s.handle side (loopFails id)
    | .loopEnds side id => s.handle side (loopEnds id)
    | .sendData side id buf => s.handle side (sendData id buf)

/- A client is in the user's session from the start. -/
def start : Ends := {server := {userSession := false}, client := {userSession := true}}

end Ltsm.ChannelEnds
