import Ltsm.ChannelEnds
import Ltsm.ChannelLines

/-! The ids of channels are used again. Both ends run as they do, and beside them it is kept for
which of an id's channels each message was sent, each thread was started and each connector made. -/
namespace Ltsm.ChannelReuse
open Library ChannelEnds ChannelLines
open Channel (Planned)
open ChannelClient (Endpoint Os ChannelOpen)

/- The number of the channel that an end has under an id, of what is on the way to it, and of the
closes that its threads were started on; `none` is a thread that no close has started. -/
structure Marks where
  number : UInt8 → Nat := fun _ => 0
  incoming : List (Message × Nat) := []
  threads : List (UInt8 × Option Nat) := []

/- `planned` counts the channels that the server has planned with an id. What a thread has destroyed
is noted with the number of the close before that of the channel. -/
structure Tracked where
  ends : Ends
  planned : UInt8 → Nat := fun _ => 0
  server : Marks := {}
  client : Marks := {}
  destroyed : List (Nat × Nat) := []

namespace Tracked

def start : Tracked := {ends := ChannelEnds.start}

/- A close is for the channel of the end that sends it, an opening for the one just planned, and an
answer for the channel of the message it answers. -/
def label (own planned : UInt8 → Nat) (cause : Nat) (m : Message) : Message × Nat :=
  (m,match m with
    | .channelClose id => own id
    | .channelOpen id _ => planned id
    | _ => cause)

def serverSends (t : Tracked) (cause : Nat) (sent : List Message) : Tracked :=
  {t with client.incoming := t.client.incoming ++ sent.map (label t.server.number t.planned cause)}

def clientSends (t : Tracked) (cause : Nat) (sent : List Message) : Tracked :=
  {t with server.incoming := t.server.incoming ++ sent.map (label t.client.number t.planned cause)}

def plans (t : Tracked) (sent : List Message) : Tracked :=
  let t := match sent with
    | .channelOpen id _ :: _ => {t with planned := Function.update t.planned id (t.planned id + 1)}
    | _ => t
  serverSends t 0 sent

/- Whether handling a message has made a connector for the id. -/
def Made (e : End) (h : Handled) (id : UInt8) : Prop := e.findChannel id = none ∧ h.after.findChannel id ≠ none
instance (e h id) : Decidable (Made e h id) := by unfold Made; infer_instance

def serverReads (t : Tracked) (h : Handled) (m : Message) (n : Nat) : Tracked :=
  let t := match m with
    | .channelClose id => {t with server.threads := t.server.threads ++ [(id,some n)]}
    | .channelConnected id _ _ =>
      if Made t.ends.server h id then {t with server.number := Function.update t.server.number id (t.planned id)}
      else t
    | _ => t
  serverSends t n h.sent

def clientReads (t : Tracked) (h : Handled) (m : Message) (n : Nat) : Tracked :=
  let t := match m with
    | .channelClose id => {t with client.threads := t.client.threads ++ [(id,some n)]}
    | .channelOpen id _ =>
      if Made t.ends.client h id then {t with client.number := Function.update t.client.number id n} else t
    | _ => t
  clientSends t n h.sent

def destroys (t : Tracked) (origin : Option Nat) (number : Nat) : Tracked :=
  match origin with
  | some n => {t with destroyed := t.destroyed ++ [(n,number)]}
  | none => t

def marks (ep : Endpoint) (t : Tracked) : Action → Tracked
  | .createChannel os clientOpts serverOpts chOpts =>
    plans t (createChannel os clientOpts serverOpts chOpts t.ends.server).sent
  | .accept os clientOpts sock serverOpts chOpts =>
    plans t (createChannelAcceptFd os clientOpts sock serverOpts chOpts t.ends.server).sent
  | .loginSuccess => t
  | .destroyChannel id => {t with server.threads := t.server.threads ++ [(id,none)]}
  | .deliver .server os starts =>
    match t.server.incoming with
    | [] => t
    | (m,n) :: rest =>
      serverReads {t with server.incoming := rest} (recvMessage ep os starts .server m t.ends.server) m n
  | .deliver .client os starts =>
    match t.client.incoming with
    | [] => t
    | (m,n) :: rest =>
      clientReads {t with client.incoming := rest} (recvMessage ep os starts .client m t.ends.client) m n
  | .destroyThread .server index =>
    match t.server.threads[index]? with
    | none => t
    | some (id,origin) =>
      let t := {t with server.threads := t.server.threads.eraseIdx index}
      if (t.ends.server.findChannel id).isNone then t
      else serverSends (destroys t origin (t.server.number id)) 0 (destroyThread index t.ends.server).sent
  | .destroyThread .client index =>
    match t.client.threads[index]? with
    | none => t
    | some (id,origin) =>
      let t := {t with client.threads := t.client.threads.eraseIdx index}
      if (t.ends.client.findChannel id).isNone then t
      else clientSends (destroys t origin (t.client.number id)) 0 (destroyThread index t.ends.client).sent
  | .loopFails _ _ => t
  | .loopEnds .server id => serverSends t 0 (loopEnds id t.ends.server).sent
  | .loopEnds .client id => clientSends t 0 (loopEnds id t.ends.client).sent
  | .sendData .server id buf => serverSends t 0 (sendData id buf t.ends.server).sent
  | .sendData .client id buf => clientSends t 0 (sendData id buf t.ends.client).sent

/- The ends take their step, whatever is kept of it. -/
def track (ep : Endpoint) (t : Tracked) (a : Action) : Tracked :=
  if t.ends.ended then t else {marks ep t a with ends := step ep t.ends a}

theorem trackEnds (ep : Endpoint) (t : Tracked) (a : Action) : (track ep t a).ends = step ep t.ends a := by
  unfold track
  split
  case isTrue ended =>
    unfold step
    rw [if_pos ended]
  case isFalse => rfl

theorem runEnds (ep : Endpoint) (t : Tracked) (actions : List Action) :
    (run (track ep) t actions).ends = run (step ep) t.ends actions := by
  induction actions generalizing t with
  | nil => rfl
  | cons a rest ih => rw [runCons,runCons,ih,trackEnds]

/- A close has destroyed only the channel that it was sent for. -/
def Faithful (t : Tracked) : Prop := ∀ entry ∈ t.destroyed, entry.1 = entry.2

/- No thread is left for the id that a close has started. -/
def Idle (threads : List (UInt8 × Option Nat)) (id : UInt8) : Prop := ∀ thread ∈ threads, thread.1 = id → thread.2 = none
instance (threads id) : Decidable (Idle threads id) := by unfold Idle; infer_instance

/- The server makes its connector on the answer to the message that has opened the channel. -/
def TakenUp (ep : Endpoint) (t : Tracked) (os : Os) (starts : Bool) : Message → Nat → Prop
  | .channelConnected id flags noerror,n =>
    Made t.ends.server (systemChannelConnected ep os starts id flags noerror t.ends.server) id →
      n = t.planned id ∧ Idle t.server.threads id
  | _,_ => True

def Admitting (t : Tracked) (os : Os) (starts : Bool) : Message → Prop
  | .channelOpen id msg =>
    Made t.ends.client (systemChannelOpen os starts id msg t.ends.client) id → Idle t.client.threads id
  | _ => True

/- An end makes a connector while none of its threads is left for the id. -/
def Proper (ep : Endpoint) (t : Tracked) : Action → Prop
  | .deliver .server os starts =>
    t.ends.ended = false → ∀ entry ∈ t.server.incoming.head?, TakenUp ep t os starts entry.1 entry.2
  | .deliver .client os starts =>
    t.ends.ended = false → ∀ entry ∈ t.client.incoming.head?, Admitting t os starts entry.1
  | _ => True

instance (ep t os starts) : (m : Message) → (n : Nat) → Decidable (TakenUp ep t os starts m n)
  | .channelConnected id flags noerror,n => inferInstanceAs (Decidable
      (Made t.ends.server (systemChannelConnected ep os starts id flags noerror t.ends.server) id →
        n = t.planned id ∧ Idle t.server.threads id))
  | .channelOpen _ _,_ | .channelClose _,_ | .data _ _,_ => isTrue trivial

instance (t os starts) : (m : Message) → Decidable (Admitting t os starts m)
  | .channelOpen id msg => inferInstanceAs (Decidable
      (Made t.ends.client (systemChannelOpen os starts id msg t.ends.client) id → Idle t.client.threads id))
  | .channelConnected _ _ _ | .channelClose _ | .data _ _ => isTrue trivial

instance (ep t) : (a : Action) → Decidable (Proper ep t a)
  | .deliver .server os starts => inferInstanceAs (Decidable
      (t.ends.ended = false → ∀ entry ∈ t.server.incoming.head?, TakenUp ep t os starts entry.1 entry.2))
  | .deliver .client os starts => inferInstanceAs (Decidable
      (t.ends.ended = false → ∀ entry ∈ t.client.incoming.head?, Admitting t os starts entry.1))
  | .createChannel .. | .accept .. | .loginSuccess | .destroyChannel _ | .destroyThread _ _ | .loopFails _ _
  | .loopEnds _ _ | .sendData _ _ _ => isTrue trivial

/-! What is under way about one id, as its line. -/

def downToken (j : UInt8) : Message × Nat → Option Token
  | (.channelOpen id _,n) => if id = j then some (.opening n) else none
  | (.channelClose id,n) => if id = j then some (.closing n) else none
  | _ => none

def upToken (j : UInt8) : Message × Nat → Option Token
  | (.channelConnected id _ true,n) => if id = j then some (.accepted n) else none
  | (.channelClose id,n) => if id = j then some (.closing n) else none
  | _ => none

def originOf (j : UInt8) (thread : UInt8 × Option Nat) : Option Nat := if thread.1 = j then thread.2 else none

def ids (e : End) : List UInt8 := e.channels.map (·.channel)

def holder (e : End) (number : UInt8 → Nat) (j : UInt8) : Option Nat := if j ∈ ids e then some (number j) else none

def line (t : Tracked) (j : UInt8) : Line where
  planned := t.planned j
  server := holder t.ends.server t.server.number j
  client := holder t.ends.client t.client.number j
  down := t.client.incoming.filterMap (downToken j)
  up := t.server.incoming.filterMap (upToken j)
  serverThreads := t.server.threads.filterMap (originOf j)
  clientThreads := t.client.threads.filterMap (originOf j)

/- What is kept beside the ends is about what they have. -/
structure Aligned (t : Tracked) : Prop where
  toServer : t.server.incoming.map Prod.fst = t.ends.toServer
  toClient : t.client.incoming.map Prod.fst = t.ends.toClient
  serverThreads : t.server.threads.map Prod.fst = t.ends.server.destroying
  clientThreads : t.client.threads.map Prod.fst = t.ends.client.destroying
  unplanned : t.ends.client.planned = []

section
variable {e after : End} {id : UInt8}

theorem foundIds : e.findChannel id = none ↔ id ∉ ids e := by
  simp [End.findChannel,ids]

theorem foundHere {c : Live} (found : e.findChannel id = some c) : id ∈ ids e := by
  by_contra none
  rw [foundIds.mpr none] at found
  cases found

theorem updateIds {f : Live → Live} (keeps : ∀ c, (f c).channel = c.channel) : ids (e.updateChannel id f) = ids e :=
  mapUpdate keeps e.channels

theorem shutdownIds : ids e.shutdown = ids e := by
  simp only [ids,End.shutdown,List.map_map]
  rfl

theorem dropIds : ids (e.dropChannel id) ⊆ ids e :=
  (List.eraseP_sublist.map _).subset

/- An end that has made no connector and started no thread. -/
structure Same (e after : End) : Prop where
  channels : ids after = ids e
  destroying : after.destroying = e.destroying
  planned : e.planned = [] → after.planned = []

theorem sameRefl (e : End) : Same e e := ⟨rfl,rfl,fun none => none⟩

theorem sameUpdate (id : UInt8) {f : Live → Live} (keeps : ∀ c, (f c).channel = c.channel) :
    Same e (e.updateChannel id f) := ⟨updateIds keeps,rfl,fun none => none⟩

theorem dataSame (server : Bool) (buf : List UInt8) :
    Same e (recvChannelData server id buf e).after ∧ (recvChannelData server id buf e).sent = [] := by
  unfold recvChannelData
  split
  case h_1 => exact ⟨sameRefl e,rfl⟩
  case h_2 =>
    split
    · exact ⟨sameRefl e,rfl⟩
    · split
      · exact ⟨sameRefl e,rfl⟩
      · exact ⟨sameUpdate id fun _ => rfl,rfl⟩

theorem failsSame : Same e (loopFails id e).after ∧ (loopFails id e).sent = [] := by
  unfold loopFails
  split
  case h_1 => exact ⟨sameRefl e,rfl⟩
  case h_2 =>
    dsimp only
    split
    · exact ⟨sameUpdate id fun _ => rfl,rfl⟩
    · exact ⟨sameRefl e,rfl⟩

/- A loop that ends closes a channel that is there. -/
theorem endsSame : Same e (loopEnds id e).after ∧
    ((loopEnds id e).sent = [] ∨ id ∈ ids e ∧ (loopEnds id e).sent = [.channelClose id]) := by
  unfold loopEnds
  split
  case h_1 => exact ⟨sameRefl e,.inl rfl⟩
  case h_2 c found =>
    split
    · exact ⟨sameUpdate id fun _ => rfl,.inr ⟨foundHere found,rfl⟩⟩
    · exact ⟨sameRefl e,.inl rfl⟩

theorem sendsSame (buf : List UInt8) : (sendData id buf e).after = e ∧
    ((sendData id buf e).sent = [] ∨ (sendData id buf e).sent = [.data id buf]) := by
  unfold sendData
  split
  case h_1 => exact ⟨rfl,.inl rfl⟩
  case h_2 =>
    split
    · exact ⟨rfl,.inr rfl⟩
    · exact ⟨rfl,.inl rfl⟩

theorem planSame (os : Os) (job : Planned) : ids (planJob os job e).after = ids e ∧
    (planJob os job e).after.destroying = e.destroying ∧
    ((planJob os job e).sent = [] ∨ ∃ id msg, id ∉ ids e ∧ (planJob os job e).sent = [.channelOpen id msg]) := by
  unfold planJob
  cases free : e.freeChannel with
  | none => exact ⟨rfl,rfl,.inl rfl⟩
  | some channel =>
    have unused := List.find?_some free
    rw [Bool.and_eq_true,Option.isNone_iff_eq_none] at unused
    exact ⟨rfl,rfl,.inr ⟨channel,_,foundIds.mp unused.1,rfl⟩⟩

/- What an answer comes to at an end: a connector, or nothing but a note of it. -/
theorem connectedCases (ep : Endpoint) (os : Os) (starts : Bool) (flags : UInt32) (noerror : Bool) :
    let h := systemChannelConnected ep os starts id flags noerror e
    (h.sent = [] ∨ h.sent = [.channelConnected id flags true]) ∧ (Same e h.after ∨ id ∉ ids e ∧ noerror = true ∧
      ids h.after = ids e ++ [id] ∧ h.after.destroying = e.destroying) := by
  dsimp only
  unfold systemChannelConnected
  split
  case h_1 => exact ⟨.inl rfl,.inl (sameUpdate id fun _ => rfl)⟩
  case h_2 job planned =>
    have unplanned : Same e (e.dropPlanned id) := by
      refine ⟨rfl,rfl,fun none => ?_⟩
      rw [End.dropPlanned,none]
      rfl
    dsimp only
    split
    case isTrue => exact ⟨.inl rfl,.inl unplanned⟩
    case isFalse free =>
      unfold Hindered at free
      simp only [not_or,Bool.not_eq_false] at free
      have absent : e.findChannel id = none := by
        rw [← Option.not_isSome_iff_eq_none]
        exact free.2.2.2
      split
      · exact ⟨.inl rfl,.inl unplanned⟩
      · exact ⟨.inr rfl,.inl unplanned⟩
      · refine ⟨.inr rfl,.inr ⟨foundIds.mp absent,free.1,?_,rfl⟩⟩
        simp [ids,End.addChannel,End.dropPlanned]

/- What an opening comes to: a refusal, a promise that is not kept, or a connector. -/
inductive Opened (e : End) (id : UInt8) (flags : UInt32) (h : Handled) : Prop
  | refused (after : h.after = e) (sent : h.sent = [.channelConnected id flags false])
  | promised (free : id ∉ ids e) (after : h.after = e)
      (sent : h.sent = [.channelConnected id flags true,.channelConnected id flags false])
  | made (free : id ∉ ids e) (channels : ids h.after = ids e ++ [id]) (destroying : h.after.destroying = e.destroying)
      (planned : h.after.planned = e.planned) (sent : h.sent = [.channelConnected id flags true])

theorem openCases (os : Os) (starts : Bool) (msg : ChannelOpen) :
    Opened e id msg.flags (systemChannelOpen os starts id msg e) := by
  unfold systemChannelOpen
  dsimp only
  split
  case isTrue admitted =>
    have free := foundIds.mp admitted.free
    split
    · exact .refused rfl rfl
    · exact .promised free rfl rfl
    · refine .made free ?_ rfl rfl rfl
      simp [ids,End.addChannel]
  case isFalse => exact .refused rfl rfl

/- A thread finds its channel or not; a loop that has not said so yet closes it then. -/
inductive Ran (e : End) (index : Nat) (id : UInt8) (h : Handled) : Prop
  | idle (none : e.findChannel id = Option.none) (channels : ids h.after = ids e) (sent : h.sent = [])
  | silent (here : id ∈ ids e) (channels : ids h.after ⊆ ids e) (sent : h.sent = [])
  | closes (here : id ∈ ids e) (channels : ids h.after ⊆ ids e) (sent : h.sent = [.channelClose id])

theorem threadCases {index : Nat} (thread : e.destroying[index]? = some id) :
    Ran e index id (destroyThread index e) ∧ (destroyThread index e).after.destroying = e.destroying.eraseIdx index ∧
      (destroyThread index e).after.planned = e.planned := by
  unfold destroyThread
  rw [thread]
  dsimp only
  cases found : e.findChannel id with
  | none => exact ⟨.idle found rfl rfl,rfl,rfl⟩
  | some c =>
    dsimp only
    split
    · exact ⟨.closes (foundHere found) dropIds rfl,rfl,rfl⟩
    · exact ⟨.silent (foundHere found) dropIds rfl,rfl,rfl⟩

theorem threadNone {index : Nat} (none : e.destroying[index]? = none) : destroyThread index e = {after := e} := by
  unfold destroyThread
  rw [none]

end

section
variable {t : Tracked} {j : UInt8}

/- Answers and data are no tokens on the way to the client, nor is data on the way to the server. -/
theorem quietDown {own planned : UInt8 → Nat} {cause : Nat} {sent : List Message}
    (quiet : ∀ m ∈ sent, (∃ id flags noerror, m = .channelConnected id flags noerror) ∨ ∃ id buf, m = .data id buf) :
    (sent.map (label own planned cause)).filterMap (downToken j) = [] := by
  refine List.filterMap_eq_nil_iff.mpr fun entry inside => ?_
  obtain ⟨m,here,rfl⟩ := List.mem_map.mp inside
  rcases quiet m here with ⟨id,flags,noerror,rfl⟩ | ⟨id,buf,rfl⟩ <;> rfl

theorem lineServerSends (cause : Nat) (sent : List Message) : line (serverSends t cause sent) j =
    {line t j with
      down := (line t j).down ++ (sent.map (label t.server.number t.planned cause)).filterMap (downToken j)} := by
  simp only [line,serverSends,List.filterMap_append]

theorem lineClientSends (cause : Nat) (sent : List Message) : line (clientSends t cause sent) j =
    {line t j with
      up := (line t j).up ++ (sent.map (label t.client.number t.planned cause)).filterMap (upToken j)} := by
  simp only [line,clientSends,List.filterMap_append]

theorem serverQuiet {cause : Nat} {sent : List Message}
    (quiet : ∀ m ∈ sent, (∃ id flags noerror, m = .channelConnected id flags noerror) ∨ ∃ id buf, m = .data id buf) :
    line (serverSends t cause sent) j = line t j := by
  rw [lineServerSends,quietDown quiet,List.append_nil]

theorem serverCloseMoves {id : UInt8} (cause : Nat) (here : id ∈ ids t.ends.server) :
    Line.Moves (line t j) (line (serverSends t cause [.channelClose id]) j) := by
  rw [lineServerSends]
  by_cases same : id = j
  · subst same
    have held : (line t id).server = some (t.server.number id) := if_pos here
    have token : ([Message.channelClose id].map (label t.server.number t.planned cause)).filterMap (downToken id) =
        [.closing (t.server.number id)] := by simp [label,downToken]
    rw [token]
    exact .single (.serverCloses held)
  · have none : ([Message.channelClose id].map (label t.server.number t.planned cause)).filterMap (downToken j) = [] := by
      simp [label,downToken,same]
    rw [none,List.append_nil]

theorem clientCloseMoves {id : UInt8} (cause : Nat) (here : id ∈ ids t.ends.client) :
    Line.Moves (line t j) (line (clientSends t cause [.channelClose id]) j) := by
  rw [lineClientSends]
  by_cases same : id = j
  · subst same
    have held : (line t id).client = some (t.client.number id) := if_pos here
    have token : ([Message.channelClose id].map (label t.client.number t.planned cause)).filterMap (upToken id) =
        [.closing (t.client.number id)] := by simp [label,upToken]
    rw [token]
    exact .single (.clientCloses held)
  · have none : ([Message.channelClose id].map (label t.client.number t.planned cause)).filterMap (upToken j) = [] := by
      simp [label,upToken,same]
    rw [none,List.append_nil]

/- Ends that have made nothing new keep what they have or lose it. -/
theorem endsMoves {next : Ends} (server : ids next.server ⊆ ids t.ends.server) (client : ids next.client ⊆ ids t.ends.client) :
    Line.Moves (line t j) (line {t with ends := next} j) := by
  have first : Line.Moves (line t j) (line {t with ends := {t.ends with server := next.server}} j) := by
    by_cases here : j ∈ ids next.server
    · have same : line {t with ends := {t.ends with server := next.server}} j = line t j := by
        simp only [line,holder,if_pos here,if_pos (server here)]
      rw [same]
    · have gone : line {t with ends := {t.ends with server := next.server}} j = {line t j with server := none} := by
        simp only [line,holder,if_neg here]
      rw [gone]
      exact .single .serverDrops
  have second : Line.Moves (line {t with ends := {t.ends with server := next.server}} j) (line {t with ends := next} j) := by
    by_cases here : j ∈ ids next.client
    · have same : line {t with ends := next} j = line {t with ends := {t.ends with server := next.server}} j := by
        simp only [line,holder,if_pos here,if_pos (client here)]
      rw [same]
    · have gone : line {t with ends := next} j =
          {line {t with ends := {t.ends with server := next.server}} j with client := none} := by
        simp only [line,holder,if_neg here]
      rw [gone]
      exact .single .clientDrops
  exact first.trans second

/- What a handler of an end leaves of both. -/
theorem handleServer (s : Ends) (handler : End → Handled) :
    ids (s.handle .server handler).server = ids (handler s.server).after ∧
      (s.handle .server handler).server.destroying = (handler s.server).after.destroying ∧
      (s.handle .server handler).client = s.client ∧ (s.handle .server handler).toServer = s.toServer ∧
      (s.handle .server handler).toClient = s.toClient ++ (handler s.server).sent := by
  unfold Ends.handle
  dsimp only [Ends.endOf]
  split
  · exact ⟨shutdownIds,rfl,rfl,rfl,rfl⟩
  · exact ⟨rfl,rfl,rfl,rfl,rfl⟩

theorem handleClient (s : Ends) (handler : End → Handled) :
    ids (s.handle .client handler).client = ids (handler s.client).after ∧
      (s.handle .client handler).client.destroying = (handler s.client).after.destroying ∧
      (s.handle .client handler).server = s.server ∧ (s.handle .client handler).toClient = s.toClient ∧
      (s.handle .client handler).toServer = s.toServer ++ (handler s.client).sent ∧
      (s.handle .client handler).client.planned = (handler s.client).after.planned := by
  unfold Ends.handle
  dsimp only [Ends.endOf]
  split
  · exact ⟨shutdownIds,rfl,rfl,rfl,rfl,rfl⟩
  · exact ⟨rfl,rfl,rfl,rfl,rfl,rfl⟩

theorem labelFst (own planned : UInt8 → Nat) (cause : Nat) (sent : List Message) :
    (sent.map (label own planned cause)).map Prod.fst = sent := by
  rw [List.map_map]
  exact List.map_id sent

/- The queues and threads after a step of the server, by what has been kept of it. -/
theorem alignedServer {next : Tracked} (aligned : Aligned t) {handler : End → Handled} {queue : List Message}
    (incoming : next.server.incoming.map Prod.fst = queue)
    (sent : next.client.incoming.map Prod.fst = t.ends.toClient ++ (handler t.ends.server).sent)
    (threads : next.server.threads.map Prod.fst = (handler t.ends.server).after.destroying)
    (other : next.client.threads = t.client.threads) :
    Aligned {next with ends := {t.ends with toServer := queue}.handle .server handler} := by
  obtain ⟨_,destroying,client,toServer,toClient⟩ := handleServer {t.ends with toServer := queue} handler
  refine ⟨incoming.trans toServer.symm,sent.trans toClient.symm,threads.trans destroying.symm,?_,?_⟩
  · rw [client,other]
    exact aligned.clientThreads
  · rw [client]
    exact aligned.unplanned

theorem alignedClient {next : Tracked} (aligned : Aligned t) {handler : End → Handled} {queue : List Message}
    (incoming : next.client.incoming.map Prod.fst = queue)
    (sent : next.server.incoming.map Prod.fst = t.ends.toServer ++ (handler t.ends.client).sent)
    (threads : next.client.threads.map Prod.fst = (handler t.ends.client).after.destroying)
    (other : next.server.threads = t.server.threads) (unplanned : (handler t.ends.client).after.planned = []) :
    Aligned {next with ends := {t.ends with toClient := queue}.handle .client handler} := by
  obtain ⟨_,destroying,server,toClient,toServer,planned⟩ := handleClient {t.ends with toClient := queue} handler
  refine ⟨sent.trans toServer.symm,incoming.trans toClient.symm,?_,threads.trans destroying.symm,planned.trans unplanned⟩
  rw [server,other]
  exact aligned.serverThreads

/- The job of a call or of a listener. -/
structure Planning (e : End) (h : Handled) : Prop where
  channels : ids h.after = ids e
  destroying : h.after.destroying = e.destroying
  sent : h.sent = [] ∨ ∃ id msg, id ∉ ids e ∧ h.sent = [.channelOpen id msg]

theorem createPlans (os : Os) (clientOpts serverOpts : Channel.UrlMode) (chOpts : Channel.Opts) (e : End) :
    Planning e (createChannel os clientOpts serverOpts chOpts e) := by
  unfold createChannel
  split
  · exact ⟨rfl,rfl,.inl rfl⟩
  · split
    · exact ⟨rfl,rfl,.inl rfl⟩
    · obtain ⟨channels,destroying,sent⟩ := planSame (e := e) os {serverOpts, clientOpts, chOpts}
      exact ⟨channels,destroying,sent⟩

theorem acceptPlans (os : Os) (clientOpts : Channel.UrlMode) (sock : Int) (serverOpts : Channel.UrlMode)
    (chOpts : Channel.Opts) (e : End) :
    Planning e (createChannelAcceptFd os clientOpts sock serverOpts chOpts e) := by
  unfold createChannelAcceptFd
  split
  · exact ⟨rfl,rfl,.inl rfl⟩
  · obtain ⟨channels,destroying,sent⟩ := planSame (e := e) os {serverOpts, clientOpts, chOpts, serverFd := sock}
    exact ⟨channels,destroying,sent⟩

/- What a step has to keep. -/
structure Moved (t next : Tracked) : Prop where
  moves : ∀ j, Line.Moves (line t j) (line next j)
  aligned : Aligned next

/- After the moves of what is kept, the ends lose what a handler takes from them. -/
theorem thenServer {next : Tracked} {handler : End → Handled} {queue : List Message} (ends : next.ends = t.ends)
    (less : ids (handler t.ends.server).after ⊆ ids t.ends.server) (moves : Line.Moves (line t j) (line next j)) :
    Line.Moves (line t j) (line {next with ends := {t.ends with toServer := queue}.handle .server handler} j) := by
  obtain ⟨channels,_,client,_⟩ := handleServer {t.ends with toServer := queue} handler
  refine moves.trans (endsMoves ?_ ?_)
  · rwa [ends,channels]
  · rw [ends,client]
    exact fun _ inside => inside

theorem thenClient {next : Tracked} {handler : End → Handled} {queue : List Message} (ends : next.ends = t.ends)
    (less : ids (handler t.ends.client).after ⊆ ids t.ends.client) (moves : Line.Moves (line t j) (line next j)) :
    Line.Moves (line t j) (line {next with ends := {t.ends with toClient := queue}.handle .client handler} j) := by
  obtain ⟨channels,_,server,_⟩ := handleClient {t.ends with toClient := queue} handler
  refine moves.trans (endsMoves ?_ ?_)
  · rw [ends,server]
    exact fun _ inside => inside
  · rwa [ends,channels]

theorem lineOpens {id : UInt8} (msg : ChannelOpen) (free : id ∉ ids t.ends.server) :
    Line.Moves (line t j) (line (plans t [.channelOpen id msg]) j) := by
  unfold plans
  rw [lineServerSends]
  by_cases same : id = j
  · subst same
    have free' : (line t id).server = none := if_neg free
    have next : {line {t with planned := Function.update t.planned id (t.planned id + 1)} id with
        down := (line t id).down ++ [Token.opening (t.planned id + 1)]} =
          {line t id with
            planned := (line t id).planned + 1
            down := (line t id).down ++ [Token.opening ((line t id).planned + 1)]} := by
      simp only [line,Function.update_self]
    simp only [List.map_cons,List.map_nil,label,Function.update_self,List.filterMap_cons,downToken,if_true,
      List.filterMap_nil]
    exact next ▸ .single (.plan free')
  · have other : j ≠ id := fun equal => same equal.symm
    simp only [List.map_cons,List.map_nil,label,List.filterMap_cons,downToken,if_neg same,List.filterMap_nil,
      List.append_nil]
    have next : line {t with planned := Function.update t.planned id (t.planned id + 1)} j = line t j := by
      simp only [line,Function.update_of_ne other]
    exact next ▸ .refl

theorem plansKeeps (t : Tracked) (sent : List Message) : (plans t sent).ends = t.ends ∧
    (plans t sent).server = t.server ∧ (plans t sent).client.threads = t.client.threads ∧
    (plans t sent).client.incoming.map Prod.fst = t.client.incoming.map Prod.fst ++ sent := by
  unfold plans
  split <;> exact ⟨rfl,rfl,rfl,by rw [serverSends,List.map_append,labelFst]⟩

theorem plansMoved (aligned : Aligned t) {handler : End → Handled} (planning : Planning t.ends.server (handler t.ends.server)) :
    Moved t {plans t (handler t.ends.server).sent with ends := t.ends.handle .server handler} := by
  have less : ids (handler t.ends.server).after ⊆ ids t.ends.server := by
    rw [planning.channels]
    exact fun _ inside => inside
  obtain ⟨ends,server,threads,sent⟩ := plansKeeps t (handler t.ends.server).sent
  refine ⟨fun j => ?_,?_⟩
  · refine @thenServer t j (plans t _) handler t.ends.toServer ends less ?_
    rcases planning.sent with none | ⟨id,msg,free,one⟩
    · rw [none,show plans t [] = serverSends t 0 [] from rfl,serverQuiet fun m inside => absurd inside List.not_mem_nil]
    · rw [one]
      exact lineOpens msg free
  · refine @alignedServer t (plans t _) aligned handler t.ends.toServer ?_ ?_ ?_ threads
    · rw [server]
      exact aligned.toServer
    · rw [sent,aligned.toClient]
    · rw [server]
      exact aligned.serverThreads.trans planning.destroying.symm

theorem lineServerPop {m : Message} {n : Nat} {rest : List (Message × Nat)}
    (queue : t.server.incoming = (m,n) :: rest) (other : upToken j (m,n) = none) :
    line {t with server.incoming := rest} j = line t j := by
  simp only [line,queue,List.filterMap_cons,other]

theorem lineClientPop {m : Message} {n : Nat} {rest : List (Message × Nat)}
    (queue : t.client.incoming = (m,n) :: rest) (other : downToken j (m,n) = none) :
    line {t with client.incoming := rest} j = line t j := by
  simp only [line,queue,List.filterMap_cons,other]

/- The server starts a thread on a close. -/
theorem lineServerClosed {id : UInt8} {n : Nat} {rest : List (Message × Nat)}
    (queue : t.server.incoming = (.channelClose id,n) :: rest) :
    Line.Moves (line t j)
      (line {t with server := {t.server with incoming := rest, threads := t.server.threads ++ [(id,some n)]}} j) := by
  by_cases same : id = j
  · subst same
    have up : (line t id).up = .closing n :: rest.filterMap (upToken id) := by
      simp only [line,queue,List.filterMap_cons,upToken,if_true]
    have next : line {t with server := {t.server with incoming := rest, threads := t.server.threads ++ [(id,some n)]}} id =
        {line t id with
          up := rest.filterMap (upToken id)
          serverThreads := (line t id).serverThreads ++ [n]} := by
      simp only [line,List.filterMap_append,List.filterMap_cons,List.filterMap_nil,originOf,if_true]
    rw [next]
    exact .single (.serverReads up)
  · have next : line {t with server := {t.server with incoming := rest, threads := t.server.threads ++ [(id,some n)]}} j =
        line t j := by
      simp only [line,queue,List.filterMap_append,List.filterMap_cons,List.filterMap_nil,originOf,upToken,if_neg same,
        List.append_nil]
    rw [next]

theorem lineClientClosed {id : UInt8} {n : Nat} {rest : List (Message × Nat)}
    (queue : t.client.incoming = (.channelClose id,n) :: rest) :
    Line.Moves (line t j)
      (line {t with client := {t.client with incoming := rest, threads := t.client.threads ++ [(id,some n)]}} j) := by
  by_cases same : id = j
  · subst same
    have down : (line t id).down = .closing n :: rest.filterMap (downToken id) := by
      simp only [line,queue,List.filterMap_cons,downToken,if_true]
    have next : line {t with client := {t.client with incoming := rest, threads := t.client.threads ++ [(id,some n)]}} id =
        {line t id with
          down := rest.filterMap (downToken id)
          clientThreads := (line t id).clientThreads ++ [n]} := by
      simp only [line,List.filterMap_append,List.filterMap_cons,List.filterMap_nil,originOf,if_true]
    rw [next]
    exact .single (.clientReads down)
  · have next : line {t with client := {t.client with incoming := rest, threads := t.client.threads ++ [(id,some n)]}} j =
        line t j := by
      simp only [line,queue,List.filterMap_append,List.filterMap_cons,List.filterMap_nil,originOf,downToken,if_neg same,
        List.append_nil]
    rw [next]

/- An answer that makes no connector. -/
theorem lineServerPasses {id : UInt8} {flags : UInt32} {noerror : Bool} {n : Nat} {rest : List (Message × Nat)}
    (queue : t.server.incoming = (.channelConnected id flags noerror,n) :: rest) :
    Line.Moves (line t j) (line {t with server.incoming := rest} j) := by
  by_cases same : id = j ∧ noerror = true
  · obtain ⟨rfl,rfl⟩ := same
    have up : (line t id).up = .accepted n :: rest.filterMap (upToken id) := by
      simp only [line,queue,List.filterMap_cons,upToken,if_true]
    exact .single (.passes up)
  · have other : upToken j (.channelConnected id flags noerror,n) = none := by
      cases noerror with
      | false => rfl
      | true => exact if_neg fun equal => same ⟨equal,rfl⟩
    rw [lineServerPop queue other]

theorem threadsIdle {threads : List (UInt8 × Option Nat)} (idle : Idle threads j) :
    threads.filterMap (originOf j) = [] := by
  refine List.filterMap_eq_nil_iff.mpr fun thread inside => ?_
  unfold originOf
  split
  case isTrue same => exact idle thread inside same
  case isFalse => rfl

/- The answer that the server makes its connector on. -/
theorem lineServerMakes {id : UInt8} {flags : UInt32} {rest : List (Message × Nat)} {next : Ends}
    (queue : t.server.incoming = (.channelConnected id flags true,t.planned id) :: rest)
    (idle : Idle t.server.threads id) (server : ids next.server = ids t.ends.server ++ [id])
    (client : next.client = t.ends.client) :
    Line.Moves (line t j) (line {t with
      ends := next
      server := {t.server with
        incoming := rest
        number := Function.update t.server.number id (t.planned id)}} j) := by
  by_cases same : id = j
  · subst same
    have up : (line t id).up = .accepted (line t id).planned :: rest.filterMap (upToken id) := by
      simp only [line,queue,List.filterMap_cons,upToken,if_true]
    have made : line {t with
        ends := next
        server := {t.server with
          incoming := rest
          number := Function.update t.server.number id (t.planned id)}} id =
        {line t id with
          up := rest.filterMap (upToken id)
          server := some (line t id).planned} := by
      have here : id ∈ ids next.server := server ▸ List.mem_append_right _ (List.mem_singleton.mpr rfl)
      simp only [line,holder,if_pos here,Function.update_self,client]
    rw [made]
    exact .single (.takesUp up (threadsIdle idle))
  · have here : j ∈ ids next.server ↔ j ∈ ids t.ends.server := by
      rw [server,List.mem_append,List.mem_singleton]
      exact or_iff_left fun equal => same equal.symm
    have kept : line {t with
        ends := next
        server := {t.server with
          incoming := rest
          number := Function.update t.server.number id (t.planned id)}} j = line t j := by
      have other : j ≠ id := fun equal => same equal.symm
      simp only [line,holder,here,Function.update_of_ne other,client,queue,List.filterMap_cons,upToken,if_neg same]
    rw [kept]

end

end Tracked
end Ltsm.ChannelReuse
