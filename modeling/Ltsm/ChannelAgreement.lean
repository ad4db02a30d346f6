import Ltsm.ChannelMoves
import Ltsm.Library.Run

/-! A channel whose opening or closing has been handled to the end is either running at
both ends or gone from both, in every run in which no end loses a connector that it
had promised. -/
namespace Ltsm.ChannelEnds
open Channel ChannelClient Library

/- The making of a connector that a step of a live session comes to. -/
def attempt (ep : Endpoint) (s : Ends) (a : Action) : Option (Side × UInt8 × Creation) :=
  if s.ended then none
  else match a with
    | .deliver .client os starts =>
      match s.toClient with
      | .channelOpen id msg :: _ =>
        if Admitted s.client id msg then some (.client,id,clientCreation os starts msg) else none
      | _ => none
    | .deliver .server os starts =>
      match s.toServer with
      | .channelConnected id _ noerror :: _ =>
        match s.server.findPlanned id with
        | some job =>
          if Hindered s.server id noerror then none else some (.server,id,serverCreation ep os starts job)
        | none => none
      | _ => none
    | _ => none

/- What the other end has been promised already. -/
def breaksPromise : Option (Side × UInt8 × Creation) → Bool
  | some (.server,_,creation) => creation = .failed || creation = .unstarted
  | some (.client,_,creation) => creation = .unstarted
  | none => false

/- A loop's error is answered with a close by a connector that has loops. -/
def strands (s : Ends) : Action → Bool
  | .loopFails .server id => s.client.channels.any fun c => c.channel = id && !c.looped
  | _ => false

/- The server can make its connector once the client has one, the client's does not fail
after its base was made, and the server's has an error only with a loop at the other end. -/
def Sound (ep : Endpoint) (s : Ends) (a : Action) : Prop :=
  breaksPromise (attempt ep s a) = false ∧ strands s a = false
instance (ep s a) : Decidable (Sound ep s a) := by unfold Sound; infer_instance

def Ends.outgoing (s : Ends) : Side → List Message
  | .server => s.toClient
  | .client => s.toServer

/- A making that fails is reported to the other end. -/
def Reported (ep : Endpoint) (s : Ends) (a : Action) : Prop :=
  ∀ side id creation, attempt ep s a = some (side,id,creation) → creation = .failed ∨ creation = .unstarted →
    ∃ flags, ((step ep s a).outgoing side).getLast? = some (.channelConnected id flags false)

/- Nothing about the id is under way, no thread is taking it down and no loop that has
stopped has its close still to send. -/
structure Settled (s : Ends) (id : UInt8) : Prop where
  handled : ∀ m ∈ s.toClient ++ s.toServer, m.about ≠ some id
  undoomed : id ∉ s.server.destroying ++ s.client.destroying
  ended : ∀ c ∈ s.server.channels ++ s.client.channels, c.channel = id → c.looped = true →
    c.running = false → c.closeSent = true

/- Both ends run a channel of the id, or the id is free at both. -/
def Agree (s : Ends) (id : UInt8) : Prop :=
  (∃ c d, s.server.findChannel id = some c ∧ s.client.findChannel id = some d ∧
    c.running = true ∧ d.running = true) ∨
  (s.server.findChannel id = none ∧ s.server.findPlanned id = none ∧ s.client.findChannel id = none)

/-! What the numbers leave out. -/

structure Follows (c d : Live) : Prop where
  channel : d.channel = c.channel
  looped : d.looped = c.looped
  running : d.running = c.running
  closed : d.closeSent = true → c.closeSent = true ∨ c.looped = true ∧ c.running = false

/- An end that has taken up nothing new. -/
structure Keeps (e after : End) : Prop where
  channels : ∀ d ∈ after.channels, ∃ c ∈ e.channels, Follows c d
  planned : ∀ job ∈ after.planned, job ∈ e.planned

/- What is known of the connectors themselves: the server's have loops, the client's own
ones never stop, nor do their partners. -/
structure Shaped (server client : End) : Prop where
  looped : ∀ c ∈ server.channels, c.looped = true
  stopped : ∀ c ∈ server.channels, c.closeSent = true → c.running = false
  own : ∀ c ∈ client.channels, c.looped = false → c.running = true ∧ c.closeSent = false
  partner : ∀ c ∈ client.channels, c.looped = false → ∀ d ∈ server.channels,
    d.channel = c.channel → d.running = true
  proper : ∀ job ∈ server.planned, 0 < job.channel ∧ job.channel < 255
  idle : client.planned = []

section
variable {e server client after : End} {id : UInt8} {c : Live}

theorem follows (c : Live) : Follows c c := ⟨rfl,rfl,rfl,.inl⟩

theorem keepsSame (channels : after.channels = e.channels) (planned : after.planned = e.planned) :
    Keeps e after :=
  ⟨fun d inside => ⟨d,channels ▸ inside,follows d⟩,fun _ inside => planned ▸ inside⟩

theorem keepsRefl (e : End) : Keeps e e := keepsSame rfl rfl

theorem keepsDoom (id : UInt8) (e : End) : Keeps e (systemChannelClose id e).after := keepsSame rfl rfl

theorem keepsUpdate {f : Live → Live} (moves : ∀ c, e.findChannel id = some c → Follows c (f c)) :
    Keeps e (e.updateChannel id f) := by
  refine ⟨fun d inside => ?_,fun _ inside => inside⟩
  rcases memUpdateFound inside with old | ⟨c,found,rfl⟩
  · exact ⟨d,old,follows d⟩
  · exact ⟨c,List.mem_of_find?_eq_some found,moves c found⟩

theorem keepsDrop (e : End) (id : UInt8) : Keeps e (e.dropChannel id) :=
  ⟨fun d inside => ⟨d,List.mem_of_mem_eraseP inside,follows d⟩,fun _ inside => inside⟩

theorem keepsUnplan (e : End) (id : UInt8) : Keeps e (e.dropPlanned id) :=
  ⟨fun d inside => ⟨d,inside,follows d⟩,fun _ inside => List.mem_of_mem_eraseP inside⟩

theorem keepsData (server : Bool) (id : UInt8) (buf : List UInt8) (e : End) :
    Keeps e (recvChannelData server id buf e).after := by
  rw [recvChannelData]
  split
  · exact keepsRefl e
  split
  · exact keepsRefl e
  split
  · exact keepsRefl e
  · exact keepsUpdate fun c _ => ⟨rfl,rfl,rfl,.inl⟩

theorem keepsEnds (id : UInt8) (e : End) : Keeps e (loopEnds id e).after := by
  rw [loopEnds]
  cases found : e.findChannel id with
  | none => exact keepsRefl e
  | some c =>
    dsimp only
    split
    · rename_i ends
      refine keepsUpdate fun d same => ⟨rfl,rfl,rfl,fun _ => .inr ?_⟩
      cases Option.some.inj (found.symm.trans same)
      exact ⟨ends.1,ends.2.1⟩
    · exact keepsRefl e

theorem keepsThread (index : Nat) (e : End) : Keeps e (destroyThread index e).after := by
  rw [destroyThread]
  split
  · exact keepsRefl e
  dsimp only
  split
  · exact keepsSame rfl rfl
  · obtain ⟨channels,planned⟩ := keepsDrop e _
    exact ⟨channels,planned⟩

theorem keepsSends (id : UInt8) (buf : List UInt8) (e : End) : Keeps e (sendData id buf e).after := by
  rw [sendData]
  split
  · exact keepsRefl e
  split <;> exact keepsRefl e

theorem keepsConnected (ep : Endpoint) (os : Os) (starts : Bool) (flags : UInt32) (noerror : Bool)
    (absent : e.findPlanned id = none) : Keeps e (systemChannelConnected ep os starts id flags noerror e).after := by
  rw [systemChannelConnected,absent]
  exact keepsUpdate fun c _ => ⟨rfl,rfl,rfl,.inl⟩

theorem shapedServer (keeps : Keeps server after) (shaped : Shaped server client) : Shaped after client := by
  refine ⟨?_,?_,shaped.own,?_,fun job inside => shaped.proper job (keeps.planned job inside),shaped.idle⟩
  · intro d inside
    obtain ⟨c,old,follows⟩ := keeps.channels d inside
    exact follows.looped.trans (shaped.looped c old)
  · intro d inside closed
    obtain ⟨c,old,follows⟩ := keeps.channels d inside
    rcases follows.closed closed with before | ⟨_,stopped⟩
    · exact follows.running.trans (shaped.stopped c old before)
    · exact follows.running.trans stopped
  · intro c inside own d there same
    obtain ⟨d',old,follows⟩ := keeps.channels d there
    exact follows.running.trans (shaped.partner c inside own d' old (follows.channel ▸ same))

theorem shapedClient (keeps : Keeps client after) (shaped : Shaped server client) : Shaped server after := by
  refine ⟨shaped.looped,shaped.stopped,?_,?_,shaped.proper,?_⟩
  · intro d inside unlooped
    obtain ⟨c,old,follows⟩ := keeps.channels d inside
    rw [follows.looped] at unlooped
    obtain ⟨running,unsaid⟩ := shaped.own c old unlooped
    refine ⟨follows.running.trans running,Bool.eq_false_iff.mpr fun closed => ?_⟩
    rcases follows.closed closed with before | ⟨looped,_⟩
    · exact absurd before (by simp [unsaid])
    · exact absurd looped (by simp [unlooped])
  · intro d inside unlooped d' there same
    obtain ⟨c,old,follows⟩ := keeps.channels d inside
    exact shaped.partner c old (follows.looped ▸ unlooped) d' there (follows.channel ▸ same)
  · exact List.eq_nil_iff_forall_not_mem.mpr fun job inside => by
      have old := keeps.planned job inside
      rw [shaped.idle] at old
      exact absurd old (List.not_mem_nil)

theorem freeProper {channel : UInt8} (free : e.freeChannel = some channel) : 0 < channel ∧ channel < 255 := by
  obtain ⟨i,inside,rfl⟩ := List.mem_map.mp (List.mem_of_find?_eq_some free)
  have small := List.mem_range.mp inside
  rw [UInt8.lt_iff_toNat_lt,UInt8.lt_iff_toNat_lt]
  simp only [UInt8.toNat_ofNat',UInt8.reduceToNat]
  omega

theorem shapedPlan (os : Os) (job : Planned) (shaped : Shaped server client) :
    Shaped (planJob os job server).after client := by
  rw [planJob]
  cases free : server.freeChannel with
  | none => exact shaped
  | some channel =>
    refine ⟨shaped.looped,shaped.stopped,shaped.own,shaped.partner,fun planned inside => ?_,shaped.idle⟩
    rcases List.mem_append.mp inside with old | new
    · exact shaped.proper planned old
    · rw [List.mem_singleton.mp new]
      exact freeProper free

theorem shapedServerAdd (looped : c.looped = true) (running : c.running = true) (unsaid : c.closeSent = false)
    (shaped : Shaped server client) : Shaped (server.addChannel c) client := by
  refine ⟨fun d inside => ?_,fun d inside closed => ?_,shaped.own,fun o inside own d there same => ?_,
    shaped.proper,shaped.idle⟩
  · rcases List.mem_append.mp inside with old | new
    · exact shaped.looped d old
    · exact List.mem_singleton.mp new ▸ looped
  · rcases List.mem_append.mp inside with old | new
    · exact shaped.stopped d old closed
    · rw [List.mem_singleton.mp new,unsaid] at closed
      exact absurd closed (by simp)
  · rcases List.mem_append.mp there with old | new
    · exact shaped.partner o inside own d old same
    · exact List.mem_singleton.mp new ▸ running

theorem shapedClientAdd (running : c.running = true) (unsaid : c.closeSent = false)
    (unheld : server.holds c.channel = 0) (shaped : Shaped server client) :
    Shaped server (client.addChannel c) := by
  refine ⟨shaped.looped,shaped.stopped,fun o inside own => ?_,fun o inside own d there same => ?_,
    shaped.proper,shaped.idle⟩
  · rcases List.mem_append.mp inside with old | new
    · exact shaped.own o old own
    · exact List.mem_singleton.mp new ▸ ⟨running,unsaid⟩
  · rcases List.mem_append.mp inside with old | new
    · exact shaped.partner o old own d there same
    · have absent := List.countP_eq_zero.mp unheld d there
      rw [List.mem_singleton.mp new] at same
      exact absurd (decide_eq_true same) absent

/- What loopFails does to the connectors of an end. -/
theorem failsSource {d : Live} (inside : d ∈ (loopFails id e).after.channels) :
    d ∈ e.channels ∨ ∃ c ∈ e.channels, c.channel = id ∧ c.looped = true ∧ d = {c with running := false} := by
  rw [loopFails] at inside
  cases found : e.findChannel id with
  | none => exact .inl (by simpa only [found] using inside)
  | some c =>
    cases looped : c.looped with
    | false => exact .inl (by simpa only [found,looped,Bool.false_eq_true,if_false] using inside)
    | true =>
      simp only [found,looped,if_true] at inside
      rcases memUpdateFound inside with old | ⟨c',same,rfl⟩
      · exact .inl old
      · cases Option.some.inj (found.symm.trans same)
        exact .inr ⟨c,End.foundMem found,End.foundId found,looped,rfl⟩

theorem failsPlanned (id : UInt8) (e : End) : (loopFails id e).after.planned = e.planned := by
  rw [loopFails]
  split
  · rfl
  split <;> rfl

theorem shapedServerFails (alone : ∀ c ∈ client.channels, c.channel = id → c.looped = true)
    (shaped : Shaped server client) : Shaped (loopFails id server).after client := by
  refine ⟨fun d inside => ?_,fun d inside closed => ?_,shaped.own,fun o there own d inside same => ?_,
    fun job inside => shaped.proper job (failsPlanned id server ▸ inside),shaped.idle⟩
  · rcases failsSource inside with old | ⟨c,_,_,looped,rfl⟩
    · exact shaped.looped d old
    · exact looped
  · rcases failsSource inside with old | ⟨c,_,_,_,rfl⟩
    · exact shaped.stopped d old closed
    · rfl
  · rcases failsSource inside with old | ⟨c,_,channel,_,rfl⟩
    · exact shaped.partner o there own d old same
    · have looped := alone o there (same.symm.trans channel)
      exact absurd looped (by simp [own])

theorem shapedClientFails (shaped : Shaped server client) : Shaped server (loopFails id client).after := by
  refine ⟨shaped.looped,shaped.stopped,fun d inside own => ?_,fun d inside own o there same => ?_,
    shaped.proper,(failsPlanned id client).trans shaped.idle⟩
  · rcases failsSource inside with old | ⟨c,_,_,looped,rfl⟩
    · exact shaped.own d old own
    · exact absurd looped (by simpa using own)
  · rcases failsSource inside with old | ⟨c,_,_,looped,rfl⟩
    · exact shaped.partner d old own o there same
    · exact absurd looped (by simpa using own)

theorem plannedLooped {ep : Endpoint} {os : Os} {job : Planned} {r : Resource}
    (opened : ChannelPlanned.plannedResource ep os job = some r) : isLooped r = true := by
  rcases ChannelPlanned.plannedOpens opened with ⟨_,⟨_,rfl⟩ | ⟨_,rfl⟩⟩ |
    ⟨_,⟨_,rfl⟩ | ⟨_,_,rfl⟩ | ⟨_,rfl⟩ | ⟨_,rfl⟩⟩
  all_goals rfl

theorem serverLooped {ep : Endpoint} {os : Os} {starts looped : Bool} {job : Planned}
    (made : serverCreation ep os starts job = .created looped) : looped = true := by
  rw [serverCreation] at made
  cases opened : ChannelPlanned.plannedResource ep os job with
  | none => simp [opened,creationOf] at made
  | some r => cases starts <;> simp_all [creationOf,plannedLooped opened]

theorem shapedOpen (os : Os) (starts : Bool) {msg : ChannelOpen} (unheld : server.holds id = 0)
    (shaped : Shaped server client) : Shaped server (systemChannelOpen os starts id msg client).after := by
  rw [systemChannelOpen]
  split
  · cases clientCreation os starts msg with
    | created looped => exact shapedClientAdd rfl rfl unheld shaped
    | _ => exact shaped
  · exact shaped

theorem shapedConnected (ep : Endpoint) (os : Os) (starts : Bool) (id : UInt8) (flags : UInt32)
    (noerror : Bool) (shaped : Shaped server client) :
    Shaped (systemChannelConnected ep os starts id flags noerror server).after client := by
  cases found : server.findPlanned id with
  | none => exact shapedServer (keepsConnected ep os starts flags noerror found) shaped
  | some job =>
    have dropped := shapedServer (keepsUnplan server id) shaped
    rw [systemChannelConnected,found]
    dsimp only
    split
    · exact dropped
    cases made : serverCreation ep os starts job with
    | created looped => exact shapedServerAdd (serverLooped made) rfl rfl dropped
    | _ => exact dropped

end

/- While the session lasts. -/
def Kept (s : Ends) : Prop :=
  s.ended = false → Shaped s.server s.client ∧ ∀ id, (s.book id).Balanced

theorem handledServer {t : Ends} {handler : End → Handled}
    (kept : (handler t.server).threw = false → Shaped (handler t.server).after t.client ∧
      ∀ j, (serverAfter t t.toServer (handler t.server) j).Balanced) : Kept (t.handle .server handler) := by
  intro alive
  have safe : (handler t.server).threw = false := alive
  obtain ⟨shaped,balanced⟩ := kept safe
  refine ⟨?_,fun id => bookServer safe id ▸ balanced id⟩
  simpa [Ends.handle,Ends.endOf,safe] using shaped

theorem handledClient {t : Ends} {handler : End → Handled}
    (kept : (handler t.client).threw = false → Shaped t.server (handler t.client).after ∧
      ∀ j, (clientAfter t t.toClient (handler t.client) j).Balanced) : Kept (t.handle .client handler) := by
  intro alive
  have safe : (handler t.client).threw = false := alive
  obtain ⟨shaped,balanced⟩ := kept safe
  refine ⟨?_,fun id => bookClient safe id ▸ balanced id⟩
  simpa [Ends.handle,Ends.endOf,safe] using shaped

section
variable {ep : Endpoint} {s : Ends} {os : Os} {starts : Bool}

theorem createSource (os : Os) (clientOpts serverOpts : UrlMode) (chOpts : Opts) (e : End) :
    createChannel os clientOpts serverOpts chOpts e = {after := e} ∨
      ∃ job, createChannel os clientOpts serverOpts chOpts e = planJob os job e := by
  rw [createChannel]
  split
  · exact .inl rfl
  split
  · exact .inl rfl
  · exact .inr ⟨_,rfl⟩

theorem acceptSource (os : Os) (clientOpts : UrlMode) (sock : Int) (serverOpts : UrlMode) (chOpts : Opts)
    (e : End) : createChannelAcceptFd os clientOpts sock serverOpts chOpts e = {after := e} ∨
      ∃ job, createChannelAcceptFd os clientOpts sock serverOpts chOpts e = planJob os job e := by
  rw [createChannelAcceptFd]
  split
  · exact .inl rfl
  · exact .inr ⟨_,rfl⟩

theorem keptPlans {handler : End → Handled} (shaped : Shaped s.server s.client)
    (balanced : ∀ id, (s.book id).Balanced)
    (source : handler s.server = {after := s.server} ∨ ∃ job, handler s.server = planJob os job s.server) :
    Kept (s.handle .server handler) := by
  refine handledServer fun _ => ?_
  rcases source with same | ⟨job,same⟩ <;> rw [same]
  · exact ⟨shaped,fun j => Book.moveBalanced (quietServer (quietNothing s.server) rfl) (balanced j)⟩
  · exact ⟨shapedPlan os job shaped,fun j => Book.moveBalanced (planMoves os job s j) (balanced j)⟩

theorem keptDeliverClient (shaped : Shaped s.server s.client) (balanced : ∀ id, (s.book id).Balanced)
    (sound : Sound ep s (.deliver .client os starts)) (alive : s.ended = false) :
    Kept (deliver ep .client os starts s) := by
  rw [deliver]
  cases incoming : s.toClient with
  | nil =>
    simp only [Ends.incoming,incoming]
    exact fun _ => ⟨shaped,balanced⟩
  | cons m rest =>
    simp only [Ends.incoming,incoming]
    have popped : (s.drop .client).toClient = rest := by simp [Ends.drop,incoming]
    refine handledClient fun _ => ?_
    rw [popped]
    show Shaped s.server (recvMessage ep os starts .client m s.client).after ∧
      ∀ j, (clientAfter s rest (recvMessage ep os starts .client m s.client) j).Balanced
    cases m with
    | channelOpen id msg =>
      have asked : 0 < (s.book id).down.opens := by simp [bookDown incoming,down,isOpen]
      have pending := (balanced id).pending
      have single := (balanced id).single
      have unheld : s.server.holds id = 0 := by
        have same : (s.book id).server.holds = s.server.holds id := rfl
        omega
      have starting : Admitted s.client id msg → clientCreation os starts msg ≠ .unstarted := by
        intro admitted
        have made := sound.1
        simp only [attempt,alive,Bool.false_eq_true,if_false,incoming,if_pos admitted,breaksPromise] at made
        exact of_decide_eq_false made
      exact ⟨shapedOpen os starts unheld shaped,
        fun j => Book.moveBalanced (openMoves incoming starting j) (balanced j)⟩
    | channelConnected id flags noerror =>
      have absent : s.client.findPlanned id = none := by simp [End.findPlanned,shaped.idle]
      refine ⟨shapedClient (keepsConnected ep os starts flags noerror absent) shaped,fun j => ?_⟩
      have quiet := quietConnected ep os starts id flags noerror shaped.idle
      exact Book.moveBalanced (quietClient quiet (bookDown incoming j ▸ downPassed ⟨rfl,rfl⟩)) (balanced j)
    | channelClose id =>
      exact ⟨shapedClient (keepsDoom id s.client) shaped,
        fun j => Book.moveBalanced (closeMovesClient incoming j) (balanced j)⟩
    | data id buf =>
      refine ⟨shapedClient (keepsData false id buf s.client) shaped,fun j => ?_⟩
      exact Book.moveBalanced (quietClient (quietData false id buf s.client)
        (bookDown incoming j ▸ downPassed ⟨rfl,rfl⟩)) (balanced j)

theorem keptDeliverServer (shaped : Shaped s.server s.client) (balanced : ∀ id, (s.book id).Balanced)
    (sound : Sound ep s (.deliver .server os starts)) (alive : s.ended = false) :
    Kept (deliver ep .server os starts s) := by
  rw [deliver]
  cases incoming : s.toServer with
  | nil =>
    simp only [Ends.incoming,incoming]
    exact fun _ => ⟨shaped,balanced⟩
  | cons m rest =>
    simp only [Ends.incoming,incoming]
    have popped : (s.drop .server).toServer = rest := by simp [Ends.drop,incoming]
    refine handledServer fun safe => ?_
    rw [popped]
    have handled : (s.drop .server).server = s.server := rfl
    rw [handled] at safe
    show Shaped (recvMessage ep os starts .server m s.server).after s.client ∧
      ∀ j, (serverAfter s rest (recvMessage ep os starts .server m s.server) j).Balanced
    cases m with
    | channelOpen id msg => exact absurd safe (by simp [recvMessage])
    | channelConnected id flags noerror =>
      refine ⟨shapedConnected ep os starts id flags noerror shaped,fun j => ?_⟩
      refine Book.moveBalanced (connectedMovesServer incoming (balanced id) shaped.proper ?_ j) (balanced j)
      intro job found unhindered
      have made := sound.1
      simp only [attempt,alive,Bool.false_eq_true,if_false,incoming,found,if_neg unhindered] at made
      cases creation : serverCreation ep os starts job with
      | created looped => exact ⟨looped,rfl⟩
      | _ => simp [creation,breaksPromise] at made
    | channelClose id =>
      exact ⟨shapedServer (keepsDoom id s.server) shaped,
        fun j => Book.moveBalanced (closeMovesServer incoming j) (balanced j)⟩
    | data id buf =>
      refine ⟨shapedServer (keepsData true id buf s.server) shaped,fun j => ?_⟩
      exact Book.moveBalanced (quietServer (quietData true id buf s.server)
        (bookUp incoming j ▸ upPassed (by simp [Message.about]))) (balanced j)

/- A server connector whose partner has no loops has not said that it is closed. -/
theorem partnerFresh (shaped : Shaped s.server s.client) (c : Live) (inside : c ∈ s.client.channels)
    (own : c.looped = false) : s.server.holds c.channel = s.server.fresh c.channel := by
  refine List.countP_congr fun d there => ?_
  simp only [decide_eq_true_eq]
  refine ⟨fun same => ⟨same,Bool.eq_false_iff.mpr fun closed => ?_⟩,And.left⟩
  have stopped := shaped.stopped d there closed
  exact absurd (shaped.partner c inside own d there same) (by simp [stopped])

theorem stepKept (s : Ends) (a : Action) (sound : Sound ep s a) (kept : Kept s) : Kept (step ep s a) := by
  cases alive : s.ended with
  | true =>
    have same : step ep s a = s := if_pos alive
    rw [same]
    exact kept
  | false =>
    obtain ⟨shaped,balanced⟩ := kept alive
    unfold step
    rw [if_neg (by simp [alive])]
    cases a with
    | createChannel os clientOpts serverOpts chOpts =>
      exact keptPlans shaped balanced (createSource os clientOpts serverOpts chOpts s.server)
    | accept os clientOpts sock serverOpts chOpts =>
      exact keptPlans shaped balanced (acceptSource os clientOpts sock serverOpts chOpts s.server)
    | loginSuccess =>
      exact fun _ => ⟨⟨shaped.looped,shaped.stopped,shaped.own,shaped.partner,shaped.proper,shaped.idle⟩,balanced⟩
    | destroyChannel id =>
      exact handledServer fun _ => ⟨shapedServer (keepsDoom id s.server) shaped,
        fun j => Book.moveBalanced (doomMoves id s j) (balanced j)⟩
    | deliver side os starts =>
      cases side with
      | server => exact keptDeliverServer shaped balanced sound alive
      | client => exact keptDeliverClient shaped balanced sound alive
    | destroyThread side index =>
      cases side with
      | server =>
        exact handledServer fun _ => ⟨shapedServer (keepsThread index s.server) shaped,
          fun j => Book.moveBalanced (serverThreadMoves balanced shaped.looped index j) (balanced j)⟩
      | client =>
        exact handledClient fun _ => ⟨shapedClient (keepsThread index s.client) shaped,
          fun j => Book.moveBalanced (clientThreadMoves balanced (partnerFresh shaped) index j) (balanced j)⟩
    | loopFails side id =>
      cases side with
      | server =>
        have looped : ∀ c ∈ s.client.channels, c.channel = id → c.looped = true := by
          simpa [strands] using sound.2
        exact handledServer fun _ => ⟨shapedServerFails looped shaped,
          fun j => Book.moveBalanced (quietServer (quietFails id s.server) rfl) (balanced j)⟩
      | client =>
        exact handledClient fun _ => ⟨shapedClientFails shaped,
          fun j => Book.moveBalanced (quietClient (quietFails id s.client) rfl) (balanced j)⟩
    | loopEnds side id =>
      cases side with
      | server =>
        exact handledServer fun _ => ⟨shapedServer (keepsEnds id s.server) shaped,
          fun j => Book.moveBalanced (serverEndsMoves id s j) (balanced j)⟩
      | client =>
        exact handledClient fun _ => ⟨shapedClient (keepsEnds id s.client) shaped,
          fun j => Book.moveBalanced (clientEndsMoves id s j) (balanced j)⟩
    | sendData side id buf =>
      cases side with
      | server =>
        exact handledServer fun _ => ⟨shapedServer (keepsSends id buf s.server) shaped,
          fun j => Book.moveBalanced (quietServer (quietSends id buf s.server) rfl) (balanced j)⟩
      | client =>
        exact handledClient fun _ => ⟨shapedClient (keepsSends id buf s.client) shaped,
          fun j => Book.moveBalanced (quietClient (quietSends id buf s.client) rfl) (balanced j)⟩

/- With nothing under way about it, an id has both of its connectors or none. -/
theorem settledAgree {id : UInt8} (shaped : Shaped s.server s.client) (balanced : (s.book id).Balanced)
    (settled : Settled s id) : Agree s id := by
  have quietDown : down id s.toClient = ⟨0,0⟩ := by
    have others : ∀ m ∈ s.toClient, m.about ≠ some id := fun m inside =>
      settled.handled m (List.mem_append_left _ inside)
    exact downKept (q := []) others
  have quietUp : up id s.toServer = ⟨0,0,0,0⟩ := by
    have others : ∀ m ∈ s.toServer, m.about ≠ some id := fun m inside =>
      settled.handled m (List.mem_append_right _ inside)
    exact upKept (q := []) others
  have serverDooms : s.server.destroying.count id = 0 :=
    List.count_eq_zero.mpr fun inside => settled.undoomed (List.mem_append_left _ inside)
  have clientDooms : s.client.destroying.count id = 0 :=
    List.count_eq_zero.mpr fun inside => settled.undoomed (List.mem_append_right _ inside)
  obtain ⟨single,pending,held,alone,closing,-,serverFresh,clientFresh,-⟩ := balanced
  simp only [Ends.book,End.ledger,quietDown,quietUp,serverDooms,clientDooms] at *
  rcases Nat.eq_zero_or_pos (s.server.holds id) with unheld | held_
  · right
    refine ⟨End.findNothing unheld,?_,End.findNothing (by omega)⟩
    cases found : s.server.findPlanned id with
    | none => rfl
    | some job =>
      have planned := End.plansFound found
      omega
  · left
    obtain ⟨c,foundServer⟩ := End.findHeld held_
    have heldClient : 0 < s.client.holds id := by omega
    obtain ⟨d,foundClient⟩ := End.findHeld heldClient
    have unsaidServer : c.closeSent = false := Bool.eq_false_iff.mpr fun closed => by
      have stale := freshAlone foundServer closed (by omega)
      omega
    have unsaidClient : d.closeSent = false := Bool.eq_false_iff.mpr fun closed => by
      have stale := freshAlone foundClient closed alone
      omega
    refine ⟨c,d,foundServer,foundClient,?_,?_⟩
    · have looped := shaped.looped c (End.foundMem foundServer)
      by_contra stopped
      have closed := settled.ended c (List.mem_append_left _ (End.foundMem foundServer))
        (End.foundId foundServer) looped (Bool.eq_false_iff.mpr stopped)
      exact absurd closed (by simp [unsaidServer])
    · cases looped : d.looped with
      | false => exact (shaped.own d (End.foundMem foundClient) looped).1
      | true =>
        by_contra stopped
        have closed := settled.ended d (List.mem_append_right _ (End.foundMem foundClient))
          (End.foundId foundClient) looped (Bool.eq_false_iff.mpr stopped)
        exact absurd closed (by simp [unsaidClient])

theorem attemptClient {a : Action} {id : UInt8} {creation : Creation}
    (tried : attempt ep s a = some (.client,id,creation)) : s.ended = false ∧ ∃ os starts msg rest,
      a = .deliver .client os starts ∧ s.toClient = .channelOpen id msg :: rest ∧
        Admitted s.client id msg ∧ clientCreation os starts msg = creation := by
  unfold attempt at tried
  split at tried
  · contradiction
  rename_i alive
  refine ⟨Bool.eq_false_iff.mpr alive,?_⟩
  split at tried <;> try contradiction
  · rename_i os starts
    split at tried <;> try contradiction
    rename_i incoming
    split at tried <;> try contradiction
    rename_i admitted
    cases tried
    exact ⟨os,starts,_,_,rfl,incoming,admitted,rfl⟩
  · split at tried <;> try contradiction
    split at tried <;> try contradiction
    split at tried <;> cases tried

/- Only the client's making may fail, and then the refusal is the last it has sent. -/
theorem soundReports (s : Ends) (a : Action) (sound : Sound ep s a) : Reported ep s a := by
  intro side id creation tried failing
  have made := sound.1
  rw [tried] at made
  cases side with
  | server =>
    rcases failing with failed | unstarted
    · simp [failed,breaksPromise] at made
    · simp [unstarted,breaksPromise] at made
  | client =>
    obtain ⟨alive,os,starts,msg,rest,rfl,incoming,admitted,creates⟩ := attemptClient tried
    have failed : clientCreation os starts msg = .failed :=
      creates.trans (failing.resolve_right (of_decide_eq_false made))
    refine ⟨msg.flags,?_⟩
    have refusal : systemChannelOpen os starts id msg s.client =
        {after := s.client, sent := [.channelConnected id msg.flags false]} := by
      simp only [systemChannelOpen,if_pos admitted,failed]
    have sent : (step ep s (.deliver .client os starts)).toServer =
        s.toServer ++ [.channelConnected id msg.flags false] := by
      simp [step,alive,deliver,Ends.incoming,incoming,Ends.handle,Ends.drop,Ends.endOf,recvMessage,refusal]
    show (step ep s (.deliver .client os starts)).toServer.getLast? = _
    rw [sent,List.getLast?_concat]

theorem startKept : Kept start := by
  refine fun _ => ⟨⟨?_,?_,?_,?_,?_,rfl⟩,startBalanced⟩ <;> simp [start]

end

/- In every run whose steps are sound, a failed making is reported, and while the session
lasts every settled id has a running connector at both ends or is free at both. -/
theorem channelAgreement (ep : Endpoint) (actions : List Action)
    (sound : Meets (step ep) (Sound ep) start actions) :
    Meets (step ep) (Reported ep) start actions ∧
      ((run (step ep) start actions).ended = false → ∀ id, Settled (run (step ep) start actions) id →
        Agree (run (step ep) start actions) id) := by
  refine ⟨meetsWeaken (P := fun _ => True) (fun _ _ _ _ => trivial) (fun s a _ => soundReports s a) trivial sound,
    fun alive id settled => ?_⟩
  obtain ⟨shaped,balanced⟩ := meetsInvariant (P := Kept) stepKept startKept sound alive
  exact settledAgree shaped (balanced id) settled

/- A server's socket for a file of the client. -/
def socketForFile (connects : Bool) : List Action :=
  let os : Os := ⟨fun _ => true,fun _ => connects,fun _ _ => false,id,fun _ => true,fun _ _ _ => true,
    fun _ => false,fun _ => true,id,fun _ _ => false⟩
  [.createChannel os (.ofParts .file "/tmp/a" .readOnly) (.ofParts .unix "/run/b" .writeOnly) {},
    .deliver .client os true,.deliver .server os true,.deliver .client os true]

def anyServer : Endpoint := ⟨false,true,fun _ _ _ => true,fun _ => .broken⟩

theorem socketAgrees : Agree (run (step anyServer) start (socketForFile true)) 1 :=
  (channelAgreement anyServer (socketForFile true) (by decide +kernel)).2 (by decide +kernel) 1
    ⟨by decide +kernel,by decide +kernel,by decide +kernel⟩

theorem refusedSocketHalfOpen : ¬∀ ep actions, Meets (step ep) (Reported ep) start actions ∧
    ((run (step ep) start actions).ended = false → ∀ id, Settled (run (step ep) start actions) id →
      Agree (run (step ep) start actions) id) := by
  intro claim
  have settled : Settled (run (step anyServer) start (socketForFile false)) 1 :=
    ⟨by decide +kernel,by decide +kernel,by decide +kernel⟩
  rcases (claim anyServer (socketForFile false)).2 (by decide +kernel) 1 settled with
    ⟨c,_,found,_⟩ | ⟨_,_,absent⟩
  · have nothing : (run (step anyServer) start (socketForFile false)).server.findChannel 1 = none := by
      decide +kernel
    rw [nothing] at found
    exact absurd found (by simp)
  · exact absurd absent (by decide +kernel)

end Ltsm.ChannelEnds
