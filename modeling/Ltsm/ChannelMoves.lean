import Ltsm.ChannelLedger

/-! What each handler does to the numbers: it moves those of one id and no others. -/
namespace Ltsm.ChannelEnds
open Channel ChannelClient Library

section
variable {s : Ends} {id : UInt8} {os : Os} {starts : Bool} {rest : List Message}

/- The numbers once an end has handled the first message of its queue. -/
def clientAfter (s : Ends) (rest : List Message) (h : Handled) (j : UInt8) : Book :=
  {s.book j with client := h.after.ledger j, down := down j rest, up := up j (s.toServer ++ h.sent)}

def serverAfter (s : Ends) (rest : List Message) (h : Handled) (j : UInt8) : Book :=
  {s.book j with server := h.after.ledger j, down := down j (s.toClient ++ h.sent), up := up j rest}

theorem bookServer {handler : End → Handled} (safe : (handler s.server).threw = false) (j : UInt8) :
    (s.handle .server handler).book j = serverAfter s s.toServer (handler s.server) j := by
  simp [Ends.handle,Ends.endOf,safe,Ends.book,serverAfter]

theorem bookClient {handler : End → Handled} (safe : (handler s.client).threw = false) (j : UInt8) :
    (s.handle .client handler).book j = clientAfter s s.toClient (handler s.client) j := by
  simp [Ends.handle,Ends.endOf,safe,Ends.book,clientAfter]

theorem bookDown {m : Message} (incoming : s.toClient = m :: rest) (j : UInt8) :
    (s.book j).down = down j (m :: rest) := by rw [← incoming]; rfl

theorem bookUp {m : Message} (incoming : s.toServer = m :: rest) (j : UInt8) :
    (s.book j).up = up j (m :: rest) := by rw [← incoming]; rfl

/- A handler that is about one id leaves the others alone. -/
structure Touches (id : UInt8) (e : End) (h : Handled) : Prop where
  ledger : ∀ j, id ≠ j → h.after.ledger j = e.ledger j
  sent : ∀ m ∈ h.sent, ∀ j, m.about = some j → id = j

theorem clientMoves {h : Handled} {j : UInt8} (touches : Touches id s.client h)
    (popped : id ≠ j → down j rest = (s.book j).down)
    (own : (s.book id).Move (clientAfter s rest h id)) : (s.book j).Move (clientAfter s rest h j) := by
  by_cases same : id = j
  · exact same ▸ own
  · rw [clientAfter,touches.ledger j same,popped same,
      upKept fun m inside about => same (touches.sent m inside j about)]
    exact .stay

theorem serverMoves {h : Handled} {j : UInt8} (touches : Touches id s.server h)
    (popped : id ≠ j → up j rest = (s.book j).up)
    (own : (s.book id).Move (serverAfter s rest h id)) : (s.book j).Move (serverAfter s rest h j) := by
  by_cases same : id = j
  · exact same ▸ own
  · rw [serverAfter,touches.ledger j same,popped same,
      downKept fun m inside about => same (touches.sent m inside j about)]
    exact .stay

theorem planMoves (os : Os) (job : Planned) (s : Ends) (j : UInt8) :
    (s.book j).Move (serverAfter s s.toServer (planJob os job s.server) j) := by
  rw [planJob]
  cases free : s.server.freeChannel with
  | none =>
    rw [serverAfter,List.append_nil]
    exact .stay
  | some channel =>
    have unused := List.find?_some free
    rw [Bool.and_eq_true,Option.isNone_iff_eq_none,Option.isNone_iff_eq_none] at unused
    have own (h : Handled) (touches : Touches channel s.server h) := serverMoves (j := j) touches fun _ => rfl
    refine own _ ⟨fun j different => ?_,by simp [Message.about]⟩ ?_
    · exact (End.ledgerPlan _ _ _).trans (by rw [if_neg different]; rfl)
    · dsimp only
      rw [serverAfter,End.ledgerPlan,downOpening,if_pos rfl]
      exact .plan (End.plansAbsent unused.2) (End.holdsAbsent unused.1)

theorem doomTouches (id : UInt8) (e : End) : Touches id e (systemChannelClose id e) :=
  ⟨fun j different => (End.ledgerDoom e id j).trans (by rw [if_neg different]; rfl),by simp [systemChannelClose]⟩

theorem doomMoves (id : UInt8) (s : Ends) (j : UInt8) :
    (s.book j).Move (serverAfter s s.toServer (systemChannelClose id s.server) j) := by
  refine serverMoves (doomTouches id s.server) (fun _ => rfl) ?_
  rw [serverAfter,systemChannelClose,End.ledgerDoom,List.append_nil,if_pos rfl]
  exact .doom

theorem openTouches (os : Os) (starts : Bool) (id : UInt8) (msg : ChannelOpen) (e : End) :
    Touches id e (systemChannelOpen os starts id msg e) := by
  rw [systemChannelOpen]
  split
  · cases clientCreation os starts msg with
    | failed => exact ⟨fun _ _ => rfl,by simp [Message.about]⟩
    | unstarted => exact ⟨fun _ _ => rfl,by simp [Message.about]⟩
    | created looped =>
      refine ⟨fun j different => ?_,by simp [Message.about]⟩
      exact (End.ledgerAdd e rfl j).trans (by simp only [if_neg different]; rfl)
  · exact ⟨fun _ _ => rfl,by simp [Message.about]⟩

theorem openMoves {msg : ChannelOpen} (incoming : s.toClient = .channelOpen id msg :: rest)
    (starting : Admitted s.client id msg → clientCreation os starts msg ≠ .unstarted) (j : UInt8) :
    (s.book j).Move (clientAfter s rest (systemChannelOpen os starts id msg s.client) j) := by
  refine clientMoves (openTouches os starts id msg s.client) (fun different => ?_) ?_
  · rw [bookDown incoming]
    exact downPassed (by simp [isOpen,isClose,different])
  have asked : 0 < (s.book id).down.opens := by simp [bookDown incoming,down,isOpen]
  have refused : (s.book id).Move (clientAfter s rest
      {after := s.client, sent := [.channelConnected id msg.flags false]} id) := by
    rw [clientAfter,upAnswering,downOpened msg,← bookDown incoming]
    exact .refuse asked
  rw [systemChannelOpen]
  split
  · rename_i admitted
    cases creation : clientCreation os starts msg with
    | failed => exact refused
    | unstarted => exact absurd creation (starting admitted)
    | created looped =>
      dsimp only
      rw [clientAfter,upAnswering,downOpened msg,← bookDown incoming,End.ledgerAdd _ rfl]
      simp only [if_true]
      exact .accept asked (End.holdsAbsent admitted.free)
  · exact refused

theorem closeMovesClient (incoming : s.toClient = .channelClose id :: rest) (j : UInt8) :
    (s.book j).Move (clientAfter s rest (systemChannelClose id s.client) j) := by
  refine clientMoves (doomTouches id s.client) (fun different => ?_) ?_
  · rw [bookDown incoming]
    exact downPassed (by simp [isOpen,isClose,different])
  rw [clientAfter,systemChannelClose,End.ledgerDoom,List.append_nil,if_pos rfl,downClosed,← bookDown incoming]
  exact .closedAtClient (by simp [bookDown incoming,down,isClose])

theorem closeMovesServer (incoming : s.toServer = .channelClose id :: rest) (j : UInt8) :
    (s.book j).Move (serverAfter s rest (systemChannelClose id s.server) j) := by
  refine serverMoves (doomTouches id s.server) (fun different => ?_) ?_
  · rw [bookUp incoming]
    exact upPassed fun about => different (Option.some.inj about)
  rw [serverAfter,systemChannelClose,End.ledgerDoom,List.append_nil,if_pos rfl,upClosed,← bookUp incoming]
  refine .closedAtServer ?_
  have behind := closesAfterLe id rest
  simp only [bookUp incoming,up,closesAfter,isAnswer,isClose,List.countP_cons]
  simp only [Bool.false_eq_true,if_false,decide_true,if_true]
  omega

theorem connectedSame (f : Live → Live) (keeps : ∀ c, (f c).channel = c.channel ∧ (f c).closeSent = c.closeSent)
    (id : UInt8) (e : End) : Touches id e {after := e.updateChannel id f} :=
  ⟨fun _ _ => End.ledgerUpdate keeps,by simp⟩

theorem connectedTouches (ep : Endpoint) (os : Os) (starts : Bool) (id : UInt8) (flags : UInt32)
    (noerror : Bool) (e : End) : Touches id e (systemChannelConnected ep os starts id flags noerror e) := by
  rw [systemChannelConnected]
  cases found : e.findPlanned id with
  | none => exact connectedSame (fun c : Live => {c with remoteConnected := true}) (fun _ => ⟨rfl,rfl⟩) id e
  | some job =>
    have dropped : ∀ j, id ≠ j → (e.dropPlanned id).ledger j = e.ledger j := fun j different =>
      (End.ledgerUnplan found).trans (by rw [if_neg different]; rfl)
    dsimp only
    split
    · exact ⟨dropped,by simp⟩
    cases serverCreation ep os starts job with
    | failed => exact ⟨dropped,by simp⟩
    | unstarted => exact ⟨dropped,by simp [Message.about]⟩
    | created looped =>
      refine ⟨fun j different => ?_,by simp [Message.about]⟩
      refine (End.ledgerAdd _ rfl j).trans ?_
      simp only [if_neg different]
      exact dropped j different

theorem connectedMovesServer {ep : Endpoint} {flags : UInt32} {noerror : Bool}
    (incoming : s.toServer = .channelConnected id flags noerror :: rest) (balanced : (s.book id).Balanced)
    (proper : ∀ job ∈ s.server.planned, 0 < job.channel ∧ job.channel < 255)
    (creating : ∀ job, s.server.findPlanned id = some job → ¬Hindered s.server id noerror →
      ∃ looped, serverCreation ep os starts job = .created looped) (j : UInt8) :
    (s.book j).Move (serverAfter s rest (systemChannelConnected ep os starts id flags noerror s.server) j) := by
  refine serverMoves (connectedTouches ep os starts id flags noerror s.server) (fun different => ?_) ?_
  · rw [bookUp incoming]
    exact upPassed fun about => different (Option.some.inj about)
  have pending := balanced.pending
  have single := balanced.single
  have answered : 0 < (s.book id).up.accepted + (s.book id).up.refused := by
    rw [bookUp incoming]
    cases noerror with
    | false => exact Nat.add_pos_right _ (by simp [up,isAnswer])
    | true => exact Nat.add_pos_left (by simp [up,isAnswer]) _
  rw [systemChannelConnected]
  cases found : s.server.findPlanned id with
  | none =>
    have unplanned : (s.book id).server.plans = 0 := End.plansAbsent found
    omega
  | some job =>
    dsimp only
    cases noerror with
    | false =>
      rw [if_pos (.inl rfl),serverAfter,End.ledgerUnplan found,List.append_nil,if_pos rfl,
        upRefused flags,← bookUp incoming]
      exact .giveUp (by simp [bookUp incoming,up,isAnswer])
    | true =>
      have accepted : 0 < (s.book id).up.accepted := by simp [bookUp incoming,up,isAnswer]
      have unheld : s.server.holds id = 0 := by
        have same : (s.book id).server.holds = s.server.holds id := rfl
        omega
      have own := proper job (List.mem_of_find?_eq_some found)
      rw [End.plannedId found] at own
      have unhindered : ¬Hindered s.server id true := by
        rintro (bad | low | high | busy)
        · exact absurd bad (by simp)
        · exact absurd own.1 (UInt8.not_lt.mpr low)
        · exact absurd own.2 (UInt8.not_lt.mpr high)
        · rw [End.findNothing unheld] at busy
          exact absurd busy (by simp)
      obtain ⟨looped,made⟩ := creating job found unhindered
      have last : (up id (.channelConnected id flags true :: rest)).accepted ≤ 1 := by
        rw [← bookUp incoming]
        omega
      have passes : ¬Hindered (s.server.dropPlanned id) id true := unhindered
      rw [if_neg passes,made]
      dsimp only
      rw [serverAfter,End.ledgerAdd _ rfl,End.ledgerUnplan found,downAnswered,upAccepted last,← bookUp incoming]
      simp only [if_true]
      exact .takeUp accepted

/- A handler after which every number is as before. -/
structure Quiet (e : End) (h : Handled) : Prop where
  ledger : ∀ j, h.after.ledger j = e.ledger j
  sent : ∀ m ∈ h.sent, m.about = none

theorem quietClient {h : Handled} {j : UInt8} (quiet : Quiet s.client h)
    (popped : down j rest = (s.book j).down) : (s.book j).Move (clientAfter s rest h j) := by
  rw [clientAfter,quiet.ledger j,popped,upKept fun m inside about => by simp [quiet.sent m inside] at about]
  exact .stay

theorem quietServer {h : Handled} {j : UInt8} (quiet : Quiet s.server h)
    (popped : up j rest = (s.book j).up) : (s.book j).Move (serverAfter s rest h j) := by
  rw [serverAfter,quiet.ledger j,popped,downKept fun m inside about => by simp [quiet.sent m inside] at about]
  exact .stay

theorem quietUpdate {f : Live → Live} (keeps : ∀ c, (f c).channel = c.channel ∧ (f c).closeSent = c.closeSent)
    (id : UInt8) (e : End) : Quiet e {after := e.updateChannel id f} :=
  ⟨fun _ => End.ledgerUpdate keeps,by simp⟩

theorem quietNothing (e : End) : Quiet e {after := e} := ⟨fun _ => rfl,by simp⟩

theorem quietData (server : Bool) (id : UInt8) (buf : List UInt8) (e : End) :
    Quiet e (recvChannelData server id buf e) := by
  rw [recvChannelData]
  split
  · exact ⟨fun _ => rfl,by simp⟩
  split
  · exact ⟨fun _ => rfl,by simp⟩
  split
  · exact quietNothing e
  · exact quietUpdate (f := fun c : Live => {c with queue := c.queue ++ [buf]}) (fun _ => ⟨rfl,rfl⟩) id e

theorem quietFails (id : UInt8) (e : End) : Quiet e (loopFails id e) := by
  rw [loopFails]
  split
  · exact quietNothing e
  split
  · exact quietUpdate (f := fun c : Live => {c with running := false}) (fun _ => ⟨rfl,rfl⟩) id e
  · exact quietNothing e

theorem quietSends (id : UInt8) (buf : List UInt8) (e : End) : Quiet e (sendData id buf e) := by
  rw [sendData]
  split
  · exact quietNothing e
  split
  · exact ⟨fun _ => rfl,by simp [Message.about]⟩
  · exact quietNothing e

/- No job of the client's own waits for an answer. -/
theorem quietConnected (ep : Endpoint) (os : Os) (starts : Bool) (id : UInt8) (flags : UInt32)
    (noerror : Bool) {e : End} (unplanned : e.planned = []) :
    Quiet e (systemChannelConnected ep os starts id flags noerror e) := by
  have absent : e.findPlanned id = none := by simp [End.findPlanned,unplanned]
  rw [systemChannelConnected,absent]
  exact quietUpdate (f := fun c : Live => {c with remoteConnected := true}) (fun _ => ⟨rfl,rfl⟩) id e

theorem endsTouches (id : UInt8) (e : End) : Touches id e (loopEnds id e) := by
  rw [loopEnds]
  cases found : e.findChannel id with
  | none => exact ⟨fun _ _ => rfl,by simp⟩
  | some c =>
    dsimp only
    split
    · rename_i ends
      refine ⟨fun j different => ?_,by simp [Message.about]⟩
      refine (End.ledgerClosed found ends.2.2).trans ?_
      rw [if_neg different]
      rfl
    · exact ⟨fun _ _ => rfl,by simp⟩

theorem freshFound {e : End} {c : Live} (found : e.findChannel id = some c) (unsaid : c.closeSent = false) :
    0 < e.fresh id :=
  List.countP_pos_iff.mpr ⟨c,End.foundMem found,by simp [End.foundId found,unsaid]⟩

theorem serverEndsMoves (id : UInt8) (s : Ends) (j : UInt8) :
    (s.book j).Move (serverAfter s s.toServer (loopEnds id s.server) j) := by
  refine serverMoves (endsTouches id s.server) (fun _ => rfl) ?_
  rw [loopEnds]
  cases found : s.server.findChannel id with
  | none => exact quietServer (quietNothing s.server) rfl
  | some c =>
    dsimp only
    split
    · rename_i ends
      rw [serverAfter,End.ledgerClosed found ends.2.2,downClosing,if_pos rfl]
      exact .serverEnds (freshFound found ends.2.2)
    · exact quietServer (quietNothing s.server) rfl

theorem clientEndsMoves (id : UInt8) (s : Ends) (j : UInt8) :
    (s.book j).Move (clientAfter s s.toClient (loopEnds id s.client) j) := by
  refine clientMoves (endsTouches id s.client) (fun _ => rfl) ?_
  rw [loopEnds]
  cases found : s.client.findChannel id with
  | none => exact quietClient (quietNothing s.client) rfl
  | some c =>
    dsimp only
    split
    · rename_i ends
      rw [clientAfter,End.ledgerClosed found ends.2.2,upClosing,if_pos rfl]
      exact .clientEnds (freshFound found ends.2.2)
    · exact quietClient (quietNothing s.client) rfl

/- A thread that still finds its connector takes it down. -/
theorem threadTakes {e : End} {index : Nat} {c : Live} (thread : e.destroying[index]? = some id)
    (found : e.findChannel id = some c) (j : UInt8) :
    (destroyThread index e).after.ledger j =
      {e.ledger j with
        holds := e.holds j - if id = j then 1 else 0
        fresh := e.fresh j - if id = j ∧ c.closeSent = false then 1 else 0
        dooms := e.destroying.count j - if id = j then 1 else 0} := by
  have dropped := End.ledgerDrop (j := j) found
  have threaded := End.ledgerThread (e := e.dropChannel id) thread j
  rw [dropped] at threaded
  simp only [destroyThread,thread,found]
  exact threaded

theorem threadSent {e : End} {index : Nat} {c : Live} (thread : e.destroying[index]? = some id)
    (found : e.findChannel id = some c) :
    (destroyThread index e).sent = if c.looped = true ∧ c.closeSent = false then [.channelClose id] else [] := by
  simp only [destroyThread,thread,found]

theorem threadMisses {e : End} {index : Nat} (thread : e.destroying[index]? = some id)
    (absent : e.findChannel id = none) :
    destroyThread index e = {after := {e with destroying := e.destroying.eraseIdx index}} := by
  simp only [destroyThread,thread,absent]

theorem threadTouches {e : End} {index : Nat} (thread : e.destroying[index]? = some id) :
    Touches id e (destroyThread index e) := by
  cases found : e.findChannel id with
  | none =>
    rw [threadMisses thread found]
    refine ⟨fun j different => ?_,by simp⟩
    exact (End.ledgerThread thread j).trans (by rw [if_neg different]; rfl)
  | some c =>
    refine ⟨fun j different => ?_,?_⟩
    · rw [threadTakes thread found j]
      simp only [different,false_and,if_false]
      rfl
    · rw [threadSent thread found]
      split <;> simp [Message.about]

/- The only connector of an id is the one that is found. -/
theorem freshAlone {e : End} {c : Live} (found : e.findChannel id = some c) (closed : c.closeSent = true)
    (alone : e.holds id ≤ 1) : e.fresh id = 0 := by
  have holds := countErase found fun c : Live => c.channel = id
  have fresh := countErase found fun c : Live => c.channel = id ∧ c.closeSent = false
  simp only [End.foundId found,closed,decide_true,if_true,Bool.true_eq_false,and_false,decide_false,
    Bool.false_eq_true,if_false] at holds fresh
  have within := End.freshLe (e.dropChannel id) id
  have held : (e.dropChannel id).holds id + 1 = e.holds id := holds
  have same : (e.dropChannel id).fresh id = e.fresh id := fresh
  omega

theorem serverThreadMoves (balanced : ∀ j, (s.book j).Balanced)
    (looped : ∀ c ∈ s.server.channels, c.looped = true) (index : Nat) (j : UInt8) :
    (s.book j).Move (serverAfter s s.toServer (destroyThread index s.server) j) := by
  cases thread : s.server.destroying[index]? with
  | none =>
    have idle : destroyThread index s.server = {after := s.server} := by simp only [destroyThread,thread]
    rw [idle]
    exact quietServer (quietNothing s.server) rfl
  | some id =>
    refine serverMoves (threadTouches thread) (fun _ => rfl) ?_
    have doomed := End.threadFound thread
    cases found : s.server.findChannel id with
    | none =>
      rw [threadMisses thread found,serverAfter,End.ledgerThread thread,if_pos rfl,List.append_nil]
      exact .serverIdle doomed (End.holdsAbsent found)
    | some c =>
      rw [serverAfter,threadTakes thread found,threadSent thread found]
      have own := looped c (End.foundMem found)
      cases closed : c.closeSent with
      | false =>
        simp only [own,and_self,if_true]
        rw [downClosing]
        exact .serverCloses doomed (freshFound found closed)
      | true =>
        simp only [own,Bool.true_eq_false,and_false,if_false,if_true,List.append_nil]
        refine .serverDropped doomed (End.holdsFound found) (freshAlone found closed ?_)
        exact Nat.le_trans (Nat.le_add_left _ _) (balanced id).single

/- The client's own connectors send no close, so the server's must not wait for one. -/
theorem clientThreadMoves (balanced : ∀ j, (s.book j).Balanced)
    (silent : ∀ c ∈ s.client.channels, c.looped = false →
      s.server.holds c.channel = s.server.fresh c.channel) (index : Nat) (j : UInt8) :
    (s.book j).Move (clientAfter s s.toClient (destroyThread index s.client) j) := by
  cases thread : s.client.destroying[index]? with
  | none =>
    have idle : destroyThread index s.client = {after := s.client} := by simp only [destroyThread,thread]
    rw [idle]
    exact quietClient (quietNothing s.client) rfl
  | some id =>
    refine clientMoves (threadTouches thread) (fun _ => rfl) ?_
    have doomed := End.threadFound thread
    cases found : s.client.findChannel id with
    | none =>
      rw [threadMisses thread found,clientAfter,End.ledgerThread thread,if_pos rfl,List.append_nil]
      exact .clientIdle doomed (End.holdsAbsent found)
    | some c =>
      rw [clientAfter,threadTakes thread found,threadSent thread found]
      cases closed : c.closeSent with
      | true =>
        simp only [Bool.true_eq_false,and_false,if_false,if_true,List.append_nil]
        exact .clientDropped doomed (End.holdsFound found) (freshAlone found closed (balanced id).alone)
      | false =>
        cases own : c.looped with
        | true =>
          simp only [and_self,if_true]
          rw [upClosing]
          exact .clientCloses doomed (freshFound found closed)
        | false =>
          simp only [Bool.false_eq_true,false_and,and_self,if_false,if_true,List.append_nil]
          refine .clientSilent doomed (freshFound found closed) ?_
          have same := silent c (End.foundMem found) own
          rw [End.foundId found] at same
          exact same

end
end Ltsm.ChannelEnds
