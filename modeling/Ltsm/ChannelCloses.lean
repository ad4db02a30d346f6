import Ltsm.ChannelReuse
import Ltsm.ChannelRaces

/-! A close that was sent for one channel and the later channels of its id. -/
namespace Ltsm.ChannelCloses
open Library ChannelEnds ChannelLines ChannelReuse ChannelReuse.Tracked
open ChannelClient (Endpoint Os ChannelOpen)

section
variable {t : Tracked} {j : UInt8} {m : Message} {n : Nat} {rest : List (Message × Nat)}

/-! The client's answers. -/

theorem clientQuiet {cause : Nat} {sent : List Message}
    (quiet : ∀ m ∈ sent, (∃ id flags, m = .channelConnected id flags false) ∨ ∃ id buf, m = .data id buf) :
    line (clientSends t cause sent) j = line t j := by
  rw [lineClientSends]
  have none : (sent.map (label t.client.number t.planned cause)).filterMap (upToken j) = [] := by
    refine List.filterMap_eq_nil_iff.mpr fun entry inside => ?_
    obtain ⟨m,here,rfl⟩ := List.mem_map.mp inside
    rcases quiet m here with ⟨id,flags,rfl⟩ | ⟨id,buf,rfl⟩ <;> rfl
  rw [none,List.append_nil]

theorem answerToken {own planned : UInt8 → Nat} (id : UInt8) (flags : UInt32) (more : List Message)
    (refusals : ∀ m ∈ more, ∃ id flags, m = .channelConnected id flags false) :
    ((Message.channelConnected id flags true :: more).map (label own planned n)).filterMap (upToken j) =
      if id = j then [.accepted n] else [] := by
  have none : (more.map (label own planned n)).filterMap (upToken j) = [] := by
    refine List.filterMap_eq_nil_iff.mpr fun entry inside => ?_
    obtain ⟨m,here,rfl⟩ := List.mem_map.mp inside
    obtain ⟨id,flags,rfl⟩ := refusals m here
    rfl
  rw [List.map_cons,List.filterMap_cons,none]
  by_cases same : id = j <;> simp [label,upToken,same]

theorem lineClientRefuses {id : UInt8} {msg : ChannelOpen} {flags : UInt32}
    (queue : t.client.incoming = (.channelOpen id msg,n) :: rest) :
    Line.Moves (line t j)
      (line (clientSends {t with client.incoming := rest} n [.channelConnected id flags false]) j) := by
  rw [clientQuiet fun m inside => .inl ⟨id,flags,List.mem_singleton.mp inside⟩]
  by_cases same : id = j
  · subst same
    have down : (line t id).down = .opening n :: rest.filterMap (downToken id) := by
      simp only [line,queue,List.filterMap_cons,downToken,if_true]
    exact .single (.refuses down)
  · rw [lineClientPop queue (if_neg same)]

theorem lineClientPromises {id : UInt8} {msg : ChannelOpen} {flags : UInt32}
    (queue : t.client.incoming = (.channelOpen id msg,n) :: rest) (free : id ∉ ids t.ends.client) :
    Line.Moves (line t j) (line (clientSends {t with client.incoming := rest} n
      [.channelConnected id flags true,.channelConnected id flags false]) j) := by
  rw [lineClientSends,answerToken id flags _ fun m inside => ⟨id,flags,List.mem_singleton.mp inside⟩]
  by_cases same : id = j
  · subst same
    have down : (line t id).down = .opening n :: rest.filterMap (downToken id) := by
      simp only [line,queue,List.filterMap_cons,downToken,if_true]
    have free' : (line t id).client = none := if_neg free
    rw [if_pos rfl]
    exact .single (.promises down free')
  · rw [if_neg same,List.append_nil,lineClientPop queue (if_neg same)]

/- The opening that the client makes its connector on. -/
theorem lineClientMakes {id : UInt8} {msg : ChannelOpen} {flags : UInt32} {next : Ends}
    (queue : t.client.incoming = (.channelOpen id msg,n) :: rest) (free : id ∉ ids t.ends.client)
    (idle : Idle t.client.threads id) (client : ids next.client = ids t.ends.client ++ [id])
    (server : next.server = t.ends.server) :
    Line.Moves (line t j) (line (clientSends {t with
      ends := next
      client := {t.client with
        incoming := rest
        number := Function.update t.client.number id n}} n [.channelConnected id flags true]) j) := by
  rw [lineClientSends,answerToken id flags _ fun m inside => absurd inside List.not_mem_nil]
  by_cases same : id = j
  · subst same
    have down : (line t id).down = .opening n :: rest.filterMap (downToken id) := by
      simp only [line,queue,List.filterMap_cons,downToken,if_true]
    have free' : (line t id).client = none := if_neg free
    have made : line {t with
        ends := next
        client := {t.client with
          incoming := rest
          number := Function.update t.client.number id n}} id =
        {line t id with
          down := rest.filterMap (downToken id)
          client := some n} := by
      have here : id ∈ ids next.client := client ▸ List.mem_append_right _ (List.mem_singleton.mpr rfl)
      simp only [line,holder,if_pos here,Function.update_self,server]
    rw [if_pos rfl,made]
    exact .single (.accepts down free' (threadsIdle idle))
  · have here : j ∈ ids next.client ↔ j ∈ ids t.ends.client := by
      rw [client,List.mem_append,List.mem_singleton]
      exact or_iff_left fun equal => same equal.symm
    have other : j ≠ id := fun equal => same equal.symm
    have kept : line {t with
        ends := next
        client := {t.client with
          incoming := rest
          number := Function.update t.client.number id n}} j = line t j := by
      simp only [line,holder,here,Function.update_of_ne other,server,queue,List.filterMap_cons,downToken,if_neg same]
    rw [if_neg same,List.append_nil,kept]

/-! What is read at an end. -/

def closed : Message → List UInt8
  | .channelClose id => [id]
  | _ => []

theorem connectedUnplanned {e : End} (ep : Endpoint) (os : Os) (starts : Bool) (id : UInt8) (flags : UInt32)
    (noerror : Bool) (unplanned : e.planned = []) :
    let h := systemChannelConnected ep os starts id flags noerror e
    Same e h.after ∧ h.sent = [] := by
  have none : e.findPlanned id = none := by
    unfold End.findPlanned
    rw [unplanned]
    rfl
  dsimp only
  unfold systemChannelConnected
  rw [none]
  exact ⟨sameUpdate id fun _ => rfl,rfl⟩

theorem readDestroying (ep : Endpoint) (os : Os) (starts : Bool) (side : Side) (m : Message) (e : End) :
    (recvMessage ep os starts side m e).after.destroying = e.destroying ++ closed m := by
  have unchanged : closed m = [] → (recvMessage ep os starts side m e).after.destroying = e.destroying →
      (recvMessage ep os starts side m e).after.destroying = e.destroying ++ closed m := fun none same => by
    rw [none,List.append_nil,same]
  cases m with
  | channelOpen id msg =>
    refine unchanged rfl ?_
    cases side with
    | server => rfl
    | client =>
      cases @openCases e id os starts msg with
      | refused after => exact congrArg End.destroying after
      | promised _ after => exact congrArg End.destroying after
      | made _ _ destroying => exact destroying
  | channelConnected id flags noerror =>
    refine unchanged rfl ?_
    rcases (@connectedCases e id ep os starts flags noerror).2 with same | ⟨_,_,_,destroying⟩
    · exact same.destroying
    · exact destroying
  | channelClose id => rfl
  | data id buf => exact unchanged rfl (dataSame (decide (side = .server)) buf).1.destroying

theorem readUnplanned (ep : Endpoint) (os : Os) (starts : Bool) (m : Message) {e : End} (unplanned : e.planned = []) :
    (recvMessage ep os starts .client m e).after.planned = [] := by
  cases m with
  | channelOpen id msg =>
    cases @openCases e id os starts msg with
    | refused after => exact (congrArg End.planned after).trans unplanned
    | promised _ after => exact (congrArg End.planned after).trans unplanned
    | made _ _ _ planned => exact planned.trans unplanned
  | channelConnected id flags noerror =>
    exact (connectedUnplanned ep os starts id flags noerror unplanned).1.planned unplanned
  | channelClose id => exact unplanned
  | data id buf => exact (dataSame (decide (Side.client = .server)) buf).1.planned unplanned

/- What is kept of a read beside what it has changed at the reading end. -/
structure ReadBy (t : Tracked) (m : Message) (sent : List Message) (own other ownRead otherRead : Marks) : Prop where
  incoming : ownRead.incoming = own.incoming
  threads : ownRead.threads.map Prod.fst = own.threads.map Prod.fst ++ closed m
  sends : otherRead.incoming.map Prod.fst = other.incoming.map Prod.fst ++ sent
  idle : otherRead.threads = other.threads

theorem serverReadBy (t : Tracked) (h : Handled) (m : Message) (n : Nat) :
    (serverReads t h m n).ends = t.ends ∧
      ReadBy t m h.sent t.server t.client (serverReads t h m n).server (serverReads t h m n).client := by
  unfold serverReads
  cases m with
  | channelClose id => exact ⟨rfl,rfl,List.map_append,by rw [serverSends,List.map_append,labelFst],rfl⟩
  | channelConnected id flags noerror =>
    dsimp only
    split <;>
      exact ⟨rfl,rfl,(List.append_nil _).symm,by rw [serverSends,List.map_append,labelFst],rfl⟩
  | channelOpen | data =>
    exact ⟨rfl,rfl,(List.append_nil _).symm,by rw [serverSends,List.map_append,labelFst],rfl⟩

theorem clientReadBy (t : Tracked) (h : Handled) (m : Message) (n : Nat) :
    (clientReads t h m n).ends = t.ends ∧
      ReadBy t m h.sent t.client t.server (clientReads t h m n).client (clientReads t h m n).server := by
  unfold clientReads
  cases m with
  | channelClose id => exact ⟨rfl,rfl,List.map_append,by rw [clientSends,List.map_append,labelFst],rfl⟩
  | channelOpen id msg =>
    dsimp only
    split <;>
      exact ⟨rfl,rfl,(List.append_nil _).symm,by rw [clientSends,List.map_append,labelFst],rfl⟩
  | channelConnected | data =>
    exact ⟨rfl,rfl,(List.append_nil _).symm,by rw [clientSends,List.map_append,labelFst],rfl⟩

variable (ep : Endpoint) (os : Os) (starts : Bool)

theorem notMade {e : End} {h : Handled} {id : UInt8} (same : ids h.after = ids e) : ¬Made e h id := fun ⟨free,taken⟩ =>
  taken (foundIds.mpr (same ▸ foundIds.mp free))

theorem madeIds {e : End} {h : Handled} {id : UInt8} (free : id ∉ ids e) (more : ids h.after = ids e ++ [id]) :
    Made e h id := by
  refine ⟨foundIds.mpr free,fun none => foundIds.mp none ?_⟩
  rw [more]
  exact List.mem_append_right _ (List.mem_singleton.mpr rfl)

theorem serverAnswerMoves {id : UInt8} {flags : UInt32} {noerror : Bool} {queue : List Message}
    (incoming : t.server.incoming = (.channelConnected id flags noerror,n) :: rest)
    (proper : TakenUp ep t os starts (.channelConnected id flags noerror) n) :
    let handler := systemChannelConnected ep os starts id flags noerror
    Line.Moves (line t j) (line
      {serverReads {t with server.incoming := rest} (handler t.ends.server) (.channelConnected id flags noerror) n with
        ends := {t.ends with toServer := queue}.handle .server handler} j) := by
  intro handler
  obtain ⟨sent,after⟩ := @connectedCases t.ends.server id ep os starts flags noerror
  have quiet : ∀ m ∈ (handler t.ends.server).sent,
      (∃ id flags noerror, m = Message.channelConnected id flags noerror) ∨ ∃ id buf, m = Message.data id buf := by
    intro m inside
    rcases sent with none | answer
    · rw [none] at inside
      exact absurd inside List.not_mem_nil
    · rw [answer] at inside
      exact .inl ⟨id,flags,true,List.mem_singleton.mp inside⟩
  rcases after with same | ⟨free,rfl,channels,_⟩
  · have passed : serverReads {t with server.incoming := rest} (handler t.ends.server)
        (.channelConnected id flags noerror) n =
          serverSends {t with server.incoming := rest} n (handler t.ends.server).sent := by
      unfold serverReads
      dsimp only
      rw [if_neg (notMade same.channels)]
    rw [passed]
    refine @thenServer t j (serverSends {t with server.incoming := rest} n (handler t.ends.server).sent) handler queue
      rfl ?_ ?_
    · rw [same.channels]
      exact fun _ inside => inside
    · rw [serverQuiet quiet]
      exact lineServerPasses incoming
  · have made := madeIds free channels
    obtain ⟨rfl,idle⟩ := proper made
    obtain ⟨serverIds,_,client,_⟩ := handleServer {t.ends with toServer := queue} handler
    have moves := lineServerMakes (j := j) incoming idle (serverIds.trans channels) client
    unfold serverReads
    dsimp only
    rw [if_pos made]
    refine moves.trans ?_
    rw [← @serverQuiet _ _ (t.planned id) _ quiet]
    exact .refl

theorem serverReadMoves {queue : List Message} (incoming : t.server.incoming = (m,n) :: rest)
    (proper : TakenUp ep t os starts m n) :
    let handler := recvMessage ep os starts .server m
    Line.Moves (line t j) (line {serverReads {t with server.incoming := rest} (handler t.ends.server) m n with
      ends := {t.ends with toServer := queue}.handle .server handler} j) := by
  intro handler
  have less (same : ids (handler t.ends.server).after = ids t.ends.server) :
      ids (handler t.ends.server).after ⊆ ids t.ends.server := fun _ inside => same ▸ inside
  cases m with
  | channelOpen id msg =>
    refine @thenServer t j (serverSends {t with server.incoming := rest} n []) handler queue rfl (less rfl) ?_
    rw [serverQuiet fun m inside => absurd inside List.not_mem_nil,lineServerPop incoming rfl]
  | channelConnected id flags noerror =>
    exact serverAnswerMoves ep os starts incoming proper
  | channelClose id =>
    refine @thenServer t j (serverSends {t with
      server := {t.server with incoming := rest, threads := t.server.threads ++ [(id,some n)]}} n []) handler queue rfl
        (less rfl) ?_
    rw [serverQuiet fun m inside => absurd inside List.not_mem_nil]
    exact lineServerClosed incoming
  | data id buf =>
    obtain ⟨same,none⟩ := @dataSame t.ends.server id true buf
    have quiet : (handler t.ends.server).sent = [] := none
    refine @thenServer t j (serverSends {t with server.incoming := rest} n (handler t.ends.server).sent) handler queue
      rfl (less same.channels) ?_
    rw [quiet,serverQuiet fun m inside => absurd inside List.not_mem_nil,lineServerPop incoming rfl]

theorem clientOpenMoves {id : UInt8} {msg : ChannelOpen} {queue : List Message}
    (incoming : t.client.incoming = (.channelOpen id msg,n) :: rest)
    (proper : Admitting t os starts (.channelOpen id msg)) :
    let handler := systemChannelOpen os starts id msg
    Line.Moves (line t j) (line
      {clientReads {t with client.incoming := rest} (handler t.ends.client) (.channelOpen id msg) n with
        ends := {t.ends with toClient := queue}.handle .client handler} j) := by
  intro handler
  have unmade (same : (handler t.ends.client).after = t.ends.client) :
      clientReads {t with client.incoming := rest} (handler t.ends.client) (.channelOpen id msg) n =
        clientSends {t with client.incoming := rest} n (handler t.ends.client).sent ∧
      ids (handler t.ends.client).after ⊆ ids t.ends.client := by
    refine ⟨?_,fun _ inside => same ▸ inside⟩
    unfold clientReads
    dsimp only
    rw [if_neg (notMade (congrArg ids same))]
  cases @openCases t.ends.client id os starts msg with
  | refused after sent =>
    obtain ⟨passed,less⟩ := unmade after
    rw [passed]
    refine @thenClient t j (clientSends {t with client.incoming := rest} n (handler t.ends.client).sent) handler queue
      rfl less ?_
    rw [show (handler t.ends.client).sent = _ from sent]
    exact lineClientRefuses incoming
  | promised free after sent =>
    obtain ⟨passed,less⟩ := unmade after
    rw [passed]
    refine @thenClient t j (clientSends {t with client.incoming := rest} n (handler t.ends.client).sent) handler queue
      rfl less ?_
    rw [show (handler t.ends.client).sent = _ from sent]
    exact lineClientPromises incoming free
  | made free channels _ _ sent =>
    have made := madeIds free channels
    obtain ⟨clientIds,_,server,_⟩ := handleClient {t.ends with toClient := queue} handler
    have moves := @lineClientMakes t j n rest id msg msg.flags _ incoming free (proper made) (clientIds.trans channels) server
    unfold clientReads
    dsimp only
    rw [if_pos made,show (handler t.ends.client).sent = _ from sent]
    exact moves

theorem clientReadMoves {queue : List Message} (unplanned : t.ends.client.planned = [])
    (incoming : t.client.incoming = (m,n) :: rest)
    (proper : Admitting t os starts m) :
    let handler := recvMessage ep os starts .client m
    Line.Moves (line t j) (line {clientReads {t with client.incoming := rest} (handler t.ends.client) m n with
      ends := {t.ends with toClient := queue}.handle .client handler} j) := by
  intro handler
  have less (same : ids (handler t.ends.client).after = ids t.ends.client) :
      ids (handler t.ends.client).after ⊆ ids t.ends.client := fun _ inside => same ▸ inside
  cases m with
  | channelOpen id msg => exact clientOpenMoves os starts incoming proper
  | channelConnected id flags noerror =>
    obtain ⟨same,none⟩ := connectedUnplanned ep os starts id flags noerror unplanned
    have quiet : (handler t.ends.client).sent = [] := none
    refine @thenClient t j (clientSends {t with client.incoming := rest} n (handler t.ends.client).sent) handler queue
      rfl (less same.channels) ?_
    rw [quiet,clientQuiet fun m inside => absurd inside List.not_mem_nil,lineClientPop incoming rfl]
  | channelClose id =>
    refine @thenClient t j (clientSends {t with
      client := {t.client with incoming := rest, threads := t.client.threads ++ [(id,some n)]}} n []) handler queue rfl
        (less rfl) ?_
    rw [clientQuiet fun m inside => absurd inside List.not_mem_nil]
    exact lineClientClosed incoming
  | data id buf =>
    obtain ⟨same,none⟩ := @dataSame t.ends.client id false buf
    have quiet : (handler t.ends.client).sent = [] := none
    refine @thenClient t j (clientSends {t with client.incoming := rest} n (handler t.ends.client).sent) handler queue
      rfl (less same.channels) ?_
    rw [quiet,clientQuiet fun m inside => absurd inside List.not_mem_nil,lineClientPop incoming rfl]

theorem serverReadMoved (aligned : Aligned t) (incoming : t.server.incoming = (m,n) :: rest)
    (proper : TakenUp ep t os starts m n) :
    let handler := recvMessage ep os starts .server m
    Moved t {serverReads {t with server.incoming := rest} (handler t.ends.server) m n with
      ends := {t.ends with toServer := rest.map Prod.fst}.handle .server handler} := by
  intro handler
  refine ⟨fun j => serverReadMoves ep os starts incoming proper,?_⟩
  obtain ⟨_,read⟩ := serverReadBy {t with server.incoming := rest} (handler t.ends.server) m n
  refine alignedServer aligned (congrArg _ read.incoming) ?_ ?_ read.idle
  · rw [read.sends,aligned.toClient]
  · exact (read.threads.trans (congrArg (· ++ _) aligned.serverThreads)).trans (readDestroying ep os starts .server m _).symm

theorem clientReadMoved (aligned : Aligned t) (incoming : t.client.incoming = (m,n) :: rest)
    (proper : Admitting t os starts m) :
    let handler := recvMessage ep os starts .client m
    Moved t {clientReads {t with client.incoming := rest} (handler t.ends.client) m n with
      ends := {t.ends with toClient := rest.map Prod.fst}.handle .client handler} := by
  intro handler
  refine ⟨fun j => clientReadMoves ep os starts aligned.unplanned incoming proper,?_⟩
  obtain ⟨_,read⟩ := clientReadBy {t with client.incoming := rest} (handler t.ends.client) m n
  refine alignedClient aligned (congrArg _ read.incoming) ?_ ?_ read.idle (readUnplanned ep os starts m aligned.unplanned)
  · rw [read.sends,aligned.toServer]
  · exact (read.threads.trans (congrArg (· ++ _) aligned.clientThreads)).trans (readDestroying ep os starts .client m _).symm

/-! What the threads and the loops do. -/

theorem lineServerForgets (index : Nat) :
    Line.Moves (line t j) (line {t with server.threads := t.server.threads.eraseIdx index} j) :=
  .single (.serverForgets ((t.server.threads.eraseIdx_sublist index).filterMap (originOf j)).subset)

theorem lineClientForgets (index : Nat) :
    Line.Moves (line t j) (line {t with client.threads := t.client.threads.eraseIdx index} j) :=
  .single (.clientForgets ((t.client.threads.eraseIdx_sublist index).filterMap (originOf j)).subset)

theorem lineDestroys (origin : Option Nat) (number : Nat) : line (destroys t origin number) j = line t j := by
  cases origin <;> rfl

theorem destroysKeeps (t : Tracked) (origin : Option Nat) (number : Nat) :
    (destroys t origin number).ends = t.ends ∧ (destroys t origin number).planned = t.planned ∧
      (destroys t origin number).server = t.server ∧ (destroys t origin number).client = t.client := by
  cases origin <;> exact ⟨rfl,rfl,rfl,rfl⟩

/- A close goes out while the channel is still there, and then it is taken down. -/
theorem serverHandles {next : Tracked} {handler : End → Handled} (ends : next.ends = t.ends) (cause : Nat)
    (less : ids (handler t.ends.server).after ⊆ ids t.ends.server) (moves : Line.Moves (line t j) (line next j))
    (sent : (∀ m ∈ (handler t.ends.server).sent, (∃ id flags noerror, m = .channelConnected id flags noerror) ∨
        ∃ id buf, m = .data id buf) ∨
      ∃ id ∈ ids t.ends.server, (handler t.ends.server).sent = [.channelClose id]) :
    Line.Moves (line t j) (line {serverSends next cause (handler t.ends.server).sent with
      ends := t.ends.handle .server handler} j) := by
  refine @thenServer t j (serverSends next cause (handler t.ends.server).sent) handler t.ends.toServer ends less ?_
  rcases sent with quiet | ⟨id,here,close⟩
  · rwa [serverQuiet quiet]
  · rw [close]
    exact moves.trans (serverCloseMoves cause (ends ▸ here))

theorem clientHandles {next : Tracked} {handler : End → Handled} (ends : next.ends = t.ends) (cause : Nat)
    (less : ids (handler t.ends.client).after ⊆ ids t.ends.client) (moves : Line.Moves (line t j) (line next j))
    (sent : (∀ m ∈ (handler t.ends.client).sent, (∃ id flags, m = .channelConnected id flags false) ∨
        ∃ id buf, m = .data id buf) ∨
      ∃ id ∈ ids t.ends.client, (handler t.ends.client).sent = [.channelClose id]) :
    Line.Moves (line t j) (line {clientSends next cause (handler t.ends.client).sent with
      ends := t.ends.handle .client handler} j) := by
  refine @thenClient t j (clientSends next cause (handler t.ends.client).sent) handler t.ends.toClient ends less ?_
  rcases sent with quiet | ⟨id,here,close⟩
  · rwa [clientQuiet quiet]
  · rw [close]
    exact moves.trans (clientCloseMoves cause (ends ▸ here))

/- A step of the server's own that starts no thread. -/
theorem serverStepMoved (aligned : Aligned t) {handler : End → Handled}
    (same : Same t.ends.server (handler t.ends.server).after)
    (sent : (handler t.ends.server).sent = [] ∨ (∃ id buf, (handler t.ends.server).sent = [.data id buf]) ∨
      ∃ id ∈ ids t.ends.server, (handler t.ends.server).sent = [.channelClose id]) :
    Moved t {serverSends t 0 (handler t.ends.server).sent with ends := t.ends.handle .server handler} := by
  refine ⟨fun j => serverHandles rfl 0 (same.channels ▸ fun _ inside => inside) .refl ?_,?_⟩
  · rcases sent with none | ⟨id,buf,data⟩ | close
    · exact .inl fun m inside => absurd (none ▸ inside) List.not_mem_nil
    · exact .inl fun m inside => .inr ⟨id,buf,List.mem_singleton.mp (data ▸ inside)⟩
    · exact .inr close
  · refine @alignedServer t (serverSends t 0 (handler t.ends.server).sent) aligned handler t.ends.toServer aligned.toServer
      ?_ (aligned.serverThreads.trans same.destroying.symm) rfl
    rw [serverSends,List.map_append,labelFst,aligned.toClient]

theorem clientStepMoved (aligned : Aligned t) {handler : End → Handled}
    (same : Same t.ends.client (handler t.ends.client).after)
    (sent : (handler t.ends.client).sent = [] ∨ (∃ id buf, (handler t.ends.client).sent = [.data id buf]) ∨
      ∃ id ∈ ids t.ends.client, (handler t.ends.client).sent = [.channelClose id]) :
    Moved t {clientSends t 0 (handler t.ends.client).sent with ends := t.ends.handle .client handler} := by
  refine ⟨fun j => clientHandles rfl 0 (same.channels ▸ fun _ inside => inside) .refl ?_,?_⟩
  · rcases sent with none | ⟨id,buf,data⟩ | close
    · exact .inl fun m inside => absurd (none ▸ inside) List.not_mem_nil
    · exact .inl fun m inside => .inr ⟨id,buf,List.mem_singleton.mp (data ▸ inside)⟩
    · exact .inr close
  · refine @alignedClient t (clientSends t 0 (handler t.ends.client).sent) aligned handler t.ends.toClient aligned.toClient
      ?_ (aligned.clientThreads.trans same.destroying.symm) rfl (same.planned aligned.unplanned)
    rw [clientSends,List.map_append,labelFst,aligned.toServer]

theorem hereFound {e : End} {id : UInt8} (here : id ∈ ids e) : ¬(e.findChannel id).isNone = true :=
  mt Option.isNone_iff_eq_none.mp (mt foundIds.mp (not_not_intro here))

/- What a thread that is run to its end leaves. -/
theorem serverThreadMoved {index : Nat} {id : UInt8} {origin : Option Nat} (aligned : Aligned t)
    (thread : t.server.threads[index]? = some (id,origin)) :
    Moved t {marks ep t (.destroyThread .server index) with ends := t.ends.handle .server (destroyThread index)} := by
  have named : t.ends.server.destroying[index]? = some id := by
    rw [← aligned.serverThreads,List.getElem?_map,thread]
    rfl
  obtain ⟨ran,destroying,_⟩ := threadCases named
  have threads : (t.server.threads.eraseIdx index).map Prod.fst =
      (destroyThread index t.ends.server).after.destroying := by
    rw [destroying,← aligned.serverThreads,List.eraseIdx_map]
  dsimp only [marks]
  rw [thread]
  dsimp only
  have closing (here : id ∈ ids t.ends.server) (less : ids (destroyThread index t.ends.server).after ⊆ ids t.ends.server)
      (sent : (destroyThread index t.ends.server).sent = [] ∨
        (destroyThread index t.ends.server).sent = [.channelClose id]) :
      Moved t {serverSends
        (destroys {t with server.threads := t.server.threads.eraseIdx index} origin (t.server.number id)) 0
          (destroyThread index t.ends.server).sent with ends := t.ends.handle .server (destroyThread index)} := by
    obtain ⟨ends,_,server,client⟩ := destroysKeeps {t with server.threads := t.server.threads.eraseIdx index} origin
      (t.server.number id)
    refine ⟨fun j => @serverHandles t j (destroys _ origin _) (destroyThread index) ends 0 less ?_ ?_,?_⟩
    · rw [lineDestroys]
      exact lineServerForgets index
    · rcases sent with none | close
      · exact .inl fun m inside => absurd (none ▸ inside) List.not_mem_nil
      · exact .inr ⟨id,here,close⟩
    · refine @alignedServer t (serverSends (destroys _ origin _) 0 _) aligned (destroyThread index) t.ends.toServer ?_ ?_ ?_ ?_
      · rw [serverSends,server]
        exact aligned.toServer
      · rw [serverSends,List.map_append,labelFst,client,aligned.toClient]
      · rw [serverSends,server]
        exact threads
      · rw [serverSends,client]
  cases ran with
  | idle none channels sent =>
    rw [if_pos (Option.isNone_iff_eq_none.mpr none)]
    refine ⟨fun j => @thenServer t j {t with server.threads := t.server.threads.eraseIdx index} (destroyThread index)
      t.ends.toServer rfl (channels ▸ fun _ inside => inside) (lineServerForgets index),?_⟩
    refine @alignedServer t {t with server.threads := t.server.threads.eraseIdx index} aligned (destroyThread index)
      t.ends.toServer aligned.toServer ?_ threads rfl
    rw [sent,List.append_nil]
    exact aligned.toClient
  | silent here channels sent =>
    rw [if_neg (hereFound here)]
    exact closing here channels (.inl sent)
  | closes here channels sent =>
    rw [if_neg (hereFound here)]
    exact closing here channels (.inr sent)

theorem clientThreadMoved {index : Nat} {id : UInt8} {origin : Option Nat} (aligned : Aligned t)
    (thread : t.client.threads[index]? = some (id,origin)) :
    Moved t {marks ep t (.destroyThread .client index) with ends := t.ends.handle .client (destroyThread index)} := by
  have named : t.ends.client.destroying[index]? = some id := by
    rw [← aligned.clientThreads,List.getElem?_map,thread]
    rfl
  obtain ⟨ran,destroying,planned⟩ := threadCases named
  have threads : (t.client.threads.eraseIdx index).map Prod.fst =
      (destroyThread index t.ends.client).after.destroying := by
    rw [destroying,← aligned.clientThreads,List.eraseIdx_map]
  have unplanned := planned.trans aligned.unplanned
  dsimp only [marks]
  rw [thread]
  dsimp only
  have closing (here : id ∈ ids t.ends.client) (less : ids (destroyThread index t.ends.client).after ⊆ ids t.ends.client)
      (sent : (destroyThread index t.ends.client).sent = [] ∨
        (destroyThread index t.ends.client).sent = [.channelClose id]) :
      Moved t {clientSends
        (destroys {t with client.threads := t.client.threads.eraseIdx index} origin (t.client.number id)) 0
          (destroyThread index t.ends.client).sent with ends := t.ends.handle .client (destroyThread index)} := by
    obtain ⟨ends,_,server,client⟩ := destroysKeeps {t with client.threads := t.client.threads.eraseIdx index} origin
      (t.client.number id)
    refine ⟨fun j => @clientHandles t j (destroys _ origin _) (destroyThread index) ends 0 less ?_ ?_,?_⟩
    · rw [lineDestroys]
      exact lineClientForgets index
    · rcases sent with none | close
      · exact .inl fun m inside => absurd (none ▸ inside) List.not_mem_nil
      · exact .inr ⟨id,here,close⟩
    · refine @alignedClient t (clientSends (destroys _ origin _) 0 _) aligned (destroyThread index) t.ends.toClient ?_ ?_ ?_ ?_
        unplanned
      · rw [clientSends,client]
        exact aligned.toClient
      · rw [clientSends,List.map_append,labelFst,server,aligned.toServer]
      · rw [clientSends,client]
        exact threads
      · rw [clientSends,server]
  cases ran with
  | idle none channels sent =>
    rw [if_pos (Option.isNone_iff_eq_none.mpr none)]
    refine ⟨fun j => @thenClient t j {t with client.threads := t.client.threads.eraseIdx index} (destroyThread index)
      t.ends.toClient rfl (channels ▸ fun _ inside => inside) (lineClientForgets index),?_⟩
    refine @alignedClient t {t with client.threads := t.client.threads.eraseIdx index} aligned (destroyThread index)
      t.ends.toClient aligned.toClient ?_ threads rfl unplanned
    rw [sent,List.append_nil]
    exact aligned.toServer
  | silent here channels sent =>
    rw [if_neg (hereFound here)]
    exact closing here channels (.inl sent)
  | closes here channels sent =>
    rw [if_neg (hereFound here)]
    exact closing here channels (.inr sent)

/-! Each step of the two ends. -/

theorem trackRuns {a : Action} {next : Ends} (running : t.ends.ended = false)
    (stepped : (if t.ends.ended then t.ends else next) = step ep t.ends a) :
    track ep t a = {marks ep t a with ends := next} := by
  have alive : ¬t.ends.ended = true := Bool.eq_false_iff.mp running
  unfold track
  rw [if_neg alive,← stepped,if_neg alive]

theorem destroyMoved (aligned : Aligned t) (id : UInt8) :
    Moved t {t with
      server.threads := t.server.threads ++ [(id,none)]
      ends := t.ends.handle .server (systemChannelClose id)} := by
  let next : Tracked := {t with server.threads := t.server.threads ++ [(id,none)]}
  refine ⟨fun j => @thenServer t j next (systemChannelClose id) t.ends.toServer rfl (fun _ inside => inside) ?_,?_⟩
  · have same : line next j = line t j := by
      simp [next,line,List.filterMap_append,originOf]
    rw [same]
  · refine @alignedServer t next aligned (systemChannelClose id) t.ends.toServer aligned.toServer ?_ ?_ rfl
    · exact aligned.toClient.trans (List.append_nil _).symm
    · exact List.map_append.trans (congrArg (· ++ [id]) aligned.serverThreads)

theorem deliverMoved (aligned : Aligned t) (running : t.ends.ended = false) (side : Side)
    (proper : Proper ep t (.deliver side os starts)) :
    Moved t {marks ep t (.deliver side os starts) with ends := deliver ep side os starts t.ends} := by
  cases side with
  | server =>
    have queue := aligned.toServer
    dsimp only [marks,deliver,Ends.incoming]
    cases incoming : t.server.incoming with
    | nil =>
      rw [incoming] at queue
      rw [← queue]
      exact ⟨fun _ => .refl,aligned⟩
    | cons entry rest =>
      obtain ⟨m,n⟩ := entry
      rw [incoming] at queue
      rw [← queue]
      dsimp only [Ends.drop,List.map_cons]
      rw [← queue]
      exact serverReadMoved ep os starts aligned incoming (proper running (m,n) (incoming ▸ rfl))
  | client =>
    have queue := aligned.toClient
    dsimp only [marks,deliver,Ends.incoming]
    cases incoming : t.client.incoming with
    | nil =>
      rw [incoming] at queue
      rw [← queue]
      exact ⟨fun _ => .refl,aligned⟩
    | cons entry rest =>
      obtain ⟨m,n⟩ := entry
      rw [incoming] at queue
      rw [← queue]
      dsimp only [Ends.drop,List.map_cons]
      rw [← queue]
      exact clientReadMoved ep os starts aligned incoming (proper running (m,n) (incoming ▸ rfl))

theorem sendsNothing (t : Tracked) (cause : Nat) : serverSends t cause [] = t ∧ clientSends t cause [] = t := by
  unfold serverSends clientSends
  simp only [List.map_nil,List.append_nil,and_self]

theorem serverQuietMoved (aligned : Aligned t) {handler : End → Handled}
    (same : Same t.ends.server (handler t.ends.server).after) (none : (handler t.ends.server).sent = []) :
    Moved t {t with ends := t.ends.handle .server handler} := by
  have moved := serverStepMoved aligned same (.inl none)
  rwa [none,(sendsNothing t 0).1] at moved

theorem clientQuietMoved (aligned : Aligned t) {handler : End → Handled}
    (same : Same t.ends.client (handler t.ends.client).after) (none : (handler t.ends.client).sent = []) :
    Moved t {t with ends := t.ends.handle .client handler} := by
  have moved := clientStepMoved aligned same (.inl none)
  rwa [none,(sendsNothing t 0).2] at moved

theorem threadMoved (aligned : Aligned t) (side : Side) (index : Nat) :
    Moved t {marks ep t (.destroyThread side index) with ends := t.ends.handle side (destroyThread index)} := by
  cases side with
  | server =>
    cases thread : t.server.threads[index]? with
    | some entry => exact serverThreadMoved ep aligned thread
    | none =>
      have idle : destroyThread index t.ends.server = {after := t.ends.server} := threadNone (by
        rw [← aligned.serverThreads,List.getElem?_map,thread]
        rfl)
      dsimp only [marks]
      rw [thread]
      refine serverQuietMoved aligned ?_ ?_
      · rw [idle]
        exact sameRefl _
      · rw [idle]
  | client =>
    cases thread : t.client.threads[index]? with
    | some entry => exact clientThreadMoved ep aligned thread
    | none =>
      have idle : destroyThread index t.ends.client = {after := t.ends.client} := threadNone (by
        rw [← aligned.clientThreads,List.getElem?_map,thread]
        rfl)
      dsimp only [marks]
      rw [thread]
      refine clientQuietMoved aligned ?_ ?_
      · rw [idle]
        exact sameRefl _
      · rw [idle]

theorem loopMoved (aligned : Aligned t) (side : Side) (id : UInt8) :
    Moved t {marks ep t (.loopEnds side id) with ends := t.ends.handle side (loopEnds id)} := by
  cases side with
  | server =>
    obtain ⟨same,sent⟩ := @endsSame t.ends.server id
    exact serverStepMoved aligned same (sent.imp_right fun ⟨here,close⟩ => .inr ⟨id,here,close⟩)
  | client =>
    obtain ⟨same,sent⟩ := @endsSame t.ends.client id
    exact clientStepMoved aligned same (sent.imp_right fun ⟨here,close⟩ => .inr ⟨id,here,close⟩)

theorem dataMoved (aligned : Aligned t) (side : Side) (id : UInt8) (buf : List UInt8) :
    Moved t {marks ep t (.sendData side id buf) with ends := t.ends.handle side (sendData id buf)} := by
  cases side with
  | server =>
    obtain ⟨same,sent⟩ := @sendsSame t.ends.server id buf
    exact serverStepMoved aligned (by rw [same]; exact sameRefl _) (sent.imp_right fun data => .inl ⟨id,buf,data⟩)
  | client =>
    obtain ⟨same,sent⟩ := @sendsSame t.ends.client id buf
    exact clientStepMoved aligned (by rw [same]; exact sameRefl _) (sent.imp_right fun data => .inl ⟨id,buf,data⟩)

theorem stepMoved {a : Action} (aligned : Aligned t) (running : t.ends.ended = false) (proper : Proper ep t a) :
    Moved t (track ep t a) := by
  have moved {next : Ends} (stepped : (if t.ends.ended then t.ends else next) = step ep t.ends a)
      (moved : Moved t {marks ep t a with ends := next}) : Moved t (track ep t a) := trackRuns ep running stepped ▸ moved
  cases a with
  | createChannel os clientOpts serverOpts chOpts =>
    exact moved rfl (plansMoved aligned (createPlans os clientOpts serverOpts chOpts t.ends.server))
  | accept os clientOpts sock serverOpts chOpts =>
    exact moved rfl (plansMoved aligned (acceptPlans os clientOpts sock serverOpts chOpts t.ends.server))
  | loginSuccess =>
    refine moved rfl ⟨fun j => .refl,?_⟩
    exact ⟨aligned.toServer,aligned.toClient,aligned.serverThreads,aligned.clientThreads,aligned.unplanned⟩
  | destroyChannel id => exact moved rfl (destroyMoved aligned id)
  | deliver side os starts => exact moved rfl (deliverMoved ep os starts aligned running side proper)
  | destroyThread side index => exact moved rfl (threadMoved ep aligned side index)
  | loopFails side id =>
    obtain ⟨same,none⟩ := @failsSame (t.ends.endOf side) id
    cases side with
    | server => exact moved rfl (serverQuietMoved aligned same none)
    | client => exact moved rfl (clientQuietMoved aligned same none)
  | loopEnds side id => exact moved rfl (loopMoved ep aligned side id)
  | sendData side id buf => exact moved rfl (dataMoved ep aligned side id buf)

/-! What has been destroyed. -/

structure Kept (t : Tracked) : Prop where
  aligned : Aligned t
  lines : ∀ j, Line.Kept (line t j)
  faithful : Faithful t

theorem noted {t : Tracked} {origin : Option Nat} {number : Nat} (faithful : Faithful t)
    (own : ∀ n, origin = some n → n = number) : Faithful (destroys t origin number) := by
  cases origin with
  | none => exact faithful
  | some n =>
    intro entry inside
    rcases List.mem_append.mp inside with old | new
    · exact faithful entry old
    · rw [List.mem_singleton.mp new]
      exact own n rfl

/- The threads of an id whose connector is there are about its channel. -/
theorem serverThreadOwn {index : Nat} {id : UInt8} {n : Nat} (kept : Kept t)
    (thread : t.server.threads[index]? = some (id,some n)) (here : id ∈ ids t.ends.server) : n = t.server.number id := by
  have held : (line t id).server = some (t.server.number id) := if_pos here
  have inside : n ∈ (line t id).serverThreads :=
    List.mem_filterMap.mpr ⟨(id,some n),List.mem_of_getElem? thread,if_pos rfl⟩
  obtain ⟨last,_,_,_,threads⟩ := (kept.lines id).held _ held
  exact (threads n inside).trans last.symm

theorem clientThreadOwn {index : Nat} {id : UInt8} {n : Nat} (kept : Kept t)
    (thread : t.client.threads[index]? = some (id,some n)) (here : id ∈ ids t.ends.client) : n = t.client.number id := by
  have holds : (line t id).client = some (t.client.number id) := if_pos here
  have inside : n ∈ (line t id).clientThreads :=
    List.mem_filterMap.mpr ⟨(id,some n),List.mem_of_getElem? thread,if_pos rfl⟩
  exact ((kept.lines id).holding _ holds).1 n inside

theorem threadFaithful (kept : Kept t) (side : Side) (index : Nat) :
    Faithful (marks ep t (.destroyThread side index)) := by
  cases side with
  | server =>
    cases thread : t.server.threads[index]? with
    | none =>
      dsimp only [marks]
      rw [thread]
      exact kept.faithful
    | some entry =>
      obtain ⟨id,origin⟩ := entry
      dsimp only [marks]
      rw [thread]
      dsimp only
      split
      · exact kept.faithful
      · rename_i found
        have here : id ∈ ids t.ends.server :=
          not_not.mp (mt foundIds.mpr (mt Option.isNone_iff_eq_none.mpr found))
        refine noted (t := {t with server.threads := t.server.threads.eraseIdx index}) kept.faithful fun n own => ?_
        exact serverThreadOwn kept (own ▸ thread) here
  | client =>
    cases thread : t.client.threads[index]? with
    | none =>
      dsimp only [marks]
      rw [thread]
      exact kept.faithful
    | some entry =>
      obtain ⟨id,origin⟩ := entry
      dsimp only [marks]
      rw [thread]
      dsimp only
      split
      · exact kept.faithful
      · rename_i found
        have here : id ∈ ids t.ends.client :=
          not_not.mp (mt foundIds.mpr (mt Option.isNone_iff_eq_none.mpr found))
        refine noted (t := {t with client.threads := t.client.threads.eraseIdx index}) kept.faithful fun n own => ?_
        exact clientThreadOwn kept (own ▸ thread) here

theorem serverReadsDestroyed (t : Tracked) (h : Handled) (m : Message) (n : Nat) :
    (serverReads t h m n).destroyed = t.destroyed := by
  unfold serverReads
  cases m with
  | channelConnected =>
    dsimp only
    split <;> rfl
  | channelOpen | channelClose | data => rfl

theorem clientReadsDestroyed (t : Tracked) (h : Handled) (m : Message) (n : Nat) :
    (clientReads t h m n).destroyed = t.destroyed := by
  unfold clientReads
  cases m with
  | channelOpen =>
    dsimp only
    split <;> rfl
  | channelConnected | channelClose | data => rfl

theorem plansDestroyed (t : Tracked) (sent : List Message) : (plans t sent).destroyed = t.destroyed := by
  unfold plans
  split <;> rfl

theorem stillFaithful {next : Tracked} (faithful : Faithful t) (same : next.destroyed = t.destroyed) : Faithful next := by
  unfold Faithful
  rwa [same]

theorem marksFaithful (kept : Kept t) (a : Action) : Faithful (marks ep t a) := by
  cases a with
  | destroyThread side index => exact threadFaithful ep kept side index
  | createChannel => exact stillFaithful kept.faithful (plansDestroyed t _)
  | accept => exact stillFaithful kept.faithful (plansDestroyed t _)
  | deliver side os starts =>
    cases side with
    | server =>
      dsimp only [marks]
      split
      · exact kept.faithful
      · exact stillFaithful kept.faithful (serverReadsDestroyed _ _ _ _)
    | client =>
      dsimp only [marks]
      split
      · exact kept.faithful
      · exact stillFaithful kept.faithful (clientReadsDestroyed _ _ _ _)
  | loopEnds side | sendData side => cases side <;> exact kept.faithful
  | loginSuccess | destroyChannel | loopFails => exact kept.faithful

theorem trackKept {a : Action} (kept : Kept t) (proper : Proper ep t a) : Kept (track ep t a) := by
  cases ended : t.ends.ended with
  | true =>
    unfold track
    rw [if_pos ended]
    exact kept
  | false =>
    obtain ⟨moves,aligned⟩ := stepMoved ep kept.aligned ended proper
    refine ⟨aligned,fun j => Line.movesKept (kept.lines j) (moves j),?_⟩
    unfold track
    rw [if_neg (Bool.eq_false_iff.mp ended)]
    exact marksFaithful ep kept a

theorem startKept : Kept start where
  aligned := ⟨rfl,rfl,rfl,rfl,rfl⟩
  lines _ := Line.keptFresh
  faithful _ inside := absurd inside List.not_mem_nil

end

/- Over every run whose connectors are made in time. -/
theorem closesFaithful (ep : Endpoint) (actions : List Action) (proper : Meets (track ep) (Proper ep) start actions) :
    Always (track ep) Faithful start actions :=
  meetsAlways (I := Kept) (fun _ _ kept => trackKept ep kept) (fun _ => Kept.faithful) startKept proper

/- A file of the client behind a socket of the server; the channel is closed and opened again. -/
def creation : Action :=
  .createChannel willingOs (.ofParts .file "/tmp/a" .readOnly) (.ofParts .unix "/run/b" .writeOnly) {flags := 2}

def sampleEndpoint : Endpoint := ⟨false,true,fun _ _ _ => true,fun _ => .broken⟩

def opening : List Action :=
  [creation,.deliver .client willingOs true,.deliver .server willingOs true,.deliver .client willingOs true]

/- The echo of the close is handled before the id is used again. -/
def echoHandled : List Action :=
  opening ++ [.destroyChannel 1,.destroyThread .server 0,.deliver .client willingOs true,.destroyThread .client 0,
    .deliver .server willingOs true,.destroyThread .server 0] ++ opening

theorem echoHandledFaithful : Always (track sampleEndpoint) Faithful start echoHandled ∧
    (run (track sampleEndpoint) start echoHandled).destroyed = [(1,1)] ∧
    (run (track sampleEndpoint) start echoHandled).server.number 1 = 2 :=
  ⟨closesFaithful sampleEndpoint echoHandled (by decide +kernel),by decide +kernel,by decide +kernel⟩

/- The server uses the id again at once, and the echo comes to the new channel. -/
def echoLate : List Action :=
  opening ++ [.destroyChannel 1,.destroyThread .server 0,creation,.deliver .client willingOs true,
    .destroyThread .client 0,.deliver .client willingOs true,.deliver .server willingOs true,
    .deliver .server willingOs true,.destroyThread .server 0]

theorem staleCloseDestroys : ¬∀ ep actions, Always (track ep) Faithful start actions := by
  intro claim
  have faithful := claim sampleEndpoint echoLate echoLate (List.prefix_refl _)
  have stale : (1,2) ∈ (run (track sampleEndpoint) start echoLate).destroyed := by decide +kernel
  exact absurd (faithful _ stale) (by decide)

end Ltsm.ChannelCloses
