import Ltsm.ChannelPlanned
import Ltsm.ClientConsent

/-! The ids of an end's channels, planned and running, and what a system message can do
to a channel that it does not name. -/
namespace Ltsm.ChannelIds
open Channel ChannelClient Library

def ids (s : State) : List UInt8 := s.channelsPlanned.map (·.channel) ++ s.channels.map (·.channel)

/- No two channels share an id, and none has the id of the system channel or the reserved one. -/
structure IdsKept (s : State) : Prop where
  distinct : (ids s).Nodup
  user : ∀ id ∈ ids s, 0 < id ∧ id < 255

/-! What the operations do to the ids. -/
section
variable {s t : State}

theorem keptLess (less : (ids t).Subperm (ids s)) (kept : IdsKept s) : IdsKept t := by
  refine ⟨?_,fun id inside => kept.user id (less.subset inside)⟩
  obtain ⟨l,same,within⟩ := less
  exact same.nodup_iff.mp (kept.distinct.sublist within)

theorem keptSame (planned : t.channelsPlanned.map (·.channel) = s.channelsPlanned.map (·.channel))
    (channels : t.channels.map (·.channel) = s.channels.map (·.channel)) (kept : IdsKept s) : IdsKept t := by
  have same : ids t = ids s := by rw [ids,planned,channels,ids]
  exact ⟨same ▸ kept.distinct,same ▸ kept.user⟩

theorem keptMore (id : UInt8) (more : (ids t).Perm (id :: ids s)) (free : id ∉ ids s)
    (proper : 0 < id ∧ id < 255) (kept : IdsKept s) : IdsKept t := by
  refine ⟨more.nodup_iff.mpr (List.nodup_cons.mpr ⟨free,kept.distinct⟩),fun other inside => ?_⟩
  rcases List.mem_cons.mp (more.mem_iff.mp inside) with rfl | old
  · exact proper
  · exact kept.user other old

theorem keptUpdate {p : Connector → Bool} {f : Connector → Connector} (keeps : ∀ c, (f c).channel = c.channel)
    (kept : IdsKept s) : IdsKept {s with channels := updateFirst p f s.channels} :=
  keptSame (s := s) rfl (mapUpdate keeps s.channels) kept

theorem absentIds {channel : UInt8} (running : s.findChannel channel = none)
    (planned : s.findPlanned channel = none) : channel ∉ ids s := by
  intro inside
  rcases List.mem_append.mp inside with inPlanned | inRunning
  · obtain ⟨job,member,same⟩ := List.mem_map.mp inPlanned
    exact absurd (decide_eq_true same) (List.find?_eq_none.mp planned job member)
  · obtain ⟨c,member,same⟩ := List.mem_map.mp inRunning
    exact absurd (decide_eq_true same) (List.find?_eq_none.mp running c member)

theorem freeProper {channel : UInt8} (free : freeChannel s = some channel) :
    (0 < channel ∧ channel < 255) ∧ channel ∉ ids s := by
  obtain ⟨i,inside,rfl⟩ := List.mem_map.mp (List.mem_of_find?_eq_some free)
  have small := List.mem_range.mp inside
  have unused := List.find?_some free
  rw [Bool.and_eq_true,Option.isNone_iff_eq_none,Option.isNone_iff_eq_none] at unused
  refine ⟨?_,absentIds unused.1 unused.2⟩
  rw [UInt8.lt_iff_toNat_lt,UInt8.lt_iff_toNat_lt]
  simp only [UInt8.toNat_ofNat',UInt8.reduceToNat]
  omega

theorem keptPlan (job : Planned) (kept : IdsKept s) : IdsKept (planJob job s) := by
  unfold planJob
  cases free : freeChannel s with
  | none => exact kept
  | some channel =>
    obtain ⟨proper,unused⟩ := freeProper free
    refine keptMore channel ?_ unused proper kept
    simp only [ids,List.map_append,List.map_cons,List.map_nil,List.append_assoc,List.singleton_append]
    exact List.perm_middle

theorem keptCreate (clientOpts serverOpts : UrlMode) (chOpts : Opts) (kept : IdsKept s) :
    IdsKept (createChannel clientOpts serverOpts chOpts s) := by
  unfold createChannel
  split
  · exact kept
  split
  · exact kept
  · exact keptPlan _ kept

theorem keptAccept (clientOpts : UrlMode) (sock : Int) (serverOpts : UrlMode) (chOpts : Opts)
    (kept : IdsKept s) : IdsKept (createChannelAcceptFd clientOpts sock serverOpts chOpts s) := by
  unfold createChannelAcceptFd
  split
  · exact keptSame (s := s) rfl rfl kept
  · exact keptPlan _ kept

/- A connector is made under the id it is given, if it is made. -/
theorem addSource (job : Option Planned) (channel : UInt8) (mode : ConnectorMode) (chOpts : Opts)
    (s : State) (resource : Option Resource) :
    (addConnector job channel mode chOpts s resource).2.channels = s.channels ∨
      ∃ c : Connector, c.channel = channel ∧
        (addConnector job channel mode chOpts s resource).2.channels = s.channels ++ [c] := by
  cases resource with
  | none => exact .inl rfl
  | some resource =>
    rw [addConnector]
    dsimp only
    split
    · exact .inl rfl
    · exact .inr ⟨_,rfl,rfl⟩

theorem keptAdd (job : Option Planned) {channel : UInt8} (mode : ConnectorMode) (chOpts : Opts)
    (resource : Option Resource) (proper : 0 < channel ∧ channel < 255) (free : channel ∉ ids s)
    (kept : IdsKept s) : IdsKept (addConnector job channel mode chOpts s resource).2 := by
  have planned := addConnectorPlanned (s := s) job channel mode chOpts resource
  rcases addSource job channel mode chOpts s resource with same | ⟨c,own,added⟩
  · exact keptSame (congrArg _ planned) (congrArg _ same) kept
  · refine keptMore channel ?_ free proper kept
    rw [ids,planned,added,List.map_append,List.map_cons,List.map_nil,own,← List.append_assoc]
    exact List.perm_append_singleton _ _

theorem keptUnplan (p : Planned → Bool) (kept : IdsKept s) :
    IdsKept {s with channelsPlanned := s.channelsPlanned.eraseP p} :=
  keptLess (s := s) (((List.eraseP_sublist.map _).append_right _).subperm) kept

theorem keptMark (id : Int) (kept : IdsKept s) : IdsKept (s.setRemoteConnected id) :=
  keptUpdate (fun _ => rfl) kept

/- The id of a job that is taken up is free once the job is out of the list. -/
theorem keptConnected (ep : Endpoint) (os : Os) (id : Int) (error : Bool) (flags : UInt32)
    (kept : IdsKept s) : IdsKept (systemChannelConnected ep os id error flags s) := by
  rcases ChannelPlanned.connectedSource ep os s id error flags with ⟨_,same⟩ | ⟨origin,found,closed | ⟨takes,result⟩⟩
  · rw [same]
    exact keptMark id kept
  · rw [closed]
    unfold closeServerFd
    split
    · exact keptSame (s := {s with channelsPlanned := s.channelsPlanned.eraseP (plannedFor id)}) rfl rfl
        (keptUnplan (plannedFor id) kept)
    · exact keptUnplan (plannedFor id) kept
  · have moved := (permErase found).map (·.channel)
    have free : origin.channel ∉ ids {s with channelsPlanned := s.channelsPlanned.eraseP (plannedFor id)} := by
      have distinct := kept.distinct
      rw [ids,(moved.append_right _).nodup_iff] at distinct
      exact (List.nodup_cons.mp distinct).1
    have taken : IdsKept (ChannelPlanned.taken ep os s id flags origin) :=
      keptAdd (some origin) origin.serverOpts.mode _ _ takes.proper free (keptUnplan (plannedFor id) kept)
    rcases result with same | same <;> rw [same]
    · exact taken
    · exact keptMark id taken

theorem keptThread (index : Nat) (kept : IdsKept s) : IdsKept (destroyThread index s) := by
  unfold destroyThread
  split
  · exact kept
  · exact keptLess (s := s) (((List.eraseP_sublist.map _).append_left _).subperm) kept

theorem keptData (ep : Endpoint) (channel : UInt8) (buf : List UInt8) (kept : IdsKept s) :
    IdsKept (recvChannelData ep channel buf s) := by
  unfold recvChannelData
  split
  · exact kept
  split
  · exact kept
  split
  · exact kept
  split
  · exact kept
  split
  · exact kept
  · have same := mapUpdate (p := fun c : Connector => c.channel = channel) (g := (·.channel))
      (f := fun c : Connector => {c with queue := c.queue ++ [buf]}) (fun _ => rfl) s.channels
    exact keptSame (s := s) rfl same kept

/- Whatever the type, the client's answer to an admitted request is one connector or none. -/
theorem requestedSource (ep : Endpoint) (os : Os) (msg : ChannelOpen) (s : State) :
    (ClientConsent.createRequested ep os msg s).2 = s ∨ ∃ mode chOpts resource,
      (ClientConsent.createRequested ep os msg s).2 =
        (addConnector none (UInt8.ofInt msg.id) mode chOpts s resource).2 := by
  unfold ClientConsent.createRequested createChannelFile createChannelUnix createChannelCommand
    createChannelSocket createChannelClient
  dsimp only
  cases connectorType msg.type with
  | unknown => exact .inl rfl
  | socket =>
    dsimp only
    split
    · exact .inl rfl
    split
    · exact .inl rfl
    split
    · exact .inl rfl
    · exact .inr ⟨_,_,_,rfl⟩
  | _ =>
    dsimp only
    split
    · exact .inr ⟨_,_,_,rfl⟩
    · exact .inl rfl

theorem keptOpen (ep : Endpoint) (os : Os) (msg : ChannelOpen) (unplanned : s.channelsPlanned = [])
    (kept : IdsKept s) : IdsKept (ClientConsent.systemChannelOpen ep os msg s) := by
  have made : ClientConsent.Admitted s msg → IdsKept (ClientConsent.createRequested ep os msg s).2 := by
    intro admitted
    have proper : 0 < UInt8.ofInt msg.id ∧ UInt8.ofInt msg.id < 255 := by
      obtain ⟨low,high⟩ := admitted.proper
      rw [UInt8.lt_iff_toNat_lt,UInt8.lt_iff_toNat_lt]
      simp only [UInt8.ofInt,UInt8.toNat_ofNat',UInt8.reduceToNat]
      omega
    have free : UInt8.ofInt msg.id ∉ ids s :=
      absentIds admitted.free (by simp [State.findPlanned,unplanned])
    rcases requestedSource ep os msg s with same | ⟨mode,chOpts,resource,same⟩ <;> rw [same]
    · exact kept
    · exact keptAdd none mode chOpts resource proper free kept
  unfold ClientConsent.systemChannelOpen
  split
  rename_i ok t answer
  have after : IdsKept t := by
    split at answer
    · rename_i admitted
      have same : (ClientConsent.createRequested ep os msg s).2 = t := congrArg Prod.snd answer
      exact same ▸ made admitted
    · have same : s = t := congrArg Prod.snd answer
      exact same ▸ kept
  split
  · exact after
  · exact keptSame (s := t) rfl rfl after

theorem keptServer (ep : Endpoint) (s : State) (a : ChannelPlanned.ServerAction) (kept : IdsKept s) :
    IdsKept (ChannelPlanned.serverStep ep s a) := by
  cases a with
  | createChannel clientOpts serverOpts chOpts => exact keptCreate clientOpts serverOpts chOpts kept
  | accept clientOpts sock serverOpts chOpts => exact keptAccept clientOpts sock serverOpts chOpts kept
  | receive os channel buf =>
    show IdsKept (ChannelPlanned.recvLtsmEvent ep os channel buf s)
    unfold ChannelPlanned.recvLtsmEvent
    split
    · exact kept
    split
    · unfold ChannelPlanned.recvChannelSystemEvent
      cases ep.parse buf with
      | channelClose id => exact keptSame (s := s) rfl rfl kept
      | channelConnected id error flags => exact keptConnected ep os id error flags kept
      | _ => exact kept
    · exact keptData ep channel buf kept
  | destroyChannel channel => exact keptSame (s := s) rfl rfl kept
  | destroyThread index => exact keptThread index kept
  | stopped channel => exact keptUpdate (fun _ => rfl) kept
  | loginSuccess => exact keptSame (s := s) rfl rfl kept

theorem keptClient (ep : Endpoint) (s : State) (a : ClientConsent.ClientAction)
    (kept : IdsKept s ∧ s.channelsPlanned = []) : IdsKept (ClientConsent.clientStep ep s a) ∧
      (ClientConsent.clientStep ep s a).channelsPlanned = [] := by
  obtain ⟨kept,unplanned⟩ := kept
  refine ⟨?_,ClientConsent.stepPlansNothing ep s a unplanned⟩
  cases a with
  | receive os channel buf =>
    show IdsKept (ClientConsent.recvLtsmEvent ep os channel buf s)
    unfold ClientConsent.recvLtsmEvent
    split
    · exact kept
    split
    · unfold ClientConsent.recvChannelSystemEvent
      cases ep.parse buf with
      | channelOpen msg => exact keptOpen ep os msg unplanned kept
      | channelClose id => exact keptSame (s := s) rfl rfl kept
      | channelConnected id error flags => exact keptConnected ep os id error flags kept
      | _ => exact kept
    · exact keptData ep channel buf kept
  | destroyThread index => exact keptThread index kept
  | stopped channel => exact keptUpdate (fun _ => rfl) kept

end
/-! An end that is watched for what messages of strange ids do. -/

/- The JSON reader throws at integers that are no int. -/
def beyondInt (id : Int) : Bool := id < -2147483648 || 2147483647 < id

def messageId : SystemMessage → Option Int
  | .channelOpen msg => some msg.id
  | .channelClose id | .channelConnected id _ _ => some id
  | _ => none

def namesNone (s : State) (id : Int) : Bool :=
  !(0 ≤ id && id ≤ 255) || (s.findChannel (UInt8.ofInt id)).isNone && (s.findPlanned (UInt8.ofInt id)).isNone

/- A request to open a channel names none that exists; it is strange outside 0..255 only. -/
def stray (s : State) : SystemMessage → Bool
  | .channelOpen msg => !(0 ≤ msg.id && msg.id ≤ 255)
  | .channelClose id | .channelConnected id _ _ => namesNone s id
  | _ => false

/- What an end does, what it is told and which commands it does not know. -/
structure Behaviour (α : Type) where
  step : State → α → State
  message : α → Option SystemMessage
  thread : α → Option Nat
  destroys : α → Bool
  unknown : SystemMessage → Bool

def serverBehaviour (ep : Endpoint) : Behaviour ChannelPlanned.ServerAction where
  step := ChannelPlanned.serverStep ep
  message
    | .receive _ channel buf => if channel = 0 then some (ep.parse buf) else none
    | _ => none
  thread
    | .destroyThread index => some index
    | _ => none
  destroys
    | .destroyChannel _ => true
    | _ => false
  unknown
    | .channelOpen _ | .channelListen | .broken => true
    | _ => false

def clientBehaviour (ep : Endpoint) : Behaviour ClientConsent.ClientAction where
  step := ClientConsent.clientStep ep
  message
    | .receive _ channel buf => if channel = 0 then some (ep.parse buf) else none
    | _ => none
  thread
    | .destroyThread index => some index
    | _ => none
  destroys _ := false
  unknown
    | .clientVariables | .keyboardChange | .cursorFailed | .transferFiles | .broken => true
    | _ => false

/- `strays` tells, for each thread under way, whether a strange message started it. -/
structure Watched where
  state : State
  strays : List Bool := []
  ended : Bool := false
  deriving DecidableEq, Repr

def channelsShutdown (s : State) : State := {s with channels := s.channels.map ({· with running := false})}

section
variable {α : Type} (b : Behaviour α)

def throws (msg : SystemMessage) : Bool := b.unknown msg || (messageId msg).any beyondInt

def watchStep (s : Watched) (a : α) : Watched :=
  if s.ended then s
  else match b.message a with
    | some msg =>
      if throws b msg then {s with state := channelsShutdown s.state, ended := true}
      else
        { s with
          state := b.step s.state a
          strays := match msg with
            | .channelClose id => s.strays ++ [namesNone s.state id]
            | _ => s.strays }
    | none =>
      { s with
        state := b.step s.state a
        strays := match b.thread a with
          | some index => s.strays.eraseIdx index
          | none => if b.destroys a then s.strays ++ [false] else s.strays }

/- The step handles a strange message, or runs the thread that one has started. -/
def OfStray (s : Watched) (a : α) : Prop :=
  (∃ msg, b.message a = some msg ∧ stray s.state msg = true) ∨
    ∃ index, b.thread a = some index ∧ s.strays[index]? = some true

/- It leaves every channel as it was. -/
def Unaffected (s : Watched) (a : α) : Prop :=
  OfStray b s a → (watchStep b s a).state.channels = s.state.channels ∧
    (watchStep b s a).state.channelsPlanned = s.state.channelsPlanned

/- A message that is thrown at finds no running channel, an answer none with the low byte
of its id that waits for one. -/
def harmlessMessage (s : State) (msg : SystemMessage) : Prop :=
  if throws b msg then ∀ c ∈ s.channels, c.running = false
  else match msg with
    | .channelConnected id _ _ => ∀ c, s.findChannel (UInt8.ofInt id) = some c → c.remoteConnected = true
    | _ => True

/- A thread finds none with the low byte of the id it was started for. -/
structure Harmless (s : Watched) (a : α) : Prop where
  message : s.ended = false → ∀ msg, b.message a = some msg → stray s.state msg = true →
    harmlessMessage b s.state msg
  thread : s.ended = false → ∀ index channel, b.thread a = some index → s.strays[index]? = some true →
    s.state.destroying[index]? = some channel → s.state.findChannel channel = none

/- How the behaviours of both ends treat the messages they know. -/
structure Faithful : Prop where
  thread : ∀ s a index, b.thread a = some index → b.message a = none ∧ b.step s a = destroyThread index s
  connected : ∀ s a id error flags, b.message a = some (.channelConnected id error flags) →
    ∃ ep os, b.step s a = systemChannelConnected ep os id error flags s
  others : ∀ s a msg, b.message a = some msg → b.unknown msg = false → stray s msg = true →
    (∀ id error flags, msg ≠ .channelConnected id error flags) →
    (b.step s a).channels = s.channels ∧ (b.step s a).channelsPlanned = s.channelsPlanned

variable {b} {s : Watched} {a : α}

theorem shutdownSame (s : State) :
    (channelsShutdown s).channels = s.channels ↔ ∀ c ∈ s.channels, c.running = false := by
  have each := List.map_inj_left (f := fun c : Connector => {c with running := false}) (g := id) (l := s.channels)
  rw [List.map_id] at each
  refine each.trans (forall₂_congr fun c _ => ⟨fun same => ?_,fun stopped => ?_⟩)
  · exact (congrArg Connector.running same).symm
  · show ({c with running := false} : Connector) = c
    rw [← stopped]

theorem strayUnplanned {s : State} {id : Int} (none_ : namesNone s id = true) :
    s.channelsPlanned.find? (plannedFor id) = none := by
  refine List.find?_eq_none.mpr fun job inside named => ?_
  have own : (job.channel.toNat : Int) = id := of_decide_eq_true named
  have small := job.channel.toNat_lt
  have byte : UInt8.ofInt id = job.channel := by
    rw [← own]
    apply UInt8.toNat_inj.mp
    simp only [UInt8.ofInt,UInt8.toNat_ofNat']
    omega
  rcases Bool.or_eq_true_iff.mp none_ with outside | absent
  · simp at outside
    omega
  · have planned := (Bool.and_eq_true_iff.mp absent).2
    rw [Option.isNone_iff_eq_none,byte] at planned
    exact absurd (decide_eq_true rfl) (List.find?_eq_none.mp planned job inside)

/- An answer to no job only marks the connector of its low byte. -/
theorem markSame (s : State) (id : Int) :
    (s.setRemoteConnected id).channels = s.channels ↔
      ∀ c, s.findChannel (UInt8.ofInt id) = some c → c.remoteConnected = true := by
  constructor
  · intro same c found
    exact congrArg Connector.remoteConnected (foundSame same found).symm
  · intro connected
    refine updateSame fun c found => ?_
    rw [← connected c found]

theorem threadSame {s : State} {index : Nat} {channel : UInt8} (thread : s.destroying[index]? = some channel) :
    (destroyThread index s).channels = s.channels ↔ s.findChannel channel = none := by
  have runs : (destroyThread index s).channels = s.channels.eraseP (·.channel = channel) := by
    simp only [destroyThread,thread]
  rw [runs,List.eraseP_eq_self_iff]
  exact List.find?_eq_none.symm

/- What a strange message itself does. -/
theorem messageSame (faithful : Faithful b) {msg : SystemMessage} (alive : s.ended = false)
    (told : b.message a = some msg) (strange : stray s.state msg = true) :
    ((watchStep b s a).state.channels = s.state.channels ∧
      (watchStep b s a).state.channelsPlanned = s.state.channelsPlanned) ↔ harmlessMessage b s.state msg := by
  unfold watchStep harmlessMessage
  rw [if_neg (by simp [alive]),told]
  dsimp only
  split
  · exact (and_iff_left rfl).trans (shutdownSame s.state)
  rename_i known
  have knows : b.unknown msg = false := by
    rw [throws,Bool.or_eq_true_iff,not_or] at known
    exact Bool.eq_false_iff.mpr known.1
  dsimp only
  cases msg with
  | channelConnected id error flags =>
    obtain ⟨ep,os,steps⟩ := faithful.connected s.state a id error flags told
    have marks : systemChannelConnected ep os id error flags s.state = s.state.setRemoteConnected id := by
      unfold systemChannelConnected
      rw [strayUnplanned strange]
    rw [steps,marks]
    exact (and_iff_left rfl).trans (markSame s.state id)
  | _ => exact iff_of_true (faithful.others s.state a _ told knows strange (by simp)) trivial

theorem unaffectedIff (faithful : Faithful b) (s : Watched) (a : α) : Unaffected b s a ↔ Harmless b s a := by
  cases alive : s.ended with
  | true =>
    have same : watchStep b s a = s := by rw [watchStep,if_pos alive]
    refine iff_of_true (fun _ => by rw [same]; exact ⟨rfl,rfl⟩) ⟨fun off => ?_,fun off => ?_⟩
    · exact absurd (alive.symm.trans off) (by simp)
    · exact absurd (alive.symm.trans off) (by simp)
  | false =>
    have runs : ∀ index, b.thread a = some index → (watchStep b s a).state = destroyThread index s.state := by
      intro index thread
      obtain ⟨untold,steps⟩ := faithful.thread s.state a index thread
      simp only [watchStep,alive,untold,steps,Bool.false_eq_true,if_false]
    constructor
    · intro unaffected
      refine ⟨fun _ msg told strange => ?_,fun _ index channel thread marked under => ?_⟩
      · exact (messageSame faithful alive told strange).mp (unaffected (.inl ⟨msg,told,strange⟩))
      · have same := (unaffected (.inr ⟨index,thread,marked⟩)).1
        rw [runs index thread] at same
        exact (threadSame under).mp same
    · rintro harmless (⟨msg,told,strange⟩ | ⟨index,thread,marked⟩)
      · exact (messageSame faithful alive told strange).mpr (harmless.message alive msg told strange)
      · rw [runs index thread]
        cases under : s.state.destroying[index]? with
        | none => simp [destroyThread,under]
        | some channel =>
          refine ⟨(threadSame under).mpr (harmless.thread alive index channel thread marked under),?_⟩
          simp only [destroyThread,under]

theorem watchKept {P : State → Prop} (step : ∀ s a, P s → P (b.step s a))
    (shutdown : ∀ s, P s → P (channelsShutdown s)) (s : Watched) (a : α) (kept : P s.state) :
    P (watchStep b s a).state := by
  unfold watchStep
  split
  · exact kept
  split
  · split
    · exact shutdown s.state kept
    · exact step s.state a kept
  · exact step s.state a kept

end

theorem keptShutdown (s : State) (kept : IdsKept s) : IdsKept (channelsShutdown s) :=
  keptSame (s := s) rfl (by simp [channelsShutdown]) kept

theorem faithfulServer (ep : Endpoint) : Faithful (serverBehaviour ep) where
  thread s a index runs := by
    cases a with
    | destroyThread i =>
      cases runs
      exact ⟨rfl,rfl⟩
    | _ => simp [serverBehaviour] at runs
  connected s a id error flags told := by
    cases a with
    | receive os channel buf =>
      obtain ⟨system,message⟩ := Option.ite_none_right_eq_some.mp told
      refine ⟨ep,os,?_⟩
      have parsed : ep.parse buf = .channelConnected id error flags := Option.some.inj message
      simp [serverBehaviour,ChannelPlanned.serverStep,ChannelPlanned.recvLtsmEvent,
        ChannelPlanned.recvChannelSystemEvent,system,parsed]
    | _ => simp [serverBehaviour] at told
  others s a msg told known strange other := by
    cases a with
    | receive os channel buf =>
      obtain ⟨system,message⟩ := Option.ite_none_right_eq_some.mp told
      have parsed : ep.parse buf = msg := Option.some.inj message
      have steps : (serverBehaviour ep).step s (.receive os channel buf) =
          ChannelPlanned.recvChannelSystemEvent ep os msg s := by
        simp [serverBehaviour,ChannelPlanned.serverStep,ChannelPlanned.recvLtsmEvent,system,parsed]
      rw [steps]
      cases msg with
      | channelConnected id error flags => exact absurd rfl (other id error flags)
      | _ => exact ⟨rfl,rfl⟩
    | _ => simp [serverBehaviour] at told

theorem faithfulClient (ep : Endpoint) : Faithful (clientBehaviour ep) where
  thread s a index runs := by
    cases a with
    | destroyThread i =>
      cases runs
      exact ⟨rfl,rfl⟩
    | _ => simp [clientBehaviour] at runs
  connected s a id error flags told := by
    cases a with
    | receive os channel buf =>
      obtain ⟨system,message⟩ := Option.ite_none_right_eq_some.mp told
      refine ⟨ep,os,?_⟩
      have parsed : ep.parse buf = .channelConnected id error flags := Option.some.inj message
      simp [clientBehaviour,ClientConsent.clientStep,ClientConsent.recvLtsmEvent,
        ClientConsent.recvChannelSystemEvent,system,parsed]
    | _ => simp [clientBehaviour] at told
  others s a msg told known strange other := by
    cases a with
    | receive os channel buf =>
      obtain ⟨system,message⟩ := Option.ite_none_right_eq_some.mp told
      have parsed : ep.parse buf = msg := Option.some.inj message
      have steps : (clientBehaviour ep).step s (.receive os channel buf) =
          ClientConsent.recvChannelSystemEvent ep os msg s := by
        simp [clientBehaviour,ClientConsent.clientStep,ClientConsent.recvLtsmEvent,system,parsed]
      rw [steps]
      cases msg with
      | channelConnected id error flags => exact absurd rfl (other id error flags)
      | channelOpen msg =>
        have refused : ¬ClientConsent.Admitted s msg := by
          intro admitted
          obtain ⟨low,high⟩ := admitted.proper
          simp [stray] at strange
          omega
        simp [ClientConsent.recvChannelSystemEvent,ClientConsent.systemChannelOpen,refused]
      | _ => exact ⟨rfl,rfl⟩
    | _ => simp [clientBehaviour] at told

/- What is asked of an end over a run. -/
structure IdsSound {α : Type} (b : Behaviour α) (s : State) (actions : List α) : Prop where
  kept : IdsKept (run (watchStep b) {state := s} actions).state
  strange : Meets (watchStep b) (Unaffected b) {state := s} actions

theorem soundIff {α : Type} {b : Behaviour α} {s : State} (faithful : Faithful b) (actions : List α)
    (kept : IdsKept (run (watchStep b) {state := s} actions).state) :
    IdsSound b s actions ↔ Meets (watchStep b) (Harmless b) {state := s} actions := by
  have same : Meets (watchStep b) (Unaffected b) {state := s} actions ↔
      Meets (watchStep b) (Harmless b) {state := s} actions :=
    meetsCongr (P := fun _ => True) (fun _ _ _ _ => trivial) (fun s a _ => unaffectedIff faithful s a) trivial
  exact ⟨fun sound => same.mp sound.strange,fun harmless => ⟨kept,same.mpr harmless⟩⟩

/- A planned job is answered and taken up; then a close for 257 comes in. -/
def wideClose : List ChannelPlanned.ServerAction :=
  [.createChannel (.ofParts .file "/tmp/a" .readOnly) (.ofParts .unix "/run/b" .writeOnly) {},
    .receive ClientConsent.permissiveOs 0 [1],.receive ClientConsent.permissiveOs 0 [2]]

end Ltsm.ChannelIds
