import Ltsm.ChannelPlanned
import Ltsm.ClientConsent
import Ltsm.Library.Custody

/-! The descriptors of an end's channels: accepted by a listener, or opened for a
connector, kept by a planned job or by a connector and closed when these go. -/
namespace Ltsm.ChannelDescriptors
open Channel ChannelClient Library

/- `fd` is the descriptor a connector works on; the client's own connectors have none.
That of a command belongs to its pipe. -/
structure Held where
  channel : UInt8
  mode : ConnectorMode
  fd : Option Nat
  command : Bool
  deriving DecidableEq, Repr

/- The halves of a connector, each with the flag that has it close the descriptor. -/
def Held.halves (c : Held) : Nat := if c.command then 0 else if c.mode = .readWrite then 2 else 1

/- How often it is closed when the connector goes: by each half, or with the pipe. -/
def Held.closes (c : Held) : Nat := if c.command then 1 else c.halves

/- A descriptor is known by the place it has among all that were ever obtained. -/
structure Descriptors where
  next : Nat := 0
  planned : List Planned := []
  channels : List Held := []
  destroying : List UInt8 := []
  closed : List Nat := []
  deriving DecidableEq, Repr

/- How the constructors of a connector go: the first sends the notice to the peer, the
last starts the threads. -/
inductive Start | sendFails | threadFails | ready
  deriving DecidableEq, Repr

/- Where a connector has its descriptor from. -/
inductive Source
  | given (fd : Nat)
  | opened
  | nothing
  deriving DecidableEq, Repr

def source : Resource → Source
  | .unixFd sock _ | .socketFd sock _ => .given sock.toNat
  | .file _ _ | .command _ _ | .unix _ _ | .socket _ _ _ => .opened
  | .fuse _ _ | .audio _ _ | .pcsc _ _ | .pkcs11 _ _ => .nothing

def isCommand : Resource → Bool
  | .command _ _ => true
  | _ => false

def serverFd (job : Planned) : Option Nat := if 0 ≤ job.serverFd then some job.serverFd.toNat else none

namespace Descriptors
variable (s : Descriptors)

def findChannel (id : UInt8) : Option Held := s.channels.find? (·.channel = id)

def freeChannel : Option UInt8 :=
  ((List.range 254).map fun i => UInt8.ofNat (i + 1)).find? fun id =>
    (s.findChannel id).isNone && (s.planned.find? (·.channel = id)).isNone

def close (times : Nat) (fd : Option Nat) : Descriptors :=
  {s with closed := s.closed ++ fd.toList.flatMap (List.replicate times)}

end Descriptors

/- The constructors of a connector. A thread that does not start destroys what there is of
it, which is not yet the owner of its pipe. -/
def construct (c : Held) (start : Start) (s : Descriptors) : Descriptors :=
  if c.mode = .unknown then s
  else match start with
    | .sendFails => s
    | .threadFails => s.close c.halves c.fd
    | .ready => {s with channels := s.channels ++ [c]}

def makeConnector (channel : UInt8) (mode : ConnectorMode) (resource : Resource) (start : Start)
    (s : Descriptors) : Descriptors :=
  let c : Held := {channel, mode, fd := none, command := isCommand resource}
  match source resource with
  | .given fd => construct {c with fd := some fd} start s
  | .opened => construct {c with fd := some s.next} start {s with next := s.next + 1}
  | .nothing => construct c start s

/- createChannel and createChannelAcceptFd up to the message they send. -/
def planJob (job : Planned) (s : Descriptors) : Option Descriptors :=
  s.freeChannel.map fun channel => {s with planned := s.planned ++ [{job with channel}]}

def createChannel (clientOpts serverOpts : UrlMode) (chOpts : Opts) (s : Descriptors) : Descriptors :=
  if modesFit clientOpts.mode serverOpts.mode = false ∨ clientOpts.type = .unknown ∨
      serverOpts.type = .unknown then s
  else (planJob {serverOpts, clientOpts, chOpts} s).getD s

/- loopAccept closes the socket when it was not taken. -/
def loopAccept (clientOpts serverOpts : UrlMode) (chOpts : Opts) (s : Descriptors) : Descriptors :=
  let sock := s.next
  let s := {s with next := s.next + 1}
  if modesFit clientOpts.mode serverOpts.mode = false ∨ clientOpts.type = .unknown then s.close 1 (some sock)
  else (planJob {serverOpts, clientOpts, chOpts, serverFd := sock} s).getD (s.close 1 (some sock))

/- The answers that do not take a job up close its socket. -/
def systemChannelConnected (ep : Endpoint) (os : Os) (start : Start) (id : Int) (error : Bool)
    (s : Descriptors) : Descriptors :=
  match s.planned.find? (plannedFor id) with
  | none => s
  | some job =>
    let s := {s with planned := s.planned.eraseP (plannedFor id)}
    if error = true ∨ job.channel ≤ 0 ∨ 255 ≤ job.channel ∨ (s.findChannel job.channel).isSome then
      s.close 1 (serverFd job)
    else
      match ChannelPlanned.plannedResource ep os job with
      | none => s
      | some resource => makeConnector job.channel job.serverOpts.mode resource start s

def opens (msg : ChannelOpen) (s : Descriptors) : Bool :=
  0 < msg.id && msg.id < 255 && connectorMode msg.mode ≠ .unknown && (s.findChannel (UInt8.ofInt msg.id)).isNone

def systemChannelOpen (os : Os) (start : Start) (msg : ChannelOpen) (s : Descriptors) : Descriptors :=
  if opens msg s then
    match ClientConsent.requested os msg with
    | none => s
    | some resource => makeConnector (UInt8.ofInt msg.id) (connectorMode msg.mode) resource start s
  else s

def destroyThread (index : Nat) (s : Descriptors) : Descriptors :=
  match s.destroying[index]? with
  | none => s
  | some id =>
    let s := {s with destroying := s.destroying.eraseIdx index}
    match s.findChannel id with
    | none => s
    | some c => {s with channels := s.channels.eraseP (·.channel = id)}.close c.closes c.fd

/- The destructor of the whole end. -/
def finish (s : Descriptors) : Descriptors :=
  { s with
    planned := []
    channels := []
    closed := s.closed ++ s.channels.flatMap fun c => c.fd.toList.flatMap (List.replicate c.closes) }

inductive Action
  | createChannel (clientOpts serverOpts : UrlMode) (chOpts : Opts)
  | accept (clientOpts serverOpts : UrlMode) (chOpts : Opts)
  | connected (os : Os) (start : Start) (id : Int) (error : Bool)
  | channelOpen (os : Os) (start : Start) (msg : ChannelOpen)
  | destroyChannel (id : UInt8)
  | destroyThread (index : Nat)
  | finish

def step (ep : Endpoint) (s : Descriptors) : Action → Descriptors
  | .createChannel clientOpts serverOpts chOpts => createChannel clientOpts serverOpts chOpts s
  | .accept clientOpts serverOpts chOpts => loopAccept clientOpts serverOpts chOpts s
  | .connected os start id error => systemChannelConnected ep os start id error s
  | .channelOpen os start msg => systemChannelOpen os start msg s
  | .destroyChannel id => {s with destroying := s.destroying ++ [id]}
  | .destroyThread index => destroyThread index s
  | .finish => finish s

/-! What is owned, and what lets go of it properly. -/

def owned (s : Descriptors) : List Nat := s.planned.filterMap serverFd ++ s.channels.filterMap (·.fd)

def stock (s : Descriptors) : Stock := ⟨s.next,owned s,s.closed⟩

/- A connector over a descriptor starts, or fails in its threads alone with one half to
close it. -/
def tidyMaking (mode : ConnectorMode) (resource : Resource) (start : Start) : Bool :=
  source resource = .nothing || mode ≠ .unknown && (start = .ready ||
    start = .threadFails && mode ≠ .readWrite && !isCommand resource)

def tidyLeaving (c : Held) : Bool := c.fd = none || c.command || c.mode ≠ .readWrite

/- No connector over a descriptor that reads and writes goes, none fails too early or with
two halves or a pipe, and no job with a socket is left behind. -/
def Tidy (ep : Endpoint) (s : Descriptors) : Action → Prop
  | .connected os start id error =>
    ∀ job, s.planned.find? (plannedFor id) = some job →
      ¬(error = true ∨ job.channel ≤ 0 ∨ 255 ≤ job.channel ∨ (s.findChannel job.channel).isSome) →
        match ChannelPlanned.plannedResource ep os job with
        | none => serverFd job = none
        | some resource => tidyMaking job.serverOpts.mode resource start = true
  | .channelOpen os start msg => opens msg s = true → ∀ resource, ClientConsent.requested os msg = some resource →
      tidyMaking (connectorMode msg.mode) resource start = true
  | .destroyThread index => ∀ id c, s.destroying[index]? = some id → s.findChannel id = some c →
      tidyLeaving c = true
  | .finish => (∀ c ∈ s.channels, tidyLeaving c = true) ∧ ∀ job ∈ s.planned, serverFd job = none
  | _ => True

def closing (released : List (Nat × Nat)) : List Nat := released.flatMap fun r => List.replicate r.2 r.1

/- What a step does to the descriptors, and when it does it properly. -/
structure Spec (s t : Descriptors) (tidy : Prop) (hand : List Nat) : Prop where
  moves : ∃ fresh released, t.next = s.next + fresh ∧
    (owned s ++ hand ++ List.range' s.next fresh).Perm (owned t ++ released.map Prod.fst) ∧
    t.closed = s.closed ++ closing released ∧ ((∀ r ∈ released, r.2 = 1) ↔ tidy)

section
variable {s t : Descriptors}

/- Nothing obtained and nothing let go of. -/
theorem specSame {tidy : Prop} (next : t.next = s.next) (same : (owned s).Perm (owned t))
    (closed : t.closed = s.closed) (fine : tidy) : Spec s t tidy [] := by
  refine ⟨0,[],next,?_,by simp [closed,closing],by simp [fine]⟩
  simpa using same

theorem firstOf (k : Nat) (l : List Nat) : (l.map fun d => (d,k)).map Prod.fst = l := by
  simp [Function.comp_def]

theorem closeOwned (times : Nat) (fd : Option Nat) : owned (s.close times fd) = owned s := rfl

theorem constructSpec {c : Held} {d : Nat} (fd : c.fd = some d) (start : Start) (s : Descriptors) :
    ∃ released, (construct c start s).next = s.next ∧
      (owned s ++ [d]).Perm (owned (construct c start s) ++ released.map Prod.fst) ∧
      (construct c start s).closed = s.closed ++ closing released ∧
      ((∀ r ∈ released, r.2 = 1) ↔ c.mode ≠ .unknown ∧
        (start = .ready ∨ start = .threadFails ∧ c.mode ≠ .readWrite ∧ c.command = false)) := by
  unfold construct
  split
  · rename_i unknown
    exact ⟨[(d,0)],rfl,by simp,by simp [closing],by simp [unknown]⟩
  rename_i known
  cases start with
  | sendFails => exact ⟨[(d,0)],rfl,by simp,by simp [closing],by simp⟩
  | threadFails =>
    refine ⟨[(d,c.halves)],rfl,?_,by simp [Descriptors.close,closing,fd],?_⟩
    · dsimp only
      rw [closeOwned]
      simp
    · cases command : c.command <;> cases mode : c.mode <;> simp_all [Held.halves]
  | ready =>
    refine ⟨[],rfl,?_,by simp [closing],by simp [known]⟩
    simp [owned,fd]

theorem constructNone {c : Held} (fd : c.fd = none) (start : Start) (s : Descriptors) :
    (construct c start s).next = s.next ∧ (owned s).Perm (owned (construct c start s)) ∧
      (construct c start s).closed = s.closed := by
  unfold construct
  split
  · exact ⟨rfl,.rfl,rfl⟩
  cases start with
  | sendFails => exact ⟨rfl,.rfl,rfl⟩
  | threadFails => exact ⟨rfl,.rfl,by simp [Descriptors.close,fd]⟩
  | ready => exact ⟨rfl,by simp [owned,fd],rfl⟩

theorem makeSpec (channel : UInt8) (mode : ConnectorMode) (resource : Resource) (start : Start)
    (s : Descriptors) : Spec s (makeConnector channel mode resource start s)
      (tidyMaking mode resource start = true)
      (match source resource with | .given fd => [fd] | _ => []) := by
  have tidy : source resource ≠ .nothing → (tidyMaking mode resource start = true ↔ mode ≠ .unknown ∧
      (start = .ready ∨ start = .threadFails ∧ mode ≠ .readWrite ∧ isCommand resource = false)) := by
    intro held
    simp [tidyMaking,held,and_assoc]
  unfold makeConnector
  cases from_ : source resource with
  | given fd =>
    obtain ⟨released,next,moved,closed,fine⟩ := constructSpec
      (c := {channel, mode, fd := some fd, command := isCommand resource}) (d := fd) rfl start s
    refine ⟨0,released,next,?_,closed,fine.trans (tidy (by simp [from_])).symm⟩
    simpa using moved
  | opened =>
    obtain ⟨released,next,moved,closed,fine⟩ := constructSpec
      (c := {channel, mode, fd := some s.next, command := isCommand resource}) (d := s.next) rfl start
      {s with next := s.next + 1}
    refine ⟨1,released,next,?_,closed,fine.trans (tidy (by simp [from_])).symm⟩
    have same : owned {s with next := s.next + 1} = owned s := rfl
    rw [same] at moved
    simpa using moved
  | nothing =>
    obtain ⟨next,same,closed⟩ := constructNone
      (c := {channel, mode, fd := none, command := isCommand resource}) rfl start s
    exact specSame next same closed (by simp [tidyMaking,from_])

theorem planOwned {job : Planned} (planned : planJob job s = some t) :
    t.next = s.next ∧ (owned s ++ (serverFd job).toList).Perm (owned t) ∧ t.closed = s.closed := by
  obtain ⟨channel,_,rfl⟩ := Option.map_eq_some_iff.mp planned
  refine ⟨rfl,?_,rfl⟩
  have last : ([{job with channel}] : List Planned).filterMap serverFd = (serverFd job).toList := by
    cases fd : serverFd job with
    | none => simp [show serverFd {job with channel} = none from fd]
    | some d => simp [show serverFd {job with channel} = some d from fd]
  simp only [owned,List.filterMap_append,last,List.append_assoc]
  exact (List.perm_append_comm).append_left _

theorem createSpec (clientOpts serverOpts : UrlMode) (chOpts : Opts) (s : Descriptors) :
    Spec s (createChannel clientOpts serverOpts chOpts s) True [] := by
  unfold createChannel
  split
  · exact specSame rfl .rfl rfl trivial
  · cases planned : planJob {serverOpts, clientOpts, chOpts} s with
    | none => exact specSame rfl .rfl rfl trivial
    | some t =>
      obtain ⟨next,same,closed⟩ := planOwned planned
      exact specSame next (by simpa [serverFd] using same) closed trivial

theorem acceptSpec (clientOpts serverOpts : UrlMode) (chOpts : Opts) (s : Descriptors) :
    Spec s (loopAccept clientOpts serverOpts chOpts s) True [] := by
  have dropped : Spec s (({s with next := s.next + 1} : Descriptors).close 1 (some s.next)) True [] := by
    refine ⟨1,[(s.next,1)],rfl,?_,by simp [Descriptors.close,closing],by simp⟩
    simp only [closeOwned]
    simp [owned]
  unfold loopAccept
  dsimp only
  split
  · exact dropped
  · cases planned : planJob {serverOpts, clientOpts, chOpts, serverFd := s.next} {s with next := s.next + 1} with
    | none => exact dropped
    | some t =>
      obtain ⟨next,moved,closed⟩ := planOwned planned
      refine ⟨1,[],next,?_,by simpa [closing] using closed,by simp⟩
      have same : owned {s with next := s.next + 1} = owned s := rfl
      rw [same] at moved
      simpa [serverFd] using moved

theorem dropOwned {p : Planned → Bool} {job : Planned} (found : s.planned.find? p = some job) :
    (owned s).Perm (owned {s with planned := s.planned.eraseP p} ++ (serverFd job).toList) := by
  have moved := (permErase found).filterMap serverFd
  have first : (job :: s.planned.eraseP p).filterMap serverFd =
      (serverFd job).toList ++ (s.planned.eraseP p).filterMap serverFd := by
    cases fd : serverFd job <;> simp [fd]
  rw [first] at moved
  refine (moved.append_right _).trans ?_
  rw [List.append_assoc]
  exact List.perm_append_comm

/- What is made for a job works on the job's own socket, or on what it opened. -/
theorem plannedHand {ep : Endpoint} {os : Os} {job : Planned} {r : Resource}
    (opened : ChannelPlanned.plannedResource ep os job = some r) :
    (match source r with | .given fd => [fd] | _ => []) = (serverFd job).toList := by
  rcases ChannelPlanned.plannedOpens opened with ⟨fd,names⟩ | ⟨noFd,names⟩
  · have own : serverFd job = some job.serverFd.toNat := if_pos fd
    rw [own]
    rcases names with ⟨_,rfl⟩ | ⟨_,rfl⟩ <;> rfl
  · have absent : serverFd job = none := if_neg (Int.not_le.mpr noFd)
    rw [absent]
    rcases names with ⟨_,rfl⟩ | ⟨_,_,rfl⟩ | ⟨_,rfl⟩ | ⟨_,rfl⟩ <;> rfl

theorem requestedHand {os : Os} {msg : ChannelOpen} {r : Resource}
    (opened : ClientConsent.requested os msg = some r) :
    (match source r with | .given fd => [fd] | _ => []) = [] := by
  unfold ClientConsent.requested createClientConnector at opened
  dsimp only at opened
  split at opened <;> try contradiction
  · exact fileSource opened ▸ rfl
  · split at opened <;> cases opened
    rfl
  · split at opened <;> cases opened
    rfl
  · split at opened <;> cases opened
    rfl
  · exact unixSource opened ▸ rfl
  · split at opened <;> try contradiction
    exact tcpSource opened ▸ rfl
  · split at opened <;> cases opened
    rfl
  · exact commandSource opened ▸ rfl

theorem connectedSpec (ep : Endpoint) (os : Os) (start : Start) (id : Int) (error : Bool) (s : Descriptors) :
    Spec s (systemChannelConnected ep os start id error s) (Tidy ep s (.connected os start id error)) [] := by
  unfold systemChannelConnected
  cases found : s.planned.find? (plannedFor id) with
  | none => exact specSame rfl .rfl rfl fun job other => by simp [found] at other
  | some job =>
    have dropped := dropOwned found
    have mine : ∀ {Q : Planned → Prop}, (∀ own, some job = some own → Q own) ↔ Q job := by simp
    have tidy : Tidy ep s (.connected os start id error) ↔
        (¬(error = true ∨ job.channel ≤ 0 ∨ 255 ≤ job.channel ∨ (s.findChannel job.channel).isSome) →
          match ChannelPlanned.plannedResource ep os job with
          | none => serverFd job = none
          | some resource => tidyMaking job.serverOpts.mode resource start = true) := by
      simp only [Tidy,found]
      exact mine
    dsimp only
    split
    · rename_i hindered
      refine ⟨0,(serverFd job).toList.map (·,1),rfl,?_,?_,?_⟩
      · rw [closeOwned,firstOf]
        simpa using dropped
      · cases fd : serverFd job <;> simp [Descriptors.close,closing]
      · exact iff_of_true (by simp) (tidy.mpr fun unhindered => absurd hindered unhindered)
    · rename_i unhindered
      have waits : Tidy ep s (.connected os start id error) ↔ _ := tidy.trans ⟨fun h => h unhindered,fun h _ => h⟩
      cases planned : ChannelPlanned.plannedResource ep os job with
      | none =>
        simp only [planned] at waits
        refine ⟨0,(serverFd job).toList.map (·,0),rfl,?_,?_,?_⟩
        · rw [firstOf]
          simpa using dropped
        · cases fd : serverFd job <;> simp [closing]
        · rw [waits]
          cases fd : serverFd job <;> simp
      | some resource =>
        simp only [planned] at waits
        obtain ⟨fresh,released,next,moved,closed,fine⟩ := (makeSpec job.channel job.serverOpts.mode resource start
          {s with planned := s.planned.eraseP (plannedFor id)}).moves
        rw [plannedHand planned] at moved
        refine ⟨fresh,released,next,?_,closed,fine.trans waits.symm⟩
        rw [List.append_nil]
        exact (dropped.append_right _).trans moved

theorem openSpec (ep : Endpoint) (os : Os) (start : Start) (msg : ChannelOpen) (s : Descriptors) :
    Spec s (systemChannelOpen os start msg s) (Tidy ep s (.channelOpen os start msg)) [] := by
  unfold systemChannelOpen
  split
  · rename_i admitted
    cases requested : ClientConsent.requested os msg with
    | none => exact specSame rfl .rfl rfl fun _ resource other => by simp [requested] at other
    | some resource =>
      have spec := makeSpec (UInt8.ofInt msg.id) (connectorMode msg.mode) resource start s
      rw [requestedHand requested] at spec
      obtain ⟨fresh,released,next,moved,closed,fine⟩ := spec.moves
      refine ⟨fresh,released,next,moved,closed,fine.trans ?_⟩
      simp [Tidy,admitted,requested]
  · rename_i refused
    exact specSame rfl .rfl rfl fun admitted => absurd admitted refused

/- A connector that leaves is closed once unless it has two halves. -/
theorem leavingOnce (c : Held) {d : Nat} (fd : c.fd = some d) : c.closes = 1 ↔ tidyLeaving c = true := by
  cases command : c.command <;> cases mode : c.mode <;>
    simp [Held.closes,Held.halves,tidyLeaving,command,mode,fd]

theorem threadSpec (ep : Endpoint) (index : Nat) (s : Descriptors) :
    Spec s (destroyThread index s) (Tidy ep s (.destroyThread index)) [] := by
  unfold destroyThread
  cases thread : s.destroying[index]? with
  | none => exact specSame rfl .rfl rfl fun id c other => by simp [thread] at other
  | some id =>
    dsimp only
    have same : ({s with destroying := s.destroying.eraseIdx index} : Descriptors).findChannel id =
        s.findChannel id := rfl
    rw [same]
    cases found : s.findChannel id with
    | none =>
      refine specSame rfl .rfl rfl fun other c own there => ?_
      cases Option.some.inj (thread.symm.trans own)
      simp [found] at there
    | some c =>
      have moved := (permErase found).filterMap (·.fd)
      have first : (c :: s.channels.eraseP (·.channel = id)).filterMap (·.fd) =
          c.fd.toList ++ (s.channels.eraseP (·.channel = id)).filterMap (·.fd) := by
        cases fd : c.fd <;> simp [fd]
      rw [first] at moved
      refine ⟨0,c.fd.toList.map (·,c.closes),rfl,?_,?_,?_⟩
      · rw [closeOwned,firstOf]
        simp only [List.append_nil,List.range'_zero]
        refine (moved.append_left (s.planned.filterMap serverFd)).trans ?_
        rw [owned,List.append_assoc]
        exact List.perm_append_comm.append_left _
      · cases fd : c.fd <;> simp [Descriptors.close,closing,fd]
      · have tidy : Tidy ep s (.destroyThread index) ↔ tidyLeaving c = true := by
          refine ⟨fun each => each id c thread found,fun fine other d own there => ?_⟩
          cases Option.some.inj (thread.symm.trans own)
          cases Option.some.inj (found.symm.trans there)
          exact fine
        rw [tidy]
        cases fd : c.fd with
        | none => simp [tidyLeaving,fd]
        | some d => simpa [fd] using leavingOnce c fd

theorem finishSpec (ep : Endpoint) (s : Descriptors) : Spec s (finish s) (Tidy ep s .finish) [] := by
  refine ⟨0,(s.planned.filterMap serverFd).map (·,0) ++
    s.channels.flatMap fun c => c.fd.toList.map (·,c.closes),rfl,?_,?_,?_⟩
  · have firsts : (s.channels.flatMap fun c => c.fd.toList.map (·,c.closes)).map Prod.fst =
        s.channels.filterMap (·.fd) := by
      induction s.channels with
      | nil => rfl
      | cons c rest ih => cases fd : c.fd <;> simp_all
    rw [List.map_append,firsts,firstOf]
    simp [owned,finish]
  · have left : closing ((s.planned.filterMap serverFd).map (·,0)) = [] := by
      induction s.planned.filterMap serverFd with
      | nil => rfl
      | cons d rest ih => exact ih
    have taken : closing (s.channels.flatMap fun c => c.fd.toList.map (·,c.closes)) =
        s.channels.flatMap fun c => c.fd.toList.flatMap (List.replicate c.closes) := by
      simp only [closing,List.flatMap_assoc]
      congr 1
      funext c
      cases c.fd <;> simp
    have both : ∀ a b, closing (a ++ b) = closing a ++ closing b := fun a b => List.flatMap_append
    rw [both,left,taken]
    rfl
  · simp only [List.forall_mem_append,List.forall_mem_map,List.mem_filterMap,List.mem_flatMap,Tidy]
    rw [and_comm]
    refine and_congr ?_ ?_
    · constructor
      · intro each c inside
        cases fd : c.fd with
        | none => simp [tidyLeaving,fd]
        | some d => exact (leavingOnce c fd).mp (each (d,c.closes) ⟨c,inside,by simp [fd]⟩)
      · rintro each r ⟨c,inside,own⟩
        obtain ⟨d,fd,rfl⟩ := List.mem_map.mp own
        exact (leavingOnce c (Option.mem_toList.mp fd)).mpr (each c inside)
    · constructor
      · intro each job inside
        cases fd : serverFd job with
        | none => rfl
        | some d => exact absurd (each d ⟨job,inside,fd⟩) (by simp)
      · rintro each d ⟨job,inside,fd⟩
        rw [each job inside] at fd
        contradiction

theorem stepSpec (ep : Endpoint) (s : Descriptors) (a : Action) : Spec s (step ep s a) (Tidy ep s a) [] := by
  cases a with
  | createChannel clientOpts serverOpts chOpts => exact createSpec clientOpts serverOpts chOpts s
  | accept clientOpts serverOpts chOpts => exact acceptSpec clientOpts serverOpts chOpts s
  | connected os start id error => exact connectedSpec ep os start id error s
  | channelOpen os start msg => exact openSpec ep os start msg s
  | destroyChannel id => exact specSame rfl .rfl rfl trivial
  | destroyThread index => exact threadSpec ep index s
  | finish => exact finishSpec ep s

theorem stepMoves (ep : Endpoint) (s : Descriptors) (a : Action) : ∃ fresh released,
    (stock s).Moves (stock (step ep s a)) fresh released ∧ ((∀ r ∈ released, r.2 = 1) ↔ Tidy ep s a) := by
  obtain ⟨fresh,released,next,moved,closed,fine⟩ := (stepSpec ep s a).moves
  rw [List.append_nil] at moved
  exact ⟨fresh,released,⟨next,moved,closed⟩,fine⟩

end

/- Every descriptor ever accepted or opened is still kept, or was closed exactly once. -/
def ClosedOnce (s : Descriptors) : Prop := (stock s).Once

theorem closedOnceIff (ep : Endpoint) (actions : List Action) :
    ClosedOnce (run (step ep) {} actions) ↔ Meets (step ep) (Tidy ep) {} actions := by
  have start : (stock {}).Sound := Stock.emptySound
  have sound : ∀ s a, (stock s).Sound → (stock (step ep s a)).Sound := by
    intro s a before
    obtain ⟨fresh,released,moves,_⟩ := stepMoves ep s a
    exact Stock.movesSound moves before
  have carried := meetsIff (Q := ClosedOnce) (C := Tidy ep) (P := fun s => (stock s).Sound) sound
    (fun s a before => by
      obtain ⟨fresh,released,moves,fine⟩ := stepMoves ep s a
      exact (Stock.movesOnce moves before).trans (and_congr_right fun _ => fine)) start actions
  refine carried.trans (and_iff_right fun d low => ?_)
  exact absurd low (Nat.not_lt_zero d)

/- A socket that is read and written, accepted and closed again. -/
def acceptedBothWays : List Action :=
  [.accept (.ofParts .pkcs11 "lib" .readWrite) (.ofParts .unix "/run/b" .readWrite) {},
    .connected ClientConsent.permissiveOs .ready 1 false,.destroyChannel 1,.destroyThread 0]

theorem bothHalvesClose : ¬∀ ep actions, ClosedOnce (run (step ep) {} actions) := by
  intro claim
  have once := claim ⟨false,true,fun _ _ _ => true,fun _ => .broken⟩ acceptedBothWays 0 (by decide +kernel)
  exact absurd once (by decide +kernel)

end Ltsm.ChannelDescriptors
