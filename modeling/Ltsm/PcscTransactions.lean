import Ltsm.Library.Run

/-! The transaction lock of the card service's local clients, over runs of all of them. -/
namespace Ltsm.PcscTransactions
open Library

/- Transaction over its async_mutex. A waiter is in the mutex's timer until its wait ends, by a
wake-up or by a cancellation, and woken until it runs again. `owners` are the clients whose lock
has returned and that have not given it back; the program does not keep them. -/
structure Transaction where
  queue : Nat
  timer : List Nat
  woken : List Nat
  clientId : Nat
  owners : List Nat
  spinning : Bool

namespace Transaction

def free : Transaction := ⟨0,[],[],0,[],false⟩

/- `id` is written once the wait is over; here there is none when the mutex is not asked for yet. -/
def lock (t : Transaction) (id : Nat) : Transaction :=
  if id = 0 then t
  else if 0 < t.queue then {t with queue := t.queue + 1,timer := t.timer ++ [id]}
  else {t with queue := t.queue + 1,clientId := id,owners := t.owners ++ [id]}

/- The end of a wait is operation_aborted, whether it was cut short by cancel_one or not. -/
def resume (t : Transaction) (id : Nat) : Transaction :=
  {t with woken := t.woken.erase id,clientId := id,owners := t.owners ++ [id]}

def cancel (t : Transaction) (id : Nat) : Transaction :=
  if id ∈ t.timer then {t with timer := t.timer.erase id,woken := t.woken ++ [id]} else t

/- async_mutex::unlock; with nobody in the timer cancel_one is called again and again. -/
def release (t : Transaction) : Transaction :=
  if 1 < t.queue then
    match t.timer with
    | [] => {t with queue := t.queue - 1,spinning := true}
    | waiter :: rest => {t with queue := t.queue - 1,timer := rest,woken := t.woken ++ [waiter]}
  else {t with queue := t.queue - 1}

def unlock (t : Transaction) (id : Nat) : Transaction :=
  if id ≠ 0 ∧ t.clientId = id then release {t with clientId := 0,owners := t.owners.erase id} else t

/- The lock at rest after its owner: the first of the waiters, if there is one, has been woken. -/
def passed (t : Transaction) : Transaction := ⟨t.timer.length,t.timer.drop 1,t.timer.take 1,0,[],false⟩

/- Every client is counted that asked; nobody waits for a lock that nobody has. -/
structure Tidy (t : Transaction) : Prop where
  running : t.spinning = false
  single : (t.owners ++ t.woken).length ≤ 1
  named : t.clientId = t.owners.headD 0
  counted : t.queue = (t.owners ++ t.woken).length + t.timer.length
  idle : t.owners ++ t.woken = [] → t.timer = []
  distinct : (t.owners ++ t.woken ++ t.timer).Nodup
  nonzero : ∀ id ∈ t.owners ++ t.woken ++ t.timer, id ≠ 0

def Waits (t : Transaction) (id : Nat) : Prop := id ∈ t.woken ∨ id ∈ t.timer

theorem tidyFree : Tidy free := by
  refine ⟨rfl,?_,rfl,rfl,fun _ => rfl,List.nodup_nil,?_⟩ <;> simp [free]

section
variable {t : Transaction} {id : Nat}

theorem loneMember {clients : List Nat} (short : clients.length ≤ 1) (inside : id ∈ clients) : clients = [id] := by
  cases clients with
  | nil => exact absurd inside List.not_mem_nil
  | cons first rest =>
    obtain rfl : rest = [] := List.length_eq_zero_iff.mp (Nat.le_zero.mp (Nat.le_of_succ_le_succ short))
    rw [List.mem_singleton.mp inside]

/- Who holds a lock that is held. -/
theorem heldAlone (tidy : Tidy t) (owner : id ∈ t.owners) : t.owners = [id] ∧ t.woken = [] := by
  have all := loneMember tidy.single (List.mem_append_left _ owner)
  obtain ⟨none,_⟩ | ⟨lone,rest⟩ := List.append_eq_singleton_iff.mp all
  · rw [none] at owner
    exact absurd owner List.not_mem_nil
  · exact ⟨lone,rest⟩

theorem wokenAlone (tidy : Tidy t) (turn : id ∈ t.woken) : t.owners = [] ∧ t.woken = [id] := by
  have all := loneMember tidy.single (List.mem_append_right _ turn)
  obtain ⟨none,lone⟩ | ⟨_,rest⟩ := List.append_eq_singleton_iff.mp all
  · exact ⟨none,lone⟩
  · rw [rest] at turn
    exact absurd turn List.not_mem_nil

theorem ownerNamed (tidy : Tidy t) (owner : id ∈ t.owners) : t.clientId = id := by
  rw [tidy.named,(heldAlone tidy owner).1]
  rfl

theorem unlockStranger (tidy : Tidy t) (other : id ∉ t.owners) : unlock t id = t := by
  refine if_neg ?_
  rintro ⟨nonzero,named⟩
  rw [tidy.named] at named
  cases same : t.owners with
  | nil =>
    rw [same] at named
    exact nonzero named.symm
  | cons owner rest =>
    rw [same] at named other
    exact other (List.mem_cons.mpr (.inl named.symm))

theorem unlockOwner (tidy : Tidy t) (owner : id ∈ t.owners) : unlock t id = passed t := by
  obtain ⟨held,nobody⟩ := heldAlone tidy owner
  have nonzero : id ≠ 0 := tidy.nonzero id (List.mem_append_left _ (List.mem_append_left _ owner))
  have counted : t.queue = 1 + t.timer.length := by
    rw [tidy.counted,held,nobody]
    rfl
  rw [unlock,if_pos ⟨nonzero,ownerNamed tidy owner⟩,release,held,List.erase_cons_head]
  cases waiting : t.timer with
  | nil =>
    simp [passed,waiting,counted,nobody,tidy.running]
  | cons waiter rest =>
    have more : 1 < t.queue := by simp only [counted,waiting,List.length_cons]; omega
    simp [passed,waiting,counted,nobody,tidy.running]

theorem passedTidy (tidy : Tidy t) : Tidy (passed t) := by
  have apart : t.timer.Nodup := (List.nodup_append.mp tidy.distinct).2.1
  have split : t.timer.take 1 ++ t.timer.drop 1 = t.timer := List.take_append_drop 1 t.timer
  refine ⟨rfl,?_,rfl,?_,?_,?_,?_⟩
  · exact List.length_take_le 1 _
  · simp only [passed,List.nil_append,← List.length_append,split]
  · intro nobody
    have none : t.timer = [] := by
      cases waiting : t.timer with
      | nil => rfl
      | cons waiter rest =>
        rw [passed,waiting] at nobody
        cases nobody
    simp only [passed,none,List.drop_nil]
  · simpa only [passed,List.nil_append,split] using apart
  · intro id inside
    simp only [passed,List.nil_append,split] at inside
    exact tidy.nonzero id (List.mem_append_right _ inside)

theorem unlockTidy (tidy : Tidy t) : Tidy (unlock t id) := by
  by_cases owner : id ∈ t.owners
  · rw [unlockOwner tidy owner]
    exact passedTidy tidy
  · rwa [unlockStranger tidy owner]

/- Giving the lock back sends nobody away. -/
theorem unlockWaits (tidy : Tidy t) (client : Nat) : Waits (unlock t id) client ↔ Waits t client := by
  by_cases owner : id ∈ t.owners
  · rw [unlockOwner tidy owner,Waits,Waits,(heldAlone tidy owner).2]
    simp only [passed,List.not_mem_nil,false_or,← List.mem_append,List.take_append_drop]
  · rw [unlockStranger tidy owner]

theorem lockTidy (tidy : Tidy t) (nonzero : id ≠ 0) (fresh : id ∉ t.owners ++ t.woken ++ t.timer) :
    Tidy (lock t id) := by
  have counted := tidy.counted
  rw [lock,if_neg nonzero]
  split
  case isTrue busy =>
    refine ⟨tidy.running,tidy.single,tidy.named,?_,?_,?_,?_⟩
    · rw [counted,List.length_append,List.length_append]
      rfl
    · intro nobody
      rw [nobody,tidy.idle nobody] at counted
      exact absurd counted (Nat.ne_of_gt busy)
    · rw [← List.append_assoc]
      exact List.nodup_append.mpr ⟨tidy.distinct,List.pairwise_singleton _ id,
        fun a inside b last same => fresh (by rwa [← List.mem_singleton.mp last,← same])⟩
    · intro client inside
      rw [← List.append_assoc] at inside
      rcases List.mem_append.mp inside with old | last
      · exact tidy.nonzero client old
      · rwa [List.mem_singleton.mp last]
  case isFalse idle =>
    have nobody : t.owners ++ t.woken = [] := List.length_eq_zero_iff.mp (by omega)
    have first := tidy.idle nobody
    obtain ⟨owners,woken⟩ := List.append_eq_nil_iff.mp nobody
    refine ⟨tidy.running,?_,?_,?_,?_,?_,?_⟩ <;> simp_all

theorem lockWaits (nonzero : id ≠ 0) (client : Nat) :
    Waits (lock t id) client ↔ Waits t client ∨ client = id ∧ 0 < t.queue := by
  rw [lock,if_neg nonzero]
  split
  case isTrue busy => simp only [Waits,List.mem_append,List.mem_singleton,busy,and_true,or_assoc]
  case isFalse idle => simp only [Waits,idle,and_false,or_false]

theorem resumeTidy (tidy : Tidy t) (turn : id ∈ t.woken) : Tidy (resume t id) := by
  obtain ⟨owners,woken⟩ := wokenAlone tidy turn
  have counted := tidy.counted
  have distinct := tidy.distinct
  have nonzero := tidy.nonzero
  rw [owners,woken] at counted distinct nonzero
  have same : resume t id = {t with woken := [],clientId := id,owners := [id]} := by
    rw [resume,owners,woken,List.erase_cons_head]
    rfl
  rw [same]
  refine ⟨tidy.running,Nat.le_refl 1,rfl,counted,?_,distinct,nonzero⟩
  intro nobody
  cases nobody

theorem resumeWaits (tidy : Tidy t) (turn : id ∈ t.woken) (client : Nat) :
    Waits (resume t id) client ↔ Waits t client ∧ client ≠ id := by
  obtain ⟨owners,woken⟩ := wokenAlone tidy turn
  have distinct := tidy.distinct
  rw [owners,woken] at distinct
  have away : id ∉ t.timer := (List.nodup_cons.mp distinct).1
  simp only [Waits,resume,woken,List.erase_cons_head,List.not_mem_nil,false_or,List.mem_singleton]
  constructor
  · intro inside
    refine ⟨.inr inside,?_⟩
    rintro rfl
    exact away inside
  · rintro ⟨rfl | inside,other⟩
    · exact absurd rfl other
    · exact inside

end
end Transaction

/- What a client takes the lock for. -/
inductive Call
  | connect
  | beginTransaction
  deriving DecidableEq, Repr

/- Where a client's coroutine stands; `stopping` is one whose command was refused or failed. -/
inductive Phase
  | ready
  | locking (call : Call)
  | calling (call : Call)
  | ending
  | stopping
  deriving DecidableEq, Repr

structure Session where
  trans : Transaction
  phase : Nat → Option Phase
  next : Nat

/- What may happen next: a client is accepted, asks for a call, is run again after its wait, has its
answer from the remote, asks for the end of its transaction, has a command refused, gets the stop
signal, or has left and is destroyed. -/
inductive Action
  | accepted
  | asked (id : Nat) (call : Call)
  | resumed (id : Nat)
  | answered (id : Nat) (success : Bool)
  | endAsked (id : Nat)
  | refused (id : Nat)
  | cancelled (id : Nat)
  | left (id : Nat)
  deriving DecidableEq, Repr

namespace Session

/- listenerHandler numbers its clients from eleven. -/
def start : Session := ⟨Transaction.free,fun _ => none,11⟩

def enter (s : Session) (trans : Transaction) (id : Nat) (phase : Option Phase) : Session :=
  {s with trans,phase := Function.update s.phase id phase}

/- One thread runs everything, so nothing happens any more once it spins. A signal matters here only
to a waiter: it ends the wait, the lock is taken, and only the next wait throws. -/
def step (s : Session) (action : Action) : Session :=
  if s.trans.spinning then s
  else match action with
    | .accepted => {enter s s.trans s.next (some .ready) with next := s.next + 1}
    | .asked id call =>
      if s.phase id = some .ready then
        enter s (s.trans.lock id) id (some (if 0 < s.trans.queue then .locking call else .calling call))
      else s
    | .resumed id =>
      match s.phase id with
      | some (.locking call) =>
        if id ∈ s.trans.woken then enter s (s.trans.resume id) id (some (.calling call)) else s
      | _ => s
    | .answered id success =>
      match s.phase id with
      | some (.calling .connect) => enter s (s.trans.unlock id) id (some .ready)
      | some (.calling .beginTransaction) =>
        enter s (if success then s.trans else s.trans.unlock id) id (some .ready)
      | some .ending => enter s (s.trans.unlock id) id (some .ready)
      | _ => s
    | .endAsked id => if s.phase id = some .ready then enter s s.trans id (some .ending) else s
    | .refused id =>
      if s.phase id = some .ready then enter s (s.trans.unlock id) id (some .stopping) else s
    | .cancelled id => {s with trans := s.trans.cancel id}
    | .left id =>
      match s.phase id with
      | none => s
      | some (.locking _) => s
      | some _ => enter s (s.trans.unlock id) id none

/- The steps with which a client gives up its turn. -/
def Ends (s : Session) (id : Nat) : Action → Prop
  | .answered other _ => other = id ∧ s.phase id = some .ending
  | .refused other => other = id ∧ s.phase id = some .ready
  | .left other => other = id
  | _ => False

/- The client that was first in the timer, if any, is the one that goes on. -/
def Freed (before after : Transaction) : Prop :=
  after.owners = [] ∧ after.clientId = 0 ∧ after.spinning = false ∧
    after.woken = before.timer.take 1 ∧ after.timer = before.timer.drop 1

/- What the lock is for. A client that is through its wait counts against the others. -/
structure Sound (s : Session) : Prop where
  running : s.trans.spinning = false
  single : (s.trans.owners ++ s.trans.woken).length ≤ 1
  named : s.trans.clientId = s.trans.owners.headD 0
  strangers : ∀ id, id ∉ s.trans.owners → s.trans.unlock id = s.trans
  patient : ∀ id ∈ s.trans.owners, ¬s.trans.Waits id
  freed : ∀ id ∈ s.trans.owners, ∀ action, Ends s id action → Freed s.trans (step s action).trans

/- No client asks for what it has, and no waiter is stopped. -/
def Proper (s : Session) : Action → Prop
  | .asked id _ => s.phase id = some .ready → id ∉ s.trans.owners
  | .cancelled id => id ∉ s.trans.timer
  | _ => True

instance (s : Session) (action : Action) : Decidable (Proper s action) := by
  unfold Proper
  cases action <;> infer_instance

structure Kept (s : Session) : Prop where
  tidy : s.trans.Tidy
  waiting : ∀ id, s.trans.Waits id ↔ ∃ call, s.phase id = some (.locking call)
  present : ∀ id ∈ s.trans.owners, s.phase id ≠ none
  known : ∀ id, s.phase id ≠ none → 0 < id ∧ id < s.next
  above : 0 < s.next

theorem keptStart : Kept start := by
  refine ⟨Transaction.tidyFree,fun id => ?_,fun id inside => absurd inside List.not_mem_nil,
    fun id inside => absurd rfl inside,Nat.succ_pos 10⟩
  simp [start,Transaction.Waits,Transaction.free]

section
variable {s : Session} {id : Nat}

/- A client that goes on to `phase`, with what it has done to the lock. -/
theorem enterKept (kept : Kept s) {trans : Transaction} {phase : Option Phase} (tidy : trans.Tidy)
    (others : ∀ client, client ≠ id → (trans.Waits client ↔ s.trans.Waits client))
    (own : trans.Waits id ↔ ∃ call, phase = some (.locking call))
    (owners : ∀ client ∈ trans.owners, client = id ∧ phase ≠ none ∨ client ≠ id ∧ client ∈ s.trans.owners)
    (known : 0 < id ∧ id < s.next) : Kept (enter s trans id phase) := by
  refine ⟨tidy,fun client => ?_,fun client owner => ?_,fun client inside => ?_,kept.above⟩
  · by_cases same : client = id
    · subst same
      simpa only [enter,Function.update_self] using own
    · simp only [enter,Function.update_of_ne same]
      rw [others client same,kept.waiting client]
  · rcases owners client owner with ⟨rfl,there⟩ | ⟨other,before⟩
    · simpa only [enter,Function.update_self] using there
    · simpa only [enter,Function.update_of_ne other] using kept.present client before
  · by_cases same : client = id
    · exact same ▸ known
    · simp only [enter,Function.update_of_ne same] at inside
      exact kept.known client inside

theorem knownPhase (kept : Kept s) {phase : Phase} (now : s.phase id = some phase) : 0 < id ∧ id < s.next := by
  refine kept.known id ?_
  rw [now]
  exact Option.some_ne_none phase

theorem notWaiting (kept : Kept s) {phase : Phase} (now : s.phase id = some phase)
    (past : ∀ call, phase ≠ .locking call) : ¬s.trans.Waits id := by
  intro waits
  obtain ⟨call,locking⟩ := (kept.waiting id).mp waits
  rw [now] at locking
  exact past call (Option.some.inj locking)

/- A client past its wait that leaves the lock as it is. -/
theorem stayKept (kept : Kept s) {before after : Phase} (now : s.phase id = some before)
    (past : ∀ call, before ≠ .locking call) (out : ∀ call, after ≠ .locking call) :
    Kept (enter s s.trans id (some after)) := by
  refine enterKept kept kept.tidy (fun client _ => Iff.rfl) ?_ ?_ (knownPhase kept now)
  · refine iff_of_false (notWaiting kept now past) ?_
    rintro ⟨call,same⟩
    exact out call (Option.some.inj same)
  · intro client owner
    by_cases same : client = id
    · exact .inl ⟨same,Option.some_ne_none after⟩
    · exact .inr ⟨same,owner⟩

/- A client past its wait that gives the lock back, if it has it. -/
theorem unlockKept (kept : Kept s) {before : Phase} {after : Option Phase} (now : s.phase id = some before)
    (past : ∀ call, before ≠ .locking call) (out : ∀ call, after ≠ some (.locking call)) :
    Kept (enter s (s.trans.unlock id) id after) := by
  refine enterKept kept (Transaction.unlockTidy kept.tidy)
    (fun client _ => Transaction.unlockWaits kept.tidy client) ?_ ?_ (knownPhase kept now)
  · rw [Transaction.unlockWaits kept.tidy]
    refine iff_of_false (notWaiting kept now past) ?_
    rintro ⟨call,same⟩
    exact out call same
  · intro client owner
    by_cases own : id ∈ s.trans.owners
    · rw [Transaction.unlockOwner kept.tidy own] at owner
      exact absurd owner List.not_mem_nil
    · rw [Transaction.unlockStranger kept.tidy own] at owner
      refine .inr ⟨?_,owner⟩
      rintro rfl
      exact own owner

theorem lockKept (kept : Kept s) (now : s.phase id = some .ready) (call : Call) (fresh : id ∉ s.trans.owners) :
    Kept (enter s (s.trans.lock id) id
      (some (if 0 < s.trans.queue then .locking call else .calling call))) := by
  have known := knownPhase kept now
  have away : ¬s.trans.Waits id := notWaiting kept now (fun _ same => by cases same)
  have nonzero : id ≠ 0 := Nat.ne_of_gt known.1
  refine enterKept kept (Transaction.lockTidy kept.tidy nonzero ?_) ?_ ?_ ?_ known
  · simp only [List.mem_append,or_assoc]
    rintro (owner | waits)
    · exact fresh owner
    · exact away waits
  · intro client other
    rw [Transaction.lockWaits nonzero]
    simp only [other,false_and,or_false]
  · rw [Transaction.lockWaits nonzero]
    split
    case isTrue busy => exact iff_of_true (.inr ⟨rfl,busy⟩) ⟨call,rfl⟩
    case isFalse idle =>
      refine iff_of_false ?_ ?_
      · rintro (waits | ⟨_,busy⟩)
        · exact away waits
        · exact idle busy
      · rintro ⟨_,same⟩
        cases same
  · intro client owner
    by_cases same : client = id
    · exact .inl ⟨same,Option.some_ne_none _⟩
    · refine .inr ⟨same,?_⟩
      rw [Transaction.lock,if_neg nonzero] at owner
      split at owner
      · exact owner
      · rcases List.mem_append.mp owner with before | last
        · exact before
        · exact absurd (List.mem_singleton.mp last) same

theorem resumeKept (kept : Kept s) {call : Call} (now : s.phase id = some (.locking call))
    (turn : id ∈ s.trans.woken) : Kept (enter s (s.trans.resume id) id (some (.calling call))) := by
  refine enterKept kept (Transaction.resumeTidy kept.tidy turn) ?_ ?_ ?_ (knownPhase kept now)
  · intro client other
    rw [Transaction.resumeWaits kept.tidy turn]
    exact and_iff_left other
  · rw [Transaction.resumeWaits kept.tidy turn]
    refine iff_of_false (fun both => both.2 rfl) ?_
    rintro ⟨_,same⟩
    cases same
  · intro client owner
    rcases List.mem_append.mp owner with before | last
    · rw [(Transaction.wokenAlone kept.tidy turn).1] at before
      exact absurd before List.not_mem_nil
    · exact .inl ⟨List.mem_singleton.mp last,Option.some_ne_none _⟩

theorem acceptKept (kept : Kept s) :
    Kept {enter s s.trans s.next (some .ready) with next := s.next + 1} := by
  have fresh : s.phase s.next = none := by
    by_contra there
    exact Nat.lt_irrefl _ (kept.known s.next there).2
  have away : ∀ client, s.phase client ≠ none → client ≠ s.next := by
    rintro client there rfl
    exact there fresh
  refine ⟨kept.tidy,fun client => ?_,fun client owner => ?_,fun client inside => ?_,Nat.succ_pos _⟩
  · refine (kept.waiting client).trans ?_
    by_cases same : client = s.next
    · subst same
      simp [enter,fresh]
    · simp only [enter,Function.update_of_ne same]
  · simpa only [enter,Function.update_of_ne (away client (kept.present client owner))]
      using kept.present client owner
  · by_cases same : client = s.next
    · rw [same]
      exact ⟨kept.above,Nat.lt_succ_self _⟩
    · simp only [enter,Function.update_of_ne same] at inside
      obtain ⟨positive,below⟩ := kept.known client inside
      exact ⟨positive,Nat.lt_succ_of_lt below⟩

/- The lock after a step of a client that ends: given back. -/
theorem endsUnlock (kept : Kept s) {action : Action} (owner : id ∈ s.trans.owners) (ends : Ends s id action) :
    (step s action).trans = s.trans.unlock id := by
  have running : ¬s.trans.spinning = true := Bool.eq_false_iff.mp kept.tidy.running
  unfold step
  rw [if_neg running]
  cases action with
  | accepted => exact ends.elim
  | asked other call => exact ends.elim
  | resumed other => exact ends.elim
  | answered other success =>
    obtain ⟨rfl,now⟩ := ends
    simp only [now,enter]
  | endAsked other => exact ends.elim
  | refused other =>
    obtain ⟨rfl,now⟩ := ends
    simp only [now,if_true,enter]
  | cancelled other => exact ends.elim
  | left other =>
    obtain rfl : other = id := ends
    have away : ¬s.trans.Waits other := by
      rintro (woken | timed)
      · rw [(Transaction.heldAlone kept.tidy owner).2] at woken
        exact List.not_mem_nil woken
      · exact (List.nodup_append.mp kept.tidy.distinct).2.2 other (List.mem_append_left _ owner) other timed rfl
    have present := kept.present other owner
    cases now : s.phase other with
    | none => exact absurd now present
    | some phase =>
      cases phase with
      | locking call => exact absurd ((kept.waiting other).mpr ⟨call,now⟩) away
      | ready | calling | ending | stopping => simp only [now,enter]

theorem keptSound (kept : Kept s) : Sound s := by
  refine ⟨kept.tidy.running,kept.tidy.single,kept.tidy.named,fun id => Transaction.unlockStranger kept.tidy,?_,?_⟩
  · rintro id owner (woken | timed)
    · rw [(Transaction.heldAlone kept.tidy owner).2] at woken
      exact List.not_mem_nil woken
    · exact (List.nodup_append.mp kept.tidy.distinct).2.2 id (List.mem_append_left _ owner) id timed rfl
  · intro id owner action ends
    rw [endsUnlock kept owner ends,Transaction.unlockOwner kept.tidy owner]
    exact ⟨rfl,rfl,rfl,rfl,rfl⟩

theorem stepKept (kept : Kept s) {action : Action} (proper : Proper s action) : Kept (step s action) := by
  have running : ¬s.trans.spinning = true := Bool.eq_false_iff.mp kept.tidy.running
  unfold step
  rw [if_neg running]
  cases action with
  | accepted => exact acceptKept kept
  | asked id call =>
    dsimp only
    split
    case isTrue now => exact lockKept kept now call (proper now)
    case isFalse => exact kept
  | resumed id =>
    dsimp only
    split
    case h_1 call now =>
      split
      case isTrue turn => exact resumeKept kept now turn
      case isFalse => exact kept
    case h_2 => exact kept
  | answered id success =>
    dsimp only
    split
    case h_1 now => exact unlockKept kept now (fun _ same => by cases same) (fun _ same => by cases same)
    case h_2 now =>
      cases success with
      | true => exact stayKept kept now (fun _ same => by cases same) (fun _ same => by cases same)
      | false => exact unlockKept kept now (fun _ same => by cases same) (fun _ same => by cases same)
    case h_3 now => exact unlockKept kept now (fun _ same => by cases same) (fun _ same => by cases same)
    case h_4 => exact kept
  | endAsked id =>
    dsimp only
    split
    case isTrue now => exact stayKept kept now (fun _ same => by cases same) (fun _ same => by cases same)
    case isFalse => exact kept
  | refused id =>
    dsimp only
    split
    case isTrue now => exact unlockKept kept now (fun _ same => by cases same) (fun _ same => by cases same)
    case isFalse => exact kept
  | cancelled id =>
    dsimp only
    rw [Transaction.cancel,if_neg proper]
    exact kept
  | left id =>
    dsimp only
    split
    case h_1 => exact kept
    case h_2 => exact kept
    case h_3 before past now => exact unlockKept kept now past (fun _ same => by cases same)

/- A waiter that is stopped is through its wait beside the one that has the lock; a client that asks
for what it has waits for itself. -/
theorem soundProper (kept : Kept s) {action : Action} (sound : Sound (step s action)) : Proper s action := by
  have running : ¬s.trans.spinning = true := Bool.eq_false_iff.mp kept.tidy.running
  unfold step at sound
  rw [if_neg running] at sound
  cases action with
  | asked id call =>
    intro now owner
    have busy : 0 < s.trans.queue := by
      rw [kept.tidy.counted,(Transaction.heldAlone kept.tidy owner).1,List.length_append,List.length_singleton]
      omega
    have nonzero : id ≠ 0 := Nat.ne_of_gt (knownPhase kept now).1
    have patient := sound.patient id
    simp only [now,if_true,enter,Transaction.lock,if_neg nonzero,if_pos busy] at patient
    exact patient owner (.inr (List.mem_append_right _ (List.mem_singleton.mpr rfl)))
  | cancelled id =>
    intro timed
    have single := sound.single
    simp only [Transaction.cancel,if_pos timed] at single
    have more : 0 < (s.trans.owners ++ s.trans.woken).length := by
      refine List.length_pos_iff.mpr (fun nobody => ?_)
      rw [kept.tidy.idle nobody] at timed
      exact List.not_mem_nil timed
    simp only [List.length_append,List.length_singleton] at single more
    omega
  | accepted | resumed | answered | endAsked | refused | left => trivial

end

end Session

open Session

/- In every state of a run the lock is what it should be, exactly if at no step of the run a client
asks for the lock while it has it or a waiter is stopped. -/
theorem lockSoundIff (actions : List Action) :
    Always step Sound start actions ↔ Meets step Proper start actions :=
  alwaysMeetsIff (I := Kept) (fun _ _ kept proper => stepKept kept proper) (fun _ => keptSound)
    (fun _ _ kept sound => soundProper kept sound) keptStart actions

/- The first client has a transaction, the second waits for one and is stopped. Both are through
then, and the end of the second wakes the third while the first goes on. -/
def stoppedWaiter : List Action :=
  [.accepted,.accepted,.accepted,.asked 11 .beginTransaction,.answered 11 true,.asked 12 .beginTransaction,
    .asked 13 .beginTransaction,.cancelled 12,.resumed 12,.left 12,.resumed 13]

theorem twoOwners : (run step start stoppedWaiter).trans.owners = [11,13] ∧
    ¬Always step Sound start stoppedWaiter := by
  have both : (run step start stoppedWaiter).trans.owners = [11,13] := by decide
  refine ⟨both,fun sound => ?_⟩
  have single := (sound stoppedWaiter (List.prefix_refl _)).single
  rw [both] at single
  exact absurd single (by simp)

end Ltsm.PcscTransactions
