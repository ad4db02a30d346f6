import Ltsm.ChannelEnds

/-! What both ends hold of one id and what is under way about it, as numbers. In every
sound step the numbers stay balanced: a job waits for exactly one answer, a connector of
the client for one of the server or for its end. -/
namespace Ltsm.ChannelEnds
open Channel ChannelClient Library

/-! The numbers of one end. A connector is fresh until it has said that it is closed. -/

@[ext] structure Ledger where
  plans : Nat
  holds : Nat
  fresh : Nat
  dooms : Nat
  deriving DecidableEq, Repr

namespace End

def holds (e : End) (id : UInt8) : Nat := e.channels.countP (·.channel = id)

def fresh (e : End) (id : UInt8) : Nat := e.channels.countP fun c => c.channel = id ∧ c.closeSent = false

def plans (e : End) (id : UInt8) : Nat := e.planned.countP (·.channel = id)

def ledger (e : End) (id : UInt8) : Ledger :=
  ⟨e.plans id,e.holds id,e.fresh id,e.destroying.count id⟩

section
variable {e : End} {id j : UInt8} {c : Live} {job : Planned} {f : Live → Live}

theorem freshLe (e : End) (id : UInt8) : e.fresh id ≤ e.holds id :=
  List.countP_mono_left fun c _ inside => by simp_all

theorem foundId (found : e.findChannel id = some c) : c.channel = id :=
  of_decide_eq_true (List.find?_some (p := fun (c : Live) => decide (c.channel = id)) found)

theorem foundMem (found : e.findChannel id = some c) : c ∈ e.channels := List.mem_of_find?_eq_some found

theorem holdsFound (found : e.findChannel id = some c) : 0 < e.holds id := countFound found

theorem holdsAbsent (absent : e.findChannel id = none) : e.holds id = 0 := countAbsent absent

theorem findHeld (held : 0 < e.holds id) : ∃ c, e.findChannel id = some c := by
  cases found : e.findChannel id with
  | some c => exact ⟨c,rfl⟩
  | none =>
    have absent := holdsAbsent found
    omega

theorem findNothing (nothing : e.holds id = 0) : e.findChannel id = none := by
  cases found : e.findChannel id with
  | none => rfl
  | some c =>
    have present := holdsFound found
    omega

theorem plannedId (found : e.findPlanned id = some job) : job.channel = id :=
  of_decide_eq_true (List.find?_some (p := fun (job : Planned) => decide (job.channel = id)) found)

theorem plansFound (found : e.findPlanned id = some job) : 0 < e.plans id := countFound found

theorem plansAbsent (absent : e.findPlanned id = none) : e.plans id = 0 := countAbsent absent

/- A change that leaves the id and the close of a connector alone. -/
theorem ledgerUpdate (keeps : ∀ c, (f c).channel = c.channel ∧ (f c).closeSent = c.closeSent) :
    (e.updateChannel id f).ledger j = e.ledger j := by
  have holds : (e.updateChannel id f).holds j = e.holds j :=
    countKept (fun c => by rw [(keeps c).1]) e.channels
  have fresh : (e.updateChannel id f).fresh j = e.fresh j :=
    countKept (fun c => by rw [(keeps c).1,(keeps c).2]) e.channels
  rw [ledger,holds,fresh]
  rfl

theorem ledgerClosed (found : e.findChannel id = some c) (unsaid : c.closeSent = false) :
    (e.updateChannel id ({· with closeSent := true})).ledger j =
      {e.ledger j with fresh := e.fresh j - if id = j then 1 else 0} := by
  have holds : (e.updateChannel id ({· with closeSent := true})).holds j = e.holds j :=
    countKept (f := fun c : Live => {c with closeSent := true}) (fun c => rfl) e.channels
  have counted := countUpdate (f := fun c : Live => {c with closeSent := true}) found
    fun c : Live => c.channel = j ∧ c.closeSent = false
  simp only [foundId found,unsaid,and_true,decide_eq_true_eq,Bool.true_eq_false,and_false,decide_false,
    Bool.false_eq_true,if_false,Nat.add_zero] at counted
  rw [ledger,holds]
  exact congrArg (Ledger.mk _ _ · _) (Nat.eq_sub_of_add_eq counted)

theorem ledgerDrop (found : e.findChannel id = some c) :
    (e.dropChannel id).ledger j =
      {e.ledger j with
        holds := e.holds j - if id = j then 1 else 0
        fresh := e.fresh j - if id = j ∧ c.closeSent = false then 1 else 0} := by
  have holds := countErase found fun c : Live => c.channel = j
  have fresh := countErase found fun c : Live => c.channel = j ∧ c.closeSent = false
  simp only [decide_eq_true_eq,foundId found] at holds fresh
  exact congrArg₂ (Ledger.mk _ · · _) (Nat.eq_sub_of_add_eq holds) (Nat.eq_sub_of_add_eq fresh)

theorem ledgerAdd (e : End) {c : Live} (unsaid : c.closeSent = false) (j : UInt8) :
    (e.addChannel c).ledger j =
      {e.ledger j with
        holds := e.holds j + if c.channel = j then 1 else 0
        fresh := e.fresh j + if c.channel = j then 1 else 0} := by
  simp [ledger,holds,fresh,plans,addChannel,List.countP_append,List.countP_singleton,unsaid]

theorem ledgerPlan (e : End) (job : Planned) (j : UInt8) :
    {e with planned := e.planned ++ [job]}.ledger j =
      {e.ledger j with plans := e.plans j + if job.channel = j then 1 else 0} := by
  simp [ledger,holds,fresh,plans,List.countP_append,List.countP_singleton]

theorem ledgerUnplan (found : e.findPlanned id = some job) :
    (e.dropPlanned id).ledger j = {e.ledger j with plans := e.plans j - if id = j then 1 else 0} := by
  have counted := countErase found fun job : Planned => job.channel = j
  simp only [decide_eq_true_eq,plannedId found] at counted
  exact congrArg (Ledger.mk · _ _ _) (Nat.eq_sub_of_add_eq counted)

theorem ledgerDoom (e : End) (id j : UInt8) :
    {e with destroying := e.destroying ++ [id]}.ledger j =
      {e.ledger j with dooms := e.destroying.count j + if id = j then 1 else 0} := by
  simp [ledger,holds,fresh,plans,List.count_append,List.count_singleton]

theorem ledgerThread {index : Nat} (thread : e.destroying[index]? = some id) (j : UInt8) :
    {e with destroying := e.destroying.eraseIdx index}.ledger j =
      {e.ledger j with dooms := e.destroying.count j - if id = j then 1 else 0} := by
  have counted : (e.destroying.eraseIdx index).count j + (if id = j then 1 else 0) = e.destroying.count j := by
    obtain ⟨inside,rfl⟩ := List.getElem?_eq_some_iff.mp thread
    rw [← (List.getElem_cons_eraseIdx_perm inside).count_eq j,List.count_cons]
    simp only [beq_iff_eq]
  exact congrArg (Ledger.mk _ _ _) (Nat.eq_sub_of_add_eq counted)

theorem threadFound {index : Nat} (thread : e.destroying[index]? = some id) : 0 < (e.ledger id).dooms :=
  List.count_pos_iff.mpr (List.mem_of_getElem? thread)

end
end End

/-! The numbers of what is under way. -/

def isOpen (id : UInt8) : Message → Bool
  | .channelOpen j _ => j = id
  | _ => false

def isAnswer (id : UInt8) (noerror : Bool) : Message → Bool
  | .channelConnected j _ positive => j = id && positive = noerror
  | _ => false

def isClose (id : UInt8) : Message → Bool
  | .channelClose j => j = id
  | _ => false

/- The closes that follow the first positive answer. -/
def closesAfter (id : UInt8) : List Message → Nat
  | [] => 0
  | m :: rest => if isAnswer id true m then rest.countP (isClose id) else closesAfter id rest

theorem closesAfterLe (id : UInt8) (q : List Message) : closesAfter id q ≤ q.countP (isClose id) := by
  induction q with
  | nil => exact Nat.zero_le _
  | cons m rest ih =>
    rw [closesAfter,List.countP_cons]
    split <;> omega

theorem closesAfterNone {id : UInt8} {q : List Message} (nothing : q.countP (isAnswer id true) = 0) :
    closesAfter id q = 0 := by
  induction q with
  | nil => rfl
  | cons m rest ih =>
    obtain ⟨here,later⟩ := List.forall_mem_cons.mp (List.countP_eq_zero.mp nothing)
    rw [closesAfter,if_neg here,ih (List.countP_eq_zero.mpr later)]

theorem closesAfterAppend (id : UInt8) (q added : List Message) :
    closesAfter id (q ++ added) =
      if q.countP (isAnswer id true) = 0 then closesAfter id added
      else closesAfter id q + added.countP (isClose id) := by
  induction q with
  | nil => rfl
  | cons m rest ih =>
    rw [List.cons_append,closesAfter,closesAfter,List.countP_cons,List.countP_append,ih]
    cases isAnswer id true m <;> simp

@[ext] structure Down where
  opens : Nat
  closes : Nat

@[ext] structure Up where
  accepted : Nat
  refused : Nat
  closes : Nat
  later : Nat

def down (id : UInt8) (q : List Message) : Down := ⟨q.countP (isOpen id),q.countP (isClose id)⟩

def up (id : UInt8) (q : List Message) : Up :=
  ⟨q.countP (isAnswer id true),q.countP (isAnswer id false),q.countP (isClose id),closesAfter id q⟩

/- A close sent after everything else. -/
def Up.close (u : Up) : Up :=
  {u with closes := u.closes + 1, later := u.later + if u.accepted = 0 then 0 else 1}

/- The channel whose opening or closing a message is about. -/
def Message.about : Message → Option UInt8
  | .channelOpen id _ | .channelConnected id _ _ | .channelClose id => some id
  | .data _ _ => none

section
variable {id : UInt8} {m : Message} {q rest : List Message} {msg : ChannelOpen} {flags : UInt32}

theorem aboutNone (other : m.about ≠ some id) :
    isOpen id m = false ∧ isClose id m = false ∧ ∀ noerror, isAnswer id noerror m = false := by
  cases m with
  | data j buf => simp [isOpen,isAnswer,isClose]
  | _ =>
    have different : _ ≠ id := fun same => other (congrArg some same)
    simp [isOpen,isAnswer,isClose,different]

theorem downKept {added : List Message} (other : ∀ m ∈ added, m.about ≠ some id) :
    down id (q ++ added) = down id q := by
  have opens : added.countP (isOpen id) = 0 :=
    List.countP_eq_zero.mpr fun m inside => Bool.eq_false_iff.mp (aboutNone (other m inside)).1
  have closes : added.countP (isClose id) = 0 :=
    List.countP_eq_zero.mpr fun m inside => Bool.eq_false_iff.mp (aboutNone (other m inside)).2.1
  simp [down,List.countP_append,opens,closes]

theorem downOpening : down id (q ++ [.channelOpen id msg]) =
    {down id q with opens := (down id q).opens + 1} := by
  simp [down,List.countP_append,isOpen,isClose]

theorem downClosing : down id (q ++ [.channelClose id]) =
    {down id q with closes := (down id q).closes + 1} := by
  simp [down,List.countP_append,isOpen,isClose]

theorem downAnswered {noerror : Bool} :
    down id (q ++ [.channelConnected id flags noerror]) = down id q := by
  simp [down,isOpen,isClose]

theorem downPassed (other : isOpen id m = false ∧ isClose id m = false) : down id rest = down id (m :: rest) := by
  simp [down,other]

theorem downOpened (msg : ChannelOpen) : down id rest =
    {down id (.channelOpen id msg :: rest) with opens := (down id (.channelOpen id msg :: rest)).opens - 1} := by
  simp [down,isOpen,isClose]

theorem downClosed : down id rest =
    {down id (.channelClose id :: rest) with closes := (down id (.channelClose id :: rest)).closes - 1} := by
  simp [down,isOpen,isClose]

theorem upKept {added : List Message} (other : ∀ m ∈ added, m.about ≠ some id) :
    up id (q ++ added) = up id q := by
  have answers : ∀ noerror, added.countP (isAnswer id noerror) = 0 := fun noerror =>
    List.countP_eq_zero.mpr fun m inside => Bool.eq_false_iff.mp ((aboutNone (other m inside)).2.2 noerror)
  have closes : added.countP (isClose id) = 0 :=
    List.countP_eq_zero.mpr fun m inside => Bool.eq_false_iff.mp (aboutNone (other m inside)).2.1
  by_cases nothing : q.countP (isAnswer id true) = 0
  · simp [up,List.countP_append,closesAfterAppend,answers,closes,nothing,closesAfterNone nothing,
      closesAfterNone (answers true)]
  · simp [up,List.countP_append,closesAfterAppend,answers,closes,nothing]

theorem upAnswering {noerror : Bool} : up id (q ++ [.channelConnected id flags noerror]) =
    { up id q with
      accepted := (up id q).accepted + if noerror then 1 else 0
      refused := (up id q).refused + if noerror then 0 else 1 } := by
  by_cases nothing : q.countP (isAnswer id true) = 0
  · cases noerror <;> simp [up,closesAfterAppend,isAnswer,isClose,closesAfter,nothing,closesAfterNone nothing]
  · cases noerror <;> simp [up,closesAfterAppend,isAnswer,isClose,nothing]

theorem upClosing : up id (q ++ [.channelClose id]) = (up id q).close := by
  by_cases nothing : q.countP (isAnswer id true) = 0
  · simp [up,Up.close,closesAfterAppend,isAnswer,isClose,closesAfter,nothing,closesAfterNone nothing]
  · simp [up,Up.close,closesAfterAppend,isAnswer,isClose,nothing]

theorem upPassed (other : m.about ≠ some id) : up id rest = up id (m :: rest) := by
  obtain ⟨-,close,answer⟩ := aboutNone other
  simp [up,closesAfter,close,answer]

theorem upRefused (flags : UInt32) : up id rest =
    { up id (.channelConnected id flags false :: rest) with
      refused := (up id (.channelConnected id flags false :: rest)).refused - 1 } := by
  simp [up,isAnswer,isClose,closesAfter]

/- The last positive answer takes with it what was to come after it. -/
theorem upAccepted (last : (up id (.channelConnected id flags true :: rest)).accepted ≤ 1) : up id rest =
    { up id (.channelConnected id flags true :: rest) with
      accepted := (up id (.channelConnected id flags true :: rest)).accepted - 1
      later := 0 } := by
  simp only [up,List.countP_cons,isAnswer,isClose] at last ⊢
  have nothing : rest.countP (isAnswer id true) = 0 := by simpa using last
  simp [nothing,closesAfterNone nothing]

theorem upClosed : up id rest =
    { up id (.channelClose id :: rest) with
      closes := (up id (.channelClose id :: rest)).closes - 1 } := by
  simp [up,isAnswer,isClose,closesAfter]

end

structure Book where
  server : Ledger
  client : Ledger
  down : Down
  up : Up

def Ends.book (s : Ends) (id : UInt8) : Book :=
  ⟨s.server.ledger id,s.client.ledger id,down id s.toClient,up id s.toServer⟩

namespace Book

structure Balanced (b : Book) : Prop where
  single : b.server.plans + b.server.holds ≤ 1
  pending : b.down.opens + b.up.accepted + b.up.refused = b.server.plans
  held : b.client.holds = b.down.closes + b.client.dooms + b.server.fresh + b.up.accepted
  alone : b.client.holds ≤ 1
  closing : b.server.holds ≤ b.up.closes + b.server.dooms + b.client.fresh
  answered : b.up.accepted = 0 ∨ 0 < b.client.fresh + b.up.later
  serverFresh : b.server.fresh ≤ b.server.holds
  clientFresh : b.client.fresh ≤ b.client.holds
  later : b.up.later ≤ b.up.closes

/- A planned job's connector is made by the answer that takes it up. -/
inductive Move (b : Book) : Book → Prop
  | stay : Move b b
  | plan (planned : b.server.plans = 0) (held : b.server.holds = 0) :
      Move b {b with
        server := {b.server with plans := b.server.plans + 1}
        down := {b.down with opens := b.down.opens + 1}}
  | doom : Move b {b with server := {b.server with dooms := b.server.dooms + 1}}
  | accept (asked : 0 < b.down.opens) (held : b.client.holds = 0) :
      Move b {b with
        client := {b.client with holds := b.client.holds + 1, fresh := b.client.fresh + 1}
        down := {b.down with opens := b.down.opens - 1}
        up := {b.up with accepted := b.up.accepted + 1}}
  | refuse (asked : 0 < b.down.opens) :
      Move b {b with
        down := {b.down with opens := b.down.opens - 1}
        up := {b.up with refused := b.up.refused + 1}}
  | closedAtClient (closed : 0 < b.down.closes) :
      Move b {b with
        client := {b.client with dooms := b.client.dooms + 1}
        down := {b.down with closes := b.down.closes - 1}}
  | closedAtServer (closed : b.up.later < b.up.closes) :
      Move b {b with
        server := {b.server with dooms := b.server.dooms + 1}
        up := {b.up with closes := b.up.closes - 1}}
  | takeUp (answered : 0 < b.up.accepted) :
      Move b {b with
        server := {b.server with
          plans := b.server.plans - 1
          holds := b.server.holds + 1
          fresh := b.server.fresh + 1}
        up := {b.up with accepted := b.up.accepted - 1, later := 0}}
  | giveUp (answered : 0 < b.up.refused) :
      Move b {b with
        server := {b.server with plans := b.server.plans - 1}
        up := {b.up with refused := b.up.refused - 1}}
  | serverIdle (doomed : 0 < b.server.dooms) (held : b.server.holds = 0) :
      Move b {b with server := {b.server with dooms := b.server.dooms - 1}}
  | serverDropped (doomed : 0 < b.server.dooms) (held : 0 < b.server.holds) (closed : b.server.fresh = 0) :
      Move b {b with server := {b.server with holds := b.server.holds - 1, dooms := b.server.dooms - 1}}
  | serverCloses (doomed : 0 < b.server.dooms) (held : 0 < b.server.fresh) :
      Move b {b with
        server := {b.server with
          holds := b.server.holds - 1
          fresh := b.server.fresh - 1
          dooms := b.server.dooms - 1}
        down := {b.down with closes := b.down.closes + 1}}
  | clientIdle (doomed : 0 < b.client.dooms) (held : b.client.holds = 0) :
      Move b {b with client := {b.client with dooms := b.client.dooms - 1}}
  | clientDropped (doomed : 0 < b.client.dooms) (held : 0 < b.client.holds) (closed : b.client.fresh = 0) :
      Move b {b with client := {b.client with holds := b.client.holds - 1, dooms := b.client.dooms - 1}}
  | clientCloses (doomed : 0 < b.client.dooms) (held : 0 < b.client.fresh) :
      Move b {b with
        client := {b.client with
          holds := b.client.holds - 1
          fresh := b.client.fresh - 1
          dooms := b.client.dooms - 1}
        up := b.up.close}
  | clientSilent (doomed : 0 < b.client.dooms) (held : 0 < b.client.fresh)
      (running : b.server.holds = b.server.fresh) :
      Move b {b with
        client := {b.client with
          holds := b.client.holds - 1
          fresh := b.client.fresh - 1
          dooms := b.client.dooms - 1}}
  | serverEnds (held : 0 < b.server.fresh) :
      Move b {b with
        server := {b.server with fresh := b.server.fresh - 1}
        down := {b.down with closes := b.down.closes + 1}}
  | clientEnds (held : 0 < b.client.fresh) :
      Move b {b with client := {b.client with fresh := b.client.fresh - 1}, up := b.up.close}

theorem moveBalanced {b b' : Book} (move : Move b b') (balanced : b.Balanced) : b'.Balanced := by
  obtain ⟨single,pending,held,alone,closing,answered,serverFresh,clientFresh,later⟩ := balanced
  cases move <;> constructor <;> (try simp only [Up.close]) <;> (try split) <;> omega

end Book

theorem startBalanced (id : UInt8) : (start.book id).Balanced := by
  have nothing : start.book id = ⟨⟨0,0,0,0⟩,⟨0,0,0,0⟩,⟨0,0⟩,⟨0,0,0,0⟩⟩ := rfl
  rw [nothing]
  constructor <;> decide

end Ltsm.ChannelEnds
