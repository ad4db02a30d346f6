import Mathlib.Data.List.Basic
import Mathlib.Logic.Relation

/-! One channel id over the channels that use it one after the other, which are counted. What the
two ends have of it, and what is under way about it, bears the number of its channel. -/
namespace Ltsm.ChannelLines

inductive Token
  | opening (number : Nat)
  | accepted (number : Nat)
  | closing (number : Nat)
  deriving DecidableEq, Repr

/- `planned` is the number of the last channel that the server has planned; the threads are those
that take a channel down on a close of the other end. -/
@[ext] structure Line where
  planned : Nat
  server : Option Nat
  client : Option Nat
  down : List Token
  up : List Token
  serverThreads : List Nat
  clientThreads : List Nat

namespace Line

/- On the way to the client the openings rise, and no close is behind one. -/
def Before : Token → Token → Prop
  | .opening a,.opening b => a < b
  | .opening _,.closing _ => False
  | _,_ => True

/- On the way to the server, what is closed behind the answer for this channel is this channel. -/
def Behind (planned : Nat) : Token → Token → Prop
  | .accepted a,.closing b => a = planned → b = planned
  | _,_ => True

structure Kept (l : Line) : Prop where
  ordered : l.down.Pairwise Before
  opened : ∀ n, .opening n ∈ l.down → n ≤ l.planned
  accepted : ∀ n, .accepted n ∈ l.up → n ≤ l.planned
  behind : l.up.Pairwise (Behind l.planned)
  answered : .accepted l.planned ∈ l.up →
    (∀ n, .opening n ∉ l.down) ∧ ∀ n, l.client = some n → n = l.planned
  held : ∀ n, l.server = some n → n = l.planned ∧ (∀ m, .opening m ∉ l.down) ∧
    (∀ m, l.client = some m → m = l.planned) ∧ (∀ m, .closing m ∈ l.up → m = l.planned) ∧
    ∀ m ∈ l.serverThreads, m = l.planned
  holding : ∀ n, l.client = some n → (∀ m ∈ l.clientThreads, m = n) ∧ ∀ m, .closing m ∈ l.down → m = n

/- A connector is made only while no thread for its id is left at its end, and the server makes its
own on the answer for the channel it has planned last. -/
inductive Move (l : Line) : Line → Prop
  | plan (free : l.server = none) :
      Move l {l with planned := l.planned + 1, down := l.down ++ [.opening (l.planned + 1)]}
  | serverReads {n : Nat} {rest : List Token} (up : l.up = .closing n :: rest) :
      Move l {l with up := rest, serverThreads := l.serverThreads ++ [n]}
  | clientReads {n : Nat} {rest : List Token} (down : l.down = .closing n :: rest) :
      Move l {l with down := rest, clientThreads := l.clientThreads ++ [n]}
  | refuses {n : Nat} {rest : List Token} (down : l.down = .opening n :: rest) : Move l {l with down := rest}
  | accepts {n : Nat} {rest : List Token} (down : l.down = .opening n :: rest) (free : l.client = none)
      (idle : l.clientThreads = []) :
      Move l {l with down := rest, client := some n, up := l.up ++ [.accepted n]}
  | promises {n : Nat} {rest : List Token} (down : l.down = .opening n :: rest) (free : l.client = none) :
      Move l {l with down := rest, up := l.up ++ [.accepted n]}
  | passes {n : Nat} {rest : List Token} (up : l.up = .accepted n :: rest) : Move l {l with up := rest}
  | takesUp {rest : List Token} (up : l.up = .accepted l.planned :: rest) (idle : l.serverThreads = []) :
      Move l {l with up := rest, server := some l.planned}
  | serverCloses {n : Nat} (held : l.server = some n) : Move l {l with down := l.down ++ [.closing n]}
  | clientCloses {n : Nat} (held : l.client = some n) : Move l {l with up := l.up ++ [.closing n]}
  | serverDrops : Move l {l with server := none}
  | clientDrops : Move l {l with client := none}
  | serverForgets {less : List Nat} (sub : less ⊆ l.serverThreads) : Move l {l with serverThreads := less}
  | clientForgets {less : List Nat} (sub : less ⊆ l.clientThreads) : Move l {l with clientThreads := less}

section
variable {l next : Line}

theorem planKept (kept : Kept l) (free : l.server = none) :
    Kept {l with planned := l.planned + 1, down := l.down ++ [.opening (l.planned + 1)]} := by
  have none : ∀ n, .accepted n ∈ l.up → n ≠ l.planned + 1 := fun n inside =>
    Nat.ne_of_lt (Nat.lt_succ_of_le (kept.accepted n inside))
  refine ⟨?_,fun n inside => ?_,fun n inside => Nat.le_succ_of_le (kept.accepted n inside),?_,fun inside => ?_,
    fun n held => ?_,fun n holds => ?_⟩
  · refine List.pairwise_append.mpr ⟨kept.ordered,List.pairwise_singleton _ _,fun a inside b last => ?_⟩
    rw [List.mem_singleton.mp last]
    cases a with
    | opening a => exact Nat.lt_succ_of_le (kept.opened a inside)
    | accepted | closing => trivial
  · rcases List.mem_append.mp inside with old | last
    · exact Nat.le_succ_of_le (kept.opened n old)
    · cases List.mem_singleton.mp last
      exact Nat.le_refl _
  · refine kept.behind.imp_of_mem fun {a b} first second behind => ?_
    cases a with
    | accepted a =>
      cases b with
      | closing b => exact fun same => absurd same (none a first)
      | opening | accepted => trivial
    | opening | closing => trivial
  · exact absurd rfl (none _ inside)
  · exact absurd (free.symm.trans held) (Option.some_ne_none n).symm
  · obtain ⟨threads,closes⟩ := kept.holding n holds
    refine ⟨threads,fun m inside => ?_⟩
    rcases List.mem_append.mp inside with old | last
    · exact closes m old
    · cases List.mem_singleton.mp last

/- What comes first on its way is taken from the queue. -/
theorem popUp {token : Token} {rest : List Token} (kept : Kept l) (up : l.up = token :: rest) :
    Kept {l with up := rest} := by
  have old : ∀ {a}, a ∈ rest → a ∈ l.up := fun inside => up ▸ List.mem_cons_of_mem _ inside
  have behind := kept.behind
  rw [up] at behind
  refine ⟨kept.ordered,kept.opened,fun n inside => kept.accepted n (old inside),(List.pairwise_cons.mp behind).2,
    fun inside => kept.answered (old inside),fun n held => ?_,kept.holding⟩
  obtain ⟨last,none,client,closes,threads⟩ := kept.held n held
  exact ⟨last,none,client,fun m inside => closes m (old inside),threads⟩

theorem popDown {token : Token} {rest : List Token} (kept : Kept l) (down : l.down = token :: rest) :
    Kept {l with down := rest} := by
  have old : ∀ {a}, a ∈ rest → a ∈ l.down := fun inside => down ▸ List.mem_cons_of_mem _ inside
  have ordered := kept.ordered
  rw [down] at ordered
  refine ⟨(List.pairwise_cons.mp ordered).2,fun n inside => kept.opened n (old inside),kept.accepted,kept.behind,
    fun inside => ?_,fun n held => ?_,fun n holds => ?_⟩
  · obtain ⟨none,client⟩ := kept.answered inside
    exact ⟨fun n there => none n (old there),client⟩
  · obtain ⟨last,none,client,closes,threads⟩ := kept.held n held
    exact ⟨last,fun m there => none m (old there),client,closes,threads⟩
  · obtain ⟨threads,closes⟩ := kept.holding n holds
    exact ⟨threads,fun m there => closes m (old there)⟩

theorem serverReadsKept {n : Nat} {rest : List Token} (kept : Kept l) (up : l.up = .closing n :: rest) :
    Kept {l with up := rest, serverThreads := l.serverThreads ++ [n]} := by
  have popped := popUp kept up
  refine ⟨popped.ordered,popped.opened,popped.accepted,popped.behind,popped.answered,fun m held => ?_,popped.holding⟩
  obtain ⟨last,none,client,closes,threads⟩ := popped.held m held
  refine ⟨last,none,client,closes,fun k inside => ?_⟩
  rcases List.mem_append.mp inside with old | new
  · exact threads k old
  · rw [List.mem_singleton.mp new]
    exact (kept.held m held).2.2.2.1 n (up ▸ List.mem_cons_self)

theorem clientReadsKept {n : Nat} {rest : List Token} (kept : Kept l) (down : l.down = .closing n :: rest) :
    Kept {l with down := rest, clientThreads := l.clientThreads ++ [n]} := by
  have popped := popDown kept down
  refine ⟨popped.ordered,popped.opened,popped.accepted,popped.behind,popped.answered,popped.held,fun m holds => ?_⟩
  obtain ⟨threads,closes⟩ := popped.holding m holds
  refine ⟨fun k inside => ?_,closes⟩
  rcases List.mem_append.mp inside with old | new
  · exact threads k old
  · rw [List.mem_singleton.mp new]
    exact (kept.holding m holds).2 n (down ▸ List.mem_cons_self)

/- The last opening is answered while nothing is behind it. -/
theorem answersKept {n : Nat} {rest : List Token} (kept : Kept l) (down : l.down = .opening n :: rest)
    {client : Option Nat} (own : ∀ m, client = some m → m = n)
    (idle : ∀ m, client = some m → ∀ k ∈ l.clientThreads, k = m) :
    Kept {l with down := rest, client, up := l.up ++ [.accepted n]} := by
  have popped := popDown kept down
  have head : .opening n ∈ l.down := down ▸ List.mem_cons_self
  have ordered := kept.ordered
  rw [down,List.pairwise_cons] at ordered
  refine ⟨popped.ordered,popped.opened,fun m inside => ?_,?_,fun inside => ?_,fun m held => ?_,fun m holds => ?_⟩
  · rcases List.mem_append.mp inside with old | last
    · exact kept.accepted m old
    · cases List.mem_singleton.mp last
      exact kept.opened n head
  · refine List.pairwise_append.mpr ⟨kept.behind,List.pairwise_singleton _ _,fun a first b last => ?_⟩
    rw [List.mem_singleton.mp last]
    cases a <;> trivial
  · rcases List.mem_append.mp inside with old | last
    · exact absurd head ((kept.answered old).1 n)
    · have same : l.planned = n := Token.accepted.inj (List.mem_singleton.mp last)
      refine ⟨fun m there => ?_,fun m holds => (own m holds).trans same.symm⟩
      have rises : n < m := ordered.1 _ there
      have last : m ≤ l.planned := popped.opened m there
      omega
  · exact absurd head ((kept.held m held).2.1 n)
  · exact ⟨idle m holds,fun k there => (ordered.1 _ there).elim⟩

theorem takesUpKept {rest : List Token} (kept : Kept l) (up : l.up = .accepted l.planned :: rest)
    (idle : l.serverThreads = []) : Kept {l with up := rest, server := some l.planned} := by
  have popped := popUp kept up
  have behind := kept.behind
  rw [up,List.pairwise_cons] at behind
  obtain ⟨none,client⟩ := kept.answered (up ▸ List.mem_cons_self)
  refine ⟨popped.ordered,popped.opened,popped.accepted,popped.behind,popped.answered,fun n held => ?_,popped.holding⟩
  refine ⟨(Option.some.inj held).symm,none,client,fun m inside => behind.1 _ inside rfl,fun m inside => ?_⟩
  rw [show l.serverThreads = [] from idle] at inside
  exact absurd inside List.not_mem_nil

theorem serverClosesKept {n : Nat} (kept : Kept l) (held : l.server = some n) :
    Kept {l with down := l.down ++ [.closing n]} := by
  obtain ⟨last,none,client,_,_⟩ := kept.held n held
  have openings : ∀ m, .opening m ∉ l.down ++ [.closing n] := fun m inside => by
    rcases List.mem_append.mp inside with old | new
    · exact none m old
    · cases List.mem_singleton.mp new
  refine ⟨?_,fun m inside => absurd inside (openings m),kept.accepted,kept.behind,
    fun inside => ⟨openings,(kept.answered inside).2⟩,fun m also => ?_,fun m holds => ?_⟩
  · refine List.pairwise_append.mpr ⟨kept.ordered,List.pairwise_singleton _ _,fun a inside b last => ?_⟩
    rw [List.mem_singleton.mp last]
    cases a with
    | opening a => exact absurd inside (none a)
    | accepted | closing => trivial
  · obtain ⟨own,_,rest⟩ := kept.held m also
    exact ⟨own,openings,rest⟩
  · obtain ⟨threads,closes⟩ := kept.holding m holds
    refine ⟨threads,fun k inside => ?_⟩
    rcases List.mem_append.mp inside with old | new
    · exact closes k old
    · cases List.mem_singleton.mp new
      exact last.trans (client m holds).symm

theorem clientClosesKept {n : Nat} (kept : Kept l) (holds : l.client = some n) :
    Kept {l with up := l.up ++ [.closing n]} := by
  refine ⟨kept.ordered,kept.opened,fun m inside => ?_,?_,fun inside => ?_,fun m held => ?_,kept.holding⟩
  · rcases List.mem_append.mp inside with old | new
    · exact kept.accepted m old
    · cases List.mem_singleton.mp new
  · refine List.pairwise_append.mpr ⟨kept.behind,List.pairwise_singleton _ _,fun a inside b last => ?_⟩
    rw [List.mem_singleton.mp last]
    cases a with
    | accepted a =>
      rintro rfl
      exact (kept.answered inside).2 n holds
    | opening | closing => trivial
  · rcases List.mem_append.mp inside with old | new
    · exact kept.answered old
    · cases List.mem_singleton.mp new
  · obtain ⟨last,none,client,closes,threads⟩ := kept.held m held
    refine ⟨last,none,client,fun k inside => ?_,threads⟩
    rcases List.mem_append.mp inside with old | new
    · exact closes k old
    · cases List.mem_singleton.mp new
      exact client n holds

theorem moveKept (kept : Kept l) (move : Move l next) : Kept next := by
  cases move with
  | plan free => exact planKept kept free
  | serverReads up => exact serverReadsKept kept up
  | clientReads down => exact clientReadsKept kept down
  | refuses down => exact popDown kept down
  | accepts down free idle =>
    refine answersKept kept down (fun m own => (Option.some.inj own).symm) fun m own k inside => ?_
    rw [idle] at inside
    exact absurd inside List.not_mem_nil
  | promises down free =>
    refine @answersKept l _ _ kept down l.client (fun m own => ?_) (fun m own => ?_)
    · exact absurd (free.symm.trans own) (Option.some_ne_none m).symm
    · exact absurd (free.symm.trans own) (Option.some_ne_none m).symm
  | passes up => exact popUp kept up
  | takesUp up idle => exact takesUpKept kept up idle
  | serverCloses held => exact serverClosesKept kept held
  | clientCloses holds => exact clientClosesKept kept holds
  | serverDrops =>
    exact ⟨kept.ordered,kept.opened,kept.accepted,kept.behind,kept.answered,(fun n held => by cases held),kept.holding⟩
  | clientDrops =>
    refine ⟨kept.ordered,kept.opened,kept.accepted,kept.behind,fun inside => ⟨(kept.answered inside).1,?_⟩,
      fun n held => ?_,(fun n holds => by cases holds)⟩
    · intro n holds
      cases holds
    · obtain ⟨last,none,_,rest⟩ := kept.held n held
      exact ⟨last,none,(fun m holds => by cases holds),rest⟩
  | serverForgets sub =>
    refine ⟨kept.ordered,kept.opened,kept.accepted,kept.behind,kept.answered,fun n held => ?_,kept.holding⟩
    obtain ⟨last,none,client,closes,threads⟩ := kept.held n held
    exact ⟨last,none,client,closes,fun m inside => threads m (sub inside)⟩
  | clientForgets sub =>
    refine ⟨kept.ordered,kept.opened,kept.accepted,kept.behind,kept.answered,kept.held,fun n holds => ?_⟩
    obtain ⟨threads,closes⟩ := kept.holding n holds
    exact ⟨fun m inside => threads m (sub inside),closes⟩

/- A step of the two ends comes to some moves of each line. -/
abbrev Moves (l next : Line) : Prop := Relation.ReflTransGen Move l next

theorem movesKept (kept : Kept l) (moves : Moves l next) : Kept next := by
  induction moves with
  | refl => exact kept
  | tail _ move ih => exact moveKept ih move

def fresh : Line := ⟨0,none,none,[],[],[],[]⟩

theorem keptFresh : Kept fresh where
  ordered := List.Pairwise.nil
  opened n inside := absurd inside List.not_mem_nil
  accepted n inside := absurd inside List.not_mem_nil
  behind := List.Pairwise.nil
  answered inside := absurd inside List.not_mem_nil
  held n held := by cases held
  holding n holds := by cases holds

end
end Line
end Ltsm.ChannelLines
