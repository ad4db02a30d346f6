import Ltsm.Library.Run
import Mathlib.Data.List.GetD
import Mathlib.Data.List.Perm.Basic

/-! Writers that share one stream. Each of them writes its message in parts, and between two of the
parts others may write. What is on the wire is told apart by the numbers of the messages, since
messages may be alike. -/
namespace Ltsm.Library
variable {α : Type*}

/- What is left of the message with this number. -/
structure StreamWriter (α : Type*) where
  number : Nat
  rest : List α
  deriving DecidableEq, Repr

structure SharedStream (α : Type*) where
  wire : List (Nat × α)
  messages : List (List α)
  writers : Nat → Option (StreamWriter α)

def tagged (number : Nat) (items : List α) : List (Nat × α) := items.map fun item => (number,item)

namespace SharedStream

def idle : SharedStream α := ⟨[],[],fun _ => none⟩

def setWriter (s : SharedStream α) (id : Nat) (writer : Option (StreamWriter α)) : SharedStream α :=
  {s with writers := Function.update s.writers id writer}

/- A writer begins its next message when it is through with the one before. -/
def begin (s : SharedStream α) (id : Nat) (message : List α) : SharedStream α :=
  if (s.writers id).isNone ∧ message ≠ [] then
    setWriter {s with messages := s.messages ++ [message]} id (some ⟨s.messages.length,message⟩)
  else s

/- So many items of what is left go out, or all of it. -/
def write (s : SharedStream α) (id count : Nat) : SharedStream α :=
  match s.writers id with
  | none => s
  | some w =>
    setWriter {s with wire := s.wire ++ tagged w.number (w.rest.take count)} id
      (if w.rest.length ≤ count then none else some {w with rest := w.rest.drop count})

def message (s : SharedStream α) (number : Nat) : List α := s.messages.getD number []

def Finished (s : SharedStream α) (number : Nat) : Prop :=
  number < s.messages.length ∧ ∀ id w, s.writers id = some w → w.number ≠ number

def wholes (s : SharedStream α) (order : List Nat) : List (Nat × α) :=
  order.flatMap fun number => tagged number (s.message number)

/- The finished messages in some order, and behind them the beginning of one. -/
def Whole (s : SharedStream α) : Prop :=
  ∃ order number begun, s.wire = s.wholes order ++ tagged number begun ∧ order.Nodup ∧
    (∀ k, k ∈ order ↔ s.Finished k) ∧ begun <+: s.message number ∧ (begun ≠ [] → ¬s.Finished number)

/- No other writer is between two parts of its message. -/
def Alone (s : SharedStream α) (id count : Nat) : Prop :=
  0 < count → ∀ w, s.writers id = some w →
    ∀ other v, other ≠ id → s.writers other = some v → v.rest = s.message v.number

structure Layout (s : SharedStream α) (order : List Nat) (id number : Nat) (begun : List α) : Prop where
  wire : s.wire = s.wholes order ++ tagged number begun
  nodup : order.Nodup
  finished : ∀ k, k ∈ order ↔ s.Finished k
  current : begun ≠ [] → ∃ w, s.writers id = some w ∧ w.number = number ∧ begun ++ w.rest = s.message number
  others : ∀ other v, s.writers other = some v → other ≠ id ∨ begun = [] → v.rest = s.message v.number

structure Kept (s : SharedStream α) : Prop where
  known : ∀ id w, s.writers id = some w → w.rest ≠ [] ∧ w.number < s.messages.length
  apart : ∀ id other w v, s.writers id = some w → s.writers other = some v → w.number = v.number → id = other
  layout : ∃ order id number begun, Layout s order id number begun

theorem keptIdle : Kept (idle : SharedStream α) where
  known id w here := by cases here
  apart id other w v here := by cases here
  layout := by
    refine ⟨[],0,0,[],rfl,List.nodup_nil,fun k => ?_,fun some => absurd rfl some,fun other v here => ?_⟩
    · exact iff_of_false List.not_mem_nil (fun finished => Nat.not_lt_zero k finished.1)
    · cases here

theorem taggedAppend (number : Nat) (first last : List α) :
    tagged number (first ++ last) = tagged number first ++ tagged number last := List.map_append

theorem taggedItems (number : Nat) (items : List α) : (tagged number items).map Prod.snd = items := by
  rw [tagged,List.map_map]
  exact List.map_id items

theorem taggedMem {number : Nat} {items : List α} {entry : Nat × α} (inside : entry ∈ tagged number items) :
    entry.1 = number := by
  obtain ⟨item,_,rfl⟩ := List.mem_map.mp inside
  rfl

theorem taggedLast {number : Nat} {items : List α} (before : List (Nat × α)) (filled : items ≠ []) :
    (before ++ tagged number items).getLast?.map Prod.fst = some number := by
  have there : tagged number items ≠ [] := fun empty => filled (List.map_eq_nil_iff.mp empty)
  rw [List.getLast?_append_of_ne_nil before there,List.getLast?_eq_some_getLast there,Option.map_some]
  exact congrArg some (taggedMem (List.getLast_mem there))

section
variable {s : SharedStream α}

@[simp] theorem setWriterSelf (id : Nat) (writer : Option (StreamWriter α)) :
    (setWriter s id writer).writers id = writer := Function.update_self ..

@[simp] theorem setWriterOther {id other : Nat} (writer : Option (StreamWriter α)) (apart : other ≠ id) :
    (setWriter s id writer).writers other = s.writers other := Function.update_of_ne apart ..

theorem setWriterCases {id other : Nat} {writer : Option (StreamWriter α)} {v : StreamWriter α}
    (there : (setWriter s id writer).writers other = some v) :
    other = id ∧ writer = some v ∨ other ≠ id ∧ s.writers other = some v := by
  by_cases same : other = id
  · subst same
    exact .inl ⟨rfl,setWriterSelf other writer ▸ there⟩
  · exact .inr ⟨same,setWriterOther writer same ▸ there⟩

theorem wholesMem {order : List Nat} {entry : Nat × α} (inside : entry ∈ s.wholes order) : entry.1 ∈ order := by
  obtain ⟨number,known,here⟩ := List.mem_flatMap.mp inside
  rwa [taggedMem here]

theorem layoutWhole {order : List Nat} {id number : Nat} {begun : List α}
    (layout : Layout s order id number begun) : Whole s := by
  refine ⟨order,number,begun,layout.wire,layout.nodup,layout.finished,?_,fun partly finished => ?_⟩
  · by_cases empty : begun = []
    · rw [empty]
      exact List.nil_prefix
    · obtain ⟨w,_,_,message⟩ := layout.current empty
      exact ⟨w.rest,message⟩
  · obtain ⟨w,here,same,_⟩ := layout.current partly
    exact finished.2 id w here same

theorem keptWhole (kept : Kept s) : Whole s := by
  obtain ⟨order,id,number,begun,layout⟩ := kept.layout
  exact layoutWhole layout

/- An idle stream carries all messages, each as one piece. -/
theorem wholeIdle (whole : Whole s) (quiet : ∀ id, s.writers id = none) :
    ∃ order : List Nat, order.Perm (List.range s.messages.length) ∧ s.wire.map Prod.snd = order.flatMap s.message := by
  obtain ⟨order,number,begun,wire,nodup,finished,front,partly⟩ := whole
  have all : ∀ k, s.Finished k ↔ k < s.messages.length := fun k =>
    ⟨fun done => done.1,fun below => ⟨below,fun id w here => by rw [quiet id] at here; cases here⟩⟩
  have nothing : begun = [] := by
    by_contra filled
    have unfinished := partly filled
    rw [all,Nat.not_lt] at unfinished
    have empty : s.message number = [] := List.getD_eq_default _ _ unfinished
    rw [empty] at front
    exact filled (List.prefix_nil.mp front)
  refine ⟨order,?_,?_⟩
  · refine (List.perm_ext_iff_of_nodup nodup List.nodup_range).mpr fun k => ?_
    rw [finished,all,List.mem_range]
  · rw [wire,nothing,wholes,List.map_append,List.map_flatMap]
    simp only [taggedItems,List.append_nil]

/- A message that is begun changes none of those before. -/
theorem messageBefore (s : SharedStream α) (message : List α) {k : Nat} (below : k < s.messages.length) :
    SharedStream.message {s with messages := s.messages ++ [message]} k = s.message k :=
  List.getD_append _ _ _ _ below

theorem wholesBefore (s : SharedStream α) (message : List α) {order : List Nat}
    (below : ∀ k ∈ order, k < s.messages.length) :
    wholes {s with messages := s.messages ++ [message]} order = s.wholes order := by
  induction order with
  | nil => rfl
  | cons k order ih =>
    have rest := ih fun other inside => below other (List.mem_cons_of_mem k inside)
    unfold wholes at rest ⊢
    rw [List.flatMap_cons,List.flatMap_cons,rest,messageBefore s message (below k List.mem_cons_self)]

theorem messageLast (s : SharedStream α) (message : List α) :
    SharedStream.message {s with messages := s.messages ++ [message]} s.messages.length = message := by
  unfold SharedStream.message
  rw [List.getD_append_right _ _ _ _ (Nat.le_refl _),Nat.sub_self]
  rfl

theorem beginFinished {id : Nat} (message : List α) (free : s.writers id = none) (k : Nat) :
    Finished (setWriter {s with messages := s.messages ++ [message]} id (some ⟨s.messages.length,message⟩)) k ↔
      s.Finished k := by
  constructor
  · rintro ⟨below,through⟩
    have other : k ≠ s.messages.length := fun same => through id _ (setWriterSelf ..) same.symm
    have under : k < s.messages.length + 1 := by simpa only [setWriter,List.length_append,List.length_singleton] using below
    refine ⟨by omega,fun writer w there => through writer w ?_⟩
    have apart : writer ≠ id := by
      rintro rfl
      rw [free] at there
      cases there
    rwa [setWriterOther _ apart]
  · rintro ⟨below,through⟩
    refine ⟨?_,fun writer w there => ?_⟩
    · simp only [setWriter,List.length_append]
      omega
    · rcases setWriterCases there with ⟨_,same⟩ | ⟨_,before⟩
      · cases same
        exact Nat.ne_of_gt below
      · exact through writer w before

theorem beginKept (kept : Kept s) (id : Nat) (message : List α) : Kept (begin s id message) := by
  unfold begin
  split
  case isFalse => exact kept
  case isTrue both =>
    obtain ⟨free,filled⟩ := both
    have free : s.writers id = none := Option.isNone_iff_eq_none.mp free
    obtain ⟨order,front,number,begun,layout⟩ := kept.layout
    have finished := beginFinished message free
    have old : ∀ k ∈ order, k < s.messages.length := fun k inside => ((layout.finished k).mp inside).1
    refine ⟨fun other w there => ?_,fun first second w v one two same => ?_,order,front,number,begun,?_,layout.nodup,
      fun k => (layout.finished k).trans (finished k).symm,fun partly => ?_,fun other v there unwritten => ?_⟩
    · rcases setWriterCases there with ⟨_,same⟩ | ⟨_,before⟩
      · cases same
        refine ⟨filled,?_⟩
        simp only [setWriter,List.length_append,List.length_singleton,Nat.lt_succ_self]
      · obtain ⟨left,below⟩ := kept.known other w before
        refine ⟨left,?_⟩
        simp only [setWriter,List.length_append]
        omega
    · rcases setWriterCases one with ⟨here,new⟩ | ⟨_,before⟩ <;> rcases setWriterCases two with ⟨there,also⟩ | ⟨_,later⟩
      · exact here.trans there.symm
      · cases new
        exact absurd same.symm (Nat.ne_of_lt (kept.known second v later).2)
      · cases also
        exact absurd same (Nat.ne_of_lt (kept.known first w before).2)
      · exact kept.apart first second w v before later same
    · exact layout.wire.trans (congrArg (· ++ tagged number begun) (wholesBefore s message old).symm)
    · obtain ⟨w,here,same,split⟩ := layout.current partly
      have apart : front ≠ id := by
        rintro rfl
        rw [free] at here
        cases here
      refine ⟨w,(setWriterOther _ apart).trans here,same,split.trans ?_⟩
      exact (messageBefore s message (same ▸ (kept.known front w here).2)).symm
    · rcases setWriterCases there with ⟨_,same⟩ | ⟨_,before⟩
      · cases same
        exact (messageLast s message).symm
      · exact (layout.others other v before unwritten).trans (messageBefore s message (kept.known other v before).2).symm

theorem wholesLast (order : List Nat) (number : Nat) :
    s.wholes (order ++ [number]) = s.wholes order ++ tagged number (s.message number) := by
  rw [wholes,List.flatMap_append,List.flatMap_singleton]
  rfl

/- Where the stream stands with a writer that has it for itself. -/
theorem aloneLayout (kept : Kept s) {id : Nat} {w : StreamWriter α} (here : s.writers id = some w)
    (alone : ∀ other v, other ≠ id → s.writers other = some v → v.rest = s.message v.number) :
    ∃ order begun, s.wire = s.wholes order ++ tagged w.number begun ∧ order.Nodup ∧
      (∀ k, k ∈ order ↔ s.Finished k) ∧ begun ++ w.rest = s.message w.number := by
  obtain ⟨order,front,number,begun,layout⟩ := kept.layout
  by_cases empty : begun = []
  · refine ⟨order,[],?_,layout.nodup,layout.finished,layout.others id w here (.inr empty)⟩
    rw [layout.wire,empty]
    rfl
  · obtain ⟨v,there,same,split⟩ := layout.current empty
    have first : front = id := by
      by_contra apart
      have unwritten := alone front v apart there
      rw [unwritten,same] at split
      exact empty (List.append_left_eq_self.mp split)
    subst first
    cases Option.some.inj (here.symm.trans there)
    rw [← same] at split
    exact ⟨order,begun,same ▸ layout.wire,layout.nodup,layout.finished,split⟩

theorem writeNothing {id : Nat} {w : StreamWriter α} (here : s.writers id = some w) (left : w.rest ≠ []) :
    write s id 0 = s := by
  have more : ¬w.rest.length ≤ 0 := fun none => left (List.length_eq_zero_iff.mp (Nat.le_zero.mp none))
  simp only [write,here,if_neg more,List.take_zero,List.drop_zero,tagged,List.map_nil,List.append_nil,setWriter]
  rw [← here,Function.update_eq_self]

/- A writer writes the rest of its message. -/
theorem lastPartKept (kept : Kept s) {id : Nat} {w : StreamWriter α} (here : s.writers id = some w)
    (alone : ∀ other v, other ≠ id → s.writers other = some v → v.rest = s.message v.number) :
    Kept (setWriter {s with wire := s.wire ++ tagged w.number w.rest} id none) := by
  obtain ⟨order,begun,wire,nodup,finished,split⟩ := aloneLayout kept here alone
  have old : ∀ {other v}, (setWriter {s with wire := s.wire ++ tagged w.number w.rest} id none).writers other = some v →
      other ≠ id ∧ s.writers other = some v := by
    intro other v there
    rcases setWriterCases there with ⟨_,gone⟩ | before
    · cases gone
    · exact before
  have unfinished : ¬s.Finished w.number := fun done => done.2 id w here rfl
  refine ⟨fun other v there => kept.known other v (old there).2,
    fun first second v u one two => kept.apart first second v u (old one).2 (old two).2,
    order ++ [w.number],id,0,[],?_,?_,fun k => ?_,fun partly => absurd rfl partly,
    fun other v there _ => alone other v (old there).1 (old there).2⟩
  · have message : tagged w.number (s.message w.number) = tagged w.number begun ++ tagged w.number w.rest := by
      rw [← split,taggedAppend]
    calc s.wire ++ tagged w.number w.rest
        = s.wholes order ++ (tagged w.number begun ++ tagged w.number w.rest) := by rw [wire,List.append_assoc]
      _ = s.wholes (order ++ [w.number]) := by rw [wholesLast,message]
      _ = s.wholes (order ++ [w.number]) ++ tagged 0 [] := (List.append_nil _).symm
  · refine List.nodup_append.mpr ⟨nodup,List.pairwise_singleton _ _,fun a inside b last same => ?_⟩
    rw [List.mem_singleton.mp last] at same
    exact unfinished ((finished w.number).mp (same ▸ inside))
  · rw [List.mem_append,List.mem_singleton,finished]
    constructor
    · rintro (⟨below,through⟩ | rfl)
      · exact ⟨below,fun other v there => through other v (old there).2⟩
      · refine ⟨(kept.known id w here).2,fun other v there same => ?_⟩
        exact (old there).1 (kept.apart other id v w (old there).2 here same)
    · rintro ⟨below,through⟩
      by_cases own : k = w.number
      · exact .inr own
      · refine .inl ⟨below,fun other v there => ?_⟩
        by_cases same : other = id
        · subst same
          cases Option.some.inj (here.symm.trans there)
          exact fun equal => own equal.symm
        · exact through other v ((setWriterOther none same).trans there)

/- A writer writes a part of its message, and not the last one. -/
theorem partKept (kept : Kept s) {id count : Nat} {w : StreamWriter α} (here : s.writers id = some w)
    (alone : ∀ other v, other ≠ id → s.writers other = some v → v.rest = s.message v.number)
    (some_ : 0 < count) (more : count < w.rest.length) :
    Kept (setWriter {s with wire := s.wire ++ tagged w.number (w.rest.take count)} id
      (some {w with rest := w.rest.drop count})) := by
  obtain ⟨order,begun,wire,nodup,finished,split⟩ := aloneLayout kept here alone
  have written : w.rest.take count ≠ [] := fun none => by
    have length := congrArg List.length none
    rw [List.length_take,List.length_nil] at length
    omega
  have numbers : ∀ {other v}, (setWriter {s with wire := s.wire ++ tagged w.number (w.rest.take count)} id
      (some {w with rest := w.rest.drop count})).writers other = some v →
      ∃ u, s.writers other = some u ∧ u.number = v.number := by
    intro other v there
    rcases setWriterCases there with ⟨rfl,same⟩ | ⟨_,before⟩
    · cases same
      exact ⟨w,here,rfl⟩
    · exact ⟨v,before,rfl⟩
  refine ⟨fun other v there => ?_,fun first second v u one two same => ?_,order,id,w.number,begun ++ w.rest.take count,
    ?_,nodup,fun k => ?_,fun _ => ⟨_,setWriterSelf ..,rfl,?_⟩,fun other v there unwritten => ?_⟩
  · rcases setWriterCases there with ⟨_,same⟩ | ⟨_,before⟩
    · cases same
      refine ⟨fun none => ?_,(kept.known id w here).2⟩
      have length := congrArg List.length none
      simp only [List.length_drop,List.length_nil] at length
      omega
    · exact kept.known other v before
  · obtain ⟨a,before,number⟩ := numbers one
    obtain ⟨b,also,as⟩ := numbers two
    exact kept.apart first second a b before also (number.trans (same.trans as.symm))
  · rw [taggedAppend,← List.append_assoc]
    exact congrArg (· ++ _) wire
  · rw [finished]
    constructor
    · rintro ⟨below,through⟩
      refine ⟨below,fun other v there => ?_⟩
      obtain ⟨u,before,number⟩ := numbers there
      exact number ▸ through other u before
    · rintro ⟨below,through⟩
      refine ⟨below,fun other v there => ?_⟩
      by_cases same : other = id
      · subst same
        cases Option.some.inj (here.symm.trans there)
        exact through other {w with rest := w.rest.drop count} (setWriterSelf ..)
      · exact through other v ((setWriterOther _ same).trans there)
  · rw [List.append_assoc,List.take_append_drop]
    exact split
  · rcases setWriterCases there with ⟨same,_⟩ | ⟨apart,before⟩
    · rcases unwritten with other | none
      · exact absurd same other
      · exact absurd (List.append_eq_nil_iff.mp none).2 written
    · exact alone other v apart before

theorem writeKept (kept : Kept s) {id count : Nat} (alone : Alone s id count) : Kept (write s id count) := by
  cases here : s.writers id with
  | none => simpa only [write,here] using kept
  | some w =>
    rcases Nat.eq_zero_or_pos count with rfl | some_
    · rwa [writeNothing here (kept.known id w here).1]
    · simp only [write,here]
      split
      case isTrue all =>
        rw [List.take_of_length_le all]
        exact lastPartKept kept here (alone some_ w here)
      case isFalse part => exact partKept kept here (alone some_ w here) some_ (Nat.lt_of_not_le part)

/- What another writer has begun stays apart from its rest for good. -/
theorem wholeAlone (kept : Kept s) {id count : Nat} (whole : Whole (write s id count)) : Alone s id count := by
  intro some_ w here other v apart there
  by_contra written
  obtain ⟨order,front,number,begun,layout⟩ := kept.layout
  have partly : other = front ∧ begun ≠ [] := by
    by_contra outside
    refine written (layout.others other v there ?_)
    by_cases same : other = front
    · exact .inr (by_contra fun filled => outside ⟨same,filled⟩)
    · exact .inl same
  obtain ⟨rfl,filled⟩ := partly
  obtain ⟨u,also,same,_⟩ := layout.current filled
  cases Option.some.inj (there.symm.trans also)
  have chunk : w.rest.take count ≠ [] := fun none => by
    rcases List.take_eq_nil_iff.mp none with zero | empty
    · omega
    · exact (kept.known id w here).1 empty
  obtain ⟨order',number',begun',wire,_,finished,_,_⟩ := whole
  have unfinished : number ∉ order' := fun inside => by
    have done := ((finished number).mp inside).2 other v
    simp only [write,here,setWriterOther _ apart] at done
    exact done there same
  have on : (write s id count).wire = s.wholes order ++ tagged number begun ++ tagged w.number (w.rest.take count) := by
    simp only [write,here]
    exact congrArg (· ++ _) layout.wire
  rw [on] at wire
  have begins : (number,begun.head filled) ∈ s.wholes order ++ tagged number begun ++ tagged w.number (w.rest.take count) := by
    refine List.mem_append_left _ (List.mem_append_right _ ?_)
    exact List.mem_map.mpr ⟨_,List.head_mem filled,rfl⟩
  rw [wire] at begins
  rcases List.mem_append.mp begins with inside | inside
  · exact unfinished (wholesMem inside)
  · -- so what is begun at the end is of that message, but the last part is not
    have equal : number = number' := taggedMem inside
    have some' : begun' ≠ [] := by
      rintro rfl
      exact List.not_mem_nil inside
    have last := @taggedLast _ w.number _ (s.wholes order ++ tagged number begun) chunk
    rw [wire,taggedLast _ some',← equal] at last
    have one : w.number = v.number := (Option.some.inj last).symm.trans same.symm
    exact apart (kept.apart id other w v here there one).symm

end
end SharedStream
end Ltsm.Library
