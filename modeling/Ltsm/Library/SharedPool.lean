import Ltsm.Library.FirstMatch
import Mathlib.Data.List.Basic

/-! A pool with a fixed number of slots that hold pointers to shared records. A
record outlives its slot: whoever still holds the pointer reads and writes it. -/
namespace Ltsm.Library
variable {α κ : Type*}

structure SharedPool (α : Type*) where
  heap : List α
  slots : List (Option Nat)
  deriving DecidableEq, Repr

namespace SharedPool
variable {pool : SharedPool α} {ptr other : Nat} {a x : α} {f : α → α}

def empty (size : Nat) : SharedPool α := ⟨[],List.replicate size none⟩

def get (pool : SharedPool α) (ptr : Nat) : Option α := pool.heap[ptr]?

def modify (ptr : Nat) (f : α → α) (pool : SharedPool α) : SharedPool α :=
  {pool with heap := pool.heap.modify ptr f}

/- The records that have a slot, in the order of the slots. -/
def entries (pool : SharedPool α) : List (Nat × α) :=
  pool.slots.filterMap fun slot => slot.bind fun ptr => (pool.get ptr).map (ptr,·)

def full (pool : SharedPool α) : Bool := pool.slots.all Option.isSome

/- The pointer of a new record goes to the first empty slot. -/
def insert (a : α) (pool : SharedPool α) : SharedPool α :=
  ⟨pool.heap ++ [a],updateFirst Option.isNone (fun _ => some pool.heap.length) pool.slots⟩

/- The first slot with a record that matches is emptied. -/
def release (test : α → Bool) (pool : SharedPool α) : SharedPool α :=
  {pool with slots := updateFirst (fun slot => (slot.bind pool.get).any test) (fun _ => none) pool.slots}

def Allocated (pool : SharedPool α) (ptr : Nat) : Prop := ptr < pool.heap.length

/- No two records of the heap share a key. -/
def UniqueKeys (key : α → κ) (pool : SharedPool α) : Prop :=
  ∀ p q x y, pool.get p = some x → pool.get q = some y → key x = key y → p = q

theorem getAllocated (found : pool.get ptr = some x) : pool.Allocated ptr :=
  (List.getElem?_eq_some_iff.mp found).1

theorem allocatedGet (allocated : pool.Allocated ptr) : ∃ x, pool.get ptr = some x :=
  ⟨_,List.getElem?_eq_getElem allocated⟩

@[simp] theorem getEmpty (size : Nat) : (empty size : SharedPool α).get ptr = none := by
  simp [get,empty]

theorem getModify : (pool.modify ptr f).get other =
    if ptr = other then (pool.get other).map f else pool.get other := by
  unfold get modify
  rw [List.getElem?_modify]
  split <;> simp

theorem getModifySelf (found : pool.get ptr = some x) : (pool.modify ptr f).get ptr = some (f x) := by
  simp [getModify,found]

/- What stands behind a pointer after a change, and what stood there before. -/
theorem modifySource (found : (pool.modify ptr f).get other = some x) :
    ∃ old, pool.get other = some old ∧ (ptr = other ∧ x = f old ∨ ptr ≠ other ∧ x = old) := by
  rw [getModify] at found
  split at found
  · rename_i same
    obtain ⟨old,before,image⟩ := Option.map_eq_some_iff.mp found
    exact ⟨old,before,.inl ⟨same,image.symm⟩⟩
  · rename_i different
    exact ⟨x,found,.inr ⟨different,rfl⟩⟩

@[simp] theorem allocatedModify : (pool.modify ptr f).Allocated other ↔ pool.Allocated other := by
  simp [Allocated,modify]

theorem getInsert : (pool.insert a).get other =
    if other = pool.heap.length then some a else pool.get other := by
  unfold get insert
  rw [List.getElem?_append]
  split
  · rename_i before
    rw [if_neg (by omega)]
  · split
    · simp_all
    · rw [List.getElem?_eq_none (by simp; omega),List.getElem?_eq_none (by omega)]

theorem getInsertOld (found : pool.get other = some x) : (pool.insert a).get other = some x := by
  have allocated := getAllocated found
  unfold Allocated at allocated
  rw [getInsert,if_neg (by omega),found]

theorem insertSource (found : (pool.insert a).get other = some x) :
    other = pool.heap.length ∧ x = a ∨ pool.get other = some x := by
  rw [getInsert] at found
  split at found
  · rename_i new
    exact .inl ⟨new,(Option.some.inj found).symm⟩
  · exact .inr found

/- The two pools hold the same records, as far as `g` can tell. -/
def Alike {β : Type*} (g : α → β) (s t : SharedPool α) : Prop := ∀ p, (t.get p).map g = (s.get p).map g

section
variable {β : Type*} {g : α → β} {s t u : SharedPool α}

theorem Alike.refl (s : SharedPool α) : Alike g s s := fun _ => rfl

theorem Alike.trans (first : Alike g s t) (second : Alike g t u) : Alike g s u :=
  fun p => (second p).trans (first p)

theorem Alike.source (same : Alike g s t) (found : t.get ptr = some x) :
    ∃ old, s.get ptr = some old ∧ g x = g old := by
  have image := same ptr
  rw [found,Option.map_some] at image
  obtain ⟨old,before,equal⟩ := Option.map_eq_some_iff.mp image.symm
  exact ⟨old,before,equal.symm⟩

theorem Alike.target (same : Alike g s t) (found : s.get ptr = some x) :
    ∃ new, t.get ptr = some new ∧ g new = g x := by
  have image := same ptr
  rw [found,Option.map_some] at image
  exact Option.map_eq_some_iff.mp image

theorem alikeModify (keeps : ∀ x, g (f x) = g x) : Alike g s (s.modify ptr f) := by
  intro q
  rw [getModify]
  split
  · cases s.get q <;> simp [keeps]
  · rfl

end

theorem memEntries : (ptr,x) ∈ pool.entries ↔ some ptr ∈ pool.slots ∧ pool.get ptr = some x := by
  unfold entries
  rw [List.mem_filterMap]
  constructor
  · intro inside
    obtain ⟨slot,held,image⟩ := inside
    obtain ⟨p,same,image⟩ := Option.bind_eq_some_iff.mp image
    obtain ⟨y,found,pair⟩ := Option.map_eq_some_iff.mp image
    cases pair
    exact ⟨same ▸ held,found⟩
  · intro inside
    exact ⟨some ptr,inside.1,by simp [inside.2]⟩

theorem entriesGet (inside : (ptr,x) ∈ pool.entries) : pool.get ptr = some x :=
  (memEntries.mp inside).2

/- The entries of a pool and of its slots when some have changed. -/
theorem entriesModify : (pool.modify ptr f).entries =
    pool.entries.map fun e => (e.1,if ptr = e.1 then f e.2 else e.2) := by
  unfold entries
  rw [List.map_filterMap]
  refine List.filterMap_congr fun slot _ => ?_
  cases slot with
  | none => rfl
  | some p =>
    rw [Option.bind_some,Option.bind_some,getModify]
    cases pool.get p <;> split <;> simp_all

theorem entriesRelease (test : α → Bool) : (pool.release test).entries = pool.entries.eraseP fun e => test e.2 := by
  refine filterMapUpdate (f := fun _ => none) (g := fun slot => slot.bind fun ptr => (pool.get ptr).map (ptr,·))
    (fun slot => ?_) (fun _ => rfl) pool.slots
  cases slot with
  | none => rfl
  | some p => cases found : pool.get p <;> simp [found]

theorem entriesInsert (room : pool.full = false) (allocated : ∀ p, some p ∈ pool.slots → pool.Allocated p) :
    (pool.insert a).entries.Perm ((pool.heap.length,a) :: pool.entries) := by
  obtain ⟨slot,inside,vacant⟩ := List.all_eq_false.mp room
  have free : slot = none := by simpa using vacant
  cases found : pool.slots.find? Option.isNone with
  | none =>
    have held := List.find?_eq_none.mp found slot inside
    exact absurd free (by simpa using held)
  | some first =>
    have old {p : Nat} (held : some p ∈ pool.slots) : (pool.insert a).get p = pool.get p := by
      rw [getInsert,if_neg (Nat.ne_of_lt (allocated p held))]
    have new : (pool.insert a).get pool.heap.length = some a := by rw [getInsert,if_pos rfl]
    -- the emptied slot stands for nothing before
    have before : pool.entries.Perm ((pool.slots.eraseP Option.isNone).filterMap
        fun slot => slot.bind fun ptr => (pool.get ptr).map (ptr,·)) := by
      have moved := (permErase found).filterMap fun slot => slot.bind fun ptr => (pool.get ptr).map (ptr,·)
      have vacant : first = none := by simpa using List.find?_some found
      rwa [vacant] at moved
    have after := (permUpdate (f := fun _ => some pool.heap.length) found).filterMap
      fun slot => slot.bind fun ptr => ((pool.insert a).get ptr).map (ptr,·)
    rw [List.filterMap_cons,Option.bind_some,new,Option.map_some] at after
    refine after.trans (.cons _ (.trans (.of_eq ?_) before.symm))
    refine List.filterMap_congr fun slot inside => ?_
    cases slot with
    | none => rfl
    | some p => rw [Option.bind_some,Option.bind_some,old (List.mem_of_mem_eraseP inside)]

/- The one record with a key leaves the pool, whatever has been done to it before. -/
theorem entriesTaken [DecidableEq κ] {key : α → κ} (found : pool.get ptr = some x) (keeps : key (f x) = key x)
    (apart : (pool.entries.map fun e => key e.2).Nodup) :
    ((pool.modify ptr f).release fun y => key y = key x).entries = pool.entries.filter fun e => key e.2 ≠ key x := by
  have own : ∀ e ∈ pool.entries, ptr = e.1 → e.2 = x := fun e inside same =>
    Option.some.inj ((same ▸ entriesGet inside).symm.trans found)
  have keys : (pool.modify ptr f).entries.map (fun e => key e.2) = pool.entries.map fun e => key e.2 := by
    rw [entriesModify,List.map_map]
    refine List.map_congr_left fun e inside => ?_
    dsimp only [Function.comp_apply]
    split
    · rename_i same
      rw [own e inside same,keeps]
    · rfl
  rw [entriesRelease]
  refine (@eraseUnique (Nat × α) κ _ (fun e => key e.2) _ (key x) (keys ▸ apart)).trans ?_
  rw [entriesModify,List.filter_map]
  have same : pool.entries.filter ((fun e => decide (key e.2 ≠ key x)) ∘ fun e => (e.1,if ptr = e.1 then f e.2 else e.2)) =
      pool.entries.filter fun e => key e.2 ≠ key x := by
    refine List.filter_congr fun e inside => ?_
    dsimp only [Function.comp_apply]
    split
    · rename_i here
      rw [own e inside here,keeps]
    · rfl
  rw [same]
  refine (List.map_congr_left fun e inside => ?_).trans (List.map_id _)
  obtain ⟨inside,other⟩ := List.mem_filter.mp inside
  have apart : ptr ≠ e.1 := fun here => of_decide_eq_true other (congrArg key (own e inside here))
  rw [if_neg apart,id]

/- A new record may as well be changed before it is put into the pool. -/
theorem modifyInsert : (pool.insert a).modify pool.heap.length f = pool.insert (f a) := by
  unfold modify insert List.modify
  have reached := List.modifyTailIdx_add (List.modifyHead f) 0 pool.heap [a]
  exact congrArg (SharedPool.mk · _) reached

theorem insertSlots {slot : Option Nat} (held : slot ∈ (pool.insert a).slots) :
    slot ∈ pool.slots ∨ slot = some pool.heap.length := by
  rcases memUpdateFirst held with old | ⟨_,_,_,new⟩
  · exact .inl old
  · exact .inr new

theorem releaseSlots {test : α → Bool} (held : some ptr ∈ (pool.release test).slots) :
    some ptr ∈ pool.slots := by
  rcases memUpdateFirst held with old | ⟨_,_,_,new⟩
  · exact old
  · contradiction

/- Records with the same key are one and the same. -/
theorem uniqueSame {key : α → κ} {y : α} (unique : UniqueKeys key pool) (here : pool.get ptr = some x)
    (there : pool.get other = some y) (same : key x = key y) : ptr = other ∧ x = y := by
  have pointer := unique ptr other x y here there same
  subst pointer
  exact ⟨rfl,Option.some.inj (here.symm.trans there)⟩

theorem uniqueModify {key : α → κ} (kept : ∀ x, key (f x) = key x) (unique : UniqueKeys key pool) :
    UniqueKeys key (pool.modify ptr f) := by
  intro p q x y atP atQ same
  obtain ⟨x₀,beforeP,fromP⟩ := modifySource atP
  obtain ⟨y₀,beforeQ,fromQ⟩ := modifySource atQ
  have keyX : key x = key x₀ := by
    obtain ⟨_,image⟩ | ⟨_,image⟩ := fromP
    · rw [image,kept]
    · rw [image]
  have keyY : key y = key y₀ := by
    obtain ⟨_,image⟩ | ⟨_,image⟩ := fromQ
    · rw [image,kept]
    · rw [image]
  exact unique p q x₀ y₀ beforeP beforeQ (keyX.symm.trans (same.trans keyY))

theorem uniqueInsert {key : α → κ} (fresh : ∀ p x, pool.get p = some x → key x ≠ key a)
    (unique : UniqueKeys key pool) : UniqueKeys key (pool.insert a) := by
  intro p q x y atP atQ same
  rcases insertSource atP with ⟨newP,rfl⟩ | oldP
  · rcases insertSource atQ with ⟨newQ,rfl⟩ | oldQ
    · exact newP.trans newQ.symm
    · exact absurd same.symm (fresh q y oldQ)
  · rcases insertSource atQ with ⟨newQ,rfl⟩ | oldQ
    · exact absurd same (fresh p x oldP)
    · exact unique p q x y oldP oldQ same

end SharedPool
end Ltsm.Library
