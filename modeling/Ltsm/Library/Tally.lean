import Mathlib.Algebra.BigOperators.Ring.List
import Mathlib.Data.List.Nodup
import Mathlib.Data.List.Perm.Basic
import Mathlib.Tactic.Ring

/-! Maps from keys to numbers. Entries are kept as they were inserted; a hash map
hands them out in an order of its own, which can be any. -/
namespace Ltsm.Library
variable {K : Type*}

/- Adds to the entry of a key, which is made if there is none. -/
def tally [DecidableEq K] (n : Nat) (k : K) : List (K × Nat) → List (K × Nat)
  | [] => [(k,n)]
  | entry :: rest => if entry.1 = k then (k,entry.2 + n) :: rest else entry :: tally n k rest

def keys (entries : List (K × Nat)) : List K := entries.map Prod.fst

section
variable [DecidableEq K]

theorem memTally {n : Nat} {k x : K} {entries : List (K × Nat)} :
    x ∈ keys (tally n k entries) ↔ x = k ∨ x ∈ keys entries := by
  induction entries with
  | nil => simp [tally,keys]
  | cons entry rest ih =>
    rw [tally]
    by_cases here : entry.1 = k
    · subst here
      simp [keys]
    · rw [if_neg here]
      simp only [keys,List.map_cons,List.mem_cons] at ih ⊢
      rw [ih,or_left_comm]

theorem nodupTally {n : Nat} {k : K} {entries : List (K × Nat)} (distinct : (keys entries).Nodup) :
    (keys (tally n k entries)).Nodup := by
  induction entries with
  | nil => simp [tally,keys]
  | cons entry rest ih =>
    have tail : (keys rest).Nodup := (List.nodup_cons.mp distinct).2
    have head : entry.1 ∉ keys rest := (List.nodup_cons.mp distinct).1
    rw [tally]
    by_cases here : entry.1 = k
    · subst here
      rw [if_pos rfl]
      exact List.nodup_cons.mpr ⟨head,tail⟩
    · rw [if_neg here]
      refine List.nodup_cons.mpr ⟨?_,ih tail⟩
      intro listed
      obtain same | later := memTally.mp listed
      · exact here same
      · exact head later

end

/- Tallies keep exactly the keys that were put in. -/
structure Keeps (entries : List (K × Nat)) (seen : K → Prop) : Prop where
  distinct : (keys entries).Nodup
  listed : ∀ x, x ∈ keys entries ↔ seen x

theorem keepsNothing : Keeps ([] : List (K × Nat)) fun _ => False :=
  ⟨List.nodup_nil,fun x => by simp [keys]⟩

theorem keepsTally [DecidableEq K] {n : Nat} {k : K} {entries : List (K × Nat)} {seen : K → Prop} (h : Keeps entries seen) :
    Keeps (tally n k entries) fun x => seen x ∨ x = k :=
  ⟨nodupTally h.distinct,fun x => by rw [memTally,h.listed,or_comm]⟩

theorem keepsCongr {entries : List (K × Nat)} {seen other : K → Prop} (same : ∀ x, seen x ↔ other x)
    (h : Keeps entries seen) : Keeps entries other :=
  ⟨h.distinct,fun x => (h.listed x).trans (same x)⟩

section
variable {A : Type*} [DecidableEq K] {key : A → K} {count : A → Nat}

theorem keepsAll (items : List A) {entries : List (K × Nat)} {seen : K → Prop} (h : Keeps entries seen) :
    Keeps (items.foldl (fun entries a => tally (count a) (key a) entries) entries)
      fun x => seen x ∨ ∃ a ∈ items, key a = x := by
  induction items generalizing entries seen with
  | nil => exact keepsCongr (by simp) h
  | cons a rest ih =>
    refine keepsCongr (fun x => ?_) (ih (keepsTally h))
    simp only [List.exists_mem_cons_iff,or_assoc,@eq_comm _ x]

end

/- The order in which a map's entries come out. -/
structure HashOrder (K : Type*) where
  order : List (K × Nat) → List (K × Nat)
  perm : ∀ entries, (order entries).Perm entries

/- The entries as they were inserted. -/
def HashOrder.unchanged : HashOrder K := ⟨id,fun _ => .refl _⟩

theorem keepsOrder (hash : HashOrder K) {entries : List (K × Nat)} {seen : K → Prop} (h : Keeps entries seen) :
    Keeps (hash.order entries) seen := by
  have same : (keys (hash.order entries)).Perm (keys entries) := (hash.perm entries).map Prod.fst
  exact ⟨same.nodup_iff.mpr h.distinct,fun x => same.mem_iff.trans (h.listed x)⟩

/- What the entries of a key come to. -/
def weight [DecidableEq K] (k : K) (entries : List (K × Nat)) : Nat :=
  (entries.map fun entry => if entry.1 = k then entry.2 else 0).sum

section
variable [DecidableEq K] {A : Type*} {key : A → K} {count : A → Nat}

theorem weightTally (n : Nat) (k x : K) (entries : List (K × Nat)) :
    weight x (tally n k entries) = weight x entries + if k = x then n else 0 := by
  induction entries with
  | nil => simp [weight,tally]
  | cons entry rest ih =>
    rw [tally]
    by_cases here : entry.1 = k
    · subst here
      rw [if_pos rfl]
      simp only [weight,List.map_cons,List.sum_cons]
      split <;> omega
    · rw [if_neg here]
      simp only [weight,List.map_cons,List.sum_cons] at ih ⊢
      omega

theorem weightAll (items : List A) (x : K) (entries : List (K × Nat)) :
    weight x (items.foldl (fun entries a => tally (count a) (key a) entries) entries) =
      weight x entries + (items.map fun a => if key a = x then count a else 0).sum := by
  induction items generalizing entries with
  | nil => simp
  | cons a rest ih => rw [List.foldl_cons,ih,weightTally,List.map_cons,List.sum_cons,Nat.add_assoc]

theorem weightPerm {entries others : List (K × Nat)} (perm : entries.Perm others) (x : K) :
    weight x entries = weight x others := (perm.map _).sum_eq

/- With a key only once, its entry is what it weighs. -/
theorem entryWeight {entries : List (K × Nat)} (distinct : (keys entries).Nodup) {k : K} {n : Nat} :
    (k,n) ∈ entries ↔ k ∈ keys entries ∧ weight k entries = n := by
  induction entries with
  | nil => simp [keys]
  | cons entry rest ih =>
    obtain ⟨head,tail⟩ := List.nodup_cons.mp distinct
    have later := ih tail
    have total : weight k (entry :: rest) = (if entry.1 = k then entry.2 else 0) + weight k rest := rfl
    have listed : k ∈ keys (entry :: rest) ↔ k = entry.1 ∨ k ∈ keys rest := List.mem_cons
    rw [List.mem_cons,later,listed,total]
    by_cases here : entry.1 = k
    · subst here
      have none : weight entry.1 rest = 0 := by
        apply List.sum_eq_zero
        intro value inRest
        obtain ⟨other,otherListed,rfl⟩ := List.mem_map.mp inRest
        exact if_neg fun same => head (List.mem_map.mpr ⟨other,otherListed,same⟩)
      simp [head,none,Prod.ext_iff,eq_comm,keys]
    · have apart : k ≠ entry.1 := fun same => here same.symm
      simp [here,apart,Prod.ext_iff]

/- Two maps with the same keys and weights are the same, but for the order. -/
theorem sameWeights {entries others : List (K × Nat)} {seen : K → Prop} (one : Keeps entries seen)
    (other : Keeps others seen) (weights : ∀ k, weight k entries = weight k others) : entries.Perm others := by
  refine (List.perm_ext_iff_of_nodup one.distinct.of_map other.distinct.of_map).mpr fun entry => ?_
  obtain ⟨k,n⟩ := entry
  rw [entryWeight one.distinct,entryWeight other.distinct,one.listed,other.listed,weights]

end

/- The first entry with the greatest number. -/
def maxEntry : List (K × Nat) → Option (K × Nat)
  | [] => none
  | entry :: rest => some (rest.foldl (fun best entry => if best.2 < entry.2 then entry else best) entry)

theorem maxEntryListed {entries : List (K × Nat)} {entry : K × Nat} (h : maxEntry entries = some entry) :
    entry ∈ entries := by
  have kept (rest : List (K × Nat)) (best : K × Nat) :
      rest.foldl (fun best entry => if best.2 < entry.2 then entry else best) best ∈ best :: rest := by
    induction rest generalizing best with
    | nil => exact List.mem_cons_self
    | cons next rest ih =>
      rw [List.foldl_cons]
      split
      · exact List.mem_cons_of_mem _ (ih next)
      · obtain same | later := List.mem_cons.mp (ih best)
        · rw [same]
          exact List.mem_cons_self
        · exact List.mem_cons_of_mem _ (List.mem_cons_of_mem _ later)
  cases entries with
  | nil => cases h
  | cons first rest =>
    cases Option.some.inj h
    exact kept rest first

end Ltsm.Library
