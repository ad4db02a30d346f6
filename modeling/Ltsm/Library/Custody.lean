import Mathlib.Data.List.Nodup
import Mathlib.Data.List.Range
import Mathlib.Data.List.Perm.Basic

/-! Things handed out one after the other, each kept in one place until it is let go of,
and closed some number of times then. -/
namespace Ltsm.Library

/- The numbers below `next` have been handed out. -/
structure Stock where
  next : Nat
  owned : List Nat
  closed : List Nat

namespace Stock

/- Nothing is kept in two places, and nothing kept has been closed. -/
structure Sound (s : Stock) : Prop where
  distinct : s.owned.Nodup
  live : ∀ d ∈ s.owned, d < s.next ∧ d ∉ s.closed
  known : ∀ d ∈ s.closed, d < s.next

/- Each thing handed out is still kept, or has been closed exactly once. -/
def Once (s : Stock) : Prop := ∀ d < s.next, s.closed.count d + s.owned.count d = 1

/- A step that hands out the next `fresh` and lets go of `released`, closing each as often
as stands beside it. -/
structure Moves (s t : Stock) (fresh : Nat) (released : List (Nat × Nat)) : Prop where
  next : t.next = s.next + fresh
  owned : (s.owned ++ List.range' s.next fresh).Perm (t.owned ++ released.map Prod.fst)
  closed : t.closed = s.closed ++ released.flatMap fun r => List.replicate r.2 r.1

section
variable {s t : Stock} {fresh : Nat} {released : List (Nat × Nat)}

theorem countReleased {d k : Nat} (distinct : (released.map Prod.fst).Nodup) (inside : (d,k) ∈ released) :
    (released.flatMap fun r => List.replicate r.2 r.1).count d = k := by
  induction released with
  | nil => simp at inside
  | cons r rest ih =>
    obtain ⟨apart,distinct⟩ := List.nodup_cons.mp distinct
    rw [List.flatMap_cons,List.count_append,List.count_replicate]
    rcases List.mem_cons.mp inside with rfl | later
    · have absent : (rest.flatMap fun r => List.replicate r.2 r.1).count d = 0 := by
        refine List.count_eq_zero.mpr fun there => ?_
        obtain ⟨r,member,again⟩ := List.mem_flatMap.mp there
        have same : d = r.1 := List.eq_of_mem_replicate again
        exact apart (List.mem_map.mpr ⟨r,member,same.symm⟩)
      simp [absent]
    · have other : r.1 ≠ d := fun same => apart (same ▸ List.mem_map.mpr ⟨(d,k),later,rfl⟩)
      rw [ih distinct later]
      simp [other]

theorem countKept {d : Nat} (absent : d ∉ released.map Prod.fst) :
    (released.flatMap fun r => List.replicate r.2 r.1).count d = 0 := by
  refine List.count_eq_zero.mpr fun there => ?_
  obtain ⟨r,member,again⟩ := List.mem_flatMap.mp there
  have same : d = r.1 := List.eq_of_mem_replicate again
  exact absent (List.mem_map.mpr ⟨r,member,same.symm⟩)

theorem handedOut (sound : s.Sound) : (s.owned ++ List.range' s.next fresh).Nodup := by
  refine List.nodup_append.mpr ⟨sound.distinct,List.nodup_range',fun d inside e new same => ?_⟩
  have old := (sound.live d inside).1
  have later := List.mem_range'_1.mp (same ▸ new)
  omega

theorem unclosed (sound : s.Sound) {d : Nat} (inside : d ∈ s.owned ++ List.range' s.next fresh) :
    d < s.next + fresh ∧ d ∉ s.closed := by
  rcases List.mem_append.mp inside with old | new
  · exact ⟨Nat.lt_add_right fresh (sound.live d old).1,(sound.live d old).2⟩
  · have range := List.mem_range'_1.mp new
    exact ⟨range.2,fun closed => by have known := sound.known d closed; omega⟩

theorem movesSound (moves : s.Moves t fresh released) (sound : s.Sound) : t.Sound := by
  have distinct := moves.owned.nodup_iff.mp (handedOut sound)
  refine ⟨(List.nodup_append.mp distinct).1,fun d inside => ?_,fun d inside => ?_⟩
  · have before := unclosed sound (moves.owned.mem_iff.mpr (List.mem_append_left _ inside))
    rw [moves.next]
    refine ⟨before.1,fun closed => ?_⟩
    rw [moves.closed] at closed
    rcases List.mem_append.mp closed with old | new
    · exact before.2 old
    · obtain ⟨r,member,again⟩ := List.mem_flatMap.mp new
      exact (List.nodup_append.mp distinct).2.2 d inside r.1 (List.mem_map_of_mem member)
        (List.eq_of_mem_replicate again)
  · rw [moves.next]
    rw [moves.closed] at inside
    rcases List.mem_append.mp inside with old | new
    · exact Nat.lt_add_right fresh (sound.known d old)
    · obtain ⟨r,member,again⟩ := List.mem_flatMap.mp new
      rw [List.eq_of_mem_replicate again]
      exact (unclosed sound (moves.owned.mem_iff.mpr (List.mem_append_right _ (List.mem_map_of_mem member)))).1

theorem atReleased (moves : s.Moves t fresh released) (sound : s.Sound) {d k : Nat} (inside : (d,k) ∈ released) :
    d < t.next ∧ t.closed.count d + t.owned.count d = k ∧
      (d < s.next → s.closed.count d + s.owned.count d = 1) := by
  have distinct := moves.owned.nodup_iff.mp (handedOut sound)
  obtain ⟨_,apart,split⟩ := List.nodup_append.mp distinct
  have first : d ∈ released.map Prod.fst := List.mem_map.mpr ⟨(d,k),inside,rfl⟩
  have before := moves.owned.mem_iff.mpr (List.mem_append_right _ first)
  obtain ⟨low,unclosed⟩ := unclosed sound before
  have fresh_ : s.closed.count d = 0 := List.count_eq_zero.mpr unclosed
  have gone : t.owned.count d = 0 := List.count_eq_zero.mpr fun there => split d there d first rfl
  refine ⟨moves.next ▸ low,?_,fun old => ?_⟩
  · rw [moves.closed,List.count_append,countReleased apart inside,fresh_,gone]
    omega
  · have kept : d ∈ s.owned := by
      refine (List.mem_append.mp before).resolve_right fun new => ?_
      have range := List.mem_range'_1.mp new
      omega
    rw [fresh_,List.count_eq_one_of_mem sound.distinct kept]

theorem atKept (moves : s.Moves t fresh released) (sound : s.Sound) {d : Nat} (bounded : d < t.next)
    (absent : d ∉ released.map Prod.fst) : t.closed.count d + t.owned.count d =
      if d < s.next then s.closed.count d + s.owned.count d else 1 := by
  have owned := moves.owned.count_eq d
  rw [List.count_append,List.count_append,List.count_eq_zero.mpr absent] at owned
  rw [moves.closed,List.count_append,countKept absent]
  split
  · rename_i old
    have new : (List.range' s.next fresh).count d = 0 := List.count_eq_zero.mpr fun there => by
      have range := List.mem_range'_1.mp there
      omega
    omega
  · rename_i new
    rw [moves.next] at bounded
    have once : (List.range' s.next fresh).count d = 1 :=
      List.count_eq_one_of_mem List.nodup_range' (List.mem_range'_1.mpr ⟨by omega,bounded⟩)
    have unowned : s.owned.count d = 0 := List.count_eq_zero.mpr fun there => by
      have live := (sound.live d there).1
      omega
    have unclosed : s.closed.count d = 0 := List.count_eq_zero.mpr fun there => by
      have known := sound.known d there
      omega
    omega

/- What a step breaks stays broken, so that nothing but the releases counts. -/
theorem movesOnce (moves : s.Moves t fresh released) (sound : s.Sound) :
    t.Once ↔ s.Once ∧ ∀ r ∈ released, r.2 = 1 := by
  have grows : s.next ≤ t.next := moves.next ▸ Nat.le_add_right _ _
  constructor
  · intro once
    refine ⟨fun d old => ?_,fun r inside => ?_⟩
    · by_cases gone : d ∈ released.map Prod.fst
      · obtain ⟨⟨_,k⟩,inside,rfl⟩ := List.mem_map.mp gone
        exact (atReleased moves sound inside).2.2 old
      · have kept := atKept moves sound (Nat.lt_of_lt_of_le old grows) gone
        rw [if_pos old] at kept
        exact kept ▸ once d (Nat.lt_of_lt_of_le old grows)
    · obtain ⟨bounded,closed,_⟩ := atReleased moves sound inside
      exact closed ▸ once r.1 bounded
  · rintro ⟨once,single⟩ d bounded
    by_cases gone : d ∈ released.map Prod.fst
    · obtain ⟨⟨_,k⟩,inside,rfl⟩ := List.mem_map.mp gone
      exact (atReleased moves sound inside).2.1.trans (single _ inside)
    · rw [atKept moves sound bounded gone]
      split
      · rename_i old
        exact once d old
      · rfl

theorem emptySound : (Stock.mk 0 [] []).Sound := ⟨List.nodup_nil,by simp,by simp⟩

end
end Stock
end Ltsm.Library
