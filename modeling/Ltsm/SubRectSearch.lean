import Mathlib.Data.Nat.Prime.Basic
import Ltsm.DividedRegions
import Ltsm.SubRects

/-! What the search for sub-rectangles finds in a region: rectangles that do not overlap
and have all of it but the background. It looks into parts by their stored corners, so
it finds nothing behind the last number a coordinate can store. -/
namespace Ltsm.SubRectSearch
open Regions FrameBuffers SubRects DividedRegions

/- The rectangles that should be found. -/
structure Found (fb : FrameBuffer) (skipPixel : UInt32) (reg : Region) (goods : List RegionPixel) : Prop where
  within : ∀ good ∈ goods, good.1.Within reg
  uniform : ∀ good ∈ goods, ∀ p, good.1.Has p → fb.pixel p = good.2
  other : ∀ good ∈ goods, good.2 ≠ skipPixel
  apart : goods.Pairwise fun one another => one.1.Away another.1
  exact : ∀ p, (∃ good ∈ goods, good.1.Has p) ↔ reg.Has p ∧ fb.pixel p ≠ skipPixel

def Finds (fb : FrameBuffer) (skipPixel : UInt32) (reg : Region) : Prop :=
  ∃ goods, rreProcessing reg fb skipPixel = some goods ∧ Found fb skipPixel reg goods

/- The corners of all parts can be stored. -/
def Reached (reg : Region) : Prop :=
  reg.isEmpty = true ∨ (reg.x + reg.width ≤ 32768 ∧ reg.y + reg.height ≤ 32768)
instance (reg) : Decidable (Reached reg) := inferInstanceAs (Decidable (_ ∨ _))

/- What has been found and what is left lie apart. -/
structure Parted (skipPixel : UInt32) (reg : Region) (goods : List RegionPixel) (bads : List Region) : Prop where
  within : ∀ part ∈ goods.map Prod.fst ++ bads, part.Within reg
  other : ∀ good ∈ goods, good.2 ≠ skipPixel
  apart : (goods.map Prod.fst ++ bads).Pairwise Region.Away

section
variable {fb : FrameBuffer} {skipPixel : UInt32} {reg : Region} {goods : List RegionPixel} {bads : List Region}

theorem partedPerm {parts : List Region} (perm : (goods.map Prod.fst ++ bads).Perm parts)
    (h : Parted skipPixel reg goods bads) :
    (∀ part ∈ parts, part.Within reg) ∧ parts.Pairwise Region.Away :=
  ⟨fun part listed => h.within part (perm.mem_iff.mpr listed),h.apart.perm perm awaySymm⟩

/- A part comes to the front of the others. -/
theorem partedFront {part : Region} (h : Parted skipPixel reg goods (part :: bads)) :
    part.Within reg ∧ (∀ other ∈ goods.map Prod.fst ++ bads, other.Within reg ∧ part.Away other) ∧
    Parted skipPixel reg goods bads := by
  obtain ⟨within,apart⟩ := partedPerm List.perm_middle h
  obtain ⟨first,others⟩ := List.forall_mem_cons.mp within
  obtain ⟨away,rest⟩ := List.pairwise_cons.mp apart
  exact ⟨first,fun other listed => ⟨others other listed,away other listed⟩,others,h.other,rest⟩

/- A region inside a part is away from all that the part is away from. -/
theorem awayWithin {sub part other : Region} (inside : sub.Within part) (away : part.Away other) :
    sub.Away other := fun p here => away p (withinHas inside here)

theorem partedDivide {bad : Region} {sz : Size} {subregs : List Region} (tiles : Tiles bad sz subregs)
    (apart : subregs.Pairwise Region.Away)
    (h : Parted skipPixel reg goods (bad :: bads)) : Parted skipPixel reg goods (subregs ++ bads) := by
  obtain ⟨first,away,rest⟩ := partedFront h
  have perm : (subregs ++ (goods.map Prod.fst ++ bads)).Perm (goods.map Prod.fst ++ (subregs ++ bads)) := by
    rw [← List.append_assoc,← List.append_assoc]
    exact List.perm_append_comm.append_right bads
  have pairs : (subregs ++ (goods.map Prod.fst ++ bads)).Pairwise Region.Away :=
    List.pairwise_append.mpr ⟨apart,rest.apart,fun sub listed other listedOther =>
      awayWithin (tiles.within sub listed) (away other listedOther).2⟩
  refine ⟨fun part listed => ?_,h.other,pairs.perm perm awaySymm⟩
  obtain new | old := List.mem_append.mp (perm.mem_iff.mpr listed)
  · exact withinTrans (tiles.within part new) first
  · exact rest.within part old

theorem partedPush {subreg : Region} {pixel : UInt32} (fits : reg.Fits) (differs : pixel ≠ skipPixel)
    (h : Parted skipPixel reg goods (subreg :: bads)) :
    Parted skipPixel reg (pushGood goods subreg pixel) bads := by
  have apart (goods : List RegionPixel) (h : Parted skipPixel reg goods (subreg :: bads)) :
      Parted skipPixel reg ((subreg,pixel) :: goods) bads := by
    obtain ⟨within,pairs⟩ := partedPerm List.perm_middle h
    exact ⟨within,List.forall_mem_cons.mpr ⟨differs,h.other⟩,pairs⟩
  match goods with
  | [] => exact apart [] h
  | (back,col) :: rest =>
    rw [pushGood]
    split
    · rename_i joins
      obtain ⟨row,same,next,rfl⟩ := joins
      obtain ⟨newWithin,newAway,old⟩ := partedFront h
      obtain ⟨backWithin,others⟩ := List.forall_mem_cons.mp old.within
      obtain ⟨backAway,pairs⟩ := List.pairwise_cons.mp old.apart
      obtain ⟨width,split⟩ := joinedHas fits backWithin newWithin row same next
      rw [width]
      refine ⟨List.forall_mem_cons.mpr ⟨⟨backWithin.left,backWithin.top,?_,backWithin.bottom⟩,others⟩,
        List.forall_mem_cons.mpr (List.forall_mem_cons.mp old.other),
        List.pairwise_cons.mpr ⟨fun other listed => ?_,pairs⟩⟩
      · have right := newWithin.right
        simp only at next ⊢
        push_cast
        omega
      · intro p inside
        obtain inBack | inNew := (split p).mp inside
        · exact backAway other listed p inBack
        · exact (newAway other (List.mem_cons_of_mem _ listed)).2 p inNew
    · exact apart _ h

theorem partedKept (fits : reg.Fits) : Kept fb skipPixel (Parted skipPixel reg) where
  divides {goods bad bads subregs} divides h := by
    obtain ⟨first,_,_⟩ := partedFront h
    obtain ⟨others,sz,divides',tiles,apart,_⟩ := divideFour fb (withinFits first fits)
    cases Option.some.inj (divides.symm.trans divides')
    exact partedDivide tiles apart h
  visits {found subreg rest} h := by
    obtain ⟨_,_,dropped⟩ := partedFront h
    unfold visit
    split
    · split
      · exact partedPush fits (by assumption) h
      · exact dropped
    · have perm : (found.1.map Prod.fst ++ subreg :: (rest ++ found.2)).Perm
          (found.1.map Prod.fst ++ (rest ++ (found.2 ++ [subreg]))) := by
        rw [← List.append_assoc rest]
        exact (List.perm_append_singleton subreg (rest ++ found.2)).symm.append_left _
      obtain ⟨within,apart⟩ := partedPerm perm h
      exact ⟨within,h.other,apart⟩

theorem partedStart (reg : Region) : Parted skipPixel reg [] [reg] :=
  ⟨List.forall_mem_singleton.mpr (withinSelf reg),fun _ none => absurd none List.not_mem_nil,
    List.pairwise_singleton _ _⟩

/- The search of a region whose coordinates fit. -/
theorem findsFits (fits : reg.Fits) (filled : 0 < reg.width ∧ 0 < reg.height) (fb : FrameBuffer)
    (skipPixel : UInt32) : Finds fb skipPixel reg := by
  obtain ⟨found,returns,keeps⟩ := rreProcessingKept fits filled fb skipPixel
  have searched : Searched fb skipPixel reg found [] := keeps (searchedKept fits) (searchedStart filled)
  have parted : Parted skipPixel reg found [] := keeps (partedKept fits) (partedStart reg)
  have inFound {good : RegionPixel} (listed : good ∈ found.reverse) : good ∈ found := List.mem_reverse.mp listed
  refine ⟨found.reverse,returns,fun good listed => (searched.good good (inFound listed)).within,
    fun good listed => (searched.good good (inFound listed)).uniform,
    fun good listed => parted.other good (inFound listed),?_,fun p => ⟨?_,?_⟩⟩
  · have apart := parted.apart
    rw [List.append_nil] at apart
    exact List.pairwise_reverse.mpr ((List.pairwise_map.mp apart).imp awaySymm)
  · rintro ⟨good,listed,has⟩
    have uniform := (searched.good good (inFound listed)).uniform p has
    exact ⟨withinHas (searched.good good (inFound listed)).within has,
      uniform.trans_ne (parted.other good (inFound listed))⟩
  · rintro ⟨has,differs⟩
    obtain ⟨good,listed,inside⟩ | ⟨bad,none,_⟩ := searched.covers p has differs
    · exact ⟨good,List.mem_reverse.mpr listed,inside⟩
    · exact absurd none List.not_mem_nil

/- A counter that goes by halves of its length comes past the end: it misses 65536 by
a half at least, as it would have to come there in an even number of steps. -/
theorem halvesEnd {length half : Nat} (small : length < 65536) (some : 0 < half)
    (low : 2 * half ≤ length) (high : length ≤ 2 * half + 1) : length + Nat.gcd half 65536 ≤ 65536 := by
  obtain ⟨m,steps⟩ := Nat.gcd_dvd_left half 65536
  obtain ⟨q,whole⟩ := Nat.gcd_dvd_right half 65536
  obtain ⟨k,_,power⟩ := (Nat.dvd_prime_pow Nat.prime_two).mp (show q ∣ 2 ^ 16 from Dvd.intro_left _ whole.symm)
  have least : 0 < Nat.gcd half 65536 := Nat.gcd_pos_of_pos_left _ some
  generalize Nat.gcd half 65536 = g at *
  have before : 2 * m < q := by
    by_contra past
    have more : g * q ≤ g * (2 * m) := Nat.mul_le_mul_left g (by omega)
    have twice : g * (2 * m) = 2 * half := by rw [steps]; ring
    omega
  have even : 2 * (m + 1) ≤ q := by
    cases k with
    | zero =>
      have none : m = 0 := by omega
      rw [none] at steps
      omega
    | succ k =>
      rw [Nat.pow_succ] at power
      omega
  have room : g * (2 * (m + 1)) ≤ g * q := Nat.mul_le_mul_left g even
  have split : g * (2 * (m + 1)) = 2 * half + 2 * g := by rw [steps]; ring
  omega

/- An empty region comes apart into nothing in the first round. -/
theorem findsEmpty (small : reg.height < 65536) (empty : reg.width = 0 ∨ reg.height = 0) (fb : FrameBuffer)
    (skipPixel : UInt32) : Finds fb skipPixel reg := by
  have room : reg.height + Nat.gcd (min (countsSize reg 2 2).height reg.height) 65536 ≤ 65536 := by
    simp only [countsSize]
    by_cases few : reg.height ≤ 2
    · rw [if_pos few]
      obtain none | one | two : reg.height = 0 ∨ reg.height = 1 ∨ reg.height = 2 := by omega
      · rw [none]
        decide
      · rw [one]
        decide
      · rw [two]
        decide
    · rw [if_neg few,Nat.min_eq_left (Nat.div_le_self _ _)]
      exact halvesEnd small (by omega) (by omega) (by omega)
  obtain ⟨blocks,divides⟩ := (emptyReturns empty).mpr room
  have nothing : reg.divideCounts 2 2 = some [] := by
    rw [← emptyBlocks empty divides]
    exact divides
  refine ⟨[],?_,by simp,by simp,by simp,.nil,fun p => ⟨by simp,fun has => absurd has.1 (emptyHas empty p)⟩⟩
  rw [rreProcessing,rounds,visitBads,nothing]
  rfl

/- Every corner that comes out of the search has been stored. -/
theorem dividedStored {r : Region} {sz : Size} {blocks : List Region} (divides : r.divideBlocks sz = some blocks) :
    ∀ b ∈ blocks, toInt16 b.x = b.x ∧ toInt16 b.y = b.y := by
  intro b listed
  by_cases high : 0 < r.height
  · obtain ⟨rows,cols,_,_,rfl⟩ := dividedInto divides high
    obtain ⟨row,_,inRow⟩ := List.mem_flatMap.mp listed
    obtain ⟨col,_,rfl⟩ := List.mem_map.mp inRow
    exact ⟨storedTwice _,storedTwice _⟩
  · have flat : r.height = 0 := by omega
    rw [emptyBlocks (.inr flat) divides] at listed
    exact absurd listed List.not_mem_nil

def StoredParts (goods : List RegionPixel) (bads : List Region) : Prop :=
  ∀ part ∈ goods.map Prod.fst ++ bads, toInt16 part.x = part.x ∧ toInt16 part.y = part.y

theorem pushGoodStored {subreg : Region} {pixel : UInt32} (h : StoredParts goods (subreg :: bads)) :
    StoredParts (pushGood goods subreg pixel) bads := by
  have apart (goods : List RegionPixel) (h : StoredParts goods (subreg :: bads)) :
      StoredParts ((subreg,pixel) :: goods) bads := fun part listed => h part (List.perm_middle.mem_iff.mpr listed)
  match goods with
  | [] => exact apart [] h
  | (back,col) :: rest =>
    rw [pushGood]
    split
    · obtain ⟨first,others⟩ := List.forall_mem_append.mp h
      obtain ⟨back,more⟩ := List.forall_mem_cons.mp first
      exact List.forall_mem_cons.mpr ⟨back,List.forall_mem_append.mpr ⟨more,(List.forall_mem_cons.mp others).2⟩⟩
    · exact apart _ h

theorem storedKept : Kept fb skipPixel StoredParts where
  divides {goods bad bads subregs} divides h := by
    obtain ⟨found,left⟩ := List.forall_mem_append.mp h
    exact List.forall_mem_append.mpr ⟨found,
      List.forall_mem_append.mpr ⟨dividedStored divides,(List.forall_mem_cons.mp left).2⟩⟩
  visits {found subreg rest} h := by
    obtain ⟨goods,left⟩ := List.forall_mem_append.mp h
    obtain ⟨first,later⟩ := List.forall_mem_cons.mp left
    unfold visit
    split
    · split
      · exact pushGoodStored h
      · exact List.forall_mem_append.mpr ⟨goods,later⟩
    · obtain ⟨ahead,behind⟩ := List.forall_mem_append.mp later
      exact List.forall_mem_append.mpr ⟨goods,List.forall_mem_append.mpr ⟨ahead,
        List.forall_mem_append.mpr ⟨behind,List.forall_mem_singleton.mpr first⟩⟩⟩

theorem goodsStored {found : List RegionPixel} (stored : Stored reg)
    (returns : rreProcessing reg fb skipPixel = some found) :
    ∀ good ∈ found, toInt16 good.1.x = good.1.x ∧ toInt16 good.1.y = good.1.y := by
  obtain ⟨goods,searched,rfl⟩ := Option.map_eq_some_iff.mp returns
  have start : StoredParts [] [reg] := List.forall_mem_singleton.mpr ⟨stored.left,stored.top⟩
  have done : StoredParts goods [] := roundsKept storedKept searched start
  intro good listed
  exact done good.1 (List.mem_append_left _ (List.mem_map_of_mem (List.mem_reverse.mp listed)))

/- No two neighbours are of one colour. -/
def chequered (p : Point) : UInt32 := if (p.x + p.y) % 2 = 0 then 0 else 1

/- Its rectangles are single points. -/
theorem chequeredOne {good : RegionPixel} (uniform : ∀ p, good.1.Has p → chequered p = good.2) {p : Point}
    (has : good.1.Has p) : good.1.topLeft = p := by
  have here := uniform p has
  obtain ⟨left,right,top,bottom⟩ := has
  have differs {q : Point} (near : q.x + q.y = p.x + p.y - 1) : chequered q ≠ chequered p := by
    unfold chequered
    split <;> split <;> first | omega | decide
  have column : good.1.x = p.x := by
    by_contra apart
    have beside := uniform ⟨p.x - 1,p.y⟩ ⟨by simp only; omega,by simp only; omega,top,bottom⟩
    exact differs (by simp only; omega) (beside.trans here.symm)
  have row : good.1.y = p.y := by
    by_contra apart
    have above := uniform ⟨p.x,p.y - 1⟩ ⟨left,right,by simp only; omega,by simp only; omega⟩
    exact differs (by simp only; omega) (above.trans here.symm)
  rw [Region.topLeft,column,row]

/- A part behind the last number would have to be found as a point of its own. -/
theorem farMissed (stored : Stored reg) {p : Point} (has : reg.Has p) (far : p.x = 32768 ∨ p.y = 32768) :
    ¬Finds {fb with pixels := chequered} 2 reg := by
  rintro ⟨goods,returns,found⟩
  have other : chequered p ≠ 2 := by
    unfold chequered
    split <;> decide
  obtain ⟨good,listed,inside⟩ := (found.exact p).mpr ⟨has,other⟩
  have corner := chequeredOne (found.uniform good listed) inside
  obtain ⟨left,top⟩ := goodsStored stored returns good listed
  have column : good.1.x = p.x := congrArg Point.x corner
  have row : good.1.y = p.y := congrArg Point.y corner
  have leftRange := storedRange left
  have topRange := storedRange top
  omega

end

/- In a region of the frame the search finds what it should, whatever the pixels are and
whichever is the background, if and only if all corners can be stored. -/
theorem searchesIff (fb : FrameBuffer) (reg : Region) (stored : Stored reg)
    (inside : reg.Within ⟨0,0,fb.region.width,fb.region.height⟩) :
    (∀ pixels skipPixel, Finds {fb with pixels} skipPixel reg) ↔ Reached reg := by
  have left := inside.left
  have top := inside.top
  simp only at left top
  constructor
  · intro finds
    by_contra unreached
    obtain ⟨some,beyond⟩ := not_or.mp unreached
    have filled : 0 < reg.width ∧ 0 < reg.height := by
      simp only [Region.isEmpty,Bool.or_eq_true,decide_eq_true_iff] at some
      omega
    obtain ⟨_,leftRange⟩ := storedRange stored.left
    obtain ⟨_,topRange⟩ := storedRange stored.top
    by_cases wide : reg.x + reg.width ≤ 32768
    · have far : reg.Has ⟨reg.x,32768⟩ := by
        simp only [Region.Has]
        omega
      exact farMissed stored far (.inr rfl) (finds chequered 2)
    · have far : reg.Has ⟨32768,reg.y⟩ := by
        simp only [Region.Has]
        omega
      exact farMissed stored far (.inl rfl) (finds chequered 2)
  · intro reached pixels skipPixel
    by_cases filled : 0 < reg.width ∧ 0 < reg.height
    · have some : ¬reg.isEmpty = true := by
        simp only [Region.isEmpty,Bool.or_eq_true,decide_eq_true_iff]
        omega
      obtain ⟨right,bottom⟩ := reached.resolve_left some
      exact findsFits ⟨left,top,right,bottom⟩ filled _ skipPixel
    · exact findsEmpty stored.high (by omega) _ skipPixel

def wideFrame : FrameBuffer := ⟨⟨0,0,32769,1⟩,⟨255,255,255,0,16,8,0,0,32⟩,chequered⟩

theorem searchesSmall : Reached ⟨1,0,3,1⟩ ∧ Finds wideFrame 1 ⟨1,0,3,1⟩ := by
  have reached : Reached ⟨1,0,3,1⟩ := by decide
  exact ⟨reached,(searchesIff wideFrame ⟨1,0,3,1⟩ (by decide) ⟨by decide,by decide,by decide,by decide⟩).mpr
    reached chequered 1⟩

/- The last point of a row of 32769 is looked up at -32768. -/
theorem lastPointMissed : ¬Finds wideFrame 2 ⟨0,0,32769,1⟩ ∧
    ¬∀ (fb : FrameBuffer) (reg : Region) (skipPixel : UInt32), Stored reg →
      reg.Within ⟨0,0,fb.region.width,fb.region.height⟩ → Finds fb skipPixel reg := by
  have missed : ¬Finds wideFrame 2 ⟨0,0,32769,1⟩ :=
    @farMissed wideFrame ⟨0,0,32769,1⟩ (by decide) ⟨32768,0⟩ (by decide) (.inl rfl)
  exact ⟨missed,fun all => missed (all wideFrame ⟨0,0,32769,1⟩ 2 (by decide) (withinSelf _))⟩

end Ltsm.SubRectSearch
