import Ltsm.FrameBuffers

/-! The search for sub-rectangles of one colour. Regions that are not are cut in four
and searched again in the next round, until what is left to search is nothing;
rectangles of the background are dropped. -/
namespace Ltsm.SubRects
open Library Regions FrameBuffers

abbrev RegionPixel := Region × UInt32

/- The last one found comes first; one that continues it to the right is joined to it. -/
def pushGood (goods : List RegionPixel) (subreg : Region) (pixel : UInt32) : List RegionPixel :=
  match goods with
  | [] => [(subreg,pixel)]
  | (back,col) :: rest =>
    if back.y = subreg.y ∧ back.height = subreg.height ∧ back.x + back.width = subreg.x ∧ col = pixel then
      ({back with width := toUInt16 (back.width + subreg.width)},col) :: rest
    else (subreg,pixel) :: (back,col) :: rest

def isGood (fb : FrameBuffer) (subreg : Region) : Bool :=
  (subreg.width = 1 && subreg.height = 1) || fb.allOfPixel (fb.pixel subreg.topLeft) subreg

def visit (fb : FrameBuffer) (skipPixel : UInt32) (found : List RegionPixel × List Region)
    (subreg : Region) : List RegionPixel × List Region :=
  if isGood fb subreg then
    if fb.pixel subreg.topLeft ≠ skipPixel then
      (pushGood found.1 subreg (fb.pixel subreg.topLeft),found.2)
    else found
  else (found.1,found.2 ++ [subreg])

/- One round over the regions of the round before. -/
def visitBads (fb : FrameBuffer) (skipPixel : UInt32) :
    List Region → List RegionPixel × List Region → Option (List RegionPixel × List Region)
  | [], found => some found
  | bad :: rest, found => do
    let subregs ← bad.divideCounts 2 2
    visitBads fb skipPixel rest (subregs.foldl (visit fb skipPixel) found)

def rounds (fb : FrameBuffer) (skipPixel : UInt32) : Nat → List RegionPixel → List Region →
    Option (List RegionPixel)
  | 0, _, _ => none
  | fuel + 1, goods, bads1 => do
    let found ← visitBads fb skipPixel bads1 (goods,[])
    if found.2.isEmpty then some found.1 else rounds fb skipPixel fuel found.1 found.2

/- The sides of a region get shorter in every round, until it comes apart into nothing. -/
def rreProcessing (badreg : Region) (fb : FrameBuffer) (skipPixel : UInt32) : Option (List RegionPixel) :=
  (rounds fb skipPixel (badreg.width + badreg.height + 1) [] [badreg]).map List.reverse

/-! The client puts a sub-rectangle back where its region lies on the screen. -/

def subRegion (reg : Region) (x y width height : Nat) : Region :=
  ⟨toInt16 (toInt16 x + reg.x),toInt16 (toInt16 y + reg.y),width,height⟩

def outOfRange (reg dst : Region) : Bool :=
  dst.x + dst.width > reg.x + reg.width || dst.y + dst.height > reg.y + reg.height

theorem partRead {fb : FrameBuffer} {sz : Size} {tile part : Region} (fits : fb.region.Fits)
    (t : Tile fb sz tile) (within : part.Within (jobOf fb tile)) (filled : 0 < part.width ∧ 0 < part.height) :
    subRegion tile (part.x - (jobOf fb tile).x).toNat (part.y - (jobOf fb tile).y).toNat part.width part.height =
      part.moved fb.region.x fb.region.y ∧
    outOfRange tile (part.moved fb.region.x fb.region.y) = false := by
  have placed := partPlaced fits t within
  have placedFits := withinFits placed (withinFits t.within fits)
  have tileFits := withinFits t.within fits
  have job := jobMoved fits t
  obtain ⟨left,top,right,bottom⟩ := placed
  obtain ⟨_,_,rightFits,bottomFits⟩ := placedFits
  simp only [Region.moved] at left top right bottom rightFits bottomFits
  have start (value corner frame : Int) (low : 0 ≤ corner) (under : corner ≤ value + frame)
      (high : value + frame < 32768) :
      toInt16 (toInt16 ((value - (corner + -frame)).toNat : Int) + corner) = value + frame := by
    have whole : ((value - (corner + -frame)).toNat : Int) = value + frame - corner := by omega
    have near : toInt16 (value + frame - corner) = value + frame - corner :=
      toInt16Fits (by omega) (by omega)
    rw [whole,near,Int.sub_add_cancel,toInt16Fits (by omega) high]
  refine ⟨?_,Bool.or_eq_false_iff.mpr ⟨decide_eq_false (not_lt.mpr right),decide_eq_false (not_lt.mpr bottom)⟩⟩
  rw [job]
  simp only [subRegion,Region.moved]
  rw [start _ _ _ tileFits.left left (by omega),start _ _ _ tileFits.top top (by omega)]

/-! What the search finds. -/

structure Good (fb : FrameBuffer) (reg : Region) (good : RegionPixel) : Prop where
  within : good.1.Within reg
  filled : 0 < good.1.width ∧ 0 < good.1.height
  uniform : ∀ p, good.1.Has p → fb.pixel p = good.2

def goodsArea (goods : List RegionPixel) : Nat := (goods.map fun good => good.1.area).sum
def badsArea (bads : List Region) : Nat := (bads.map Region.area).sum

/- How far the search has come with the region, `bads` being what is left of it. -/
structure Searched (fb : FrameBuffer) (skipPixel : UInt32) (reg : Region) (goods : List RegionPixel)
    (bads : List Region) : Prop where
  good : ∀ good ∈ goods, Good fb reg good
  within : ∀ bad ∈ bads, bad.Within reg
  filled : ∀ bad ∈ bads, 0 < bad.width ∧ 0 < bad.height
  covers : ∀ p, reg.Has p → fb.pixel p ≠ skipPixel →
    (∃ good ∈ goods, good.1.Has p) ∨ ∃ bad ∈ bads, bad.Has p
  areas : goodsArea goods + badsArea bads ≤ reg.area
  spare : ∀ p, reg.Has p → fb.pixel p = skipPixel →
    (∃ bad ∈ bads, bad.Has p) ∨ goodsArea goods + badsArea bads < reg.area

section
variable {fb : FrameBuffer} {skipPixel : UInt32} {reg : Region} {goods : List RegionPixel} {bads : List Region}

theorem searchedPerm {others : List Region} (perm : bads.Perm others)
    (h : Searched fb skipPixel reg goods bads) : Searched fb skipPixel reg goods others := by
  have area : badsArea bads = badsArea others := (perm.map Region.area).sum_eq
  have among {p : Point} (found : ∃ bad ∈ bads, bad.Has p) : ∃ bad ∈ others, bad.Has p :=
    found.imp fun bad both => ⟨perm.mem_iff.mp both.1,both.2⟩
  exact ⟨h.good,fun bad listed => h.within bad (perm.mem_iff.mpr listed),
    fun bad listed => h.filled bad (perm.mem_iff.mpr listed),
    fun p has other => (h.covers p has other).imp id among,area ▸ h.areas,
    fun p has same => area ▸ (h.spare p has same).imp among id⟩

theorem searchedStart (filled : 0 < reg.width ∧ 0 < reg.height) :
    Searched fb skipPixel reg [] [reg] :=
  ⟨by simp,by simpa using withinSelf reg,by simpa using filled,by simp +contextual,
    by simp [goodsArea,badsArea],by simp +contextual⟩

theorem searchedDivide {bad : Region} {sz : Size} {subregs : List Region} (tiles : Tiles bad sz subregs)
    (h : Searched fb skipPixel reg goods (bad :: bads)) :
    Searched fb skipPixel reg goods (subregs ++ bads) := by
  have inside := h.within bad List.mem_cons_self
  have area : badsArea (subregs ++ bads) = badsArea (bad :: bads) := by
    simp [badsArea,tiles.areas]
  have among {p : Point} (found : ∃ b ∈ bad :: bads, b.Has p) : ∃ b ∈ subregs ++ bads, b.Has p := by
    obtain ⟨b,listed,has⟩ := found
    obtain rfl | later := List.mem_cons.mp listed
    · obtain ⟨sub,listedSub,hasSub⟩ := tiles.covers p has
      exact ⟨sub,List.mem_append_left _ listedSub,hasSub⟩
    · exact ⟨b,List.mem_append_right _ later,has⟩
  refine ⟨h.good,?_,?_,fun p has other => (h.covers p has other).imp id among,area ▸ h.areas,
    fun p has same => area ▸ (h.spare p has same).imp among id⟩
  · intro b listed
    obtain sub | later := List.mem_append.mp listed
    · exact withinTrans (tiles.within b sub) inside
    · exact h.within b (List.mem_cons_of_mem _ later)
  · intro b listed
    obtain sub | later := List.mem_append.mp listed
    · exact tiles.filled b sub
    · exact h.filled b (List.mem_cons_of_mem _ later)

/- A region of the background is done with. -/
theorem searchedSkip {subreg : Region} (uniform : ∀ p, subreg.Has p → fb.pixel p = skipPixel)
    (h : Searched fb skipPixel reg goods (subreg :: bads)) : Searched fb skipPixel reg goods bads := by
  have positive := filledArea (h.filled subreg List.mem_cons_self)
  have total : badsArea (subreg :: bads) = subreg.area + badsArea bads := by simp [badsArea]
  have areas := h.areas
  refine ⟨h.good,fun b listed => h.within b (List.mem_cons_of_mem _ listed),
    fun b listed => h.filled b (List.mem_cons_of_mem _ listed),?_,by omega,?_⟩
  · intro p has other
    obtain found | ⟨b,listed,inside⟩ := h.covers p has other
    · exact .inl found
    · obtain rfl | later := List.mem_cons.mp listed
      · exact absurd (uniform p inside) other
      · exact .inr ⟨b,later,inside⟩
  · intro p has same
    right
    omega

/- A region of another colour goes to the good ones. -/
theorem searchedGood {subreg : Region} {found : List RegionPixel}
    (good : ∀ good ∈ found, Good fb reg good)
    (covers : ∀ p, (∃ good ∈ goods, good.1.Has p) ∨ subreg.Has p → ∃ good ∈ found, good.1.Has p)
    (area : goodsArea found = goodsArea goods + subreg.area)
    (other : ∀ p, subreg.Has p → fb.pixel p ≠ skipPixel)
    (h : Searched fb skipPixel reg goods (subreg :: bads)) : Searched fb skipPixel reg found bads := by
  have total : badsArea (subreg :: bads) = subreg.area + badsArea bads := by simp [badsArea]
  have areas := h.areas
  refine ⟨good,fun b listed => h.within b (List.mem_cons_of_mem _ listed),
    fun b listed => h.filled b (List.mem_cons_of_mem _ listed),?_,by omega,?_⟩
  · intro p has differs
    obtain inGoods | ⟨b,listed,inside⟩ := h.covers p has differs
    · exact .inl (covers p (.inl inGoods))
    · obtain rfl | later := List.mem_cons.mp listed
      · exact .inl (covers p (.inr inside))
      · exact .inr ⟨b,later,inside⟩
  · intro p has same
    obtain ⟨b,listed,inside⟩ | less := h.spare p has same
    · obtain rfl | later := List.mem_cons.mp listed
      · exact absurd same (other p inside)
      · exact .inl ⟨b,later,inside⟩
    · right
      omega

/- Rectangles that line up are together as wide as both. -/
theorem joinedHas {back subreg : Region} (fits : reg.Fits) (first : back.Within reg) (second : subreg.Within reg)
    (row : back.y = subreg.y) (same : back.height = subreg.height) (next : back.x + back.width = subreg.x) :
    toUInt16 ((back.width : Int) + subreg.width) = back.width + subreg.width ∧
    ∀ p, ({back with width := back.width + subreg.width} : Region).Has p ↔ back.Has p ∨ subreg.Has p := by
  have left := fits.left
  have right := fits.right
  have backLeft := first.left
  have newRight := second.right
  refine ⟨?_,fun p => ?_⟩
  · exact_mod_cast toUInt16Fits (show back.width + subreg.width < 65536 by omega)
  · simp only [Region.Has]
    omega

theorem pushGoodKeeps {subreg : Region} {pixel : UInt32} (fits : reg.Fits)
    (good : ∀ good ∈ goods, Good fb reg good) (new : Good fb reg (subreg,pixel)) :
    (∀ good ∈ pushGood goods subreg pixel, Good fb reg good) ∧
    (∀ p, (∃ good ∈ goods, good.1.Has p) ∨ subreg.Has p →
      ∃ good ∈ pushGood goods subreg pixel, good.1.Has p) ∧
    goodsArea (pushGood goods subreg pixel) = goodsArea goods + subreg.area := by
  have apart (goods : List RegionPixel) (good : ∀ good ∈ goods, Good fb reg good) :
      (∀ good ∈ (subreg,pixel) :: goods, Good fb reg good) ∧
      (∀ p, (∃ good ∈ goods, good.1.Has p) ∨ subreg.Has p →
        ∃ good ∈ (subreg,pixel) :: goods, good.1.Has p) ∧
      goodsArea ((subreg,pixel) :: goods) = goodsArea goods + subreg.area := by
    refine ⟨List.forall_mem_cons.mpr ⟨new,good⟩,?_,by simp [goodsArea,Nat.add_comm]⟩
    rintro p (⟨g,listed,has⟩ | has)
    · exact ⟨g,List.mem_cons_of_mem _ listed,has⟩
    · exact ⟨_,List.mem_cons_self,has⟩
  match goods with
  | [] => exact apart [] good
  | (back,col) :: rest =>
    rw [pushGood]
    split
    · rename_i joins
      obtain ⟨row,same,next,rfl⟩ := joins
      obtain ⟨backGood,restGood⟩ := List.forall_mem_cons.mp good
      obtain ⟨width,split⟩ := joinedHas fits backGood.within new.within row same next
      rw [width]
      refine ⟨List.forall_mem_cons.mpr ⟨⟨?_,?_,?_⟩,restGood⟩,?_,?_⟩
      · have low := backGood.within
        have high := new.within
        exact ⟨low.left,low.top,by have := high.right; simp only at *; push_cast; omega,low.bottom⟩
      · exact ⟨Nat.add_pos_left backGood.filled.1 _,backGood.filled.2⟩
      · intro p has
        obtain inBack | inNew := (split p).mp has
        · exact backGood.uniform p inBack
        · exact new.uniform p inNew
      · rintro p (⟨g,listed,has⟩ | has)
        · obtain rfl | later := List.mem_cons.mp listed
          · exact ⟨_,List.mem_cons_self,(split p).mpr (.inl has)⟩
          · exact ⟨g,List.mem_cons_of_mem _ later,has⟩
        · exact ⟨_,List.mem_cons_self,(split p).mpr (.inr has)⟩
      · simp only [goodsArea,List.map_cons,List.sum_cons,Region.area,← same]
        ring
    · exact apart _ good

/- A region that counts as good is of one colour. -/
theorem isGoodUniform {subreg : Region} (good : isGood fb subreg = true) :
    ∀ p, subreg.Has p → fb.pixel p = fb.pixel subreg.topLeft := by
  intro p has
  obtain one | all := Bool.or_eq_true_iff.mp good
  · have single : p = subreg.topLeft := by
      obtain ⟨x,y⟩ := p
      simp only [Bool.and_eq_true,decide_eq_true_eq] at one
      simp only [Region.Has] at has
      simp only [Region.topLeft,Point.mk.injEq]
      omega
    rw [single]
  · exact allOfPixelUniform all has

theorem visitSearched {found : List RegionPixel × List Region} {subreg : Region} {rest : List Region}
    (fits : reg.Fits) (h : Searched fb skipPixel reg found.1 (subreg :: (rest ++ found.2))) :
    Searched fb skipPixel reg (visit fb skipPixel found subreg).1
      (rest ++ (visit fb skipPixel found subreg).2) := by
  have filled := h.filled subreg List.mem_cons_self
  have within := h.within subreg List.mem_cons_self
  unfold visit
  by_cases good : isGood fb subreg = true
  · have uniform := isGoodUniform good
    rw [if_pos good]
    by_cases differs : fb.pixel subreg.topLeft ≠ skipPixel
    · rw [if_pos differs]
      obtain ⟨goods,covers,area⟩ := pushGoodKeeps fits h.good ⟨within,filled,uniform⟩
      exact searchedGood goods covers area (fun p has => (uniform p has).trans_ne differs) h
    · rw [if_neg differs]
      exact searchedSkip (fun p has => (uniform p has).trans (not_not.mp differs)) h
  · rw [if_neg good]
    refine searchedPerm ?_ h
    rw [← List.append_assoc]
    exact (List.perm_append_singleton subreg (rest ++ found.2)).symm

/- What one cut and one visit keep, the search keeps to its end. -/
structure Kept (fb : FrameBuffer) (skipPixel : UInt32) (Inv : List RegionPixel → List Region → Prop) : Prop where
  divides : ∀ {goods bad bads subregs}, bad.divideCounts 2 2 = some subregs → Inv goods (bad :: bads) →
    Inv goods (subregs ++ bads)
  visits : ∀ {found : List RegionPixel × List Region} {subreg rest}, Inv found.1 (subreg :: (rest ++ found.2)) →
    Inv (visit fb skipPixel found subreg).1 (rest ++ (visit fb skipPixel found subreg).2)

section
variable {Inv : List RegionPixel → List Region → Prop} (kept : Kept fb skipPixel Inv)
include kept

theorem visitAllKept {subregs rest : List Region} {found : List RegionPixel × List Region}
    (h : Inv found.1 (subregs ++ (rest ++ found.2))) :
    Inv (subregs.foldl (visit fb skipPixel) found).1 (rest ++ (subregs.foldl (visit fb skipPixel) found).2) := by
  induction subregs generalizing found with
  | nil => exact h
  | cons subreg more ih =>
    rw [List.foldl_cons]
    apply ih
    rw [← List.append_assoc] at h ⊢
    exact kept.visits h

theorem visitBadsKept {found next : List RegionPixel × List Region}
    (visits : visitBads fb skipPixel bads found = some next) (h : Inv found.1 (bads ++ found.2)) :
    Inv next.1 next.2 := by
  induction bads generalizing found with
  | nil =>
    cases Option.some.inj visits
    exact h
  | cons bad rest ih =>
    obtain ⟨subregs,divides,later⟩ := Option.bind_eq_some_iff.mp visits
    exact ih later (visitAllKept kept (kept.divides divides h))

theorem roundsKept {fuel : Nat} {found : List RegionPixel} (returns : rounds fb skipPixel fuel goods bads = some found)
    (h : Inv goods bads) : Inv found [] := by
  induction fuel generalizing goods bads with
  | zero => cases returns
  | succ fuel ih =>
    obtain ⟨next,visits,later⟩ := Option.bind_eq_some_iff.mp returns
    have fresh : Inv (goods,([] : List Region)).1 (bads ++ (goods,([] : List Region)).2) := by
      rwa [List.append_nil]
    have done := visitBadsKept kept visits fresh
    by_cases none : next.2 = []
    · rw [none] at later done
      cases Option.some.inj later
      exact done
    · rw [if_neg (by simpa using none)] at later
      exact ih later done

end

/- What is left for the next round comes from the regions of this one. -/
theorem visitAllBads {subregs : List Region} {found : List RegionPixel × List Region} {Small : Region → Prop}
    (small : ∀ bad ∈ found.2, Small bad) (new : ∀ subreg ∈ subregs, isGood fb subreg = false → Small subreg) :
    ∀ bad ∈ (subregs.foldl (visit fb skipPixel) found).2, Small bad := by
  induction subregs generalizing found with
  | nil => exact small
  | cons subreg more ih =>
    obtain ⟨first,later⟩ := List.forall_mem_cons.mp new
    rw [List.foldl_cons]
    apply ih _ later
    unfold visit
    by_cases good : isGood fb subreg = true
    · rw [if_pos good]
      split
      · exact small
      · exact small
    · rw [if_neg good]
      intro bad listed
      obtain before | now := List.mem_append.mp listed
      · exact small bad before
      · rw [List.mem_singleton.mp now]
        exact first (Bool.eq_false_iff.mpr good)

/- Cutting a region in four makes at least one side shorter, or it was a single point. -/
theorem divideFour (fb : FrameBuffer) {bad : Region} (fits : bad.Fits) :
    ∃ subregs sz, bad.divideCounts 2 2 = some subregs ∧ Tiles bad sz subregs ∧
      subregs.Pairwise Region.Away ∧
      ∀ subreg ∈ subregs, isGood fb subreg = false →
        subreg.width + subreg.height < bad.width + bad.height := by
  have positive (length : Nat) : 0 < if length ≤ 2 then 1 else length / 2 := by
    split <;> omega
  obtain ⟨subregs,divides,tiles,apart⟩ : ∃ subregs, bad.divideCounts 2 2 = some subregs ∧ Tiles bad _ subregs ∧ _ :=
    divisibleTiles (divisible fits _) (positive bad.width) (positive bad.height)
  refine ⟨subregs,_,divides,tiles,apart,fun subreg listed rejected => ?_⟩
  obtain ⟨wide,high⟩ := tiles.narrow subreg listed
  obtain ⟨wideFilled,highFilled⟩ := tiles.filled subreg listed
  have inside := tiles.within subreg listed
  have left := inside.left
  have right := inside.right
  have top := inside.top
  have bottom := inside.bottom
  by_contra same
  have single : subreg.width = 1 ∧ subreg.height = 1 := by
    simp only at wide high
    split at wide <;> split at high <;> omega
  simp [isGood,single] at rejected

/- Regions inside one whose coordinates fit are cut into such regions. -/
def Inside (reg : Region) (_ : List RegionPixel) (bads : List Region) : Prop :=
  ∀ bad ∈ bads, bad.Within reg ∧ 0 < bad.width ∧ 0 < bad.height

theorem insideKept (fits : reg.Fits) : Kept fb skipPixel (Inside reg) where
  divides {goods bad bads subregs} divides h := by
    obtain ⟨⟨within,_⟩,later⟩ := List.forall_mem_cons.mp h
    obtain ⟨others,sz,divides',tiles,_⟩ := divideFour fb (withinFits within fits)
    cases Option.some.inj (divides.symm.trans divides')
    exact List.forall_mem_append.mpr ⟨fun subreg listed =>
      ⟨withinTrans (tiles.within subreg listed) within,tiles.filled subreg listed⟩,later⟩
  visits {found subreg rest} h := by
    obtain ⟨first,later⟩ := List.forall_mem_cons.mp h
    obtain ⟨ahead,behind⟩ := List.forall_mem_append.mp later
    unfold visit
    split
    · split
      · exact later
      · exact later
    · exact List.forall_mem_append.mpr ⟨ahead,List.forall_mem_append.mpr ⟨behind,List.forall_mem_singleton.mpr first⟩⟩

theorem visitBadsReturns {found : List RegionPixel × List Region} {n : Nat} (fits : reg.Fits)
    (inside : Inside reg goods bads) (small : ∀ bad ∈ bads, bad.width + bad.height ≤ n + 1)
    (later : ∀ bad ∈ found.2, bad.width + bad.height ≤ n) :
    ∃ next, visitBads fb skipPixel bads found = some next ∧ ∀ bad ∈ next.2, bad.width + bad.height ≤ n := by
  induction bads generalizing found with
  | nil => exact ⟨found,rfl,later⟩
  | cons bad rest ih =>
    obtain ⟨first,others⟩ := List.forall_mem_cons.mp small
    obtain ⟨⟨within,_⟩,insideRest⟩ := List.forall_mem_cons.mp inside
    obtain ⟨subregs,sz,divides,tiles,_,shorter⟩ := divideFour fb (withinFits within fits)
    have next : ∀ bad ∈ (subregs.foldl (visit fb skipPixel) found).2, bad.width + bad.height ≤ n := by
      refine visitAllBads later fun subreg listed rejected => ?_
      have less := shorter subreg listed rejected
      omega
    obtain ⟨last,visits,done⟩ := ih insideRest others next
    exact ⟨last,by rw [visitBads,divides]; exact visits,done⟩

theorem roundsReturn {fuel : Nat} (fits : reg.Fits) (left : bads ≠ []) (inside : Inside reg goods bads)
    (small : ∀ bad ∈ bads, bad.width + bad.height ≤ fuel) :
    ∃ found, rounds fb skipPixel fuel goods bads = some found := by
  induction fuel generalizing goods bads with
  | zero =>
    obtain ⟨bad,listed⟩ := List.exists_mem_of_ne_nil bads left
    have none := small bad listed
    have some := (inside bad listed).2
    omega
  | succ fuel ih =>
    obtain ⟨next,visits,shorter⟩ := @visitBadsReturns fb skipPixel reg goods bads (goods,[]) fuel fits inside small
      fun _ none => absurd none List.not_mem_nil
    have fresh : Inside reg goods (bads ++ []) := by
      rwa [List.append_nil]
    have insideNext := visitBadsKept (insideKept fits) visits fresh
    rw [rounds,visits]
    by_cases done : next.2 = []
    · exact ⟨next.1,by simp [done]⟩
    · obtain ⟨found,returns⟩ := ih done insideNext shorter
      exact ⟨found,by simpa [done] using returns⟩

theorem searchedKept (fits : reg.Fits) : Kept fb skipPixel (Searched fb skipPixel reg) where
  divides {goods bad bads subregs} divides h := by
    obtain ⟨others,sz,divides',tiles,_⟩ := divideFour fb (withinFits (h.within bad List.mem_cons_self) fits)
    cases Option.some.inj (divides.symm.trans divides')
    exact searchedDivide tiles h
  visits h := visitSearched fits h

/- The search returns, with all that it keeps. -/
theorem rreProcessingKept (fits : reg.Fits) (filled : 0 < reg.width ∧ 0 < reg.height) (fb : FrameBuffer)
    (skipPixel : UInt32) : ∃ found, rreProcessing reg fb skipPixel = some found.reverse ∧
      ∀ {Inv : List RegionPixel → List Region → Prop}, Kept fb skipPixel Inv → Inv [] [reg] → Inv found [] := by
  have start : Inside reg [] [reg] := List.forall_mem_singleton.mpr ⟨withinSelf reg,filled⟩
  obtain ⟨found,returns⟩ : ∃ found, rounds fb skipPixel (reg.width + reg.height + 1) [] [reg] = some found :=
    roundsReturn fits (List.cons_ne_nil reg []) start (List.forall_mem_singleton.mpr (Nat.le_succ _))
  exact ⟨found,by rw [rreProcessing,returns]; rfl,fun kept h => roundsKept kept returns h⟩

/- What the search finds: all of the region that is not background, in rectangles of
one colour; at least one fewer than points where there is any background. -/
structure Rectangles (fb : FrameBuffer) (skipPixel : UInt32) (reg : Region) (goods : List RegionPixel) : Prop where
  good : ∀ good ∈ goods, Good fb reg good
  covers : ∀ p, reg.Has p → fb.pixel p ≠ skipPixel → ∃ good ∈ goods, good.1.Has p
  few : goods.length ≤ reg.area
  fewer : ∀ p, reg.Has p → fb.pixel p = skipPixel → goods.length < reg.area

theorem goodsCount (good : ∀ good ∈ goods, Good fb reg good) : goods.length ≤ goodsArea goods := by
  induction goods with
  | nil => exact Nat.zero_le _
  | cons first rest ih =>
    obtain ⟨firstGood,restGood⟩ := List.forall_mem_cons.mp good
    have positive := filledArea firstGood.filled
    have later := ih restGood
    simp only [goodsArea,List.map_cons,List.sum_cons,List.length_cons] at later ⊢
    omega

theorem rreProcessingFinds (fits : reg.Fits) (filled : 0 < reg.width ∧ 0 < reg.height)
    (fb : FrameBuffer) (skipPixel : UInt32) :
    ∃ goods, rreProcessing reg fb skipPixel = some goods ∧ Rectangles fb skipPixel reg goods := by
  obtain ⟨found,returns,keeps⟩ := rreProcessingKept fits filled fb skipPixel
  have searched : Searched fb skipPixel reg found [] := keeps (searchedKept fits) (searchedStart filled)
  have count := goodsCount searched.good
  have areas := searched.areas
  refine ⟨found.reverse,returns,?_,?_,?_,?_⟩
  · exact fun good listed => searched.good good (List.mem_reverse.mp listed)
  · intro p has differs
    obtain ⟨good,listed,inside⟩ | ⟨bad,none,_⟩ := searched.covers p has differs
    · exact ⟨good,List.mem_reverse.mpr listed,inside⟩
    · exact absurd none List.not_mem_nil
  · rw [List.length_reverse]
    omega
  · intro p has same
    rw [List.length_reverse]
    obtain ⟨bad,none,_⟩ | less := searched.spare p has same
    · exact absurd none List.not_mem_nil
    · omega

end

/- A sub-rectangle on the screen. -/
def partCells (fb : FrameBuffer) (good : RegionPixel) : Set Point :=
  (good.1.moved fb.region.x fb.region.y).cells

/- A background with the rectangles over it shows the tile. -/
theorem paintsTile {fb : FrameBuffer} {sz : Size} {tile : Region} (fits : fb.region.Fits) (t : Tile fb sz tile)
    {back : UInt32} {goods : List RegionPixel} (inside : ∀ good ∈ goods, Good fb (jobOf fb tile) good)
    (covers : ∀ p, (jobOf fb tile).Has p → fb.pixel p ≠ back → ∃ good ∈ goods, good.1.Has p) (s : Screen) :
    paint fb.source (covered (partCells fb) goods) (fillPixel tile back s) = paint fb.source tile.cells s := by
  have background : fillPixel tile back s = paint (fun _ => back) tile.cells s :=
    fillPixelPaint fun _ _ => rfl
  rw [background]
  apply paintBackground
  · rintro p ⟨good,listed,has⟩
    exact withinHas (partPlaced fits t (inside good listed).within) has
  · intro p has uncovered
    by_contra differs
    obtain ⟨good,listed,inGood⟩ := covers _ (sourceJob fits t has) differs
    exact uncovered ⟨good,listed,movedHas.mpr inGood⟩

end Ltsm.SubRects
