import Ltsm.Regions

/-! Regions joined, cut and aligned, in the integers of the coordinates. A region with a
corner below zero counts as none when another is joined to it. -/
namespace Ltsm.DamagedRegions
open Regions

def hasSingleBit (n : Nat) : Bool := n != 0 && n &&& (n - 1) == 0
def alignUp (n : Int) (alignment : Nat) : Int :=
  if hasSingleBit alignment then (n + alignment - 1) / alignment * alignment else 0
def alignDown (n : Int) (alignment : Nat) : Int :=
  if hasSingleBit alignment then n / alignment * alignment else n

end Ltsm.DamagedRegions

namespace Ltsm.Regions.Region
open DamagedRegions

/- What reset leaves, and what a region is before anything is stored in it. -/
def reset : Region := ⟨-1,-1,0,0⟩

def isValid (r : Region) : Bool := 0 ≤ r.x && 0 ≤ r.y && !r.isEmpty

def align (r : Region) (val : Nat) : Region :=
  let x := toInt16 (alignDown r.x val)
  let y := toInt16 (alignDown r.y val)
  ⟨x,y,toUInt16 (alignUp (r.width + (r.x - x)) val),toUInt16 (alignUp (r.height + (r.y - y)) val)⟩

def join (r reg : Region) : Region :=
  if !r.isValid then reg
  else if !reg.isEmpty && r != reg then
    let xm := min r.x reg.x
    let ym := min r.y reg.y
    ⟨xm,ym,toUInt16 (max (r.x + r.width) (reg.x + reg.width) - xm),
      toUInt16 (max (r.y + r.height) (reg.y + reg.height) - ym)⟩
  else r

def intersects (reg1 reg2 : Region) : Bool :=
  if reg1.isEmpty || reg2.isEmpty then false
  else if min (reg1.x + reg1.width) (reg2.x + reg2.width) ≤ max reg1.x reg2.x then false
  else if min (reg1.y + reg1.height) (reg2.y + reg2.height) ≤ max reg1.y reg2.y then false
  else true

def intersected (reg1 reg2 : Region) : Region :=
  if intersects reg1 reg2 then
    let x := max reg1.x reg2.x
    let y := max reg1.y reg2.y
    ⟨x,y,toUInt16 (min (reg1.x + reg1.width) (reg2.x + reg2.width) - x),
      toUInt16 (min (reg1.y + reg1.height) (reg2.y + reg2.height) - y)⟩
  else reset

/- A corner that an int16_t can hold. -/
def Cornered (r : Region) : Prop := r.x < 32768 ∧ r.y < 32768
instance (r) : Decidable (Cornered r) := inferInstanceAs (Decidable (_ ∧ _))

/- Regions that no join or alignment takes out of sixteen bits. -/
structure Placed (r : Region) : Prop where
  left : 0 ≤ r.x
  top : 0 ≤ r.y
  right : r.x + r.width ≤ 65532
  bottom : r.y + r.height ≤ 65532
  corner : r.Cornered

instance (r : Region) : Decidable r.Placed :=
  decidable_of_iff (0 ≤ r.x ∧ 0 ≤ r.y ∧ r.x + r.width ≤ 65532 ∧ r.y + r.height ≤ 65532 ∧ r.Cornered)
    ⟨fun h => ⟨h.1,h.2.1,h.2.2.1,h.2.2.2.1,h.2.2.2.2⟩,fun h => ⟨h.left,h.top,h.right,h.bottom,h.corner⟩⟩

def Proper (r : Region) : Prop := r.isEmpty = true ∨ r.Placed
instance (r) : Decidable (Proper r) := inferInstanceAs (Decidable (_ ∨ _))

variable {r reg : Region} {p : Point}

theorem nobodyHas (empty : r.isEmpty = true) : ¬r.Has p := by
  rintro ⟨_,_,_,_⟩
  simp only [isEmpty,Bool.or_eq_true,decide_eq_true_iff] at empty
  omega

theorem Proper.placed (proper : r.Proper) (has : r.Has p) : r.Placed :=
  proper.resolve_left fun empty => nobodyHas empty has

theorem validIff : r.isValid = true ↔ 0 ≤ r.x ∧ 0 ≤ r.y ∧ r.isEmpty = false := by
  simp [isValid,and_assoc]

/- A proper region that counts as none is empty. -/
theorem Proper.invalidEmpty (proper : r.Proper) (invalid : ¬r.isValid = true) : r.isEmpty = true := by
  obtain empty | placed := proper
  · exact empty
  · by_contra some
    exact invalid (validIff.mpr ⟨placed.left,placed.top,by simpa using some⟩)

theorem toUInt16Le {value : Int} (low : 0 ≤ value) : (toUInt16 value : Int) ≤ value := by
  unfold toUInt16
  omega

theorem toUInt16Kept {value : Int} (low : 0 ≤ value) (high : value ≤ 65535) : (toUInt16 value : Int) = value := by
  unfold toUInt16
  omega

/- The box around two regions. -/
structure Around (r reg box : Region) : Prop where
  left : box.x = min r.x reg.x
  top : box.y = min r.y reg.y
  right : box.x + box.width = max (r.x + r.width) (reg.x + reg.width)
  bottom : box.y + box.height = max (r.y + r.height) (reg.y + reg.height)

/- What a join comes to: the one region, the other, or the box around them. -/
theorem joinCases (proper : r.Proper) (joined : reg.Proper) :
    (r.isEmpty = true ∧ r.join reg = reg) ∨ ((reg.isEmpty = true ∨ r = reg) ∧ r.join reg = r) ∨
      (r.Placed ∧ reg.Placed ∧ Around r reg (r.join reg)) := by
  by_cases valid : r.isValid = true
  · by_cases trivial : reg.isEmpty = true ∨ r = reg
    · have same : r.join reg = r := by
        obtain empty | equal := trivial
        · simp [join,valid,empty]
        · simp [join,equal]
      exact .inr (.inl ⟨trivial,same⟩)
    · obtain ⟨some,differs⟩ := not_or.mp trivial
      have placed := proper.resolve_left (by simp [(validIff.mp valid).2.2])
      have placedToo := joined.resolve_left some
      have box : (!reg.isEmpty && r != reg) = true := by simp [some,differs]
      obtain ⟨left,top,right,bottom,corner⟩ := placed
      obtain ⟨leftToo,topToo,rightToo,bottomToo,cornerToo⟩ := placedToo
      refine .inr (.inr ⟨⟨left,top,right,bottom,corner⟩,⟨leftToo,topToo,rightToo,bottomToo,cornerToo⟩,?_⟩)
      simp only [join,valid,box,Bool.not_true,Bool.false_eq_true,if_false,if_true]
      constructor
      · rfl
      · rfl
      · dsimp only
        rw [toUInt16Kept (by omega) (by omega)]
        omega
      · dsimp only
        rw [toUInt16Kept (by omega) (by omega)]
        omega
  · have same : r.join reg = reg := by simp [join,valid]
    exact .inl ⟨proper.invalidEmpty valid,same⟩

theorem joinHas (proper : r.Proper) (joined : reg.Proper) (has : r.Has p ∨ reg.Has p) : (r.join reg).Has p := by
  obtain ⟨empty,same⟩ | ⟨trivial,same⟩ | ⟨_,_,left,top,right,bottom⟩ := joinCases proper joined
  · rw [same]
    exact has.resolve_left (nobodyHas empty)
  · rw [same]
    obtain empty | equal := trivial
    · exact has.resolve_right (nobodyHas empty)
    · exact has.elim id fun inside => equal ▸ inside
  · rcases has with inside | inside
    · obtain ⟨west,east,north,south⟩ := inside
      exact ⟨by omega,by omega,by omega,by omega⟩
    · obtain ⟨west,east,north,south⟩ := inside
      exact ⟨by omega,by omega,by omega,by omega⟩

theorem joinProper (proper : r.Proper) (joined : reg.Proper) : (r.join reg).Proper := by
  obtain ⟨_,same⟩ | ⟨_,same⟩ | ⟨placed,placedToo,left,top,right,bottom⟩ := joinCases proper joined
  · rwa [same]
  · rwa [same]
  · obtain ⟨leftOne,topOne,rightOne,bottomOne,westOne,northOne⟩ := placed
    obtain ⟨leftToo,topToo,rightToo,bottomToo,_,_⟩ := placedToo
    refine .inr ⟨?_,?_,?_,?_,?_,?_⟩ <;> omega

theorem intersectsOf (has : r.Has p) (hasToo : reg.Has p) : r.intersects reg = true := by
  have some : ¬(r.isEmpty || reg.isEmpty) = true := by
    rw [Bool.or_eq_true]
    exact not_or.mpr ⟨fun empty => nobodyHas empty has,fun empty => nobodyHas empty hasToo⟩
  unfold Has at has hasToo
  rw [intersects,if_neg some,if_neg (by omega),if_neg (by omega)]

theorem intersectsMeet (meet : r.intersects reg = true) :
    (r.isEmpty = false ∧ reg.isEmpty = false) ∧ max r.x reg.x < min (r.x + r.width) (reg.x + reg.width) ∧
      max r.y reg.y < min (r.y + r.height) (reg.y + reg.height) := by
  unfold intersects at meet
  split at meet
  · cases meet
  · rename_i some
    split at meet
    · cases meet
    · split at meet
      · cases meet
      · exact ⟨by simpa using some,by omega,by omega⟩

/- The region that two regions have in common, but for what is lost of its size. -/
structure Common (r reg box : Region) : Prop where
  left : box.x = max r.x reg.x
  top : box.y = max r.y reg.y
  right : box.x + box.width ≤ min (r.x + r.width) (reg.x + reg.width)
  bottom : box.y + box.height ≤ min (r.y + r.height) (reg.y + reg.height)

theorem intersectedCommon (meet : r.intersects reg = true) : Common r reg (r.intersected reg) := by
  obtain ⟨_,across,down⟩ := intersectsMeet meet
  have width := toUInt16Le (sub_nonneg.mpr across.le)
  have height := toUInt16Le (sub_nonneg.mpr down.le)
  simp only [intersected,meet,if_true]
  exact ⟨rfl,rfl,le_sub_iff_add_le'.mp width,le_sub_iff_add_le'.mp height⟩

/- Nothing is lost where one of them is placed. -/
theorem intersectedWhole (meet : r.intersects reg = true) (either : r.Placed ∨ reg.Placed) :
    (r.intersected reg).x + (r.intersected reg).width = min (r.x + r.width) (reg.x + reg.width) ∧
      (r.intersected reg).y + (r.intersected reg).height = min (r.y + r.height) (reg.y + reg.height) := by
  obtain ⟨_,across,down⟩ := intersectsMeet meet
  have fits : min (r.x + r.width) (reg.x + reg.width) - max r.x reg.x ≤ 65535 ∧
      min (r.y + r.height) (reg.y + reg.height) - max r.y reg.y ≤ 65535 := by
    obtain ⟨left,top,right,bottom⟩ | ⟨left,top,right,bottom⟩ := either
    · exact ⟨by omega,by omega⟩
    · exact ⟨by omega,by omega⟩
  have width := toUInt16Kept (sub_nonneg.mpr across.le) fits.1
  have height := toUInt16Kept (sub_nonneg.mpr down.le) fits.2
  simp only [intersected,meet,if_true,width,height]
  exact ⟨add_sub_cancel _ _,add_sub_cancel _ _⟩

theorem intersectedSub (has : (r.intersected reg).Has p) : r.Has p ∧ reg.Has p := by
  by_cases meet : r.intersects reg = true
  · obtain ⟨left,top,right,bottom⟩ := intersectedCommon meet
    obtain ⟨west,east,north,south⟩ := has
    exact ⟨⟨by omega,by omega,by omega,by omega⟩,by omega,by omega,by omega,by omega⟩
  · rw [intersected,if_neg meet] at has
    exact absurd has (nobodyHas rfl)

/- Exactly the common points. -/
theorem intersectedHas (proper : r.Proper ∨ reg.Proper) :
    (r.intersected reg).Has p ↔ r.Has p ∧ reg.Has p := by
  refine ⟨intersectedSub,fun ⟨has,hasToo⟩ => ?_⟩
  have meet := intersectsOf has hasToo
  obtain ⟨left,top,_,_⟩ := intersectedCommon meet
  obtain ⟨right,bottom⟩ := intersectedWhole meet (proper.imp (·.placed has) (·.placed hasToo))
  obtain ⟨west,east,north,south⟩ := has
  obtain ⟨westToo,eastToo,northToo,southToo⟩ := hasToo
  exact ⟨by omega,by omega,by omega,by omega⟩

theorem intersectedCornered (corner : r.Cornered) (cornerToo : reg.Cornered) : (r.intersected reg).Cornered := by
  unfold intersected
  split
  · exact ⟨max_lt corner.1 cornerToo.1,max_lt corner.2 cornerToo.2⟩
  · decide

theorem intersectedProper (placed : r.Proper ∨ reg.Proper) (corner : r.Cornered) (cornerToo : reg.Cornered) :
    (r.intersected reg).Proper := by
  by_cases meet : r.intersects reg = true
  · obtain ⟨⟨some,someToo⟩,_⟩ := intersectsMeet meet
    have either : r.Placed ∨ reg.Placed :=
      placed.imp (fun proper => proper.resolve_left (by simp [some]))
        fun proper => proper.resolve_left (by simp [someToo])
    obtain ⟨left,top,right,bottom⟩ := intersectedCommon meet
    have held := intersectedCornered corner cornerToo
    refine .inr ?_
    rcases either with one | other
    · exact ⟨left ▸ le_max_of_le_left one.left,top ▸ le_max_of_le_left one.top,
        right.trans ((min_le_left _ _).trans one.right),bottom.trans ((min_le_left _ _).trans one.bottom),held⟩
    · exact ⟨left ▸ le_max_of_le_right other.left,top ▸ le_max_of_le_right other.top,
        right.trans ((min_le_right _ _).trans other.right),bottom.trans ((min_le_right _ _).trans other.bottom),held⟩
  · rw [intersected,if_neg meet]
    exact .inl rfl

theorem toInt16Cornered (value other : Int) (width height : Nat) :
    Cornered ⟨toInt16 value,toInt16 other,width,height⟩ :=
  ⟨Int.bmod_lt (by decide),Int.bmod_lt (by decide)⟩

theorem alignHas (placed : r.Placed) (has : r.Has p) : (r.align 4).Has p := by
  obtain ⟨left,top,right,bottom,west,north⟩ := placed
  have four : hasSingleBit 4 = true := rfl
  have across : toInt16 (r.x / 4 * 4) = r.x / 4 * 4 := toInt16Fits (by omega) (by omega)
  have down : toInt16 (r.y / 4 * 4) = r.y / 4 * 4 := toInt16Fits (by omega) (by omega)
  unfold Has at has ⊢
  simp only [align,alignDown,alignUp,four,if_true,toUInt16,Nat.cast_ofNat,across,down]
  omega

end Ltsm.Regions.Region
