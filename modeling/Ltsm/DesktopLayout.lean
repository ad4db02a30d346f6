import Ltsm.RegionAlgebra
import Ltsm.ResizeNegotiation

/-! The screens of a SetDesktopSize message, against the box around their points. -/
namespace Ltsm.DesktopLayout
open Regions DividedRegions RegionAlgebra ServerMessages ResizeNegotiation

def points (screens : List Region) : Set Point := {p | ∃ screen ∈ screens, screen.Has p}

/- The bounding box of the screens; those without a point have none. -/
structure Bounds (screens : List Region) (box : Region) : Prop where
  filled : box.isEmpty = false
  hull : Hull (points screens) box

/- The size is the one of the screen, or is handed on to be set. -/
def Applied (sz : Size) (s t : Server) : Prop :=
  (s.size = sz ∧ t.calls = s.calls ∧ t.sent = s.sent ++ [⟨.clientSide,.noError,sz⟩]) ∨
    (s.size ≠ sz ∧ t.calls = s.calls ++ [sz] ∧ t.sent = s.sent)

/- An error is told, and nothing is set. -/
def Refused (s t : Server) : Prop :=
  t.size = s.size ∧ t.calls = s.calls ∧
    ∃ error size, error ≠ .noError ∧ t.sent = s.sent ++ [⟨.clientSide,error,size⟩]

/- A layout that begins at (0, 0) is applied with the size of its box, where the X server may be
asked; any other is refused. -/
structure Validated (screens : List Region) (xcbAllow : Bool) (s : Server) : Prop where
  applied : xcbAllow = true → ∀ width height, Bounds screens ⟨0,0,width,height⟩ →
    Applied ⟨width,height⟩ s (serverRecvDesktopSizeEvent screens xcbAllow s)
  refused : xcbAllow = false ∨ (¬∃ width height, Bounds screens ⟨0,0,width,height⟩) →
    Refused s (serverRecvDesktopSizeEvent screens xcbAllow s)

section
variable {screens : List Region} {box : Region} {s : Server} {xcbAllow : Bool}

theorem boundsUnique {other : Region} (one : Bounds screens box) (two : Bounds screens other) : box = other :=
  hullUnique one.filled one.hull two.hull

theorem pointsCons (screen : Region) (screens : List Region) : points (screen :: screens) = screen.cells ∪ points screens := by
  ext p
  simp [points,Region.cells]

/- What has been joined of the screens that were gone through: nothing yet, or the box around
their points. -/
def Joined (gone : Set Point) (reg : Region) : Prop :=
  (gone = ∅ ∧ reg.isEmpty = true) ∨ (reg.isEmpty = false ∧ Hull gone reg)

theorem joinedStep {gone : Set Point} {reg screen : Region} (stored : Stored screen)
    (corner : 0 ≤ box.x ∧ 0 ≤ box.y) (sides : box.width ≤ 65535 ∧ box.height ≤ 65535)
    (inside : gone ∪ screen.cells ⊆ box.cells) (joined : Joined gone reg) :
    Joined (gone ∪ screen.cells) (reg.join screen) := by
  obtain ⟨before,there⟩ := Set.union_subset_iff.mp inside
  obtain ⟨rfl,empty⟩ | ⟨some,hull⟩ := joined
  · have taken : reg.join screen = screen := by
      have invalid : reg.isValid = false := by simp [Region.isValid,empty]
      simp [Region.join,invalid]
    rw [taken,Set.empty_union]
    cases none : screen.isEmpty with
    | true => exact .inl ⟨emptyIff.mp none,none⟩
    | false => exact .inr ⟨none,hullSelf screen⟩
  · have within := (subsetIff some).mp (hull.least box before)
    have positive : 0 ≤ reg.x ∧ 0 ≤ reg.y := ⟨corner.1.trans within.left,corner.2.trans within.top⟩
    cases none : screen.isEmpty with
    | true =>
      have valid : reg.isValid = true := Region.validIff.mpr ⟨positive.1,positive.2,some⟩
      have same : reg.join screen = reg := by simp [Region.join,valid,none]
      rw [same,emptyIff.mp none,Set.union_empty]
      exact .inr ⟨some,hull⟩
    | false =>
      obtain ⟨left,top,right,bottom⟩ := within
      obtain ⟨leftToo,topToo,rightToo,bottomToo⟩ := (subsetIff none).mp there
      have joinable : Joinable reg screen := ⟨by omega,by omega⟩
      have smallest := (joinIff stored some none).mpr ⟨joinable,.inl positive⟩
      refine .inr ⟨?_,hullUnion hull smallest⟩
      obtain ⟨within,_⟩ := aroundWithin ((smallestIff some none).mp smallest)
      obtain ⟨wide,high⟩ := filledIff.mp some
      obtain ⟨left,top,right,bottom⟩ := within
      exact filledIff.mpr ⟨by omega,by omega⟩

/- By induction over the screens that are left. -/
theorem joinedAll {gone : Set Point} {reg : Region} (stored : ∀ screen ∈ screens, Stored screen)
    (corner : 0 ≤ box.x ∧ 0 ≤ box.y) (sides : box.width ≤ 65535 ∧ box.height ≤ 65535)
    (inside : gone ∪ points screens ⊆ box.cells) (joined : Joined gone reg) :
    Joined (gone ∪ points screens) (screens.foldl Region.join reg) := by
  induction screens generalizing gone reg with
  | nil =>
    have none : points [] = ∅ := by simp [points]
    rwa [none,Set.union_empty]
  | cons screen screens ih =>
    obtain ⟨first,others⟩ := List.forall_mem_cons.mp stored
    rw [pointsCons,← Set.union_assoc] at inside ⊢
    exact ih others inside (joinedStep first corner sides (Set.union_subset_iff.mp inside).1 joined)

/- Screens without a negative corner, in a box that a region can be. -/
theorem desktopBounds (stored : ∀ screen ∈ screens, Stored screen) (bounds : Bounds screens box)
    (corner : 0 ≤ box.x ∧ 0 ≤ box.y) (sides : box.width ≤ 65535 ∧ box.height ≤ 65535) : desktop screens = box := by
  have start : Joined ∅ ⟨0,0,0,0⟩ := .inl ⟨rfl,rfl⟩
  have inside : ∅ ∪ points screens ⊆ box.cells := by
    rw [Set.empty_union]
    exact bounds.hull.around
  have joined := joinedAll stored corner sides inside start
  rw [Set.empty_union] at joined
  obtain ⟨none,_⟩ | ⟨some,hull⟩ := joined
  · have least := bounds.hull.least ⟨0,0,0,0⟩ (none ▸ Set.empty_subset _)
    have nothing : (⟨0,0,0,0⟩ : Region).cells = ∅ := emptyIff.mp rfl
    rw [nothing,Set.subset_empty_iff,← emptyIff,bounds.filled] at least
    cases least
  · exact hullUnique some hull bounds.hull

theorem joinSides {reg screen : Region} (one : reg.width < 65536 ∧ reg.height < 65536)
    (two : screen.width < 65536 ∧ screen.height < 65536) :
    (reg.join screen).width < 65536 ∧ (reg.join screen).height < 65536 := by
  unfold Region.join toUInt16
  split
  · exact two
  · split
    · exact ⟨by simp only; omega,by simp only; omega⟩
    · exact one

theorem desktopSides (stored : ∀ screen ∈ screens, Stored screen) :
    (desktop screens).width < 65536 ∧ (desktop screens).height < 65536 := by
  unfold desktop
  refine List.foldlRecOn screens Region.join (motive := fun reg : Region => reg.width < 65536 ∧ reg.height < 65536)
    (by decide) fun reg sides screen listed => ?_
  exact joinSides sides ⟨(stored screen listed).wide,(stored screen listed).high⟩

/-! What the server makes of a message. -/

/- The check of the layout, as it stands in the code. -/
def Misplaced (screens : List Region) : Prop := (desktop screens).x ≠ 0 ∧ (desktop screens).y ≠ 0

theorem refusedSent (error : DesktopResizeError) (sz : Size) (requests : Nat) :
    Refused s (sendEncodingDesktopResize .clientSide error sz {s with requests}) ↔
      s.extDesktopSize = true ∧ error ≠ .noError := by
  unfold sendEncodingDesktopResize
  split
  · rename_i told
    constructor
    · rintro ⟨_,_,_,_,wrong,sent⟩
      simp only [List.append_cancel_left_eq,List.cons.injEq,Sent.mk.injEq,and_true] at sent
      exact ⟨told,sent.2.1 ▸ wrong⟩
    · rintro ⟨_,wrong⟩
      exact ⟨rfl,rfl,error,sz,wrong,rfl⟩
  · rename_i untold
    refine iff_of_false ?_ fun both => untold both.1
    rintro ⟨_,_,_,_,_,sent⟩
    simp at sent

theorem refusedIff : Refused s (serverRecvDesktopSizeEvent screens xcbAllow s) ↔
    s.extDesktopSize = true ∧ (Misplaced screens ∨ xcbAllow = false) := by
  simp only [serverRecvDesktopSizeEvent]
  split
  · rename_i misplaced
    rw [refusedSent]
    exact and_congr_right fun _ => iff_of_true (by decide) (.inl misplaced)
  · rename_i placed
    split
    · rename_i off
      rw [refusedSent]
      exact and_congr_right fun _ => iff_of_true (by decide) (.inr (by simpa using off))
    · rename_i allowed
      have none : ¬(Misplaced screens ∨ xcbAllow = false) := by
        rintro (misplaced | off)
        · exact placed misplaced
        · exact allowed (by simp [off])
      split
      · rw [refusedSent]
        exact and_congr_right fun _ => iff_of_false (fun wrong => wrong rfl) none
      · refine iff_of_false ?_ fun both => none both.2
        rintro ⟨_,calls,_⟩
        simp at calls

theorem appliedSent {error : DesktopResizeError} (sz told : Size) (requests : Nat) :
    Applied sz s (sendEncodingDesktopResize .clientSide error told {s with requests}) ↔
      s.extDesktopSize = true ∧ s.size = sz ∧ error = .noError ∧ told = sz := by
  unfold sendEncodingDesktopResize
  split
  · rename_i ext
    simp only at ext
    simp [Applied,ext]
  · rename_i ext
    simp only at ext
    simp [Applied,ext]

theorem appliedCall (sz called : Size) (requests : Nat) (differs : s.size ≠ called) :
    Applied sz s {s with displayResizeNegotiation := true,calls := s.calls ++ [called],requests} ↔ called = sz := by
  constructor
  · rintro (⟨_,calls,_⟩ | ⟨_,calls,_⟩)
    · simp at calls
    · simpa using calls
  · rintro rfl
    exact .inr ⟨differs,rfl,rfl⟩

theorem appliedIff (sz : Size) : Applied sz s (serverRecvDesktopSizeEvent screens true s) ↔
    ¬Misplaced screens ∧ (desktop screens).toSize = sz ∧ (s.extDesktopSize = true ∨ s.size ≠ sz) := by
  simp only [serverRecvDesktopSizeEvent]
  split
  · rename_i misplaced
    rw [appliedSent]
    exact iff_of_false (fun all => by cases all.2.2.1) fun all => all.1 misplaced
  · rename_i placed
    rw [if_neg (by simp)]
    split
    · rename_i same
      rw [appliedSent]
      constructor
      · rintro ⟨told,rfl,_⟩
        exact ⟨placed,same.symm,.inl told⟩
      · rintro ⟨_,rfl,told | differs⟩
        · exact ⟨told,same,rfl,same⟩
        · exact absurd same differs
    · rename_i differs
      rw [appliedCall _ _ _ differs]
      constructor
      · rintro rfl
        exact ⟨placed,rfl,.inr differs⟩
      · exact fun all => all.2.1

end

/- The layouts and states that the check gets right. -/
structure Meant (screens : List Region) (xcbAllow : Bool) (s : Server) : Prop where
  off : xcbAllow = false → s.extDesktopSize = true
  origin : xcbAllow = true → ∀ width height, Bounds screens ⟨0,0,width,height⟩ →
    width ≤ 65535 ∧ height ≤ 65535 ∧ (s.extDesktopSize = true ∨ s.size ≠ ⟨width,height⟩)
  elsewhere : xcbAllow = true → (¬∃ width height, Bounds screens ⟨0,0,width,height⟩) →
    s.extDesktopSize = true ∧ (screens.foldl Region.join ⟨0,0,0,0⟩).x ≠ 0 ∧ (screens.foldl Region.join ⟨0,0,0,0⟩).y ≠ 0

section
variable {screens : List Region}

/- The box at the origin is what has been joined, or is too large for it. -/
theorem originJoined (stored : ∀ screen ∈ screens, Stored screen) {width height : Nat}
    (bounds : Bounds screens ⟨0,0,width,height⟩) :
    (¬Misplaced screens ∧ (desktop screens).toSize = ⟨width,height⟩) ↔ width ≤ 65535 ∧ height ≤ 65535 := by
  constructor
  · rintro ⟨_,same⟩
    obtain ⟨wide,high⟩ := desktopSides stored
    simp only [Region.toSize,Size.mk.injEq] at same
    omega
  · intro sides
    have whole := desktopBounds stored bounds ⟨le_rfl,le_rfl⟩ sides
    rw [Misplaced,whole]
    exact ⟨fun both => both.1 rfl,rfl⟩

theorem validatedIff (stored : ∀ screen ∈ screens, Stored screen) (xcbAllow : Bool) (s : Server) :
    Validated screens xcbAllow s ↔ Meant screens xcbAllow s := by
  cases xcbAllow with
  | false =>
    constructor
    · intro validated
      exact ⟨fun _ => (refusedIff.mp (validated.refused (.inl rfl))).1,fun on => (by cases on),fun on => (by cases on)⟩
    · intro meant
      exact ⟨fun on => (by cases on),fun _ => refusedIff.mpr ⟨meant.off rfl,.inr rfl⟩⟩
  | true =>
    constructor
    · intro validated
      refine ⟨fun off => (by cases off),fun _ width height bounds => ?_,fun _ none => ?_⟩
      · obtain ⟨placed,size,told⟩ := (appliedIff _).mp (validated.applied rfl width height bounds)
        obtain ⟨wide,high⟩ := (originJoined stored bounds).mp ⟨placed,size⟩
        exact ⟨wide,high,told⟩
      · obtain ⟨told,misplaced | off⟩ := refusedIff.mp (validated.refused (.inr none))
        · exact ⟨told,misplaced⟩
        · cases off
    · intro meant
      refine ⟨fun _ width height bounds => ?_,fun none => ?_⟩
      · obtain ⟨wide,high,told⟩ := meant.origin rfl width height bounds
        obtain ⟨placed,size⟩ := (originJoined stored bounds).mpr ⟨wide,high⟩
        exact (appliedIff _).mpr ⟨placed,size,told⟩
      · obtain ⟨told,misplaced⟩ := meant.elsewhere rfl (none.resolve_left (by simp))
        exact refusedIff.mpr ⟨told,.inl misplaced⟩

/- Of the boxes that a region can be, those with one coordinate at zero and the other beyond it
get through. -/
theorem boxMeant (stored : ∀ screen ∈ screens, Stored screen) {box : Region} (bounds : Bounds screens box)
    (corner : 0 ≤ box.x ∧ 0 ≤ box.y) (sides : box.width ≤ 65535 ∧ box.height ≤ 65535) (xcbAllow : Bool)
    {s : Server} (told : s.extDesktopSize = true) :
    Meant screens xcbAllow s ↔ xcbAllow = false ∨ (box.x = 0 ↔ box.y = 0) := by
  have joined : screens.foldl Region.join ⟨0,0,0,0⟩ = box := desktopBounds stored bounds corner sides
  have found : (∃ width height, Bounds screens ⟨0,0,width,height⟩) ↔ box.x = 0 ∧ box.y = 0 := by
    constructor
    · rintro ⟨width,height,same⟩
      rw [boundsUnique bounds same]
      exact ⟨rfl,rfl⟩
    · rintro ⟨left,top⟩
      have same : (⟨box.x,box.y,box.width,box.height⟩ : Region) = box := rfl
      rw [left,top] at same
      exact ⟨box.width,box.height,same.symm ▸ bounds⟩
  constructor
  · rintro ⟨_,_,elsewhere⟩
    cases xcbAllow with
    | false => exact .inl rfl
    | true =>
      refine .inr ?_
      by_cases origin : box.x = 0 ∧ box.y = 0
      · exact iff_of_true origin.1 origin.2
      · obtain ⟨_,left,top⟩ := elsewhere rfl (mt found.mp origin)
        rw [joined] at left top
        exact iff_of_false left top
  · intro either
    refine ⟨fun _ => told,fun _ width height same => ?_,fun on none => ⟨told,?_⟩⟩
    · rw [boundsUnique bounds same] at sides
      exact ⟨sides.1,sides.2,.inl told⟩
    · have both := either.resolve_left (by simp [on])
      rw [joined]
      rw [found] at none
      exact ⟨fun left => none ⟨left,both.mp left⟩,fun top => none ⟨both.mpr top,top⟩⟩

end

/- The server validates the boxes at (0, 0) that a region can be, and of the others those of which
no coordinate of what has been joined is zero. -/
theorem layoutValidatedIff (screens : List Region) (stored : ∀ screen ∈ screens, Stored screen) (xcbAllow : Bool)
    (s : Server) : (Validated screens xcbAllow s ↔ Meant screens xcbAllow s) ∧
      ∀ box, Bounds screens box → (0 ≤ box.x ∧ 0 ≤ box.y) → (box.width ≤ 65535 ∧ box.height ≤ 65535) →
        s.extDesktopSize = true → (Validated screens xcbAllow s ↔ xcbAllow = false ∨ (box.x = 0 ↔ box.y = 0)) := by
  have whole := validatedIff stored xcbAllow s
  exact ⟨whole,fun box bounds corner sides told => whole.trans (boxMeant stored bounds corner sides xcbAllow told)⟩

theorem oneBounds (screen : Region) (some : screen.isEmpty = false) : Bounds [screen] screen := by
  refine ⟨some,?_⟩
  have none : points [] = ∅ := by simp [points]
  rw [pointsCons,none,Set.union_empty]
  exact hullSelf screen

theorem layoutAtOrigin : Validated [⟨0,0,800,600⟩] true (start true ⟨1024,768⟩) :=
  ((layoutValidatedIff [⟨0,0,800,600⟩] (by decide) true (start true ⟨1024,768⟩)).2 _ (oneBounds _ rfl) (by decide)
    (by decide) rfl).mpr (.inr (by decide))

/- A screen that begins below the origin is applied. -/
theorem lowLayoutApplied : ¬ ∀ screens, (∀ screen ∈ screens, Stored screen) → ∀ xcbAllow s,
    Validated screens xcbAllow s := by
  intro all
  have validated := all [⟨0,5,800,600⟩] (by decide) true (start true ⟨1024,768⟩)
  rw [validatedIff (by decide),boxMeant (by decide) (oneBounds _ rfl) (by decide) (by decide) _ rfl] at validated
  exact absurd validated (by decide)

end Ltsm.DesktopLayout
