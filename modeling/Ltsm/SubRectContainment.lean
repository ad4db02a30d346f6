import Ltsm.DividedRegions
import Ltsm.HexTile
import Ltsm.Rre

/-! Where RRE, CoRRE and HexTile draw. The corner of a sub-rectangle is stored in sixteen
bits before its far sides are looked at, and nobody looks at its near ones. -/
namespace Ltsm.SubRectContainment
open Library Regions PixelFormats PixelStreams UpdateMessages FrameBuffers SubRects DividedRegions

/- A rectangle as its header announces it, in fields of two bytes. -/
structure Announced (header : Region) : Prop where
  left : 0 ≤ header.x ∧ header.x < 65536
  top : 0 ≤ header.y ∧ header.y < 65536
  wide : header.width < 65536
  high : header.height < 65536

instance (header : Region) : Decidable (Announced header) :=
  decidable_of_iff ((0 ≤ header.x ∧ header.x < 65536) ∧ (0 ≤ header.y ∧ header.y < 65536) ∧
      header.width < 65536 ∧ header.height < 65536)
    ⟨fun h => ⟨h.1,h.2.1,h.2.2.1,h.2.2.2⟩,fun h => ⟨h.left,h.top,h.wide,h.high⟩⟩

/- What a decoder is given of it. -/
def received (header : Region) : Region := ⟨toInt16 header.x,toInt16 header.y,header.width,header.height⟩

/- Whatever is on the screen, the stream is refused or nothing changes outside the
rectangle. -/
def Contained (header : Region) (decode : Screen → Reader Screen) (bytes : Bytes) : Prop :=
  ∀ s s' rest, (decode s).run bytes = some (s',rest) → KeepsOutside header.cells s s'

/-! What a stream has of sub-rectangles. -/

structure SubRect where
  pixel : UInt32
  x : Nat
  y : Nat
  width : Nat
  height : Nat

namespace SubRect

def place (reg : Region) (r : SubRect) : Region := subRegion reg r.x r.y r.width r.height

/- The corner does not wrap around, or there is nothing to draw. -/
def Kept (reg : Region) (r : SubRect) : Prop :=
  r.width = 0 ∨ r.height = 0 ∨ (reg.x + r.x < 32768 ∧ reg.y + r.y < 32768)
instance (reg r) : Decidable (Kept reg r) := by unfold Kept; infer_instance

end SubRect

/- The rectangle itself is stored as announced, or there is nothing to draw. -/
def Placed (header : Region) : Prop :=
  header.width = 0 ∨ header.height = 0 ∨ (header.x < 32768 ∧ header.y < 32768)
instance (header) : Decidable (Placed header) := by unfold Placed; infer_instance

def drawSubRects (reg : Region) : List SubRect → Screen → Option Screen
  | [], s => some s
  | r :: rest, s =>
    if outOfRange reg (r.place reg) then none else drawSubRects reg rest (fillPixel (r.place reg) r.pixel s)

def allInRange (reg : Region) (rects : List SubRect) : Bool := rects.all fun r => !outOfRange reg (r.place reg)

section
variable {reg : Region} {rects : List SubRect}

theorem fillPixelCells (reg : Region) (pixel : UInt32) (s : Screen) :
    fillPixel reg pixel s = paint (fun _ => pixel) reg.cells s := fillPixelPaint fun _ _ => rfl

/- Where they are drawn does not depend on what was there. -/
theorem drawPaints (inRange : allInRange reg rects = true) (image : Screen) (A : Set Point) :
    ∃ last, ∀ s, drawSubRects reg rects (paint image A s) =
      some (paint last (A ∪ covered (fun r => (r.place reg).cells) rects) s) := by
  induction rects generalizing image A with
  | nil => exact ⟨image,fun s => by rw [coveredNil,Set.union_empty]; rfl⟩
  | cons r rest ih =>
    obtain ⟨first,later⟩ := Bool.and_eq_true_iff.mp (List.all_cons.symm.trans inRange)
    obtain ⟨last,draws⟩ := ih later (paint (fun _ => r.pixel) (r.place reg).cells image) (A ∪ (r.place reg).cells)
    refine ⟨last,fun s => ?_⟩
    rw [drawSubRects,if_neg (by simpa using first),fillPixelCells,paintOver,draws,coveredCons,Set.union_assoc]

theorem drawRefuses (refused : allInRange reg rects = false) (s : Screen) : drawSubRects reg rects s = none := by
  induction rects generalizing s with
  | nil => cases refused
  | cons r rest ih =>
    rw [drawSubRects]
    split
    · rfl
    · rename_i inRange
      refine ih ?_ _
      rwa [allInRange,List.all_cons,Bool.eq_false_iff.mpr inRange,Bool.not_false,Bool.true_and] at refused

end

/-! What is drawn inside the announced rectangle. -/

/- What is not past its bound when it is stored comes back behind the corner. -/
theorem behindIff {corner : Int} {offset : Nat} (stored : toInt16 corner = corner) (small : offset < 65536) :
    corner ≤ toInt16 (corner + offset) ↔ corner + offset < 32768 := by
  obtain ⟨low,_⟩ := storedRange stored
  constructor
  · intro behind
    have same := storedBehind stored small behind
    obtain ⟨_,high⟩ := toInt16Range (corner + offset)
    omega
  · intro fits
    rw [toInt16Fits (by omega) fits]
    omega

section
variable {header : Region} (h : Announced header)
include h

theorem receivedSame (low : header.x < 32768 ∧ header.y < 32768) : received header = header := by
  obtain ⟨⟨left,_⟩,⟨top,_⟩,_,_⟩ := h
  rw [received,toInt16Fits (by omega) low.1,toInt16Fits (by omega) low.2]

theorem receivedInside : (received header).cells ⊆ header.cells ↔ Placed header := by
  constructor
  · intro inside
    by_contra misplaced
    simp only [Placed,not_or] at misplaced
    obtain ⟨wide,high,far⟩ := misplaced
    have corner : (received header).Has (received header).topLeft :=
      topLeftHas ⟨Nat.pos_of_ne_zero wide,Nat.pos_of_ne_zero high⟩
    obtain ⟨left,_,top,_⟩ : header.Has (received header).topLeft := inside corner
    simp only [received,Region.topLeft] at left top
    obtain ⟨_,acrossHigh⟩ := toInt16Range header.x
    obtain ⟨_,downHigh⟩ := toInt16Range header.y
    exact far ⟨by omega,by omega⟩
  · rintro (narrow | flat | low)
    · exact fun p has => absurd has (@emptyHas (received header) (.inl narrow) p)
    · exact fun p has => absurd has (@emptyHas (received header) (.inr flat) p)
    · rw [receivedSame h low]

/- A sub-rectangle that passed the check is inside unless its corner wrapped around. -/
theorem placeInside (placed : Placed header) {r : SubRect} (small : r.x < 65536 ∧ r.y < 65536)
    (inRange : outOfRange (received header) (r.place (received header)) = false) :
    (r.place (received header)).cells ⊆ header.cells ↔ r.Kept (received header) := by
  have corner : (r.place (received header)).topLeft =
      ⟨toInt16 ((received header).x + r.x),toInt16 ((received header).y + r.y)⟩ := by
    simp only [SubRect.place,subRegion,Region.topLeft,toInt16,Int.bmod_add_bmod,Int.add_comm]
  obtain ⟨acrossBehind,downBehind⟩ :
      ((received header).x ≤ toInt16 ((received header).x + r.x) ↔ (received header).x + r.x < 32768) ∧
      ((received header).y ≤ toInt16 ((received header).y + r.y) ↔ (received header).y + r.y < 32768) :=
    ⟨behindIff (storedTwice _) small.1,behindIff (storedTwice _) small.2⟩
  obtain ⟨cornerX,cornerY⟩ := Point.mk.inj corner
  constructor
  · intro inside
    by_contra lost
    simp only [SubRect.Kept,not_or] at lost
    obtain ⟨wide,high,wrapped⟩ := lost
    have has := inside (show (r.place (received header)).Has _ from
      topLeftHas ⟨Nat.pos_of_ne_zero wide,Nat.pos_of_ne_zero high⟩)
    have low : header.x < 32768 ∧ header.y < 32768 := by
      obtain narrow | flat | low := placed
      · exact absurd has (emptyHas (.inl narrow) _)
      · exact absurd has (emptyHas (.inr flat) _)
      · exact low
    have same := receivedSame h low
    obtain ⟨left,_,top,_⟩ := has
    rw [corner] at left top
    rw [same] at left top acrossBehind downBehind wrapped
    exact wrapped ⟨acrossBehind.mp left,downBehind.mp top⟩
  · rintro (narrow | flat | fits)
    · exact fun p has => absurd has (emptyHas (.inl narrow) p)
    · exact fun p has => absurd has (emptyHas (.inr flat) p)
    · refine Set.Subset.trans (fun p has => ?_) ((receivedInside h).mpr placed)
      have left := acrossBehind.mpr fits.1
      have top := downBehind.mpr fits.2
      obtain ⟨right,bottom⟩ := Bool.or_eq_false_iff.mp inRange
      exact withinHas ⟨by omega,by omega,not_lt.mp (of_decide_eq_false right),not_lt.mp (of_decide_eq_false bottom)⟩ has

end

/-! What a stream has of a whole rectangle: what is put on all of it, and sub-rectangles
over that. -/

structure Drawing where
  image : Screen
  subRects : List SubRect

/- Every sub-rectangle of a stream that is not refused is kept. -/
def KeepsSubRects (header : Region) (drawing : Reader Drawing) (bytes : Bytes) : Prop :=
  ∀ d rest, drawing.run bytes = some (d,rest) → allInRange (received header) d.subRects = true →
    Placed header ∧ ∀ r ∈ d.subRects, r.Kept (received header)

def Small (d : Drawing) : Prop := ∀ r ∈ d.subRects, r.x < 65536 ∧ r.y < 65536

instance pixelsDiffer : Nontrivial UInt32 := ⟨0,1,by decide⟩

section
variable {header : Region} {decode : Screen → Reader Screen} {drawing : Reader Drawing}

theorem drawnInside (h : Announced header) {d : Drawing} (small : Small d)
    (inRange : allInRange (received header) d.subRects = true) :
    (received header).cells ∪ covered (fun r => (r.place (received header)).cells) d.subRects ⊆ header.cells ↔
      Placed header ∧ ∀ r ∈ d.subRects, r.Kept (received header) := by
  have each (placed : Placed header) (r) (listed : r ∈ d.subRects) :
      (r.place (received header)).cells ⊆ header.cells ↔ r.Kept (received header) := by
    have passed := List.all_eq_true.mp inRange r listed
    exact placeInside h placed (small r listed) (by simpa using passed)
  rw [Set.union_subset_iff,receivedInside h]
  constructor
  · rintro ⟨placed,inside⟩
    exact ⟨placed,fun r listed => (each placed r listed).mp fun p has => inside ⟨r,listed,has⟩⟩
  · rintro ⟨placed,kept⟩
    refine ⟨placed,?_⟩
    rintro p ⟨r,listed,has⟩
    exact (each placed r listed).mpr (kept r listed) has

theorem drawnContained (h : Announced header) (small : Yields drawing Small)
    (draws : ∀ s, decode s = drawing >>= fun d =>
      ofOption (drawSubRects (received header) d.subRects (paint d.image (received header).cells s)))
    (bytes : Bytes) : Contained header decode bytes ↔ KeepsSubRects header drawing bytes := by
  cases read : drawing.run bytes with
  | none =>
    have refused (s : Screen) : (decode s).run bytes = none := by rw [draws,StateT.run_bind,read]; rfl
    refine iff_of_true (fun s s' rest ran => ?_) fun d rest ran => ?_
    · cases (refused s).symm.trans ran
    · cases read.symm.trans ran
  | some got =>
    obtain ⟨d,rest⟩ := got
    have here (s : Screen) : (decode s).run bytes =
        (drawSubRects (received header) d.subRects (paint d.image (received header).cells s)).map
          fun s' => (s',rest) := by
      rw [draws,StateT.run_bind,read]
      rfl
    cases inRange : allInRange (received header) d.subRects with
    | false =>
      refine iff_of_true (fun s s' rest ran => ?_) fun other rest' ran accepted => ?_
      · rw [here,drawRefuses inRange] at ran
        cases ran
      · cases Option.some.inj (read.symm.trans ran)
        cases inRange.symm.trans accepted
    | true =>
      obtain ⟨last,paints⟩ := drawPaints inRange d.image (received header).cells
      have whole : Contained header decode bytes ↔
          ∀ s, KeepsOutside header.cells s (paint last ((received header).cells ∪
            covered (fun r => (r.place (received header)).cells) d.subRects) s) := by
        constructor
        · exact fun contained s => contained s _ rest (by rw [here,paints]; rfl)
        · intro keeps s s' rest' ran
          rw [here,paints] at ran
          cases Option.some.inj ran
          exact keeps s
      rw [whole,paintKeepsIff,drawnInside h (small _ _ _ read) inRange]
      constructor
      · intro kept other rest' ran _
        cases Option.some.inj (read.symm.trans ran)
        exact kept
      · exact fun keeps => keeps d rest read inRange

/- What is refused in the end might as well not have been read. -/
theorem bindFails {α β : Type} (r : Reader α) : (r >>= fun _ => (ofOption none : Reader β)) = fail := by
  funext bytes
  cases read : r.run bytes with
  | none => exact (StateT.run_bind ..).trans (by rw [read]; rfl)
  | some got => exact (StateT.run_bind ..).trans (by rw [read]; rfl)

/- A loop that draws each sub-rectangle as it is read draws them all in the end. -/
theorem loopDraws {reg : Region} {record : Reader SubRect} {one : Screen → Reader Screen}
    {many : Nat → Screen → Reader Screen}
    (each : ∀ s, one s = record >>= fun r =>
      if outOfRange reg (r.place reg) then fail else pure (fillPixel (r.place reg) r.pixel s))
    (none : ∀ s, many 0 s = pure s) (next : ∀ count s, many (count + 1) s = one s >>= many count) (count : Nat)
    (s : Screen) : many count s = recvMany record count >>= fun rects => ofOption (drawSubRects reg rects s) := by
  induction count generalizing s with
  | zero => exact none s
  | succ count ih =>
    rw [next,each,recvMany]
    simp only [bind_assoc,pure_bind]
    refine congrArg (record >>= ·) (funext fun r => ?_)
    simp only [drawSubRects]
    split
    · rw [failBind,bindFails]
    · rw [pure_bind,ih]

end

/-! RRE and CoRRE. -/

section
variable (corre be : Bool) (clientPf : PixelFormat)

def recordRRE : Reader SubRect :=
  recvPixel be clientPf >>= fun pixel => Rre.recvField corre >>= fun x => Rre.recvField corre >>= fun y =>
    Rre.recvField corre >>= fun width => Rre.recvField corre >>= fun height => pure ⟨pixel,x,y,width,height⟩

def drawingRRE : Reader Drawing :=
  recvIntBE32 >>= fun subRects => recvPixel be clientPf >>= fun bgColor =>
    recvMany (recordRRE corre be clientPf) subRects >>= fun rects => pure ⟨fun _ => bgColor,rects⟩

theorem drawsRRE (reg : Region) (s : Screen) : Rre.decodeRRE corre be clientPf reg s =
    drawingRRE corre be clientPf >>= fun d => ofOption (drawSubRects reg d.subRects (paint d.image reg.cells s)) := by
  have loop (count : Nat) (s : Screen) : Rre.recvSubRects corre be clientPf reg count s =
      recvMany (recordRRE corre be clientPf) count >>= fun rects => ofOption (drawSubRects reg rects s) := by
    refine loopDraws (fun s => ?_) (fun _ => rfl) (fun _ _ => rfl) count s
    simp only [Rre.recvSubRect,recordRRE,bind_assoc,pure_bind,SubRect.place]
    rfl
  simp only [Rre.decodeRRE,drawingRRE,loop,bind_assoc,pure_bind,fillPixelCells]

theorem fieldSmall : Yields (Rre.recvField corre) fun value => value < 65536 := by
  cases corre with
  | false =>
    refine yieldsBind (yieldsTake 2) fun bytes two => yieldsPure ?_
    have low := ofLittleEndianLt bytes.reverse
    rw [List.length_reverse,two] at low
    exact low
  | true =>
    refine yieldsBind (yieldsTake 1) fun bytes one => yieldsPure ?_
    have low := ofLittleEndianLt bytes
    rw [one] at low
    omega

theorem smallRRE : Yields (drawingRRE corre be clientPf) Small := by
  have record : Yields (recordRRE corre be clientPf) fun r => r.x < 65536 ∧ r.y < 65536 :=
    yieldsBind (yieldsAny _) fun _ _ => yieldsBind (fieldSmall corre) fun _ x =>
      yieldsBind (fieldSmall corre) fun _ y => yieldsBind (yieldsAny _) fun _ _ =>
        yieldsBind (yieldsAny _) fun _ _ => yieldsPure ⟨x,y⟩
  exact yieldsBind (yieldsAny _) fun _ _ => yieldsBind (yieldsAny _) fun _ _ =>
    yieldsBind (yieldsMany record _) fun _ all => yieldsPure all.2

end

/-! HexTile, with the colours that are left from the rectangle before. -/

section
variable (be : Bool) (clientPf : PixelFormat) (bgColor fgColor : UInt32)

def recordHexTile (coloured : Bool) (fgColor : UInt32) : Reader SubRect :=
  (if coloured then recvPixel be clientPf else pure fgColor) >>= fun pixel =>
    recvInt8 >>= fun val1 => recvInt8 >>= fun val2 =>
      pure ⟨pixel,0x0F &&& val1 / 16,0x0F &&& val1,1 + (0x0F &&& val2 / 16),1 + (0x0F &&& val2)⟩

def drawingColors (flag : Nat) : Reader Drawing :=
  (if flag &&& HexTile.BACKGROUND ≠ 0 then recvPixel be clientPf else pure bgColor) >>= fun bgColor =>
    (if flag &&& HexTile.FOREGROUND ≠ 0 then recvPixel be clientPf else pure fgColor) >>= fun fgColor =>
      let coloured := flag &&& HexTile.COLOURED ≠ 0 ∧ ¬flag &&& HexTile.FOREGROUND ≠ 0
      if flag &&& HexTile.SUBRECTS ≠ 0 then
        recvInt8 >>= fun subRects => recvMany (recordHexTile be clientPf (decide coloured) fgColor) subRects >>=
          fun rects => pure ⟨fun _ => bgColor,rects⟩
      else pure ⟨fun _ => bgColor,[]⟩

def drawingHexTile (reg : Region) : Reader Drawing :=
  if 16 < reg.width ∨ 16 < reg.height then fail
  else recvInt8 >>= fun flag =>
    if flag &&& HexTile.RAW ≠ 0 then
      let pitch := reg.width * clientPf.bytePerPixel
      takeBytes (pitch * reg.height) >>= fun pixels => pure ⟨updateRawPixels be reg pixels pitch fun _ => 0,[]⟩
    else drawingColors be clientPf bgColor fgColor flag

/- The screen that comes of it. -/
def screenHexTile (reg : Region) (s : Screen) : Reader Screen :=
  HexTile.decodeHexTile be clientPf reg ⟨s,bgColor,fgColor⟩ >>= fun last => pure last.screen

theorem drawsHexTile (reg : Region) (s : Screen) : screenHexTile be clientPf bgColor fgColor reg s =
    drawingHexTile be clientPf bgColor fgColor reg >>= fun d =>
      ofOption (drawSubRects reg d.subRects (paint d.image reg.cells s)) := by
  have loop (coloured : Bool) (fgColor : UInt32) (count : Nat) (s : Screen) :
      HexTile.recvSubRects be clientPf reg coloured fgColor count s =
        recvMany (recordHexTile be clientPf coloured fgColor) count >>= fun rects =>
          ofOption (drawSubRects reg rects s) := by
    refine loopDraws (fun s => ?_) (fun _ => rfl) (fun _ _ => rfl) count s
    simp only [HexTile.recvSubRect,recordHexTile,bind_assoc,pure_bind,SubRect.place]
    rfl
  have raw (pixels : Bytes) (pitch : Nat) : updateRawPixels be reg pixels pitch s =
      paint (updateRawPixels be reg pixels pitch fun _ => 0) reg.cells s := by
    funext p
    by_cases has : reg.Has p
    · rw [paintInside (show p ∈ reg.cells from has),updateRawPixels,updateRawPixels,if_pos has,if_pos has]
    · rw [paintOutside (show p ∉ reg.cells from has),updateRawPixels,if_neg has]
  have nothing (s : Screen) : (ofOption (drawSubRects reg [] s) : Reader Screen) = pure s := rfl
  unfold screenHexTile HexTile.decodeHexTile drawingHexTile
  split
  · rw [failBind,failBind]
  · simp only [bind_assoc]
    refine congrArg (recvInt8 >>= ·) (funext fun flag => ?_)
    split
    · simp only [bind_assoc,pure_bind,raw,nothing]
    · simp only [HexTile.recvColors,drawingColors,bind_assoc]
      refine congrArg (_ >>= ·) (funext fun bgColor => congrArg (_ >>= ·) (funext fun fgColor => ?_))
      split
      · simp only [loop,bind_assoc,pure_bind,fillPixelCells,bind_pure]
      · simp only [pure_bind,nothing,fillPixelCells]

theorem smallHexTile (reg : Region) : Yields (drawingHexTile be clientPf bgColor fgColor reg) Small := by
  have record (coloured : Bool) (fgColor : UInt32) :
      Yields (recordHexTile be clientPf coloured fgColor) fun r => r.x < 65536 ∧ r.y < 65536 := by
    refine yieldsBind (yieldsAny _) fun _ _ => yieldsBind (yieldsAny _) fun val1 _ =>
      yieldsBind (yieldsAny _) fun _ _ => yieldsPure ⟨?_,?_⟩
    · exact Nat.and_le_left.trans_lt (by decide)
    · exact Nat.and_le_left.trans_lt (by decide)
  have none (image : Screen) : Small ⟨image,[]⟩ := fun _ listed => absurd listed List.not_mem_nil
  unfold drawingHexTile
  split
  · exact yieldsFail _
  · refine yieldsBind (yieldsAny _) fun flag _ => ?_
    split
    · exact yieldsBind (yieldsAny _) fun _ _ => yieldsPure (none _)
    · refine yieldsBind (yieldsAny _) fun bgColor _ => yieldsBind (yieldsAny _) fun fgColor _ => ?_
      simp only
      split
      · exact yieldsBind (yieldsAny _) fun _ _ =>
          yieldsBind (yieldsMany (record _ fgColor) _) fun _ all => yieldsPure all.2
      · exact yieldsPure (none _)

end

end Ltsm.SubRectContainment
