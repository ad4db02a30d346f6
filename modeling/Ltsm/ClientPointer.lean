import Ltsm.PointerButtons

/-! The pointer messages that the client makes of SDL's mouse events. A motion carries the
buttons as SDL numbers them, a button event the one button, and a turn of the wheel its
own button and then none. -/
namespace Ltsm.ClientPointer
open Library Regions PointerButtons

/- Buttons are numbered from zero here: left, middle, right, X1, X2, and more. -/
inductive SdlEvent where
  | motion (x y : Int)
  | button (down : Bool) (num : Nat) (x y : Int)
  | wheel (y mouseX mouseY : Int)
  deriving DecidableEq, Repr

structure PointerMessage where
  buttons : BitVec 8
  posx : Nat
  posy : Nat
  deriving DecidableEq, Repr

def sdlButton (num : Nat) : BitVec 32 := 1#32 <<< num

/- The buttons that SDL has as held once the event has been. -/
def heldAfter (state : BitVec 32) : SdlEvent → BitVec 32
  | .button true num _ _ => state ||| sdlButton num
  | .button false num _ _ => state &&& ~~~sdlButton num
  | .motion _ _ => state
  | .wheel _ _ _ => state

def sendPointerEvent (buttons : BitVec 8) (posx posy : Int) : PointerMessage := ⟨buttons,toUInt16 posx,toUInt16 posy⟩

def sdlMouseMotion (state : BitVec 32) (x y : Int) : List PointerMessage :=
  [sendPointerEvent ((0xFF#32 &&& state).setWidth 8) x y]

def sdlMouseButton (down : Bool) (num : Nat) (x y : Int) : List PointerMessage :=
  let buttons := if down then (sdlButton num).setWidth 8 else 0#8
  [sendPointerEvent buttons x y]

def sdlMouseWheel (y mouseX mouseY : Int) : List PointerMessage :=
  if y = 0 then []
  else
    let buttons := (sdlButton (if 0 < y then 3 else 4)).setWidth 8
    [sendPointerEvent buttons mouseX mouseY,sendPointerEvent 0#8 mouseX mouseY]

def sdlEvent (state : BitVec 32) : SdlEvent → List PointerMessage
  | .motion x y => sdlMouseMotion state x y
  | .button down num x y => sdlMouseButton down num x y
  | .wheel y mouseX mouseY => sdlMouseWheel y mouseX mouseY

/-! What should be sent. -/

/- left 0x01, middle 0x02, right 0x04, back 0x80; the buttons after X1 have no number. -/
def rfbMask (state : BitVec 32) : BitVec 8 :=
  (if state.getLsbD 0 then 0x01#8 else 0#8) ||| (if state.getLsbD 1 then 0x02#8 else 0#8) |||
    (if state.getLsbD 2 then 0x04#8 else 0#8) ||| (if state.getLsbD 3 then 0x80#8 else 0#8)

/- scrollUp 0x08, scrollDn 0x10 -/
def rfbWheel (y : Int) : BitVec 8 := if 0 < y then 0x08#8 else 0x10#8

/- `steps` says how many steps of the wheel an event is. -/
def wanted (steps : Int → Nat) (state : BitVec 32) : SdlEvent → List (BitVec 8)
  | .wheel y _ _ => (List.replicate (steps y) [rfbMask state ||| rfbWheel y,rfbMask state]).flatten
  | e => [rfbMask (heldAfter state e)]

structure ClientApp where
  state : BitVec 32
  sent : List PointerMessage
  due : List (BitVec 8)
  deriving DecidableEq, Repr

def start : ClientApp := ⟨0,[],[]⟩

def pointerStep (steps : Int → Nat) (app : ClientApp) (e : SdlEvent) : ClientApp :=
  ⟨heldAfter app.state e,app.sent ++ sdlEvent app.state e,app.due ++ wanted steps app.state e⟩

def Correct (app : ClientApp) : Prop := app.sent.map PointerMessage.buttons = app.due

/- Of the buttons with a number no other one is held. -/
def Alone (state : BitVec 32) (num : Nat) : Prop := ∀ other < 4, other ≠ num → state.getLsbD other = false

def Plain (steps : Int → Nat) (app : ClientApp) : SdlEvent → Prop
  | .motion _ _ => ∀ other < 8, 3 ≤ other → app.state.getLsbD other = false
  | .button true num _ _ => ((num < 3 ∨ 8 ≤ num) ∧ Alone app.state num) ∨
      (num = 7 ∧ app.state.getLsbD 3 = true ∧ ∀ other < 3, app.state.getLsbD other = false)
  | .button false num _ _ => Alone app.state num
  | .wheel y _ _ => (y = 0 ∧ steps y = 0) ∨
      (y ≠ 0 ∧ steps y = 1 ∧ ∀ other < 4, app.state.getLsbD other = false)

section
variable {state : BitVec 32}

theorem sdlBit (num : Nat) {k : Nat} (low : k < 32) : (sdlButton num).getLsbD k = decide (num = k) := by
  unfold sdlButton
  by_cases inside : num < 32
  · exact bitOf inside k
  · rw [BitVec.getLsbD_shiftLeft]
    have before : k < num := by omega
    have apart : num ≠ k := by omega
    simp [before,apart]

theorem rfbBit (state : BitVec 32) {k : Nat} (low : k < 8) :
    (rfbMask state).getLsbD k =
      if k < 3 then state.getLsbD k else if k = 7 then state.getLsbD 3 else false := by
  have bits : ∀ left middle right back : Bool, ∀ k < 8,
      ((if left then 0x01#8 else 0#8) ||| (if middle then 0x02#8 else 0#8) ||| (if right then 0x04#8 else 0#8) |||
        (if back then 0x80#8 else 0#8)).getLsbD k =
        if k = 0 then left else if k = 1 then middle else if k = 2 then right else if k = 7 then back else false := by
    decide
  rw [rfbMask,bits _ _ _ _ k low]
  obtain rfl | rfl | rfl | more : k = 0 ∨ k = 1 ∨ k = 2 ∨ 3 ≤ k := by omega
  · rfl
  · rfl
  · rfl
  · have apart : k ≠ 0 ∧ k ≠ 1 ∧ k ≠ 2 ∧ ¬k < 3 := by omega
    simp only [apart,if_false]

theorem motionBit (state : BitVec 32) {k : Nat} (low : k < 8) :
    ((0xFF#32 &&& state).setWidth 8).getLsbD k = state.getLsbD k := by
  have ones : ∀ k < 8, (0xFF#32).getLsbD k = true := by decide
  rw [BitVec.getLsbD_setWidth,BitVec.getLsbD_and,ones k low,decide_eq_true low,Bool.true_and,Bool.true_and]

theorem buttonBit (num : Nat) {k : Nat} (low : k < 8) :
    ((sdlButton num).setWidth 8).getLsbD k = decide (num = k) := by
  rw [BitVec.getLsbD_setWidth,sdlBit num (by omega),decide_eq_true low,Bool.true_and]

theorem pressedBit (state : BitVec 32) (num x y) {k : Nat} (low : k < 32) :
    (heldAfter state (.button true num x y)).getLsbD k = (state.getLsbD k || decide (num = k)) := by
  rw [heldAfter,BitVec.getLsbD_or,sdlBit num low]

theorem releasedBit (state : BitVec 32) (num x y) {k : Nat} (low : k < 32) :
    (heldAfter state (.button false num x y)).getLsbD k = (state.getLsbD k && !decide (num = k)) := by
  rw [heldAfter,BitVec.getLsbD_and,BitVec.getLsbD_not,sdlBit num low,decide_eq_true low,Bool.true_and]

theorem masksIff {one other : BitVec 8} : one = other ↔ ∀ k < 8, one.getLsbD k = other.getLsbD k :=
  BitVec.eq_of_getLsbD_eq_iff

/- No number is in the mask. -/
theorem rfbNone : rfbMask state = 0#8 ↔ ∀ other < 4, state.getLsbD other = false := by
  rw [masksIff]
  constructor
  · intro none other low
    by_cases back : other = 3
    · have bit := none 7 (by decide)
      rw [rfbBit state (by decide)] at bit
      simpa [back] using bit
    · have bit := none other (by omega)
      rw [rfbBit state (by omega),if_pos (by omega)] at bit
      simpa using bit
  · intro none k low
    rw [rfbBit state low,BitVec.getLsbD_zero]
    split
    · exact none k (by omega)
    · split
      · exact none 3 (by decide)
      · rfl

theorem motionIff (state : BitVec 32) :
    (0xFF#32 &&& state).setWidth 8 = rfbMask state ↔ ∀ other < 8, 3 ≤ other → state.getLsbD other = false := by
  rw [masksIff]
  constructor
  · intro same other low high
    have back := same 3 (by decide)
    rw [motionBit state (by decide),rfbBit state (by decide)] at back
    have bit := same other low
    rw [motionBit state low,rfbBit state low,if_neg (by omega)] at bit
    rw [bit]
    split
    · exact back
    · rfl
  · intro none k low
    rw [motionBit state low,rfbBit state low]
    split
    · rfl
    · rw [none k low (by omega),none 3 (by decide) (by decide),ite_self]

theorem releaseIff (state : BitVec 32) (num x y) :
    0#8 = rfbMask (heldAfter state (.button false num x y)) ↔ Alone state num := by
  rw [eq_comm,rfbNone]
  refine forall₂_congr fun other low => ?_
  rw [releasedBit state num x y (by omega)]
  by_cases same : other = num
  · simp [same]
  · simp [same,Ne.symm same]

theorem pressIff (state : BitVec 32) (num x y) :
    (sdlButton num).setWidth 8 = rfbMask (heldAfter state (.button true num x y)) ↔
      ((num < 3 ∨ 8 ≤ num) ∧ Alone state num) ∨
        (num = 7 ∧ state.getLsbD 3 = true ∧ ∀ other < 3, state.getLsbD other = false) := by
  rw [masksIff]
  have bit (k : Nat) (low : k < 8) : ((sdlButton num).setWidth 8).getLsbD k =
      (rfbMask (heldAfter state (.button true num x y))).getLsbD k ↔
      (decide (num = k)) = if k < 3 then state.getLsbD k || decide (num = k)
        else if k = 7 then state.getLsbD 3 || decide (num = 3) else false := by
    rw [buttonBit num low,rfbBit _ low,pressedBit state num x y (by omega),pressedBit state num x y (by decide)]
  constructor
  · intro same
    have first (other : Nat) (low : other < 3) (apart : other ≠ num) : state.getLsbD other = false := by
      have now := (bit other (by omega)).mp (same other (by omega))
      rw [if_pos low,decide_eq_false (Ne.symm apart),Bool.or_false] at now
      exact now.symm
    have outside : num < 3 ∨ 7 ≤ num := by
      by_contra within
      have now := (bit num (by omega)).mp (same num (by omega))
      rw [if_neg (by omega),if_neg (by omega),decide_eq_true rfl] at now
      cases now
    have back := (bit 7 (by decide)).mp (same 7 (by decide))
    rw [if_neg (by decide),if_pos rfl,decide_eq_false (show num ≠ 3 by omega),Bool.or_false] at back
    by_cases eighth : num = 7
    · exact .inr ⟨eighth,by simpa [eighth] using back.symm,fun other low => first other low (by omega)⟩
    · refine .inl ⟨by omega,fun other low apart => ?_⟩
      by_cases third : other = 3
      · simpa [third,eighth] using back.symm
      · exact first other (by omega) apart
  · rintro (⟨outside,alone⟩ | ⟨rfl,back,none⟩) k low
    · rw [bit k low]
      have third := alone 3 (by decide) (by omega)
      split
      · by_cases same : k = num
        · simp [same]
        · rw [alone k (by omega) same,Bool.false_or]
      · rw [decide_eq_false (show num ≠ k by omega),third,decide_eq_false (show num ≠ 3 by omega),Bool.or_false,
          ite_self]
    · rw [bit k low]
      split
      · rename_i few
        simp [none k few]
      · split
        · rename_i last
          simp [last,back]
        · rename_i other
          simp [Ne.symm other]

/- One message of the wheel with its button and one with none. -/
theorem wheelIff (steps : Int → Nat) (state : BitVec 32) (y : Int) :
    [(sdlButton (if 0 < y then 3 else 4)).setWidth 8,0#8] =
        (List.replicate (steps y) [rfbMask state ||| rfbWheel y,rfbMask state]).flatten ↔
      steps y = 1 ∧ ∀ other < 4, state.getLsbD other = false := by
  have wheel : (sdlButton (if 0 < y then 3 else 4)).setWidth 8 = rfbWheel y := by
    unfold rfbWheel
    split <;> rfl
  rw [wheel,← rfbNone]
  constructor
  · intro same
    have count := congrArg List.length same
    rw [List.length_flatten,List.map_replicate,List.sum_replicate] at count
    have one : steps y = 1 := by
      simp at count
      omega
    rw [one] at same
    simp only [List.replicate_one,List.flatten_cons,List.flatten_nil,List.append_nil,List.cons.injEq,and_true] at same
    exact ⟨one,same.2.symm⟩
  · rintro ⟨one,none⟩
    rw [one,none,BitVec.zero_or]
    rfl

theorem stepIff (steps : Int → Nat) (app : ClientApp) (e : SdlEvent) (correct : Correct app) :
    Correct (pointerStep steps app e) ↔ Plain steps app e := by
  have carries : Correct (pointerStep steps app e) ↔
      (sdlEvent app.state e).map PointerMessage.buttons = wanted steps app.state e := by
    unfold Correct pointerStep
    rw [List.map_append,show app.sent.map PointerMessage.buttons = app.due from correct,List.append_cancel_left_eq]
  rw [carries]
  cases e with
  | motion x y => exact List.singleton_inj.trans (motionIff app.state)
  | button down num x y =>
    cases down with
    | true => exact List.singleton_inj.trans (pressIff app.state num x y)
    | false => exact List.singleton_inj.trans (releaseIff app.state num x y)
  | wheel y mouseX mouseY =>
    by_cases still : y = 0
    · have nothing : (sdlEvent app.state (.wheel y mouseX mouseY)).map PointerMessage.buttons = [] := by
        rw [sdlEvent,sdlMouseWheel,if_pos still,List.map_nil]
      rw [nothing,eq_comm]
      simp [wanted,Plain,still]
    · have both : (sdlEvent app.state (.wheel y mouseX mouseY)).map PointerMessage.buttons =
          [(sdlButton (if 0 < y then 3 else 4)).setWidth 8,0#8] := by
        rw [sdlEvent,sdlMouseWheel,if_neg still]
        rfl
      rw [both,wanted,wheelIff steps app.state y]
      simp [Plain,still]

end

theorem correctStart : Correct start := rfl

/- For whatever number of steps an event of the wheel is taken: all masks are right all the
way, if and only if each event finds the other buttons as it needs them. -/
theorem masksRightIff (steps : Int → Nat) (events : List SdlEvent) :
    Always (pointerStep steps) Correct start events ↔ Meets (pointerStep steps) (Plain steps) start events :=
  alwaysIff (I := fun _ => True) (fun _ _ _ => trivial) (fun app e _ correct => stepIff steps app e correct) trivial
    correctStart events

/- The right button goes down while the left one is held. -/
theorem leftForgotten :
    (run (pointerStep Int.natAbs) start [.button true 0 10 10,.button true 2 10 10]).sent =
      [⟨0x01,10,10⟩,⟨0x04,10,10⟩] ∧
    ¬∀ events, Always (pointerStep Int.natAbs) Correct start events := by
  have last : (run (pointerStep Int.natAbs) start [.button true 0 10 10,.button true 2 10 10]).sent =
      [⟨0x01,10,10⟩,⟨0x04,10,10⟩] := by
    decide +kernel
  refine ⟨last,fun all => ?_⟩
  have masks := all _ _ (List.prefix_refl [.button true 0 10 10,.button true 2 10 10])
  rw [Correct,last] at masks
  revert masks
  decide +kernel

end Ltsm.ClientPointer
