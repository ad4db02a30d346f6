import Ltsm.Library.Run
import Ltsm.Regions

/-! Pointer events of a client, injected into the X server. The buttons that a mask
names are pressed and those of the remembered mask that it does not name are
released, whenever the two masks differ. -/
namespace Ltsm.PointerButtons
open Library Regions

inductive XEvent where
  | button (button : Nat) (pos : Point) (pressed : Bool)
  | move (pos : Point)
  deriving DecidableEq, Repr

/- What comes with the mask: whether messages to the display are allowed just then,
its TEST module is there, and the connection is. -/
structure PointerEvent where
  mask : BitVec 8
  posx : Nat
  posy : Nat
  allowMessages : Bool
  test : Bool
  connected : Bool
  deriving DecidableEq, Repr

/- `injected` is what came to the X server, and `asked` the mask of the last event. -/
structure X11Server where
  pressedMask : BitVec 32
  injected : List XEvent
  asked : BitVec 8
  deriving DecidableEq, Repr

def start : X11Server := ⟨0,[],0⟩

namespace X11Server

def screenInput (s : X11Server) (connected : Bool) (event : XEvent) : X11Server :=
  if connected then {s with injected := s.injected ++ [event]} else s

def screenInputButton (s : X11Server) (connected : Bool) (button : Nat) (pos : Point) (pressed : Bool) : X11Server :=
  s.screenInput connected (.button button pos pressed)

def screenInputMove (s : X11Server) (connected : Bool) (pos : Point) : X11Server :=
  s.screenInput connected (.move pos)

end X11Server

namespace PointerEvent
variable (e : PointerEvent)

def pos : Point := ⟨toInt16 e.posx,toInt16 e.posy⟩
def wide : BitVec 32 := e.mask.setWidth 32

/- One turn of the loop over the buttons. -/
def inputButton (s : X11Server) (num : Nat) : X11Server :=
  let bit := 1#32 <<< num
  if bit &&& e.wide ≠ 0 then
    {s.screenInputButton e.connected (num + 1) e.pos true with pressedMask := s.pressedMask ||| bit}
  else if bit &&& s.pressedMask ≠ 0 then
    {s.screenInputButton e.connected (num + 1) e.pos false with pressedMask := s.pressedMask &&& ~~~bit}
  else s

def serverRecvPointerEvent (s : X11Server) : X11Server :=
  if e.allowMessages && e.test then
    if s.pressedMask ^^^ e.wide ≠ 0 then (List.range 8).foldl e.inputButton s
    else s.screenInputMove e.connected e.pos
  else s

end PointerEvent

def pointerStep (s : X11Server) (e : PointerEvent) : X11Server :=
  {e.serverRecvPointerEvent s with asked := e.mask}

/-! What the X server saw of one button. -/

def XEvent.ofButton (button : Nat) : XEvent → Option Bool
  | .button other _ pressed => if other = button then some pressed else none
  | .move _ => none

def presses (button : Nat) (events : List XEvent) : List Bool := events.filterMap (XEvent.ofButton button)

/- Each the opposite of the one before, the first as given. -/
def Alternate : Bool → List Bool → Prop
  | _, [] => True
  | next, pressed :: rest => pressed = next ∧ Alternate (!next) rest

instance decidableAlternate : (next : Bool) → (presses : List Bool) → Decidable (Alternate next presses)
  | _, [] => isTrue trivial
  | next, pressed :: rest =>
    have := decidableAlternate (!next) rest
    inferInstanceAs (Decidable (pressed = next ∧ Alternate (!next) rest))

def held (presses : List Bool) : Bool := presses.getLastD false

/- The buttons of a mask, numbered from one. -/
def names (mask : BitVec 8) (button : Nat) : Bool := 0 < button && mask.getLsbD (button - 1)

/- Presses and releases alternate, and the buttons held are those of the last mask. -/
structure Correct (s : X11Server) : Prop where
  alternate : ∀ button, Alternate true (presses button s.injected)
  pressed : ∀ button, held (presses button s.injected) = names s.asked button

/- An event that comes to the X server names no button that is held already, unless it
changes nothing; one that does not come there changes nothing. -/
def Fresh (s : X11Server) (e : PointerEvent) : Prop :=
  e.wide = s.pressedMask ∨ (e.allowMessages && e.test && e.connected) ∧ e.wide &&& s.pressedMask = 0
instance (s e) : Decidable (Fresh s e) := inferInstanceAs (Decidable (_ ∨ _))

theorem alternateAppend {next : Bool} {first rest : List Bool} :
    Alternate next (first ++ rest) ↔
      Alternate next first ∧ Alternate (first.foldl (fun expected _ => !expected) next) rest := by
  induction first generalizing next with
  | nil => simp [Alternate]
  | cons pressed more ih => simp only [List.cons_append,Alternate,ih,List.foldl_cons,and_assoc]

/- After an alternating row the next one expected is what is not held. -/
theorem nextExpected {next : Bool} {row : List Bool} (h : Alternate next row) :
    row.foldl (fun expected _ => !expected) next = !row.getLastD (!next) := by
  induction row generalizing next with
  | nil => simp
  | cons pressed rest ih =>
    obtain ⟨rfl,later⟩ := h
    rw [List.foldl_cons,ih later,List.getLastD_cons,Bool.not_not]

theorem alternateNext {row : List Bool} {pressed : Bool} (h : Alternate true row) :
    Alternate true (row ++ [pressed]) ↔ pressed = !held row := by
  rw [alternateAppend,nextExpected h]
  simp [Alternate,h,held]

theorem heldNext (row : List Bool) (pressed : Bool) : held (row ++ [pressed]) = pressed := by
  simp [held]

/-! The loop over the buttons. -/

theorem bitOf {num : Nat} (low : num < 32) (k : Nat) : (1#32 <<< num).getLsbD k = decide (num = k) := by
  have bit := BitVec.getLsbD_twoPow (w := 32) num k
  rwa [decide_eq_true low,Bool.true_and] at bit

theorem bitSet {mask : BitVec 32} {num : Nat} (low : num < 32) :
    1#32 <<< num &&& mask ≠ 0 ↔ mask.getLsbD num = true := by
  have single : 1#32 <<< num &&& mask = if mask.getLsbD num then 1#32 <<< num else 0#32 := by
    rw [BitVec.and_comm]
    exact BitVec.and_twoPow mask num
  have some : 1#32 <<< num ≠ 0#32 := by
    intro none
    have bit := bitOf low num
    rw [none,decide_eq_true rfl,BitVec.getLsbD_zero] at bit
    cases bit
  rw [single]
  by_cases set : mask.getLsbD num = true
  · simpa [set] using some
  · simp [set]

section
variable {e : PointerEvent} {s : X11Server}

/- What the event has of the button with the number for the X server. -/
def added (e : PointerEvent) (pressedMask : BitVec 32) (num : Nat) : List Bool :=
  if e.wide.getLsbD num then [true] else if pressedMask.getLsbD num then [false] else []

theorem pressesInput (connected : Bool) (button other : Nat) (pos : Point) (pressed : Bool) :
    presses button (s.screenInputButton connected other pos pressed).injected =
      presses button s.injected ++ if other = button ∧ connected then [pressed] else [] := by
  unfold X11Server.screenInputButton X11Server.screenInput
  by_cases here : connected = true
  · by_cases same : other = button
    · simp [here,same,presses,XEvent.ofButton]
    · simp [here,same,presses,XEvent.ofButton]
  · simp [here]

theorem inputButtonAdds (connected : e.connected = true) {num : Nat} (low : num < 32) :
    (∀ button, presses button (e.inputButton s num).injected =
      presses button s.injected ++ if num + 1 = button then added e s.pressedMask num else []) ∧
    ∀ k, (e.inputButton s num).pressedMask.getLsbD k =
      if k = num then e.wide.getLsbD num else s.pressedMask.getLsbD k := by
  unfold PointerEvent.inputButton added
  simp only [bitSet low]
  by_cases named : e.wide.getLsbD num = true
  · simp only [if_pos named]
    refine ⟨fun button => ?_,fun k => ?_⟩
    · rw [pressesInput,connected]
      simp
    · rw [BitVec.getLsbD_or,bitOf low]
      by_cases same : k = num
      · simp [same,named]
      · simp [same,Ne.symm same]
  · simp only [if_neg named]
    by_cases before : s.pressedMask.getLsbD num = true
    · simp only [if_pos before]
      refine ⟨fun button => ?_,fun k => ?_⟩
      · rw [pressesInput,connected]
        simp
      · rw [BitVec.getLsbD_and,BitVec.getLsbD_not,bitOf low]
        by_cases same : k = num
        · simp [same,named]
        · by_cases inside : k < 32
          · simp [same,Ne.symm same,inside]
          · simp [same,inside,BitVec.getLsbD_of_ge _ _ (Nat.le_of_not_lt inside)]
    · simp only [if_neg before]
      refine ⟨fun button => by simp,fun k => ?_⟩
      by_cases same : k = num
      · rw [if_pos same,same,Bool.eq_false_iff.mpr before,Bool.eq_false_iff.mpr named]
      · rw [if_neg same]

/- What the loop has come to after so many buttons. -/
theorem loopAdds (connected : e.connected = true) {n : Nat} (low : n ≤ 32) :
    (∀ button, presses button ((List.range n).foldl e.inputButton s).injected =
      presses button s.injected ++ if 0 < button ∧ button ≤ n then added e s.pressedMask (button - 1) else []) ∧
    ∀ k, ((List.range n).foldl e.inputButton s).pressedMask.getLsbD k =
      if k < n then e.wide.getLsbD k else s.pressedMask.getLsbD k := by
  induction n with
  | zero =>
    refine ⟨fun button => ?_,fun k => by simp⟩
    have none : ¬(0 < button ∧ button ≤ 0) := by omega
    rw [if_neg none,List.append_nil]
    rfl
  | succ n ih =>
    obtain ⟨before,bits⟩ := ih (Nat.le_of_succ_le low)
    rw [List.range_succ,List.foldl_append,List.foldl_cons,List.foldl_nil]
    obtain ⟨now,nowBits⟩ := @inputButtonAdds e ((List.range n).foldl e.inputButton s) connected n low
    have same : added e ((List.range n).foldl e.inputButton s).pressedMask n = added e s.pressedMask n := by
      rw [added,bits,if_neg (Nat.lt_irrefl n)]
      rfl
    refine ⟨fun button => ?_,fun k => ?_⟩
    · rw [now,before,same,List.append_assoc]
      congr 1
      obtain here | early | late : n + 1 = button ∨ (n + 1 ≠ button ∧ button ≤ n) ∨
          (n + 1 ≠ button ∧ ¬button ≤ n) := by omega
      · subst here
        simp
      · simp [early.1,early.2,Nat.le_succ_of_le early.2]
      · have past : ¬button ≤ n + 1 := by omega
        simp [late.1,late.2,past]
    · rw [nowBits]
      by_cases here : k = n
      · subst here
        simp
      · have split : k < n + 1 ↔ k < n := by omega
        simp only [if_neg here,bits,split]

/- An event that finds the buttons as it has them moves the pointer only. -/
theorem stepSame (same : e.wide = s.pressedMask) :
    (pointerStep s e).pressedMask = s.pressedMask ∧
    ∀ button, presses button (pointerStep s e).injected = presses button s.injected := by
  have quiet : ¬s.pressedMask ^^^ e.wide ≠ 0 := by
    rw [same,BitVec.xor_self]
    exact fun some => some rfl
  unfold pointerStep PointerEvent.serverRecvPointerEvent
  by_cases processed : (e.allowMessages && e.test) = true
  · rw [if_pos processed,if_neg quiet]
    unfold X11Server.screenInputMove X11Server.screenInput
    by_cases here : e.connected = true
    · simp [here,presses,XEvent.ofButton]
    · simp [here]
  · rw [if_neg processed]
    exact ⟨rfl,fun _ => rfl⟩

theorem screenInputAway (away : ¬e.connected = true) (event : XEvent) : s.screenInput e.connected event = s := by
  rw [X11Server.screenInput,if_neg away]

theorem loopAway (away : ¬e.connected = true) (nums : List Nat) :
    (nums.foldl e.inputButton s).injected = s.injected := by
  induction nums generalizing s with
  | nil => rfl
  | cons num rest ih =>
    rw [List.foldl_cons,ih]
    unfold PointerEvent.inputButton
    simp only [X11Server.screenInputButton,screenInputAway away]
    split
    · rfl
    · split
      · rfl
      · rfl

/- An event that does not come to the X server. -/
theorem stepAway (away : ¬(e.allowMessages && e.test && e.connected) = true) :
    (pointerStep s e).injected = s.injected := by
  unfold pointerStep PointerEvent.serverRecvPointerEvent
  by_cases processed : (e.allowMessages && e.test) = true
  · have lost : ¬e.connected = true := fun here => away (by rw [processed,here]; rfl)
    rw [if_pos processed]
    split
    · exact loopAway lost _
    · rw [X11Server.screenInputMove,screenInputAway lost]
  · rw [if_neg processed]

/- An event that comes there and finds other buttons pressed. -/
theorem stepDiffers (delivered : (e.allowMessages && e.test && e.connected) = true) (differs : e.wide ≠ s.pressedMask) :
    (∀ button, presses button (pointerStep s e).injected =
      presses button s.injected ++ if 0 < button ∧ button ≤ 8 then added e s.pressedMask (button - 1) else []) ∧
    ∀ k, (pointerStep s e).pressedMask.getLsbD k =
      if k < 8 then e.wide.getLsbD k else s.pressedMask.getLsbD k := by
  obtain ⟨processed,connected⟩ := Bool.and_eq_true_iff.mp delivered
  have changed : s.pressedMask ^^^ e.wide ≠ 0 := fun none => differs (BitVec.xor_eq_zero_iff.mp none).symm
  unfold pointerStep PointerEvent.serverRecvPointerEvent
  rw [if_pos processed,if_pos changed]
  exact loopAdds connected (by decide)

/- The server remembers the last mask, and what the X server saw is in order. -/
structure Settled (s : X11Server) : Prop where
  correct : Correct s
  remembered : s.pressedMask = s.asked.setWidth 32

theorem widened (mask : BitVec 8) (k : Nat) : (mask.setWidth 32).getLsbD k = mask.getLsbD k := by
  rw [BitVec.getLsbD_setWidth]
  by_cases low : k < 32
  · simp [low]
  · rw [BitVec.getLsbD_of_ge mask k (by omega),Bool.and_false]

theorem wideBit (e : PointerEvent) (k : Nat) : e.wide.getLsbD k = e.mask.getLsbD k := widened e.mask k

theorem settledBit (h : Settled s) (k : Nat) : s.pressedMask.getLsbD k = held (presses (k + 1) s.injected) := by
  rw [h.correct.pressed,h.remembered,widened]
  rfl

/- One more event of a button in order. -/
theorem addedAlternates (h : Settled s) {num : Nat} :
    Alternate true (presses (num + 1) s.injected ++ added e s.pressedMask num) ↔
      ¬(e.wide.getLsbD num = true ∧ s.pressedMask.getLsbD num = true) := by
  have before := h.correct.alternate (num + 1)
  have bit := settledBit h num
  unfold added
  by_cases named : e.wide.getLsbD num = true
  · rw [if_pos named,alternateNext before,← bit]
    simp [named]
  · rw [if_neg named]
    split
    · rename_i pressed
      rw [alternateNext before,← bit,pressed]
      simp [named]
    · simp [before,named]

theorem addedHeld (h : Settled s) {num : Nat} :
    held (presses (num + 1) s.injected ++ added e s.pressedMask num) = e.wide.getLsbD num := by
  unfold added
  by_cases named : e.wide.getLsbD num = true
  · rw [if_pos named,heldNext,named]
  · rw [if_neg named]
    split
    · rw [heldNext,Bool.eq_false_iff.mpr named]
    · rename_i before
      rw [List.append_nil,← settledBit h,Bool.eq_false_iff.mpr before,Bool.eq_false_iff.mpr named]

theorem namesMask {mask other : BitVec 8} : (∀ button, names mask button = names other button) ↔ mask = other := by
  refine ⟨fun same => BitVec.eq_of_getLsbD_eq fun k _ => ?_,fun same button => same ▸ rfl⟩
  have named := same (k + 1)
  simpa [names] using named

theorem sameMask (h : Settled s) : e.wide = s.pressedMask ↔ e.mask = s.asked := by
  rw [h.remembered]
  refine ⟨fun same => BitVec.eq_of_getLsbD_eq fun k _ => ?_,fun same => by rw [PointerEvent.wide,same]⟩
  rw [← wideBit e,← widened s.asked,same]

/- Of a button that the loop has and one that it has not. -/
theorem pressesDiffer (delivered : (e.allowMessages && e.test && e.connected) = true) (differs : e.wide ≠ s.pressedMask)
    {Good : Nat → List Bool → Prop} (within : ∀ num < 8, Good (num + 1)
      (presses (num + 1) s.injected ++ added e s.pressedMask num))
    (without : ∀ button, button = 0 ∨ 8 < button → Good button (presses button s.injected)) (button : Nat) :
    Good button (presses button (pointerStep s e).injected) := by
  rw [(stepDiffers delivered differs).1]
  by_cases inside : 0 < button ∧ button ≤ 8
  · obtain ⟨num,rfl⟩ := Nat.exists_eq_succ_of_ne_zero (Nat.ne_of_gt inside.1)
    rw [if_pos inside]
    exact within num (by omega)
  · rw [if_neg inside,List.append_nil]
    exact without button (by omega)

theorem settledKeeps (h : Settled s) (fresh : Fresh s e) : Settled (pointerStep s e) := by
  by_cases same : e.wide = s.pressedMask
  · obtain ⟨remembered,presses⟩ := stepSame same
    have asked : (pointerStep s e).asked = s.asked := (sameMask h).mp same
    refine ⟨⟨fun button => ?_,fun button => ?_⟩,?_⟩
    · rw [presses]
      exact h.correct.alternate button
    · rw [presses,asked]
      exact h.correct.pressed button
    · rw [remembered,asked]
      exact h.remembered
  · obtain ⟨delivered,apart⟩ := fresh.resolve_left same
    have bits := (stepDiffers delivered same).2
    have away (num : Nat) : ¬(e.wide.getLsbD num = true ∧ s.pressedMask.getLsbD num = true) := by
      have bit := congrArg (BitVec.getLsbD · num) apart
      simp only [BitVec.getLsbD_and] at bit
      rintro ⟨named,before⟩
      simp [named,before] at bit
    have outside {button : Nat} (none : button = 0 ∨ 8 < button) (mask : BitVec 8) : names mask button = false := by
      obtain rfl | far := none
      · rfl
      · rw [names,BitVec.getLsbD_of_ge mask (button - 1) (by omega),Bool.and_false]
    refine ⟨⟨?_,?_⟩,BitVec.eq_of_getLsbD_eq fun k _ => ?_⟩
    · exact pressesDiffer delivered same (fun num _ => (addedAlternates h).mpr (away num))
        fun button _ => h.correct.alternate button
    · refine @pressesDiffer e s delivered same (fun button row => held row = names e.mask button) ?_ ?_
      · intro num _
        rw [addedHeld h,wideBit]
        rfl
      · intro button none
        rw [h.correct.pressed,outside none,outside none]
    · have asked : (pointerStep s e).asked.setWidth 32 = e.wide := rfl
      rw [bits,asked]
      split
      · rfl
      · rw [wideBit,h.remembered,widened,BitVec.getLsbD_of_ge e.mask k (by omega),
          BitVec.getLsbD_of_ge s.asked k (by omega)]

theorem settledBreaks (h : Settled s) (next : Correct (pointerStep s e)) : Fresh s e := by
  by_cases same : e.wide = s.pressedMask
  · exact .inl same
  · by_cases delivered : (e.allowMessages && e.test && e.connected) = true
    · refine .inr ⟨delivered,BitVec.eq_of_getLsbD_eq fun num _ => ?_⟩
      have zero : (0 : BitVec 32).getLsbD num = false := BitVec.getLsbD_zero
      rw [BitVec.getLsbD_and,zero,Bool.eq_false_iff]
      intro both
      obtain ⟨named,before⟩ := Bool.and_eq_true_iff.mp both
      have low : num < 8 := by
        by_contra far
        rw [wideBit,BitVec.getLsbD_of_ge e.mask num (by omega)] at named
        cases named
      have row := next.alternate (num + 1)
      rw [(stepDiffers delivered same).1,if_pos ⟨Nat.succ_pos num,low⟩] at row
      exact (addedAlternates h).mp row ⟨named,before⟩
    · refine absurd ((sameMask h).mpr (namesMask.mp fun button => ?_)) same
      have now := next.pressed button
      rw [stepAway delivered,h.correct.pressed] at now
      exact now.symm

end

theorem settledStart : Settled start := by
  refine ⟨⟨fun button => trivial,fun button => ?_⟩,rfl⟩
  simp [start,presses,held,names]

/- The events of every button alternate and the buttons held are those of the last mask,
all the way, if and only if no event names a held button among changes and none that
changes anything is dropped. -/
theorem buttonsIff (events : List PointerEvent) :
    Always pointerStep Correct start events ↔ Meets pointerStep Fresh start events :=
  alwaysMeetsIff (I := Settled) (fun _ _ h fresh => settledKeeps h fresh) (fun _ h => h.correct)
    (fun _ _ h next => settledBreaks h next) settledStart events

/- The left button goes down and, while it is held, the right one. -/
theorem leftPressedTwice :
    (run pointerStep start [⟨1,10,10,true,true,true⟩,⟨5,10,10,true,true,true⟩]).injected =
      [.button 1 ⟨10,10⟩ true,.button 1 ⟨10,10⟩ true,.button 3 ⟨10,10⟩ true] ∧
    ¬∀ events, Always pointerStep Correct start events := by
  have twice : (run pointerStep start [⟨1,10,10,true,true,true⟩,⟨5,10,10,true,true,true⟩]).injected =
      [.button 1 ⟨10,10⟩ true,.button 1 ⟨10,10⟩ true,.button 3 ⟨10,10⟩ true] := by decide +kernel
  refine ⟨twice,fun all => ?_⟩
  have row := (all _ _ (List.prefix_refl [⟨1,10,10,true,true,true⟩,⟨5,10,10,true,true,true⟩])).alternate 1
  rw [twice] at row
  revert row
  decide

end Ltsm.PointerButtons
