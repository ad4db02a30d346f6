import Ltsm.PointerButtons

/-! Mouse events of an RDP client, injected into the X server. A flag word names
buttons, the wheel and a move, and says whether it is down; the first button that it
names is injected, or else the wheel. -/
namespace Ltsm.RdpPointer
open Library Regions PointerButtons

/- What comes with the flags: whether messages to the display are allowed just then, its
TEST module is there, and the connection is. -/
structure MouseEvent where
  flags : BitVec 16
  posx : Nat
  posy : Nat
  allowMessages : Bool
  test : Bool
  connected : Bool
  deriving DecidableEq, Repr

/- `injected` is what came to the X server and `told` what the client said of its buttons;
`wheels` has the button and what was injected for every event with the wheel. -/
structure ConnectorRdp where
  injected : List XEvent
  told : List XEvent
  wheels : List (Nat × List XEvent)
  deriving DecidableEq, Repr

def start : ConnectorRdp := ⟨[],[],[]⟩

def ptrFlagsButton1 : BitVec 16 := 0x1000
def ptrFlagsButton2 : BitVec 16 := 0x2000
def ptrFlagsButton3 : BitVec 16 := 0x4000
def ptrFlagsWheel : BitVec 16 := 0x0200
def ptrFlagsWheelNegative : BitVec 16 := 0x0100
def ptrFlagsMove : BitVec 16 := 0x0800
def ptrFlagsDown : BitVec 16 := 0x8000

namespace MouseEvent
variable (e : MouseEvent)

def has (flag : BitVec 16) : Bool := e.flags &&& flag != 0
def pos : Point := ⟨toInt16 e.posx,toInt16 e.posy⟩
def down : Bool := e.has ptrFlagsDown
def wheelButton : Nat := if e.has ptrFlagsWheelNegative then 5 else 4

/- The chain of branches: left, right, middle, wheel. -/
def branch : Option Nat :=
  if e.has ptrFlagsButton1 then some 1
  else if e.has ptrFlagsButton2 then some 3
  else if e.has ptrFlagsButton3 then some 2
  else if e.has ptrFlagsWheel then some e.wheelButton
  else none

def screenInput (event : XEvent) : List XEvent := if e.connected then [event] else []

/- What is injected, and what the callback returns. -/
def cbServerMouseEvent : List XEvent × Bool :=
  if e.allowMessages then
    if e.test then
      ((match e.branch with
        | some button => e.screenInput (.button button e.pos e.down)
        | none => []) ++ if e.has ptrFlagsMove then e.screenInput (.move e.pos) else [],true)
    else ([],false)
  else ([],true)

/- The buttons that the flags name, as the X server numbers them. -/
def names (button : Nat) : Bool :=
  (button = 1 && e.has ptrFlagsButton1) || (button = 2 && e.has ptrFlagsButton3) ||
    (button = 3 && e.has ptrFlagsButton2)

def said : List XEvent := ([1,2,3].filter e.names).map fun button => .button button e.pos e.down

/- The button is injected for the event. -/
def injects (button : Nat) : Bool :=
  e.allowMessages && e.test && e.connected && (e.branch == some button)

end MouseEvent

def mouseStep (s : ConnectorRdp) (e : MouseEvent) : ConnectorRdp where
  injected := s.injected ++ e.cbServerMouseEvent.1
  told := s.told ++ e.said
  wheels := if e.has ptrFlagsWheel then s.wheels ++ [(e.wheelButton,e.cbServerMouseEvent.1)] else s.wheels

/- Presses and releases alternate, the buttons pressed are those the client holds, and each
step of the wheel is a press and a release. -/
structure Correct (s : ConnectorRdp) : Prop where
  alternate : ∀ button, Alternate true (presses button s.injected)
  pressed : ∀ button, held (presses button s.injected) = held (presses button s.told)
  wheel : ∀ turn ∈ s.wheels, presses turn.1 turn.2 = [true,false]

/- The client releases only what it has pressed. -/
def Releases (s : ConnectorRdp) (e : MouseEvent) : Prop :=
  ∀ button, e.names button = true → e.down = false → held (presses button s.told) = true

/- The wheel is not turned; the button that is injected was not as the client says now, and
each other one that is named was. -/
structure Fresh (s : ConnectorRdp) (e : MouseEvent) : Prop where
  noWheel : e.has ptrFlagsWheel = false
  buttons : ∀ button, e.names button = true →
    held (presses button s.told) = if e.injects button then !e.down else e.down

section
variable {s : ConnectorRdp} {e : MouseEvent}

theorem pressesAppend (button : Nat) (first second : List XEvent) :
    presses button (first ++ second) = presses button first ++ presses button second :=
  List.filterMap_append

theorem pressesInjected (e : MouseEvent) (button : Nat) :
    presses button e.cbServerMouseEvent.1 = if e.injects button then [e.down] else [] := by
  unfold MouseEvent.cbServerMouseEvent MouseEvent.injects
  by_cases allowed : e.allowMessages = true
  · by_cases there : e.test = true
    · rw [if_pos allowed,if_pos there,allowed,there]
      simp only [pressesAppend]
      have move : presses button (if e.has ptrFlagsMove then e.screenInput (.move e.pos) else []) = [] := by
        unfold MouseEvent.screenInput
        split
        · split <;> rfl
        · rfl
      rw [move,List.append_nil]
      cases branch : e.branch with
      | none => simp [presses]
      | some other =>
        unfold MouseEvent.screenInput
        by_cases same : other = button
        · by_cases here : e.connected = true <;> simp [same,here,presses,XEvent.ofButton]
        · by_cases here : e.connected = true <;> simp [same,here,presses,XEvent.ofButton]
    · simp [allowed,there,presses]
  · simp [allowed,presses]

theorem pressesEach (pos : Point) (down : Bool) (button : Nat) {buttons : List Nat} (once : buttons.Nodup) :
    presses button (buttons.map fun other => .button other pos down) = if button ∈ buttons then [down] else [] := by
  induction buttons with
  | nil => rfl
  | cons other rest ih =>
    obtain ⟨apart,later⟩ := List.nodup_cons.mp once
    have one : presses button [.button other pos down] = if other = button then [down] else [] := by
      by_cases same : other = button <;> simp [presses,XEvent.ofButton,same]
    rw [List.map_cons,← List.singleton_append,pressesAppend,one,ih later]
    by_cases same : other = button
    · subst same
      simp [apart]
    · simp [same,Ne.symm same]

theorem namesFew {button : Nat} (named : e.names button = true) : button ∈ [1,2,3] := by
  unfold MouseEvent.names at named
  simp only [Bool.or_eq_true,Bool.and_eq_true,decide_eq_true_eq] at named
  obtain (⟨rfl,_⟩ | ⟨rfl,_⟩) | ⟨rfl,_⟩ := named <;> simp

theorem pressesSaid (e : MouseEvent) (button : Nat) :
    presses button e.said = if e.names button then [e.down] else [] := by
  have listed : button ∈ [1,2,3].filter e.names ↔ e.names button = true := by
    rw [List.mem_filter]
    exact and_iff_right_of_imp namesFew
  rw [MouseEvent.said,pressesEach e.pos e.down button (List.Pairwise.filter _ (by decide : [1,2,3].Nodup))]
  simp only [listed]

/- Without the wheel only what is named is injected. -/
theorem injectsNamed (noWheel : e.has ptrFlagsWheel = false) {button : Nat} (injected : e.injects button = true) :
    e.names button = true := by
  unfold MouseEvent.injects MouseEvent.branch at injected
  simp only [Bool.and_eq_true,beq_iff_eq] at injected
  obtain ⟨_,branch⟩ := injected
  rw [noWheel] at branch
  unfold MouseEvent.names
  by_cases left : e.has ptrFlagsButton1 = true
  · rw [if_pos left] at branch
    cases branch
    simp [left]
  · rw [if_neg left] at branch
    by_cases right : e.has ptrFlagsButton2 = true
    · rw [if_pos right] at branch
      cases branch
      simp [right]
    · rw [if_neg right] at branch
      by_cases middle : e.has ptrFlagsButton3 = true
      · rw [if_pos middle] at branch
        cases branch
        simp [middle]
      · rw [if_neg middle,if_neg Bool.false_ne_true] at branch
        cases branch

theorem stepPresses (s : ConnectorRdp) (e : MouseEvent) (button : Nat) :
    presses button (mouseStep s e).injected =
      presses button s.injected ++ (if e.injects button then [e.down] else []) ∧
    presses button (mouseStep s e).told = presses button s.told ++ if e.names button then [e.down] else [] := by
  unfold mouseStep
  exact ⟨by rw [pressesAppend,pressesInjected],by rw [pressesAppend,pressesSaid]⟩

/- At most one event of a button comes of one event of the client. -/
theorem wheelShort (e : MouseEvent) (button : Nat) : presses button e.cbServerMouseEvent.1 ≠ [true,false] := by
  rw [pressesInjected]
  split <;> simp

theorem correctKeeps (h : Correct s) (fresh : Fresh s e) : Correct (mouseStep s e) := by
  obtain ⟨noWheel,buttons⟩ := fresh
  refine ⟨fun button => ?_,fun button => ?_,?_⟩
  · rw [(stepPresses s e button).1]
    by_cases injected : e.injects button = true
    · have before := buttons button (injectsNamed noWheel injected)
      rw [if_pos injected,← h.pressed] at before
      rw [if_pos injected,alternateNext (h.alternate button),before,Bool.not_not]
    · rw [if_neg injected,List.append_nil]
      exact h.alternate button
  · obtain ⟨there,said⟩ := stepPresses s e button
    rw [there,said]
    by_cases named : e.names button = true
    · have before := buttons button named
      rw [if_pos named,heldNext]
      by_cases injected : e.injects button = true
      · rw [if_pos injected,heldNext]
      · rw [if_neg injected] at before
        rw [if_neg injected,List.append_nil,h.pressed,before]
    · have quiet : ¬e.injects button = true := fun injected => named (injectsNamed noWheel injected)
      rw [if_neg named,if_neg quiet,List.append_nil,List.append_nil]
      exact h.pressed button
  · have same : (mouseStep s e).wheels = s.wheels := by
      unfold mouseStep
      simp [noWheel]
    rw [same]
    exact h.wheel

theorem correctBreaks (h : Correct s) (next : Correct (mouseStep s e)) : Fresh s e := by
  have noWheel : e.has ptrFlagsWheel = false := by
    rw [Bool.eq_false_iff]
    intro turned
    refine wheelShort e e.wheelButton (next.wheel (e.wheelButton,e.cbServerMouseEvent.1) ?_)
    simp [mouseStep,turned]
  refine ⟨noWheel,fun button named => ?_⟩
  obtain ⟨there,said⟩ := stepPresses s e button
  by_cases injected : e.injects button = true
  · have row := next.alternate button
    rw [there,if_pos injected,alternateNext (h.alternate button)] at row
    rw [if_pos injected,← h.pressed,row,Bool.not_not]
  · have now := next.pressed button
    rw [there,said,if_neg injected,if_pos named,List.append_nil,heldNext] at now
    rw [if_neg injected,← h.pressed,now]

end

theorem correctStart : Correct start :=
  ⟨fun _ => trivial,fun _ => rfl,fun _ listed => absurd listed List.not_mem_nil⟩

/- All is in order all the way, if and only if no event turns the wheel and each event finds
the buttons it names as they have to be. -/
theorem mouseIff (events : List MouseEvent) :
    Always mouseStep Correct start events ↔ Meets mouseStep Fresh start events :=
  alwaysMeetsIff (I := Correct) (fun _ _ h fresh => correctKeeps h fresh) (fun _ h => h)
    (fun _ _ h next => correctBreaks h next) correctStart events

/- The wheel is turned by one step up. -/
theorem wheelReleasedOnly :
    (run mouseStep start [⟨0x0278,10,10,true,true,true⟩]).injected = [.button 4 ⟨10,10⟩ false] ∧
    ¬∀ events, Meets mouseStep Releases start events → Always mouseStep Correct start events := by
  have once : (run mouseStep start [⟨0x0278,10,10,true,true,true⟩]).injected = [.button 4 ⟨10,10⟩ false] := by
    decide +kernel
  refine ⟨once,fun all => ?_⟩
  have allowed : Meets mouseStep Releases start [⟨0x0278,10,10,true,true,true⟩] := by
    refine ⟨fun button named => ?_,trivial⟩
    have few := namesFew named
    simp only [List.mem_cons,List.not_mem_nil,or_false] at few
    obtain rfl | rfl | rfl := few <;> cases named
  have row := (all _ allowed _ (List.prefix_refl _)).alternate 4
  rw [once] at row
  revert row
  decide

end Ltsm.RdpPointer
