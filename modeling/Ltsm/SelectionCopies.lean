import Ltsm.Library.ByteReader
import Ltsm.Library.Run

/-! The copy of an X selection. A big one comes in pieces, by a property that its owner writes again
and again; one record is the buffer of that and is kept when it is done. A recipient's own requests, also
those it makes while it is told something, are further steps of a run. -/
namespace Ltsm.SelectionCopies
open Library

abbrev Atom := UInt32

/- The window and the atoms of the module, with those that all share. -/
structure Window where
  selectionWin : UInt32
  selectionAtom : Atom
  selectionProp : Atom
  targets : Atom
  incr : Atom

structure SelectionNotify where
  selection : Atom
  target : Atom
  property : Atom
  requestor : UInt32
  deriving DecidableEq, Repr

structure PropertyNotify where
  window : UInt32
  atom : Atom
  newValue : Bool
  deriving DecidableEq, Repr

structure Property where
  type : Atom
  value : Bytes
  deriving DecidableEq, Repr

/- A value of the property: whether the selection's owner has written it for the transfer that is
under way, and not in answer to something else, and whether it could not be read. -/
structure Change where
  chunk : Bool
  failed : Bool
  value : Bytes
  deriving DecidableEq, Repr

def sent (history : List Change) : Bytes := (history.filter (·.chunk)).flatMap Change.value

def taken (history : List Change) : Bytes := (history.filter fun change => !change.failed).flatMap Change.value

/- The end marker is a chunk with nothing in it. -/
def ended (history : List Change) : Bool := history.any fun change => change.chunk && change.value.isEmpty

/- `asked` is the recipient when the transfer began; `history` are the values of the property since
then, and `delivered` is how often the buffer has been handed over. -/
structure WindowSource where
  target : Atom
  buf : Bytes
  asked : Nat
  history : List Change
  delivered : Nat
  deriving DecidableEq, Repr

/- `source` is the record that the data is from, where it is from one. -/
structure Delivery where
  recipient : Nat
  type : Atom
  data : Bytes
  source : Option WindowSource
  deriving DecidableEq, Repr

structure CopySelection where
  recipient : Option Nat
  sourceIncr : Option WindowSource
  selectionTrgt : Atom
  received : List Delivery
  deriving DecidableEq, Repr

def start : CopySelection := ⟨none,none,0,[]⟩

/- What a recipient leaves in the buffer is up to it. -/
inductive Action
  | propertyNotify (ev : PropertyNotify) (type : Atom) (change : Change) (left : Bytes)
  | selectionNotify (ev : SelectionNotify) (property : Option Property)
  | setSelectionOwner (selection : Atom)
  | convertSelection (target : Atom) (rcpt : Nat) (left : Bytes)
  deriving DecidableEq, Repr

/- The buffer is handed over to the recipient. -/
def handOver (recipient : Nat) (type : Atom) (left : Bytes) (source : WindowSource) (s : CopySelection) :
    CopySelection :=
  {s with
    received := s.received ++ [⟨recipient,type,source.buf,some source⟩]
    sourceIncr := some {source with buf := left,delivered := source.delivered + 1}}

section
variable (w : Window)

def propertyNotifyEvent (ev : PropertyNotify) (type : Atom) (change : Change) (left : Bytes) (s : CopySelection) :
    CopySelection :=
  if !ev.newValue then s
  else if ev.window ≠ w.selectionWin ∨ ev.atom ≠ w.selectionProp then s
  else
    match s.sourceIncr,s.recipient with
    | some source,some recipient =>
      let seen := {source with history := source.history ++ [change]}
      if change.failed then {s with sourceIncr := some seen}
      else if change.value ≠ [] then {s with sourceIncr := some {seen with buf := source.buf ++ change.value}}
      else handOver recipient type left seen s
    | _,_ => s

def selectionNotifyEvent (ev : SelectionNotify) (property : Option Property) (s : CopySelection) : CopySelection :=
  if ev.selection ≠ w.selectionAtom then s
  else if ev.property ≠ w.selectionProp then s
  else if ev.requestor ≠ w.selectionWin then s
  else
    match s.recipient with
    | none => s
    | some recipient =>
      if ev.target = w.targets then s
      else if s.selectionTrgt = ev.target then
        match property with
        | none => s
        | some reply =>
          if reply.value = [] then s
          else if reply.type = w.incr then {s with sourceIncr := some ⟨ev.target,[],recipient,[],0⟩}
          else {s with received := s.received ++ [⟨recipient,reply.type,reply.value,none⟩]}
      else s

def xfixesSetSelectionOwnerEvent (selection : Atom) (s : CopySelection) : CopySelection :=
  if selection = w.selectionAtom then {s with sourceIncr := none} else s

def convertSelection (target : Atom) (rcpt : Nat) (left : Bytes) (s : CopySelection) : CopySelection :=
  let t := {s with selectionTrgt := target,recipient := some rcpt}
  match s.sourceIncr with
  | none => t
  | some source =>
    -- data cached
    if target = source.target then handOver rcpt source.target left source t
    else if target ≠ w.targets then {t with sourceIncr := none}
    else t

def step (s : CopySelection) : Action → CopySelection
  | .propertyNotify ev type change left => propertyNotifyEvent w ev type change left s
  | .selectionNotify ev property => selectionNotifyEvent w ev property s
  | .setSelectionOwner selection => xfixesSetSelectionOwnerEvent w selection s
  | .convertSelection target rcpt left => convertSelection w target rcpt left s

end

/- All that the owner has sent, in order and up to its end marker, for the first time and to whom it
is for. -/
def Complete (recipient : Nat) (data : Bytes) (source : WindowSource) : Prop :=
  source.delivered = 0 ∧ ended source.history = true ∧ data = sent source.history ∧ recipient = source.asked

def Good (delivery : Delivery) : Prop :=
  ∀ source, delivery.source = some source → Complete delivery.recipient delivery.data source

/- The property told nothing but what the owner has sent, and lost nothing of it. -/
def Whole (recipient : Nat) (source : WindowSource) : Prop :=
  Complete recipient (taken source.history) source

/- A value that can be read and is empty comes as the end marker of a transfer that has come whole and
has not been handed over; and nobody asks for the target of a transfer in between. -/
def Careful (w : Window) (s : CopySelection) : Action → Prop
  | .propertyNotify ev _ change _ => ev.newValue = true → ev.window = w.selectionWin → ev.atom = w.selectionProp →
      change.failed = false → change.value = [] → ∀ source recipient, s.sourceIncr = some source →
        s.recipient = some recipient → Whole recipient {source with history := source.history ++ [change]}
  | .convertSelection target rcpt _ => ∀ source, s.sourceIncr = some source → target = source.target → Whole rcpt source
  | _ => True

/- What has not been handed over is what could be read. -/
def Buffered (s : CopySelection) : Prop :=
  ∀ source, s.sourceIncr = some source → source.delivered = 0 → source.buf = taken source.history

section
variable {w : Window} {s : CopySelection}

theorem takenAppend (history : List Change) (change : Change) :
    taken (history ++ [change]) = taken history ++ if change.failed then [] else change.value := by
  cases failed : change.failed <;> simp [taken,List.filter_append,failed]

/- A record that has been kept as it was read hands over what it has read. -/
theorem goodHandOver {recipient : Nat} {type : Atom} {source : WindowSource}
    (kept : source.delivered = 0 → source.buf = taken source.history) :
    Good ⟨recipient,type,source.buf,some source⟩ ↔ Whole recipient source := by
  constructor
  · intro good
    obtain ⟨fresh,ended,data,same⟩ := good source rfl
    exact ⟨fresh,ended,(kept fresh).symm.trans data,same⟩
  · rintro ⟨fresh,ended,data,same⟩ _ ⟨⟩
    exact ⟨fresh,ended,(kept fresh).trans data,same⟩

theorem bufferedHandOver (recipient : Nat) (type : Atom) (left : Bytes) (source : WindowSource) :
    Buffered (handOver recipient type left source s) := by
  rintro _ ⟨⟩ fresh
  exact absurd fresh (Nat.succ_ne_zero _)

/- A notification begins a transfer, or brings a selection that is no transfer, or is nothing. -/
theorem selectionCases (ev : SelectionNotify) (property : Option Property) :
    selectionNotifyEvent w ev property s = s ∨
      (∃ recipient, selectionNotifyEvent w ev property s =
        {s with sourceIncr := some ⟨ev.target,[],recipient,[],0⟩}) ∨
      ∃ recipient, ∃ reply : Property, selectionNotifyEvent w ev property s =
        {s with received := s.received ++ [⟨recipient,reply.type,reply.value,none⟩]} := by
  generalize next : selectionNotifyEvent w ev property s = t
  unfold selectionNotifyEvent at next
  split at next
  · exact .inl next.symm
  · split at next
    · exact .inl next.symm
    · split at next
      · exact .inl next.symm
      · split at next
        · exact .inl next.symm
        · rename_i recipient _
          split at next
          · exact .inl next.symm
          · split at next
            · split at next
              · exact .inl next.symm
              · rename_i reply
                split at next
                · exact .inl next.symm
                · split at next
                  · exact .inr (.inl ⟨recipient,next.symm⟩)
                  · exact .inr (.inr ⟨recipient,reply,next.symm⟩)
            · exact .inl next.symm

theorem bufferedStep (s : CopySelection) (a : Action) (buffered : Buffered s) : Buffered (step w s a) := by
  cases a with
  | propertyNotify ev type change left =>
    show Buffered (propertyNotifyEvent w ev type change left s)
    unfold propertyNotifyEvent
    split
    · exact buffered
    · split
      · exact buffered
      · split
        · rename_i source recipient here _
          have kept := buffered source here
          dsimp only
          split
          · rename_i failed
            rintro _ ⟨⟩ fresh
            rw [takenAppend,if_pos failed,List.append_nil]
            exact kept fresh
          · rename_i read
            split
            · rintro _ ⟨⟩ fresh
              rw [takenAppend,if_neg read,← kept fresh]
            · exact bufferedHandOver recipient type left _
        · exact buffered
  | selectionNotify ev property =>
    show Buffered (selectionNotifyEvent w ev property s)
    rcases selectionCases (w := w) (s := s) ev property with same | ⟨recipient,begun⟩ | ⟨recipient,reply,whole⟩
    · rwa [same]
    · rw [begun]
      rintro _ ⟨⟩ _
      rfl
    · rw [whole]
      exact buffered
  | setSelectionOwner selection =>
    show Buffered (xfixesSetSelectionOwnerEvent w selection s)
    unfold xfixesSetSelectionOwnerEvent
    split
    · rintro _ ⟨⟩
    · exact buffered
  | convertSelection target rcpt left =>
    show Buffered (convertSelection w target rcpt left s)
    unfold convertSelection
    split
    · rename_i none
      rintro source here
      exact absurd (none.symm.trans here) (by simp)
    · rename_i source here
      split
      · exact bufferedHandOver rcpt source.target left source
      · split
        · rintro _ ⟨⟩
        · exact buffered

/- What a step delivers is good exactly where it is careful. -/
def Delivers (s next : CopySelection) (C : Prop) : Prop :=
  ∃ added, next.received = s.received ++ added ∧ (C ↔ ∀ delivery ∈ added, Good delivery)

theorem deliversNone {next : CopySelection} {C : Prop} (same : next.received = s.received) (all : C) :
    Delivers s next C :=
  ⟨[],by rw [same,List.append_nil],iff_of_true all (List.forall_mem_nil _)⟩

theorem deliversOne {next : CopySelection} {C : Prop} {delivery : Delivery}
    (one : next.received = s.received ++ [delivery]) (same : C ↔ Good delivery) : Delivers s next C :=
  ⟨[delivery],one,by rw [same,List.forall_mem_singleton]⟩

theorem propertyDelivers (ev : PropertyNotify) (type : Atom) (change : Change) (left : Bytes) (buffered : Buffered s) :
    Delivers s (propertyNotifyEvent w ev type change left s) (Careful w s (.propertyNotify ev type change left)) := by
  unfold propertyNotifyEvent
  split
  · rename_i old
    exact deliversNone rfl fun new => absurd new (by simpa using old)
  · rename_i new
    split
    · rename_i other
      exact deliversNone rfl fun _ window atom => absurd other (by simp [window,atom])
    · rename_i own
      split
      · rename_i source recipient here there
        dsimp only
        split
        · rename_i failed
          exact deliversNone rfl fun _ _ _ read => absurd (read.symm.trans failed) (by simp)
        · rename_i read
          split
          · rename_i some
            exact deliversNone rfl fun _ _ _ _ none => absurd none some
          · rename_i none
            have none := not_not.mp none
            refine deliversOne rfl (Iff.trans ?_ (goodHandOver ?_).symm)
            · constructor
              · intro careful
                have both := not_or.mp own
                exact careful (by simpa using new) (not_not.mp both.1) (not_not.mp both.2) (by simpa using read) none
                  source recipient here there
              · intro whole _ _ _ _ _ record asked same last
                obtain rfl := Option.some.inj (here.symm.trans same)
                obtain rfl := Option.some.inj (there.symm.trans last)
                exact whole
            · intro fresh
              rw [takenAppend,none,ite_self,List.append_nil]
              exact buffered source here fresh
      · rename_i missing
        exact deliversNone rfl fun _ _ _ _ _ source recipient here there => absurd there (missing source recipient here)

theorem selectionDelivers (ev : SelectionNotify) (property : Option Property) :
    Delivers s (selectionNotifyEvent w ev property s) True := by
  rcases selectionCases (w := w) (s := s) ev property with same | ⟨recipient,begun⟩ | ⟨recipient,reply,whole⟩
  · rw [same]
    exact deliversNone rfl trivial
  · rw [begun]
    exact deliversNone rfl trivial
  · rw [whole]
    refine deliversOne rfl (iff_of_true trivial ?_)
    rintro _ ⟨⟩

theorem convertDelivers (target : Atom) (rcpt : Nat) (left : Bytes) (buffered : Buffered s) :
    Delivers s (convertSelection w target rcpt left s) (Careful w s (.convertSelection target rcpt left)) := by
  unfold convertSelection
  split
  · rename_i none
    exact deliversNone rfl fun source here => absurd (none.symm.trans here) (by simp)
  · rename_i source here
    split
    · rename_i cached
      refine deliversOne rfl (Iff.trans ?_ (goodHandOver (buffered source here)).symm)
      constructor
      · exact fun careful => careful source here cached
      · intro whole other same _
        obtain rfl := Option.some.inj (here.symm.trans same)
        exact whole
    · rename_i fresh
      have careful : Careful w s (.convertSelection target rcpt left) := by
        intro other same asked
        obtain rfl := Option.some.inj (here.symm.trans same)
        exact absurd asked fresh
      split
      · exact deliversNone rfl careful
      · exact deliversNone rfl careful

theorem stepDelivers (a : Action) (buffered : Buffered s) : Delivers s (step w s a) (Careful w s a) := by
  cases a with
  | propertyNotify ev type change left => exact propertyDelivers ev type change left buffered
  | selectionNotify ev property => exact selectionDelivers ev property
  | setSelectionOwner selection =>
    show Delivers s (xfixesSetSelectionOwnerEvent w selection s) True
    unfold xfixesSetSelectionOwnerEvent
    split
    · exact deliversNone rfl trivial
    · exact deliversNone rfl trivial
  | convertSelection target rcpt left => exact convertDelivers target rcpt left buffered

end

/- Every transfer is delivered once and as a whole, exactly in the runs whose steps are all careful. -/
theorem deliveredWholeIff (w : Window) (actions : List Action) :
    (∀ delivery ∈ (run (step w) start actions).received, Good delivery) ↔ Meets (step w) (Careful w) start actions := by
  have buffered : Buffered start := fun source here => absurd here (by simp [start])
  rw [meetsLog CopySelection.received bufferedStep (fun s a kept => stepDelivers a kept) buffered actions]
  exact and_iff_right (List.forall_mem_nil _)

/- Text is asked for again between two of its chunks. -/
theorem partHandedOver : ¬ ∀ w actions, ∀ delivery ∈ (run (step w) start actions).received, Good delivery := by
  intro all
  have part := all ⟨1,2,3,4,5⟩ [.convertSelection 6 0 [],.selectionNotify ⟨2,6,3,1⟩ (some ⟨5,[4,0,0,0]⟩),
    .propertyNotify ⟨1,3,true⟩ 6 ⟨true,false,[97,98]⟩ [],.convertSelection 6 0 []] _ (List.mem_singleton_self _) _ rfl
  exact absurd part.2.1 (by decide)

end Ltsm.SelectionCopies
