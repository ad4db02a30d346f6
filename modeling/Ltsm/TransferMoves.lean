import Ltsm.JsonScalars
import Ltsm.Library.Run

/-! One file on its way into a session, from the size that the client announces to the notice that
it is there. Owners, texts and the times between two looks at the file are left out. -/
namespace Ltsm.TransferMoves
open Library JsonStreams JsonContent JsonScalars

/- The number in the text of the client, as an int, a size and a field of the bus. -/
def announced (size : Nat) : Option UInt32 :=
  match stoi (decimal size) with
  | .ok fsize => some (UInt64.ofInt fsize).toUInt32
  | .error _ => none

inductive Renamed
  | moved
  | crossDeviceLink
  | failed
  deriving DecidableEq, Repr

/- What a copy leaves behind where it fails. -/
inductive Copied
  | whole
  | failed (left : Option Bytes)
  deriving DecidableEq, Repr

structure Transfer where
  source : Bytes
  filesz : UInt32
  before : Option Bytes
  tmpfile : Option Bytes
  dstfile : Option Bytes
  connected : Bool
  ended : Bool
  complete : Bool
  lost : Bool
  deriving DecidableEq, Repr

/- What the file system answers in one turn, where it is asked. -/
structure Turn where
  fault : Bool
  renamed : Renamed
  copied : Copied
  removed : Bool
  deriving DecidableEq, Repr

inductive Action
  | opened
  | arrived (count : Nat)
  | mode (connected : Bool)
  | turn (t : Turn)
  deriving DecidableEq, Repr

def begun (source : Bytes) (before : Option Bytes) : Option Transfer :=
  (announced source.length).map fun filesz => ⟨source,filesz,before,none,before,true,false,false,false⟩

def filled (s : Transfer) : Bool := s.tmpfile.any fun bytes => s.filesz.toNat ≤ bytes.length

/- remove, and what it took away is lost where the other file does not hold it. -/
def removeTmp (removed : Bool) (s : Transfer) : Transfer :=
  if removed then {s with tmpfile := none,lost := s.lost || s.tmpfile ≠ none && s.dstfile ≠ s.tmpfile} else s

def notifyComplete (s : Transfer) : Transfer := {s with ended := true,complete := true}

/- transferFileStartBackground, behind the wait. -/
def moveFile (t : Turn) (s : Transfer) : Transfer :=
  match t.renamed with
  | .moved => notifyComplete {s with dstfile := s.tmpfile,tmpfile := none}
  | .failed => {s with ended := true}
  | .crossDeviceLink =>
    match t.copied with
    | .whole => notifyComplete (removeTmp t.removed {s with dstfile := s.tmpfile})
    | .failed left => notifyComplete (removeTmp t.removed {s with dstfile := left})

/- One turn of transferFileComplete, and what follows if it is the last one. -/
def fileTurn (t : Turn) (s : Transfer) : Transfer :=
  if s.ended then s
  else if t.fault then {s with ended := true}
  else if filled s then moveFile t s
  else if s.connected then s
  else {s with ended := true,tmpfile := none}

/- The channel writes what has come, in order. -/
def step (s : Transfer) : Action → Transfer
  | .opened => if s.ended || s.tmpfile ≠ none then s else {s with tmpfile := some []}
  | .arrived count => {s with tmpfile := s.tmpfile.map fun bytes => s.source.take (bytes.length + count)}
  | .mode connected => {s with connected}
  | .turn t => fileTurn t s

structure Complete (s : Transfer) : Prop where
  told : s.complete = true → s.dstfile = some s.source
  presented : s.complete = false → s.dstfile = s.before
  saved : s.lost = false

/- A copy is made only across devices, of what has come. -/
def CopiesAll (s : Transfer) : Action → Prop
  | .turn t => s.ended = false → t.fault = false → filled s = true → t.renamed = .crossDeviceLink →
      ∀ left, t.copied = .failed left → left = some s.source
  | _ => True

section
variable {s : Transfer} {t : Turn} {source : Bytes} {old : Option Bytes} {size : Nat} {filesz : UInt32}

/- A size that is told at all is told as it is. -/
theorem announcedSame (told : announced size = some filesz) : filesz.toNat = size := by
  unfold announced at told
  rw [stoiDecimal] at told
  by_cases fits : FitsInt (size : Int)
  · rw [if_pos fits] at told
    have small : size < 2 ^ 31 := by
      have bound := fits.2
      omega
    have same : ((size : Int) % 2 ^ 64).toNat = size := by omega
    rw [← Option.some.inj told,UInt64.ofInt,same,UInt64.toNat_toUInt32,UInt64.toNat_ofNat']
    omega
  · rw [if_neg fits] at told
    contradiction

/- What there is of the file is its front, and it is filled with all of it. -/
structure Received (s : Transfer) : Prop where
  size : s.filesz.toNat = s.source.length
  front : ∀ bytes, s.tmpfile = some bytes → bytes <+: s.source
  open' : s.ended = false → s.complete = false ∧ s.dstfile = s.before

theorem begunReceived (begins : begun source old = some s) : Received s ∧ Complete s := by
  obtain ⟨filesz,told,rfl⟩ := Option.map_eq_some_iff.mp begins
  exact ⟨⟨announcedSame told,by simp,fun _ => ⟨rfl,rfl⟩⟩,by simp,fun _ => rfl,rfl⟩

theorem filledWhole (received : Received s) (full : filled s = true) : s.tmpfile = some s.source := by
  obtain ⟨bytes,there,long⟩ := (Option.any_eq_true _ _).mp full
  have front := received.front bytes there
  have size := received.size
  simp only [decide_eq_true_eq] at long
  rw [there,front.eq_of_length_le (by omega)]

theorem moveReceived (received : Received s) (t : Turn) : Received (moveFile t s) := by
  unfold moveFile notifyComplete removeTmp
  split
  · exact ⟨received.size,by simp,by simp⟩
  · exact ⟨received.size,received.front,by simp⟩
  · split <;> split
    · exact ⟨received.size,by simp,by simp⟩
    · exact ⟨received.size,received.front,by simp⟩
    · exact ⟨received.size,by simp,by simp⟩
    · exact ⟨received.size,received.front,by simp⟩

theorem stepReceived (s : Transfer) (a : Action) (received : Received s) : Received (step s a) := by
  cases a with
  | opened =>
    unfold step
    dsimp only
    split
    · exact received
    · exact ⟨received.size,by simp,received.open'⟩
  | arrived count =>
    refine ⟨received.size,fun bytes there => ?_,received.open'⟩
    obtain ⟨front,_,rfl⟩ := Option.map_eq_some_iff.mp there
    exact List.take_prefix _ _
  | mode connected => exact ⟨received.size,received.front,received.open'⟩
  | turn t =>
    change Received (fileTurn t s)
    unfold fileTurn
    split
    · exact received
    · split
      · exact ⟨received.size,received.front,by simp⟩
      · split
        · exact moveReceived received t
        · split
          · exact received
          · exact ⟨received.size,by simp,by simp⟩

/- A file that is filled: told once the other place holds it all. -/
theorem moveComplete (received : Received s) (complete : Complete s) (full : filled s = true)
    (waits : s.ended = false) : Complete (moveFile t s) ↔
      (t.renamed = .crossDeviceLink → ∀ left, t.copied = .failed left → left = some s.source) := by
  have whole := filledWhole received full
  obtain ⟨untold,kept⟩ := received.open' waits
  have saved := complete.saved
  cases renamed : t.renamed with
  | moved =>
    simp only [moveFile,renamed]
    exact iff_of_true ⟨fun _ => whole,by simp [notifyComplete],saved⟩ (by simp)
  | failed =>
    simp only [moveFile,renamed]
    exact iff_of_true ⟨by simp [untold],fun _ => kept,saved⟩ (by simp)
  | crossDeviceLink =>
    cases copied : t.copied with
    | whole =>
      simp only [moveFile,renamed,copied]
      refine iff_of_true ?_ (by simp)
      cases t.removed with
      | true => exact ⟨fun _ => whole,by simp [notifyComplete],by simp [notifyComplete,removeTmp,saved]⟩
      | false => exact ⟨fun _ => whole,by simp [notifyComplete],saved⟩
    | failed left =>
      simp only [moveFile,renamed,copied,forall_true_left,Copied.failed.injEq,forall_eq']
      constructor
      · intro after
        have told := after.told
        cases removed : t.removed <;> rw [removed] at told <;> exact told rfl
      · rintro rfl
        cases t.removed with
        | true => exact ⟨fun _ => rfl,by simp [notifyComplete],by simp [notifyComplete,removeTmp,saved,whole]⟩
        | false => exact ⟨fun _ => rfl,by simp [notifyComplete],saved⟩

theorem stepComplete (s : Transfer) (a : Action) (received : Received s) (complete : Complete s) :
    Complete (step s a) ↔ CopiesAll s a := by
  cases a with
  | opened =>
    refine iff_of_true ?_ trivial
    unfold step
    dsimp only
    split
    · exact complete
    · exact ⟨complete.told,complete.presented,complete.saved⟩
  | arrived count => exact iff_of_true ⟨complete.told,complete.presented,complete.saved⟩ trivial
  | mode connected => exact iff_of_true ⟨complete.told,complete.presented,complete.saved⟩ trivial
  | turn t =>
    change Complete (fileTurn t s) ↔ _
    unfold fileTurn CopiesAll
    split
    · rename_i ended
      exact iff_of_true complete fun waits => absurd (waits.symm.trans ended) (by simp)
    · rename_i waits
      rw [Bool.not_eq_true] at waits
      split
      · rename_i fault
        refine iff_of_true ⟨complete.told,complete.presented,complete.saved⟩ fun _ fine => ?_
        rw [fault] at fine
        contradiction
      · rename_i fine
        rw [Bool.not_eq_true] at fine
        split
        · rename_i full
          rw [moveComplete received complete full waits]
          simp [waits,fine,full]
        · rename_i partly
          refine iff_of_true ?_ fun _ _ full => absurd full partly
          split
          · exact complete
          · exact ⟨complete.told,complete.presented,complete.saved⟩

end

/- Of every transfer of the file that begins. -/
def AlwaysComplete (source : Bytes) (before : Option Bytes) (actions : List Action) : Prop :=
  ∀ s, begun source before = some s → Always step Complete s actions

def AllCopied (source : Bytes) (before : Option Bytes) (actions : List Action) : Prop :=
  ∀ s, begun source before = some s → Meets step CopiesAll s actions

theorem transfersComplete (source : Bytes) (before : Option Bytes) (actions : List Action) :
    AlwaysComplete source before actions ↔ AllCopied source before actions := by
  refine forall₂_congr fun s begins => ?_
  obtain ⟨received,complete⟩ := begunReceived begins
  exact alwaysIff stepReceived stepComplete received complete actions

/- The disk is full behind two bytes of the copy. -/
theorem copyCutShort : ¬ ∀ source before actions, AlwaysComplete source before actions := by
  intro all
  have reached := all [1,2,3,4,5] none [.opened,.arrived 5,.turn ⟨false,.crossDeviceLink,.failed (some [1,2]),true⟩]
    ⟨[1,2,3,4,5],5,none,none,none,true,false,false,false⟩ (by decide +kernel) _ (List.prefix_refl _)
  exact absurd (reached.told (by decide)) (by decide)

end Ltsm.TransferMoves
