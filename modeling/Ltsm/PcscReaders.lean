import Ltsm.Library.Run
import Ltsm.PcscReplies

/-! The table of card readers that all local clients of the card service share: its slots are
filled and reset by whoever establishes a context, and clients keep pointers into it. -/
namespace Ltsm.PcscReaders
open Library
open PcscCommands (MAX_ATR_SIZE)
open PcscReplies (MAX_READERNAME Filled nothing)

/- `name` and `atr` are arrays. -/
structure ReaderState where
  name : Bytes
  state : UInt32
  share : UInt32
  atr : Bytes
  atrLen : Nat
  protocol : UInt32
  deriving DecidableEq, Repr

/- SCARD_STATE_PRESENT of a reader that has changed, and its ATR, whose length an assertion checks. -/
structure Status where
  present : Bool
  atr : Filled MAX_ATR_SIZE

namespace ReaderState

def readerName (rd : ReaderState) : Bytes := rd.name.takeWhile (· ≠ 0)

def reset : ReaderState :=
  ⟨List.replicate MAX_READERNAME 0,0,0,List.replicate MAX_ATR_SIZE 0,MAX_ATR_SIZE,0⟩

/- What is longer in the array than the copied text stays. -/
def copied (text array : Bytes) : Bytes := text ++ array.drop text.length

def syncReaderStatus (rd : ReaderState) (readerName : Bytes) (status : Status) : ReaderState :=
  {rd with
    state := if status.present then 0x0004 ||| 0x0010 ||| 0x0020 else 0x0002
    name := copied readerName rd.name
    atr := copied status.atr.val rd.atr
    atrLen := status.atr.val.length}

def opened (rd : ReaderState) (share protocol : UInt32) : ReaderState := {rd with share,protocol}

def statusApply (rd : ReaderState) (state protocol : UInt32) (atr : Filled MAX_ATR_SIZE) : ReaderState :=
  let rd := if rd.atr.take atr.val.length = atr.val then rd
    else {rd with
      atr := copied atr.val (List.replicate MAX_ATR_SIZE 0)
      atrLen := atr.val.length}
  {rd with protocol,state}

@[simp] theorem resetName : readerName reset = [] := rfl

@[simp] theorem openedName (rd : ReaderState) (share protocol : UInt32) :
    readerName (opened rd share protocol) = readerName rd := rfl

@[simp] theorem statusApplyName (rd : ReaderState) (state protocol : UInt32) (atr : Filled MAX_ATR_SIZE) :
    readerName (statusApply rd state protocol atr) = readerName rd := by
  unfold statusApply
  split <;> rfl

end ReaderState

open ReaderState

/- How many slots there are is PCSCLITE_MAX_READERS_CONTEXTS. -/
abbrev Readers (slots : Nat) := Fin slots → ReaderState

/- What a client's coroutine waits for: the status of a reader that it has taken a slot for, with the
names that are still to come, or a connection to a reader that it has found. -/
inductive Job (slots : Nat)
  | idle
  | syncing (name : Bytes) (slot : Fin slots) (rest : List Bytes)
  | connecting (name : Bytes) (slot : Fin slots)
  deriving DecidableEq, Repr

/- The slot that reader_ points to, with the name of the reader that the client connected to; the
program keeps the pointer only. -/
structure Client (slots : Nat) where
  established : Bool := false
  job : Job slots := .idle
  reader : Option (Fin slots × Bytes) := none

structure Session (slots : Nat) where
  readers : Readers slots
  clients : Nat → Client slots

/- The answers that clients get from the remote side, and the Connect requests that look a reader
up before they have one. No status is that of a reader which has not changed or of a failed request. -/
inductive Action
  | listed (id : Nat) (names : List Bytes)
  | statusAnswered (id : Nat) (status : Option Status)
  | connectAsked (id : Nat) (readerName : Bytes)
  | connectAnswered (id : Nat) (opened : Option (UInt32 × UInt32))
  | reconnected (id : Nat) (shareMode activeProtocol : UInt32)
  | disconnected (id : Nat)
  | statusGot (id : Nat) (state protocol : UInt32) (atr : Filled MAX_ATR_SIZE)
  | left (id : Nat)

namespace Session
variable {slots : Nat}

def start : Session slots := ⟨fun _ => {reset with atrLen := 0},fun _ => {}⟩

def findReaderState (readers : Readers slots) (name : Bytes) : Option (Fin slots) :=
  (List.finRange slots).find? fun i => readerName (readers i) = name

def readersReset (readers : Readers slots) : Readers slots := fun i =>
  if readerName (readers i) = [] then readers i else reset

def readersSyncNotFound (readers : Readers slots) (names : List Bytes) : Readers slots := fun i =>
  if readerName (readers i) = [] then readers i
  else if names.any (fun name => name = readerName (readers i)) then readers i else reset

/- The loop of syncReaders up to the next name that has no slot yet; an unused one is taken for it,
which stays without a name until the remote has answered. -/
def syncNames (readers : Readers slots) : List Bytes → Readers slots × Job slots
  | [] => (readers,.idle)
  | name :: rest =>
    match findReaderState readers name with
    | some _ => syncNames readers rest
    | none =>
      match findReaderState readers [] with
      | none => (readers,.idle)
      | some slot => (Function.update readers slot reset,.syncing name slot rest)

/- sendListReaders cuts the names that it gets. -/
def cutNames (names : List Bytes) : List Bytes := names.map (·.take (MAX_READERNAME - 1))

def syncReaders (readers : Readers slots) (names : List Bytes) : Readers slots × Job slots :=
  if names = [] then (readersReset readers,.idle) else syncNames (readersSyncNotFound readers names) names

def setClient (s : Session slots) (id : Nat) (client : Client slots) : Session slots :=
  {s with clients := Function.update s.clients id client}

def setReader (s : Session slots) (slot : Fin slots) (rd : ReaderState) : Session slots :=
  {s with readers := Function.update s.readers slot rd}

/- A client whose request is refused or fails is destroyed. -/
def step (s : Session slots) : Action → Session slots
  | .listed id names =>
    match (s.clients id).job with
    | .idle =>
      let done := syncReaders s.readers (cutNames names)
      setClient {s with readers := done.1} id {s.clients id with established := true,job := done.2}
    | _ => s
  | .statusAnswered id status =>
    match (s.clients id).job with
    | .syncing name slot rest =>
      let readers := match status with
        | some status => Function.update s.readers slot (syncReaderStatus (s.readers slot) name status)
        | none => s.readers
      let done := syncNames readers rest
      setClient {s with readers := done.1} id {s.clients id with job := done.2}
    | _ => s
  | .connectAsked id readerName =>
    match (s.clients id).job with
    | .idle =>
      match (s.clients id).established,findReaderState s.readers readerName with
      | true,some currentReader => setClient s id {s.clients id with job := .connecting readerName currentReader}
      | _,_ => setClient s id {}
    | _ => s
  | .connectAnswered id answer =>
    match (s.clients id).job with
    | .connecting readerName currentReader =>
      match answer with
      | some (shareMode,activeProtocol) =>
        setClient (setReader s currentReader (opened (s.readers currentReader) shareMode activeProtocol)) id
          {s.clients id with job := .idle,reader := some (currentReader,readerName)}
      | none => setClient s id {}
    | _ => s
  | .reconnected id shareMode activeProtocol =>
    match (s.clients id).job,(s.clients id).reader with
    | .idle,some (reader,_) => setReader s reader (opened (s.readers reader) shareMode activeProtocol)
    | _,_ => s
  | .disconnected id =>
    match (s.clients id).job,(s.clients id).reader with
    | .idle,some (reader,_) =>
      setClient (setReader s reader (opened (s.readers reader) 0 0)) id {s.clients id with reader := none}
    | _,_ => s
  | .statusGot id state protocol atr =>
    match (s.clients id).job,(s.clients id).reader with
    | .idle,some (reader,_) => setReader s reader (statusApply (s.readers reader) state protocol atr)
    | _,_ => s
  | .left id => setClient s id {}

/- The names in the table. -/
def names (readers : Readers slots) (i : Fin slots) : Bytes := readerName (readers i)

/- The answers that write into the table through reader_. -/
def Updates (id : Nat) : Action → Prop
  | .reconnected other _ _ => other = id
  | .disconnected other => other = id
  | .statusGot other _ _ _ => other = id
  | _ => False

structure Sound (s : Session slots) : Prop where
  distinct : ∀ i j, i ≠ j → names s.readers i ≠ [] → names s.readers i ≠ names s.readers j
  points : ∀ id slot name, (s.clients id).reader = some (slot,name) → names s.readers slot = name ∧ name ≠ []
  lands : ∀ id action, Updates id action → ∀ i, (step s action).readers i ≠ s.readers i →
    ∃ name, (s.clients id).reader = some (i,name) ∧ names s.readers i = name ∧ name ≠ []

/- No list lacks a reader that a client is connected to. When a slot gets its name, no other slot has
that name, and whoever is connected through the slot has it already. When a connection succeeds, the
slot that was found for it still has the name, and the name is not empty. -/
def Proper (s : Session slots) : Action → Prop
  | .listed id list => (s.clients id).job = .idle →
      ∀ client slot name, (s.clients client).reader = some (slot,name) → name ∈ cutNames list
  | .statusAnswered id (some status) => ∀ name slot rest, (s.clients id).job = .syncing name slot rest →
      let renamed := readerName (syncReaderStatus (s.readers slot) name status)
      (renamed ≠ [] → ∀ i, i ≠ slot → names s.readers i ≠ renamed) ∧
        ∀ client old, (s.clients client).reader = some (slot,old) → renamed = old
  | .connectAnswered id (some _) => ∀ name slot, (s.clients id).job = .connecting name slot →
      names s.readers slot = name ∧ name ≠ []
  | _ => True

/- The part of what a table is for that is about names and pointers. -/
structure Named (names : Fin slots → Bytes) (links : Nat → Option (Fin slots × Bytes)) : Prop where
  distinct : ∀ i j, i ≠ j → names i ≠ [] → names i ≠ names j
  points : ∀ id slot name, links id = some (slot,name) → names slot = name ∧ name ≠ []

def links (s : Session slots) (id : Nat) : Option (Fin slots × Bytes) := (s.clients id).reader

section
variable {names : Fin slots → Bytes} {links : Nat → Option (Fin slots × Bytes)}

theorem namedLeave (named : Named names links) (id : Nat) : Named names (Function.update links id none) := by
  refine ⟨named.distinct,fun client slot name link => ?_⟩
  by_cases same : client = id
  · rw [same,Function.update_self] at link
    cases link
  · rw [Function.update_of_ne same] at link
    exact named.points client slot name link

theorem namedConnect (named : Named names links) (id : Nat) (slot : Fin slots) (name : Bytes) :
    Named names (Function.update links id (some (slot,name))) ↔ names slot = name ∧ name ≠ [] := by
  constructor
  · intro next
    exact next.points id slot name (Function.update_self ..)
  · intro here
    refine ⟨named.distinct,fun client slot' name' link => ?_⟩
    by_cases same : client = id
    · rw [same,Function.update_self] at link
      cases Option.some.inj link
      exact here
    · rw [Function.update_of_ne same] at link
      exact named.points client slot' name' link

/- Readers that are not listed lose their slots. -/
theorem namedDrop (named : Named names links) (list : List Bytes) :
    Named (fun i => if names i ∈ list then names i else []) links ↔
      ∀ client slot name, links client = some (slot,name) → name ∈ list := by
  constructor
  · intro next client slot name link
    obtain ⟨same,there⟩ := next.points client slot name link
    by_contra missing
    rw [(named.points client slot name link).1,if_neg missing] at same
    exact there same.symm
  · intro all
    refine ⟨fun i j other there => ?_,fun client slot name link => ?_⟩
    · split at there
      case isFalse => exact absurd rfl there
      case isTrue kept =>
        rw [if_pos kept]
        rcases Decidable.em (names j ∈ list) with listed | missing
        · rw [if_pos listed]
          exact named.distinct i j other there
        · rwa [if_neg missing]
    · obtain ⟨same,there⟩ := named.points client slot name link
      rw [same,if_pos (all client slot name link)]
      exact ⟨rfl,there⟩

theorem namedRename (named : Named names links) (slot : Fin slots) (renamed : Bytes) :
    Named (Function.update names slot renamed) links ↔
      (renamed ≠ [] → ∀ i, i ≠ slot → names i ≠ renamed) ∧
        ∀ client old, links client = some (slot,old) → renamed = old := by
  constructor
  · intro next
    constructor
    · intro there i other
      have apart := next.distinct slot i other.symm
      rw [Function.update_self,Function.update_of_ne other] at apart
      exact (apart there).symm
    · intro client old link
      have same := (next.points client slot old link).1
      rwa [Function.update_self] at same
  · rintro ⟨apart,same⟩
    refine ⟨fun i j other there => ?_,fun client slot' name link => ?_⟩
    · by_cases first : i = slot
      · subst first
        rw [Function.update_self] at there ⊢
        rw [Function.update_of_ne other.symm]
        exact (apart there j other.symm).symm
      · rw [Function.update_of_ne first] at there ⊢
        by_cases second : j = slot
        · subst second
          rw [Function.update_self]
          intro equal
          exact apart (equal ▸ there) i first equal
        · rw [Function.update_of_ne second]
          exact named.distinct i j other there
    · by_cases here : slot' = slot
      · subst here
        rw [Function.update_self,same client name link]
        exact ⟨rfl,(named.points client slot' name link).2⟩
      · rw [Function.update_of_ne here]
        exact named.points client slot' name link

end

section
variable {s : Session slots}

theorem updatedNames (readers : Readers slots) (slot : Fin slots) (rd : ReaderState) :
    names (Function.update readers slot rd) = Function.update (names readers) slot (readerName rd) := by
  funext i
  by_cases here : i = slot
  · rw [names,here,Function.update_self,Function.update_self]
  · rw [names,Function.update_of_ne here,Function.update_of_ne here]
    rfl

theorem sameNames (readers : Readers slots) (slot : Fin slots) (rd : ReaderState)
    (same : readerName rd = names readers slot) : names (Function.update readers slot rd) = names readers := by
  rw [updatedNames,same,Function.update_eq_self]

theorem foundName {readers : Readers slots} {name : Bytes} {slot : Fin slots}
    (found : findReaderState readers name = some slot) : names readers slot = name := by
  unfold findReaderState at found
  exact of_decide_eq_true (@List.find?_some _ (fun i => decide (readerName (readers i) = name)) _ _ found)

/- A slot is taken only if it has no name, and gets none yet. -/
theorem syncNamesNames (readers : Readers slots) (list : List Bytes) :
    names (syncNames readers list).1 = names readers := by
  induction list with
  | nil => rfl
  | cons name rest ih =>
    rw [syncNames]
    split
    · exact ih
    · split
      · rfl
      case h_2 slot unused => exact sameNames readers slot reset (resetName.trans (foundName unused).symm)

theorem syncReadersNames (readers : Readers slots) (list : List Bytes) :
    names (syncReaders readers list).1 = fun i => if names readers i ∈ list then names readers i else [] := by
  unfold syncReaders
  split
  case isTrue none =>
    funext i
    rw [none,if_neg List.not_mem_nil]
    change readerName (readersReset readers i) = []
    unfold readersReset
    split
    case isTrue unused => exact unused
    case isFalse => rfl
  case isFalse =>
    rw [syncNamesNames]
    funext i
    have listed : list.any (fun name => name = readerName (readers i)) = true ↔ names readers i ∈ list := by
      simp [names]
    unfold names at listed ⊢
    unfold readersSyncNotFound
    split
    case isTrue unused => rw [unused,ite_self]
    case isFalse =>
      simp only [listed]
      split <;> rfl

/- The table after a step, with the client that has taken it. -/
def Whole (s : Session slots) : Prop := Named (names s.readers) (links s)

theorem wholeSet (readers : Readers slots) (id : Nat) (client : Client slots) :
    Whole (setClient {s with readers} id client) ↔
      Named (names readers) (Function.update (links s) id client.reader) := by
  have same : links (setClient {s with readers} id client) = Function.update (links s) id client.reader := by
    funext other
    by_cases same : other = id
    · subst same
      simp only [links,setClient,Function.update_self]
    · simp only [links,setClient,Function.update_of_ne same]
  unfold Whole
  rw [same]
  rfl

theorem wholeKept (readers : Readers slots) (id : Nat) (established : Bool) (job : Job slots) :
    Whole (setClient {s with readers} id ⟨established,job,(s.clients id).reader⟩) ↔
      Named (names readers) (links s) := by
  rw [wholeSet]
  exact iff_of_eq (congrArg _ (Function.update_eq_self id (links s)))

/- The part of a slot that a pointer's holder writes is not the name. -/
theorem wholeUpdated (whole : Whole s) (slot : Fin slots) {rd : ReaderState}
    (same : readerName rd = readerName (s.readers slot)) : Whole (setReader s slot rd) := by
  unfold Whole setReader
  rw [sameNames s.readers slot rd same]
  exact whole

/- What happens to the table is what happens to the names in it and to the pointers. -/
theorem wholeStep (whole : Whole s) (action : Action) : Whole (step s action) ↔ Proper s action := by
  cases action with
  | listed id list =>
    cases job : (s.clients id).job with
    | idle =>
      simp only [step,job]
      refine (wholeKept (s := s) _ id _ _).trans ?_
      rw [syncReadersNames,namedDrop whole]
      exact ⟨fun all _ => all,fun all => all job⟩
    | syncing | connecting =>
      simp only [step,job]
      exact iff_of_true whole (fun idle => by rw [job] at idle; cases idle)
  | statusAnswered id status =>
    cases job : (s.clients id).job with
    | syncing name slot rest =>
      simp only [step,job]
      refine (wholeKept (s := s) _ id _ _).trans ?_
      rw [syncNamesNames]
      cases status with
      | none => exact iff_of_true whole trivial
      | some status =>
        rw [updatedNames,namedRename whole]
        constructor
        · intro good name' slot' rest' same
          cases job.symm.trans same
          exact good
        · intro all
          exact all name slot rest job
    | idle | connecting =>
      simp only [step,job]
      refine iff_of_true whole ?_
      cases status with
      | none => trivial
      | some status =>
        intro name slot rest same
        cases job.symm.trans same
  | connectAsked id readerName =>
    refine iff_of_true ?_ trivial
    have gone : Whole (setClient s id {}) := (wholeSet s.readers id {}).mpr (namedLeave whole id)
    dsimp only [step]
    split
    case h_1 =>
      split
      case h_1 slot _ _ => exact (wholeKept s.readers id _ _).mpr whole
      case h_2 => exact gone
    case h_2 => exact whole
  | connectAnswered id answer =>
    cases job : (s.clients id).job with
    | connecting name slot =>
      cases answer with
      | none =>
        simp only [step,job]
        exact iff_of_true ((wholeSet s.readers id {}).mpr (namedLeave whole id)) trivial
      | some values =>
        simp only [step,job,setReader]
        refine (wholeSet (s := s) _ id _).trans ?_
        rw [sameNames _ _ _ (openedName ..),namedConnect whole]
        constructor
        · intro good name' slot' same
          cases job.symm.trans same
          exact good
        · intro all
          exact all name slot job
    | idle | syncing =>
      simp only [step,job]
      refine iff_of_true whole ?_
      cases answer with
      | none => trivial
      | some values =>
        intro name slot same
        cases job.symm.trans same
  | reconnected id shareMode activeProtocol =>
    refine iff_of_true ?_ trivial
    dsimp only [step]
    split
    case h_1 slot _ _ _ => exact wholeUpdated whole slot (openedName ..)
    case h_2 => exact whole
  | disconnected id =>
    refine iff_of_true ?_ trivial
    dsimp only [step]
    split
    case h_1 slot _ _ _ =>
      have kept := wholeUpdated whole slot (openedName (s.readers slot) 0 0)
      exact (wholeSet (setReader s slot (opened (s.readers slot) 0 0)).readers id _).mpr (namedLeave kept id)
    case h_2 => exact whole
  | statusGot id state protocol atr =>
    refine iff_of_true ?_ trivial
    dsimp only [step]
    split
    case h_1 slot _ _ _ => exact wholeUpdated whole slot (statusApplyName ..)
    case h_2 => exact whole
  | left id => exact iff_of_true ((wholeSet s.readers id {}).mpr (namedLeave whole id)) trivial

theorem setReaderOther {slot i : Fin slots} {rd : ReaderState}
    (changed : (setReader s slot rd).readers i ≠ s.readers i) : i = slot := by
  by_contra other
  refine changed ?_
  simp only [setReader,Function.update_of_ne other]

/- An answer that is written through reader_ changes no other slot than that. -/
theorem updatesSlot {id : Nat} {action : Action} (updates : Updates id action) {i : Fin slots}
    (changed : (step s action).readers i ≠ s.readers i) : ∃ name, (s.clients id).reader = some (i,name) := by
  cases action with
  | reconnected other shareMode activeProtocol | disconnected other | statusGot other state protocol atr =>
    obtain rfl : other = id := updates
    dsimp only [step] at changed
    split at changed
    case h_1 slot name _ link =>
      obtain rfl := setReaderOther changed
      exact ⟨name,link⟩
    case h_2 => exact absurd rfl changed
  | listed | statusAnswered | connectAsked | connectAnswered | left => exact updates.elim

theorem wholeSound (whole : Whole s) : Sound s := by
  refine ⟨whole.distinct,whole.points,fun id action updates i changed => ?_⟩
  obtain ⟨name,link⟩ := updatesSlot updates changed
  exact ⟨name,link,whole.points id i name link⟩

theorem wholeStart : Whole (start : Session slots) := by
  refine ⟨fun i j other there => absurd ?_ there,fun id slot name link => by cases link⟩
  exact resetName

end
end Session

open Session

/- In every state of a run the table is what it should be, exactly if no step of the run takes away
or renames a slot under a client. -/
theorem readersSoundIff (slots : Nat) (actions : List Action) :
    Always step Sound (start : Session slots) actions ↔ Meets step Proper (start : Session slots) actions :=
  alwaysMeetsIff (I := Whole) (fun _ action whole proper => (wholeStep whole action).mpr proper)
    (fun _ => wholeSound)
    (fun _ action whole sound => (wholeStep whole action).mp ⟨sound.distinct,sound.points⟩) wholeStart actions

/- A reader is unplugged while a client is connected to it and another one is plugged in: the next
client that establishes a context gives the slot to the other one. -/
def replugged : List Action :=
  [.listed 11 [[65]],.statusAnswered 11 (some ⟨true,nothing MAX_ATR_SIZE⟩),.connectAsked 11 [65],
    .connectAnswered 11 (some (2,1)),.listed 12 [[66]],.statusAnswered 12 (some ⟨false,nothing MAX_ATR_SIZE⟩)]

/- The first client's pointer is to the entry of the second reader then, and its status goes there. -/
theorem pointsElsewhere :
    let s := run step (start : Session 16) replugged
    (s.clients 11).reader = some (0,[65]) ∧ names s.readers 0 = [66] ∧
      ((step s (.statusGot 11 0x34 1 (nothing MAX_ATR_SIZE))).readers 0).state = 0x34 ∧
      ¬Always step Sound (start : Session 16) replugged := by
  have link : ((run step (start : Session 16) replugged).clients 11).reader = some (0,[65]) := by decide
  have name : names (run step (start : Session 16) replugged).readers 0 = [66] := by decide
  refine ⟨link,name,by decide,fun sound => ?_⟩
  have points := ((sound replugged (List.prefix_refl _)).points 11 0 [65] link).1
  rw [name] at points
  cases points

end Ltsm.PcscReaders
