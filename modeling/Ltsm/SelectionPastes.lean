import Ltsm.Library.ByteReader
import Ltsm.Library.FirstMatch
import Ltsm.Library.Run

/-! The paste of an X selection. Content that is longer than a request of X comes in pieces, each when
the requestor has taken the last one away. What is pasted is the clipboard of the server, which the thread
of the remote side may change between any two looks at it: each look comes with the event. -/
namespace Ltsm.SelectionPastes
open Library

abbrev Atom := UInt32

/- The server's clipboard at a look. -/
structure Source where
  targets : List Atom
  clipboard : Bytes
  deriving DecidableEq, Repr

def selectionSourceSize (src : Source) (atom : Atom) : Nat :=
  if src.targets.contains atom then src.clipboard.length else 0

def selectionSourceData (src : Source) (atom : Atom) (offset length : Nat) : Bytes :=
  if src.targets.contains atom then
    if offset + length ≤ src.clipboard.length then (src.clipboard.drop offset).take length else []
  else []

/- At the end of its wait for the remote side, where it waits for it. -/
def selectionSourceReady (src : Source) (atom : Atom) : Bool :=
  src.targets.contains atom && !src.clipboard.isEmpty

/- What is there for a target. -/
def content (src : Source) (atom : Atom) : Bytes := if src.targets.contains atom then src.clipboard else []

/- The window and the atoms of the module, and the maximum length of a request. -/
structure Window where
  selectionWin : UInt32
  selectionAtom : Atom
  skipRequestorWin : UInt32
  targets : Atom
  timestamp : Atom
  maximumRequestLength : Nat

structure SelectionRequest where
  time : UInt32
  owner : UInt32
  requestor : UInt32
  selection : Atom
  target : Atom
  property : Atom
  deriving DecidableEq, Repr

structure PropertyNotify where
  window : UInt32
  atom : Atom
  time : UInt32
  deleted : Bool
  deriving DecidableEq, Repr

/- `announced` is the content whose size the requestor was told, `chunks` are the values that its
property was given since. -/
structure WindowRequest where
  ev : SelectionRequest
  offset : Nat
  announced : Bytes
  chunks : List Bytes
  deriving DecidableEq, Repr

structure Transfer where
  announced : Bytes
  chunks : List Bytes
  incr : Bool
  deriving DecidableEq, Repr

/- `selected` are the windows whose events the X server sends; then the targets that have been locked
and unlocked, the transfers that have come to their end, and whether a requestor's deletion of a chunk has
been passed over. -/
structure PasteSelection where
  source : Bool
  requestsIncr : List WindowRequest
  selectionTime : UInt32
  selected : List UInt32
  locked : List Atom
  unlocked : List Atom
  completed : List Transfer
  ignored : Bool
  deriving DecidableEq, Repr

def start : PasteSelection := ⟨false,[],0,[],[],[],[],false⟩

/- The source as its targets are listed, when it is ready, when its size is asked for and when its
data is; and whether the property could not be changed. -/
inductive Action
  | setSelectionOwner
  | destroyNotify (window : UInt32)
  | selectionClear (owner : UInt32) (selection : Atom)
  | propertyNotify (ev : PropertyNotify) (sized given : Source) (failed : Bool)
  | selectionRequest (ev : SelectionRequest) (listed ready sized given : Source)
  deriving DecidableEq, Repr

def unlock (atom : Atom) (s : PasteSelection) : PasteSelection := {s with unlocked := s.unlocked ++ [atom]}

/- The events filter is that of the window, whatever else is under way for it. -/
def resetFilter (requestor : UInt32) (s : PasteSelection) : PasteSelection :=
  {s with selected := s.selected.filter (· != requestor)}

/- The notification is for the requestor. -/
def discardRequestor (ev : SelectionRequest) (s : PasteSelection) : PasteSelection :=
  resetFilter ev.requestor (if s.source then unlock ev.target s else s)

/- All of them for no window. -/
def removeRequestors (win : UInt32) (s : PasteSelection) : PasteSelection :=
  let removed := fun req : WindowRequest => win == 0 || req.ev.requestor == win
  let t := (s.requestsIncr.filter removed).foldl (fun s req => discardRequestor req.ev s) s
  {t with requestsIncr := s.requestsIncr.filter fun req => !removed req}

/- The difference of two numbers of 64 bits. -/
def distance (datasz offset : Nat) : Nat := if offset ≤ datasz then datasz - offset else datasz + 2 ^ 64 - offset

def blockSize (maxreq datasz offset : Nat) : Nat := min (distance datasz offset) (min maxreq datasz)

/- The request that a deletion of a property moves on. -/
def matching (ev : PropertyNotify) (req : WindowRequest) : Bool :=
  req.ev.requestor == ev.window && req.ev.property == ev.atom && decide (req.ev.time < ev.time)

/- The requests that wait for a deletion of this property, whatever its time. -/
def waiting (ev : PropertyNotify) (req : WindowRequest) : Bool :=
  req.ev.requestor == ev.window && req.ev.property == ev.atom

def advance (blocksz : Nat) (buf : Bytes) (req : WindowRequest) : WindowRequest :=
  {req with offset := req.offset + blocksz,chunks := req.chunks ++ [buf]}

section
variable (w : Window)

def propertyNotifyEvent (ev : PropertyNotify) (sized given : Source) (failed : Bool) (s : PasteSelection) :
    PasteSelection :=
  if !ev.deleted then s
  else if !s.source then s
  else
    match s.requestsIncr.find? (matching ev) with
    | none => {s with ignored := s.ignored || s.requestsIncr.any (waiting ev)}
    | some it =>
      let blocksz := blockSize w.maximumRequestLength (selectionSourceSize sized it.ev.target) it.offset
      let erased := {s with requestsIncr := s.requestsIncr.eraseP (matching ev)}
      if blocksz ≠ 0 then
        let buf := selectionSourceData given it.ev.target it.offset blocksz
        -- a requestor that is discarded here is unlocked there as well
        if buf = [] ∨ failed then unlock it.ev.target (discardRequestor it.ev erased)
        else {s with requestsIncr := updateFirst (matching ev) (advance blocksz buf) s.requestsIncr}
      else
        unlock it.ev.target (resetFilter it.ev.requestor
          {erased with completed := s.completed ++ [⟨it.announced,it.chunks ++ [[]],true⟩]})

/- What the module does not hear of, it passes over. -/
def propertyNotified (ev : PropertyNotify) (sized given : Source) (failed : Bool) (s : PasteSelection) :
    PasteSelection :=
  if s.selected.contains ev.window then propertyNotifyEvent w ev sized given failed s
  else {s with ignored := s.ignored || (ev.deleted && s.requestsIncr.any (waiting ev))}

/- A request that is repeated. -/
def repeated (ev : SelectionRequest) (req : WindowRequest) : Bool :=
  req.ev.requestor == ev.requestor && req.ev.selection == ev.selection && req.ev.target == ev.target &&
    req.ev.property == ev.property

def dropRepeated (ev : SelectionRequest) (s : PasteSelection) : PasteSelection :=
  match s.requestsIncr.find? (repeated ev) with
  | some it => unlock it.ev.target {s with requestsIncr := s.requestsIncr.eraseP (repeated ev)}
  | none => s

/- The content goes into the property, or its size does. -/
def putData (ev : SelectionRequest) (sized given : Source) (s : PasteSelection) : PasteSelection :=
  let datasz := selectionSourceSize sized ev.target
  let locking := {s with locked := s.locked ++ [ev.target]}
  if w.maximumRequestLength < datasz then
    {locking with
      selected := ev.requestor :: s.selected
      requestsIncr := s.requestsIncr ++ [⟨ev,0,content sized ev.target,[]⟩]}
  else
    unlock ev.target
      {locking with
        completed := s.completed ++
          [⟨content sized ev.target,[selectionSourceData given ev.target 0 datasz],false⟩]}

/- The requests that are for the content of the selection. -/
def asksContent (ev : SelectionRequest) (listed ready : Source) (s : PasteSelection) : Bool :=
  s.source && ev.selection == w.selectionAtom && ev.owner == w.selectionWin && ev.requestor != 0 &&
    ev.requestor != w.skipRequestorWin && ev.property != 0 && ev.target != w.targets && ev.target != w.timestamp &&
    listed.targets.contains ev.target && selectionSourceReady ready ev.target

def selectionRequestEvent (ev : SelectionRequest) (listed ready sized given : Source) (s : PasteSelection) :
    PasteSelection :=
  if !s.source then s
  else if ev.selection ≠ w.selectionAtom then s
  else if ev.owner ≠ w.selectionWin then s
  else if ev.requestor = 0 then s
  else if ev.requestor = w.skipRequestorWin then s
  else if ev.property = 0 then s
  else
    let s := {s with selectionTime := if s.selectionTime = 0 then ev.time else s.selectionTime}
    if ev.target = w.targets then s
    else if ev.target = w.timestamp then s
    else if !listed.targets.contains ev.target then s
    else if !selectionSourceReady ready ev.target then s
    else putData w ev sized given (dropRepeated ev s)

def selectionClearEvent (owner : UInt32) (selection : Atom) (s : PasteSelection) : PasteSelection :=
  if owner = w.selectionWin ∧ selection = w.selectionAtom ∧ s.requestsIncr ≠ [] then removeRequestors 0 s else s

def step (s : PasteSelection) : Action → PasteSelection
  | .setSelectionOwner => {s with source := true,selectionTime := 0}
  | .destroyNotify window => if window ≠ 0 then removeRequestors window s else s
  | .selectionClear owner selection => selectionClearEvent w owner selection s
  | .propertyNotify ev sized given failed => propertyNotified w ev sized given failed s
  | .selectionRequest ev listed ready sized given => selectionRequestEvent w ev listed ready sized given s

end

/- One empty chunk at the end of those that make up the content; content that needs no chunks comes
as one value. -/
def Good (transfer : Transfer) : Prop :=
  if transfer.incr then
    transfer.chunks.getLast? = some [] ∧ [] ∉ transfer.chunks.dropLast ∧ transfer.chunks.flatten = transfer.announced
  else transfer.chunks = [transfer.announced]

/- What the requestor has got so far is the front of what it was told. -/
structure Progress (req : WindowRequest) : Prop where
  front : req.chunks.flatten <+: req.announced
  counted : req.offset = req.chunks.flatten.length
  filled : [] ∉ req.chunks

structure Sound (s : PasteSelection) : Prop where
  progress : ∀ req ∈ s.requestsIncr, Progress req
  completed : ∀ transfer ∈ s.completed, Good transfer
  paired : s.locked.Perm (s.unlocked ++ s.requestsIncr.map fun req => req.ev.target)
  heeded : s.ignored = false

/- A deletion that a request waits for is later than it; the block that is asked for is there then, as
it was announced, and can be written; and at the end all that was announced has been asked for. -/
def Served (w : Window) (s : PasteSelection) (ev : PropertyNotify) (sized given : Source) (failed : Bool) : Prop :=
  match s.requestsIncr.find? (matching ev) with
  | none => s.requestsIncr.any (waiting ev) = false
  | some it =>
    let blocksz := blockSize w.maximumRequestLength (selectionSourceSize sized it.ev.target) it.offset
    if blocksz ≠ 0 then
      let buf := selectionSourceData given it.ev.target it.offset blocksz
      failed = false ∧ buf ≠ [] ∧ buf <+: it.announced.drop it.offset
    else it.announced.length = it.offset

/- Deletions are heard of and served; and what is put into a property at once is what was announced. -/
def Careful (w : Window) (s : PasteSelection) : Action → Prop
  | .propertyNotify ev sized given failed => ev.deleted = true →
      if s.selected.contains ev.window then s.source = true → Served w s ev sized given failed
      else s.requestsIncr.any (waiting ev) = false
  | .selectionRequest ev listed ready sized given => asksContent w ev listed ready s = true →
      selectionSourceSize sized ev.target ≤ w.maximumRequestLength →
        selectionSourceData given ev.target 0 (selectionSourceSize sized ev.target) = content sized ev.target
  | _ => True

/- Nobody is served without a source. -/
def Sourced (s : PasteSelection) : Prop := s.source = false → s.requestsIncr = []

section
variable {w : Window} {s : PasteSelection}

theorem discardAll (owned : s.source = true) (l : List WindowRequest) : ∃ selected,
    l.foldl (fun s req => discardRequestor req.ev s) s =
      {s with selected,unlocked := s.unlocked ++ l.map fun req => req.ev.target} := by
  induction l generalizing s with
  | nil => exact ⟨s.selected,by simp⟩
  | cons req rest ih =>
    have one : discardRequestor req.ev s = resetFilter req.ev.requestor (unlock req.ev.target s) := by
      rw [discardRequestor,if_pos owned]
    obtain ⟨selected,same⟩ := ih (s := resetFilter req.ev.requestor (unlock req.ev.target s)) owned
    refine ⟨selected,?_⟩
    rw [List.foldl_cons,one,same]
    simp [unlock,resetFilter]

/- What is removed is unlocked, each once. -/
theorem removeUnlocks (sourced : Sourced s) (win : UInt32) : ∃ removed : WindowRequest → Bool,∃ selected,
    removeRequestors win s = {s with
      selected
      requestsIncr := s.requestsIncr.filter fun req => !removed req
      unlocked := s.unlocked ++ (s.requestsIncr.filter removed).map fun req => req.ev.target} := by
  refine ⟨fun req => win == 0 || req.ev.requestor == win,?_⟩
  unfold removeRequestors
  cases owned : s.source with
  | true =>
    obtain ⟨selected,same⟩ := discardAll owned (s.requestsIncr.filter fun req => win == 0 || req.ev.requestor == win)
    refine ⟨selected,?_⟩
    dsimp only
    rw [same,owned]
  | false => exact ⟨s.selected,by simp [sourced owned,owned]⟩

theorem removeSound (sourced : Sourced s) (sound : Sound s) (win : UInt32) : Sound (removeRequestors win s) := by
  obtain ⟨removed,selected,same⟩ := removeUnlocks sourced win
  rw [same]
  refine ⟨fun req inside => sound.progress req (List.mem_filter.mp inside).1,sound.completed,?_,sound.heeded⟩
  refine sound.paired.trans ?_
  rw [List.append_assoc,← List.map_append]
  exact ((List.filter_append_perm removed s.requestsIncr).symm.map _).append_left _

theorem removeSourced (sourced : Sourced s) (win : UInt32) : Sourced (removeRequestors win s) := by
  obtain ⟨removed,selected,same⟩ := removeUnlocks sourced win
  rw [same]
  intro owned
  rw [sourced owned,List.filter_nil]

/- A request that is repeated is unlocked and taken out. -/
theorem dropSound (ev : SelectionRequest) (sound : Sound s) : Sound (dropRepeated ev s) := by
  unfold dropRepeated
  split
  · rename_i it found
    refine ⟨fun req inside => sound.progress req (List.mem_of_mem_eraseP inside),sound.completed,?_,sound.heeded⟩
    refine sound.paired.trans (((permErase found).map _).append_left _ |>.trans ?_)
    rw [List.map_cons]
    simp only [unlock,List.append_assoc,List.singleton_append]
    exact List.Perm.refl _
  · exact sound

/- Content that is put at once is what was announced, or is not. -/
theorem putSoundIff (ev : SelectionRequest) (sized given : Source) (sound : Sound s) :
    Sound (putData w ev sized given s) ↔ (selectionSourceSize sized ev.target ≤ w.maximumRequestLength →
      selectionSourceData given ev.target 0 (selectionSourceSize sized ev.target) = content sized ev.target) := by
  unfold putData
  dsimp only
  split
  · rename_i long
    refine iff_of_true ⟨?_,sound.completed,?_,sound.heeded⟩ fun short => absurd short (not_le.mpr long)
    · have begun : Progress ⟨ev,0,content sized ev.target,[]⟩ := ⟨List.nil_prefix,rfl,List.not_mem_nil⟩
      exact List.forall_mem_append.mpr ⟨sound.progress,List.forall_mem_singleton.mpr begun⟩
    · rw [List.map_append,List.map_singleton,← List.append_assoc]
      exact sound.paired.append_right _
  · rename_i short
    constructor
    · intro next _
      have good := next.completed _ (List.mem_append_right _ (List.mem_singleton_self _))
      exact (List.cons.inj good).1
    · intro same
      refine ⟨sound.progress,?_,?_,sound.heeded⟩
      · refine List.forall_mem_append.mpr ⟨sound.completed,List.forall_mem_singleton.mpr ?_⟩
        exact congrArg (fun data => [data]) (same (not_lt.mp short))
      · refine (sound.paired.append_right [ev.target]).trans ?_
        simp only [unlock,List.append_assoc]
        exact List.perm_append_comm.append_left _

theorem asksIff {ev : SelectionRequest} {listed ready : Source} : asksContent w ev listed ready s = true ↔
    s.source = true ∧ ev.selection = w.selectionAtom ∧ ev.owner = w.selectionWin ∧ ev.requestor ≠ 0 ∧
      ev.requestor ≠ w.skipRequestorWin ∧ ev.property ≠ 0 ∧ ev.target ≠ w.targets ∧ ev.target ≠ w.timestamp ∧
        listed.targets.contains ev.target = true ∧ selectionSourceReady ready ev.target = true := by
  simp only [asksContent,Bool.and_eq_true,beq_iff_eq,bne_iff_ne,and_assoc]

/- A check of the event: where it fails, the event is skipped. -/
theorem checkServes {failing : Prop} [Decidable failing] {asks : Bool} {skipped next : PasteSelection}
    {served : UInt32 → PasteSelection} {time : UInt32} (same : skipped = {s with selectionTime := time})
    (needed : asks = true → ¬ failing)
    (passes : ¬ failing → ∃ time, next = if asks = true then served time else {s with selectionTime := time}) :
    ∃ time, (if failing then skipped else next) =
      if asks = true then served time else {s with selectionTime := time} := by
  by_cases fails : failing
  · refine ⟨time,?_⟩
    rw [if_pos fails,if_neg fun asks => needed asks fails,same]
  · rw [if_neg fails]
    exact passes fails

/- A request for the content is served, and others change nothing that is looked at. -/
theorem requestServes (ev : SelectionRequest) (listed ready sized given : Source) : ∃ time,
    selectionRequestEvent w ev listed ready sized given s =
      if asksContent w ev listed ready s = true then
        putData w ev sized given (dropRepeated ev {s with selectionTime := time})
      else {s with selectionTime := time} := by
  unfold selectionRequestEvent
  refine checkServes rfl (fun asks => by rw [(asksIff.mp asks).1]; exact Bool.false_ne_true) fun source => ?_
  refine checkServes rfl (fun asks => not_not.mpr (asksIff.mp asks).2.1) fun selection => ?_
  refine checkServes rfl (fun asks => not_not.mpr (asksIff.mp asks).2.2.1) fun owner => ?_
  refine checkServes rfl (fun asks => (asksIff.mp asks).2.2.2.1) fun requestor => ?_
  refine checkServes rfl (fun asks => (asksIff.mp asks).2.2.2.2.1) fun skipped => ?_
  refine checkServes rfl (fun asks => (asksIff.mp asks).2.2.2.2.2.1) fun property => ?_
  dsimp only
  refine checkServes rfl (fun asks => (asksIff.mp asks).2.2.2.2.2.2.1) fun targets => ?_
  refine checkServes rfl (fun asks => (asksIff.mp asks).2.2.2.2.2.2.2.1) fun timestamp => ?_
  refine checkServes rfl (fun asks => by rw [(asksIff.mp asks).2.2.2.2.2.2.2.2.1]; exact Bool.false_ne_true)
    fun unknown => ?_
  refine checkServes rfl (fun asks => by rw [(asksIff.mp asks).2.2.2.2.2.2.2.2.2]; exact Bool.false_ne_true)
    fun absent => ?_
  simp only [Bool.not_eq_true,Bool.not_eq_false'] at source unknown absent
  have asks : asksContent w ev listed ready s = true := asksIff.mpr
    ⟨source,not_not.mp selection,not_not.mp owner,requestor,skipped,property,targets,timestamp,unknown,absent⟩
  refine ⟨if s.selectionTime = 0 then ev.time else s.selectionTime,?_⟩
  rw [if_pos asks]

theorem timeSound (time : UInt32) (sound : Sound s) : Sound {s with selectionTime := time} :=
  ⟨sound.progress,sound.completed,sound.paired,sound.heeded⟩

theorem requestKeeps (ev : SelectionRequest) (listed ready sized given : Source) (sound : Sound s) :
    Sound (selectionRequestEvent w ev listed ready sized given s) ↔
      Careful w s (.selectionRequest ev listed ready sized given) := by
  obtain ⟨time,serves⟩ := requestServes (w := w) (s := s) ev listed ready sized given
  rw [serves]
  unfold Careful
  split
  · rename_i asks
    exact (putSoundIff ev sized given (dropSound ev (timeSound time sound))).trans
      ⟨fun same _ => same,fun same => same asks⟩
  · rename_i other
    exact iff_of_true (timeSound time sound) fun asks => absurd asks other

/- Unlocked twice for one lock. -/
theorem twiceUnsound {it : WindowRequest} {ev : PropertyNotify} (owned : s.source = true)
    (found : s.requestsIncr.find? (matching ev) = some it) (sound : Sound s) :
    ¬ Sound (unlock it.ev.target
      (discardRequestor it.ev {s with requestsIncr := s.requestsIncr.eraseP (matching ev)})) := by
  intro next
  have before := sound.paired.length_eq
  have after := next.paired.length_eq
  have fewer := (permErase found).length_eq
  rw [discardRequestor,if_pos owned] at after
  simp only [unlock,resetFilter,List.length_append,List.length_map,List.length_cons,List.length_nil] at *
  omega

/- A chunk is good where it is the next part of the announced content. -/
theorem chunkSoundIff {it : WindowRequest} {ev : PropertyNotify} {blocksz : Nat} {buf : Bytes}
    (found : s.requestsIncr.find? (matching ev) = some it) (whole : buf.length = blocksz) (some : buf ≠ [])
    (sound : Sound s) :
    Sound {s with requestsIncr := updateFirst (matching ev) (advance blocksz buf) s.requestsIncr} ↔
      buf <+: it.announced.drop it.offset := by
  have progress := sound.progress it (List.mem_of_find?_eq_some found)
  have flat : (it.chunks ++ [buf]).flatten = it.chunks.flatten ++ buf := by simp
  obtain ⟨rest,front⟩ := progress.front
  have later : it.announced.drop it.offset = rest := by rw [← front,progress.counted,List.drop_left]
  have extends' : it.chunks.flatten ++ buf <+: it.announced ↔ buf <+: it.announced.drop it.offset := by
    rw [later,← front,List.prefix_append_right_inj]
  constructor
  · intro next
    have inside := (permUpdate (f := advance blocksz buf) found).mem_iff.mpr List.mem_cons_self
    have grown := (next.progress _ inside).front
    exact extends'.mp (flat ▸ grown)
  · intro fits
    refine ⟨fun req inside => ?_,sound.completed,?_,sound.heeded⟩
    · rcases memUpdateFound inside with old | ⟨other,same,rfl⟩
      · exact sound.progress req old
      · obtain rfl := Option.some.inj (found.symm.trans same)
        refine ⟨flat ▸ extends'.mpr fits,?_,?_⟩
        · simp only [advance,flat,List.length_append,whole,progress.counted]
        · simp only [advance,List.mem_append,List.mem_singleton]
          exact not_or.mpr ⟨progress.filled,fun none => some none.symm⟩
    · have same := mapUpdate (p := matching ev) (f := advance blocksz buf) (g := fun req => req.ev.target)
        (fun _ => rfl) s.requestsIncr
      rw [same]
      exact sound.paired

theorem dataWhole {src : Source} {atom : Atom} {offset length : Nat}
    (some : selectionSourceData src atom offset length ≠ []) :
    (selectionSourceData src atom offset length).length = length := by
  unfold selectionSourceData at *
  split at some
  · rename_i known
    split at some
    · rename_i inside
      rw [if_pos known,if_pos inside,List.length_take,List.length_drop]
      omega
    · exact absurd rfl some
  · exact absurd rfl some

/- The end marker is good where nothing is left. -/
theorem endSoundIff {it : WindowRequest} {ev : PropertyNotify}
    (found : s.requestsIncr.find? (matching ev) = some it) (sound : Sound s) :
    Sound (unlock it.ev.target (resetFilter it.ev.requestor {s with
      requestsIncr := s.requestsIncr.eraseP (matching ev)
      completed := s.completed ++ [⟨it.announced,it.chunks ++ [[]],true⟩]})) ↔ it.announced.length = it.offset := by
  have progress := sound.progress it (List.mem_of_find?_eq_some found)
  have all : it.chunks.flatten = it.announced ↔ it.announced.length = it.offset := by
    rw [progress.counted]
    exact ⟨fun same => by rw [same],fun same => progress.front.eq_of_length same.symm⟩
  have good : Good ⟨it.announced,it.chunks ++ [[]],true⟩ ↔ it.announced.length = it.offset := by
    rw [← all]
    simp only [Good,if_true,List.getLast?_concat,List.dropLast_concat,List.flatten_append,List.flatten_cons,
      List.flatten_nil,List.append_nil,true_and]
    exact and_iff_right progress.filled
  constructor
  · exact fun next => good.mp (next.completed _ (List.mem_append_right _ (List.mem_singleton_self _)))
  · intro done
    refine ⟨fun req inside => sound.progress req (List.mem_of_mem_eraseP inside),?_,?_,sound.heeded⟩
    · exact List.forall_mem_append.mpr ⟨sound.completed,List.forall_mem_singleton.mpr (good.mpr done)⟩
    · refine sound.paired.trans (((permErase found).map _).append_left _ |>.trans ?_)
      simp only [unlock,List.map_cons,List.append_assoc,List.singleton_append]
      exact List.Perm.refl _

theorem servedKeeps (ev : PropertyNotify) (sized given : Source) (failed : Bool) (sound : Sound s) :
    Sound (propertyNotifyEvent w ev sized given failed s) ↔
      (ev.deleted = true → s.source = true → Served w s ev sized given failed) := by
  unfold propertyNotifyEvent Served
  split
  · rename_i kept
    exact iff_of_true sound fun deleted => absurd deleted (by simpa using kept)
  · rename_i deleted
    split
    · rename_i without
      exact iff_of_true sound fun _ owned => absurd owned (by simpa using without)
    · rename_i owned
      have deleted : ev.deleted = true := by simpa using deleted
      have owned : s.source = true := by simpa using owned
      refine Iff.trans ?_ ⟨fun good _ _ => good,fun good => good deleted owned⟩
      split
      · rename_i absent
        constructor
        · intro next
          have heeded := next.heeded
          simp only [Bool.or_eq_false_iff] at heeded
          exact heeded.2
        · intro none
          exact ⟨sound.progress,sound.completed,sound.paired,by simp [sound.heeded,none]⟩
      · rename_i it found
        dsimp only
        split
        · rename_i block
          split
          · rename_i bad
            refine iff_of_false (twiceUnsound owned found sound) fun good => ?_
            rcases bad with empty | failed
            · exact good.2.1 empty
            · exact absurd (good.1.symm.trans failed) Bool.false_ne_true
          · rename_i fine
            obtain ⟨some,written⟩ := not_or.mp fine
            refine (chunkSoundIff found (dataWhole some) some sound).trans ?_
            exact ⟨fun fits => ⟨by simpa using written,some,fits⟩,fun good => good.2.2⟩
        · exact endSoundIff found sound

theorem deletionKeeps (ev : PropertyNotify) (sized given : Source) (failed : Bool) (sound : Sound s) :
    Sound (propertyNotified w ev sized given failed s) ↔ Careful w s (.propertyNotify ev sized given failed) := by
  unfold propertyNotified Careful
  dsimp only
  split
  · exact servedKeeps ev sized given failed sound
  · constructor
    · intro next deleted
      have heeded := next.heeded
      simp only [deleted,Bool.true_and,Bool.or_eq_false_iff] at heeded
      exact heeded.2
    · intro none
      refine ⟨sound.progress,sound.completed,sound.paired,?_⟩
      cases deleted : ev.deleted with
      | false => simp [sound.heeded]
      | true => simp [sound.heeded,none deleted]

theorem putSourced (ev : SelectionRequest) (sized given : Source) (owned : s.source = true) :
    Sourced (putData w ev sized given (dropRepeated ev s)) := by
  have kept : (dropRepeated ev s).source = true := by
    unfold dropRepeated
    split
    · exact owned
    · exact owned
  unfold putData
  dsimp only
  split
  · exact fun without => absurd (without.symm.trans kept) Bool.false_ne_true
  · exact fun without => absurd (without.symm.trans kept) Bool.false_ne_true

theorem deletionSource {ev : PropertyNotify} {sized given : Source} {failed : Bool} (owned : s.source = true) :
    (propertyNotified w ev sized given failed s).source = true := by
  unfold propertyNotified
  split
  swap
  · exact owned
  unfold propertyNotifyEvent
  split
  · exact owned
  · split
    · exact owned
    · split
      · exact owned
      · dsimp only
        split
        · split
          · rw [discardRequestor,if_pos owned]
            exact owned
          · exact owned
        · exact owned

theorem stepSourced (s : PasteSelection) (a : Action) (sourced : Sourced s) : Sourced (step w s a) := by
  cases a with
  | setSelectionOwner => exact fun without => absurd without (by simp [step])
  | destroyNotify window =>
    rw [step]
    split
    · exact removeSourced sourced window
    · exact sourced
  | selectionClear owner selection =>
    rw [step,selectionClearEvent]
    split
    · exact removeSourced sourced 0
    · exact sourced
  | propertyNotify ev sized given failed =>
    cases owned : s.source with
    | true => exact fun without => absurd ((deletionSource owned).symm.trans without) Bool.false_ne_true.symm
    | false =>
      rw [step,propertyNotified]
      split
      · have stays : propertyNotifyEvent w ev sized given failed s = s := by simp [propertyNotifyEvent,owned]
        rwa [stays]
      · exact sourced
  | selectionRequest ev listed ready sized given =>
    obtain ⟨time,serves⟩ := requestServes (w := w) (s := s) ev listed ready sized given
    rw [step,serves]
    split
    · rename_i asks
      refine putSourced ev sized given ?_
      exact (asksIff.mp asks).1
    · exact sourced

theorem stepKeeps (s : PasteSelection) (a : Action) (sourced : Sourced s) (sound : Sound s) :
    Sound (step w s a) ↔ Careful w s a := by
  cases a with
  | setSelectionOwner =>
    exact iff_of_true ⟨sound.progress,sound.completed,sound.paired,sound.heeded⟩ trivial
  | destroyNotify window =>
    refine iff_of_true ?_ trivial
    rw [step]
    split
    · exact removeSound sourced sound window
    · exact sound
  | selectionClear owner selection =>
    refine iff_of_true ?_ trivial
    rw [step,selectionClearEvent]
    split
    · exact removeSound sourced sound 0
    · exact sound
  | propertyNotify ev sized given failed => exact deletionKeeps ev sized given failed sound
  | selectionRequest ev listed ready sized given => exact requestKeeps ev listed ready sized given sound

end

theorem startSound : Sound start :=
  ⟨List.forall_mem_nil _,List.forall_mem_nil _,List.Perm.refl _,rfl⟩

/- Every requestor gets what it was told, in pieces and with one end marker, and every lock has its
unlock, exactly in the runs whose steps are all careful. -/
theorem pastedWholeIff (w : Window) (actions : List Action) :
    Always (step w) Sound start actions ↔ Meets (step w) (Careful w) start actions :=
  alwaysIff stepSourced stepKeeps (fun _ => rfl) startSound actions

def text (clipboard : Bytes) : Source := ⟨[9],clipboard⟩

def asked : Action :=
  .selectionRequest ⟨5,1,20,2,9,7⟩ (text [97,98,99]) (text [97,98,99]) (text [97,98,99]) (text [97,98,99])

def tookAway (time : UInt32) (clipboard : Bytes) : Action :=
  .propertyNotify ⟨20,7,time,true⟩ (text clipboard) (text clipboard) false

/- The remote side has copied something else between two chunks: the requestor is told the end of
a mixture of both. -/
theorem mixturePasted : ¬ ∀ w actions, Always (step w) Sound start actions := by
  intro all
  have sound := all ⟨1,2,0,3,4,2⟩ [.setSelectionOwner,asked,tookAway 6 [97,98,99],tookAway 7 [120,121,122],
    tookAway 8 [120,121,122]] _ (List.prefix_refl _)
  have mixed := sound.completed ⟨[97,98,99],[[97,98],[122],[]],true⟩ (by decide +kernel)
  exact absurd mixed.2.2 (by decide)

end Ltsm.SelectionPastes
