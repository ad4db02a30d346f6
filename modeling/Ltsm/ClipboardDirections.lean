import Ltsm.ExtClipboard
import Ltsm.Library.Run

/-! The clipboard buffer of an end with an X display. Content of the remote side and content of the
local selection go through the same buffer, in every format: one thread waits for what it has asked the
other side for, another one for what it has asked the local owner for. Each byte is followed from where
it came in. X11Server and X11Client are alike but for the capabilities that are looked at and for what is
left of a buffer that has been sent. -/
namespace Ltsm.ClipboardDirections
open Library ExtClipboard

/- The atoms of the formats. -/
inductive Target
  | utf8String | textPlain | textPlainUtf8 | text | string
  | textRtf | textRichText
  | textHtml | textHtmlUtf8
  | imagePng | imageGif | imageJpg | imageBmp
  | listFiles1 | listFiles2 | listFiles3
  deriving DecidableEq, Repr

def x11AtomToType : Target → ExtClipCaps
  | .utf8String | .textPlain | .textPlainUtf8 | .text | .string => .typeText
  | .textRtf | .textRichText => .typeRtf
  | .textHtml | .textHtmlUtf8 => .typeHtml
  | .imagePng | .imageGif | .imageJpg | .imageBmp => .typeDib
  | .listFiles1 | .listFiles2 | .listFiles3 => .typeFiles

def x11Atoms : ExtClipCaps → List Target
  | .typeText => [.utf8String,.textPlain,.textPlainUtf8,.text,.string]
  | .typeRtf => [.textRtf,.textRichText]
  | .typeHtml => [.textHtml,.textHtmlUtf8]
  | .typeDib => [.imagePng,.imageGif,.imageJpg,.imageBmp]
  | .typeFiles => [.listFiles1,.listFiles2,.listFiles3]
  | _ => []

def typesToX11Atoms (types : Nat) : List Target := (knownTypes.filter (allows types)).flatMap x11Atoms

/- What the remote side has provided for a format, or what the local owner has given for a target, or
for the list of its targets. -/
inductive Origin
  | remote (type : ExtClipCaps)
  | owner (target : Option Target)
  deriving DecidableEq, Repr

/- Bytes with where they came from, which no function looks at. -/
abbrev Content := List (UInt8 × Origin)

def tagged (origin : Origin) (buf : Bytes) : Content := buf.map fun byte => (byte,origin)

inductive Side
  | server | client
  deriving DecidableEq, Repr

/- The thread of the remote side: in extClipboardLocalData before its next target, or in the wait
behind convertSelection; with the targets of the format and the formats that are left. -/
inductive Asking
  | idle
  | next (type : ExtClipCaps) (atoms : List Target) (rest : List ExtClipCaps)
  | waiting (type : ExtClipCaps) (atoms : List Target) (rest : List ExtClipCaps)
  deriving DecidableEq, Repr

/- The record of ModuleCopySelection for a selection that comes in pieces. -/
structure WindowSource where
  target : Target
  buf : Content
  deriving DecidableEq, Repr

/- `pasting` is the target that the thread of X waits for in selectionSourceReady, `reading` those of
the requestors that are being given the content. -/
structure Clip where
  side : Side
  localCaps : Nat
  remoteCaps : Nat
  localProvideTypes : Nat
  clipRemoteTypes : Nat
  clientClipboard : Content
  sourceIncr : Option WindowSource
  pasting : Option Target
  reading : List Target
  asking : Asking
  given : List (Target × Content)
  provided : List (ExtClipCaps × Content)
  deriving DecidableEq, Repr

def start (side : Side) (localCaps : Nat) : Clip := ⟨side,localCaps,0,0,0,[],none,none,[],.idle,[],[]⟩

/- What is received for a copy: whole, or in pieces; the piece says what the owner has sent it for. -/
inductive Action
  | recvCaps (flags : Nat)
  | recvNotify (flags : Nat)
  | recvProvide (type : ExtClipCaps) (buf : Bytes)
  | recvCutText (buf : Bytes)
  | recvRequest (flags : Nat)
  | convertNext
  | localReady
  | localTimeout
  | pasteRequest (target : Target)
  | pasteReady
  | pasteTimeout
  | selectionSourceData (target : Target) (offset length : Nat)
  | pasteDone (target : Target)
  | selectionChanged
  | selectionReceiveTargets (targets : List Target)
  | copyWhole (target : Target) (buf : Bytes)
  | copyIncr (target : Target)
  | copyPiece (target : Option Target) (buf : Bytes)
  | copyEnd
  deriving DecidableEq, Repr

section
variable (s : Clip)

/- Without the extended clipboard only text is known. -/
def selectionSourceTargets : List Target :=
  typesToX11Atoms (if s.remoteCaps ≠ 0 then s.clipRemoteTypes else ExtClipCaps.typeText.flag)

/- A format that has been asked for is taken once; a message is taken when the one before has been dealt
with. -/
def extClipboardRemoteDataEvent (type : ExtClipCaps) (buf : Bytes) : Clip :=
  if s.asking ≠ .idle ∨ s.remoteCaps = 0 ∨ allows s.localProvideTypes type = false then s
  else
    {s with
      clientClipboard := tagged (.remote type) buf
      localProvideTypes := clearBit s.localProvideTypes type.bit}

def recvCutTextEvent (buf : Bytes) : Clip :=
  if s.asking ≠ .idle then s else {s with clientClipboard := tagged (.remote .typeText) buf}

def sendExtClipboardRequest (type : ExtClipCaps) : Clip :=
  if s.localProvideTypes &&& type.flag = type.flag then s
  else {s with localProvideTypes := s.localProvideTypes ||| (s.remoteCaps &&& type.flag)}

/- The capabilities without which extClipboardLocalData throws. -/
def askedCaps : Nat :=
  match s.side with
  | .server => s.remoteCaps
  | .client => s.localCaps

def nextType : List ExtClipCaps → Asking
  | [] => .idle
  | type :: rest => .next type (x11Atoms type) rest

def sendExtClipboardProvide (types : Nat) : Clip :=
  if s.asking ≠ .idle ∨ askedCaps s = 0 then s
  else {s with asking := nextType (knownTypes.filter (allows types))}

def provide (type : ExtClipCaps) (content : Content) (rest : List ExtClipCaps) : Clip :=
  {s with provided := s.provided ++ [(type,content)],asking := nextType rest}

/- Without the extended clipboard what was copied goes out as text. -/
def selectionReceiveData (content : Content) : Clip :=
  if s.remoteCaps ≠ 0 then {s with clientClipboard := content}
  else {s with provided := s.provided ++ [(.typeText,content)]}

/- The buffers are swapped; the client moves one that it sends. -/
def leftBehind (content : Content) : Content :=
  if s.remoteCaps ≠ 0 then s.clientClipboard
  else
    match s.side with
    | .server => content
    | .client => []

def handOver (source : WindowSource) : Clip :=
  {selectionReceiveData s source.buf with sourceIncr := some {source with buf := leftBehind s source.buf}}

/- The data of a record is handed over at once. -/
def convertSelection (target : Target) : Clip :=
  match s.sourceIncr with
  | none => s
  | some source => if target = source.target then handOver s source else {s with sourceIncr := none}

/- The buffer is cleared without the lock. -/
def convertNext : Clip :=
  match s.asking with
  | .next type [] rest => provide s type [] rest
  | .next type (atom :: atoms) rest =>
    convertSelection {s with clientClipboard := [],asking := .waiting type atoms rest} atom
  | _ => s

def localReady : Clip :=
  match s.asking with
  | .waiting type _ rest => if s.clientClipboard = [] then s else provide s type s.clientClipboard rest
  | _ => s

def localTimeout : Clip :=
  match s.asking with
  | .waiting type atoms rest => {s with asking := .next type atoms rest}
  | _ => s

/- selectionSourceReady up to its wait. -/
def pasteRequest (target : Target) : Clip :=
  if (selectionSourceTargets s).contains target = false then s
  else if s.remoteCaps ≠ 0 then
    sendExtClipboardRequest {s with clientClipboard := [],pasting := some target} (x11AtomToType target)
  else if s.clientClipboard = [] then s
  else {s with reading := s.reading ++ [target]}

def pasteReady : Clip :=
  match s.pasting with
  | some target =>
    if s.clientClipboard = [] then s else {s with pasting := none,reading := s.reading ++ [target]}
  | none => s

def selectionSourceData (target : Target) (offset length : Nat) : Clip :=
  if s.reading.contains target = false then s
  else
    let known := (selectionSourceTargets s).contains target
    let inside := decide (offset + length ≤ s.clientClipboard.length)
    {s with
      given := s.given ++
        [(target,if known && inside then (s.clientClipboard.drop offset).take length else [])]}

/- Without the extended clipboard the first target is asked for that both sides know. -/
def selectionReceiveTargets (targets : List Target) : Clip :=
  if s.remoteCaps ≠ 0 then s
  else
    match (selectionSourceTargets s).find? fun atom => targets.contains atom with
    | some atom => convertSelection s atom
    | none => s

def copyPiece (target : Option Target) (buf : Bytes) : Clip :=
  match s.sourceIncr with
  | some source => {s with sourceIncr := some {source with buf := source.buf ++ tagged (.owner target) buf}}
  | none => s

def copyEnd : Clip :=
  match s.sourceIncr with
  | some source => handOver s source
  | none => s

end

/- The thread of X does nothing else while it waits in selectionSourceReady. -/
def onX (s : Clip) (next : Clip) : Clip := if s.pasting ≠ none then s else next

def step (s : Clip) : Action → Clip
  | .recvCaps flags => if s.asking ≠ .idle then s else {s with remoteCaps := clearBit flags ExtClipCaps.opCaps.bit}
  | .recvNotify flags =>
    if s.asking ≠ .idle ∨ s.remoteCaps = 0 then s
    else {s with clipRemoteTypes := typesMask &&& s.remoteCaps &&& flags}
  | .recvProvide type buf => extClipboardRemoteDataEvent s type buf
  | .recvCutText buf => recvCutTextEvent s buf
  | .recvRequest flags => sendExtClipboardProvide s (typesMask &&& s.localCaps &&& flags)
  | .convertNext => convertNext s
  | .localReady => localReady s
  | .localTimeout => localTimeout s
  | .pasteRequest target => onX s (pasteRequest s target)
  | .pasteReady => pasteReady s
  | .pasteTimeout => {s with pasting := none}
  | .selectionSourceData target offset length => onX s (selectionSourceData s target offset length)
  | .pasteDone target => {s with reading := s.reading.erase target}
  | .selectionChanged => onX s {s with sourceIncr := none}
  | .selectionReceiveTargets targets => onX s (selectionReceiveTargets s targets)
  | .copyWhole target buf => onX s (selectionReceiveData s (tagged (.owner (some target)) buf))
  | .copyIncr target => onX s {s with sourceIncr := some ⟨target,[]⟩}
  | .copyPiece target buf => onX s (copyPiece s target buf)
  | .copyEnd => onX s (copyEnd s)

/- Content is the remote side's, for the format of the target. -/
def Pasted (target : Target) (content : Content) : Prop :=
  ∀ entry ∈ content, entry.2 = .remote (x11AtomToType target)

/- Content is the local owner's, for a target of the format. -/
def Copied (type : ExtClipCaps) (content : Content) : Prop :=
  ∀ entry ∈ content, ∃ target, entry.2 = .owner (some target) ∧ x11AtomToType target = type

def copying : Asking → Option ExtClipCaps
  | .waiting type _ _ => some type
  | _ => none

/- What was handed out is of the right direction and format, and whoever waits for content or reads
it finds none but that. -/
structure Sound (s : Clip) : Prop where
  given : ∀ entry ∈ s.given, Pasted entry.1 entry.2
  provided : ∀ entry ∈ s.provided, Copied entry.1 entry.2
  pasting : ∀ target, s.pasting = some target → Pasted target s.clientClipboard
  reading : ∀ target ∈ s.reading, Pasted target s.clientClipboard
  copying : ∀ type, copying s.asking = some type → Copied type s.clientClipboard

/- All that wait for content of the remote side or read it are for the format. -/
def Awaited (s : Clip) (type : ExtClipCaps) : Prop :=
  (∀ target, s.pasting = some target → x11AtomToType target = type) ∧ ∀ target ∈ s.reading, x11AtomToType target = type

/- What ModuleCopySelection hands over suits those that will find it; without the extended clipboard
it is text of the owner. -/
def Suits (s : Clip) (content : Content) : Prop :=
  if s.remoteCaps ≠ 0 then
    (∀ target, s.pasting = some target → Pasted target content) ∧ (∀ target ∈ s.reading, Pasted target content) ∧
      ∀ type, copying s.asking = some type → Copied type content
  else Copied .typeText content

/- A record is handed over for the target, if at all. -/
def SuitsCached (s : Clip) (target : Target) : Prop :=
  ∀ source, s.sourceIncr = some source → target = source.target → Suits s source.buf

/- Content of the remote side comes while all that wait for it or read it are for its format; what was
copied suits those that find it; and without the extended clipboard a requestor is served while the buffer
has the remote side's text. -/
def Careful (s : Clip) : Action → Prop
  | .recvProvide type buf => s.asking = .idle → s.remoteCaps ≠ 0 → allows s.localProvideTypes type = true → buf ≠ [] →
      Awaited s type
  | .recvCutText buf => s.asking = .idle → buf ≠ [] → Awaited s .typeText
  | .convertNext => ∀ type atom atoms rest, s.asking = .next type (atom :: atoms) rest →
      SuitsCached {s with asking := .waiting type atoms rest} atom
  | .pasteRequest target => s.pasting = none → (selectionSourceTargets s).contains target = true →
      s.remoteCaps = 0 → Pasted target s.clientClipboard
  | .selectionReceiveTargets targets => s.pasting = none → s.remoteCaps = 0 → ∀ atom,
      ((selectionSourceTargets s).find? fun atom => targets.contains atom) = some atom → SuitsCached s atom
  | .copyWhole target buf => s.pasting = none → Suits s (tagged (.owner (some target)) buf)
  | .copyEnd => s.pasting = none → ∀ source, s.sourceIncr = some source → Suits s source.buf
  | _ => True

section
variable {s : Clip}

theorem pastedRemote {target : Target} {type : ExtClipCaps} {buf : Bytes} :
    Pasted target (tagged (.remote type) buf) ↔ (buf ≠ [] → x11AtomToType target = type) := by
  unfold Pasted tagged
  rw [List.forall_mem_map]
  constructor
  · intro all some
    obtain ⟨byte,inside⟩ := List.exists_mem_of_ne_nil buf some
    exact (Origin.remote.inj (all byte inside)).symm
  · intro same byte inside
    rw [same (List.ne_nil_of_mem inside)]

theorem pastedOwner {target : Target} {other : Option Target} {buf : Bytes} :
    Pasted target (tagged (.owner other) buf) ↔ buf = [] := by
  unfold Pasted tagged
  rw [List.forall_mem_map]
  constructor
  · exact fun all => List.eq_nil_iff_forall_not_mem.mpr fun byte inside => by cases all byte inside
  · rintro rfl
    exact List.forall_mem_nil _

theorem copiedOwner {type : ExtClipCaps} {target : Target} {buf : Bytes} :
    Copied type (tagged (.owner (some target)) buf) ↔ (buf ≠ [] → x11AtomToType target = type) := by
  unfold Copied tagged
  rw [List.forall_mem_map]
  constructor
  · intro all some
    obtain ⟨byte,inside⟩ := List.exists_mem_of_ne_nil buf some
    obtain ⟨_,⟨⟩,same⟩ := all byte inside
    exact same
  · exact fun same byte inside => ⟨target,rfl,same (List.ne_nil_of_mem inside)⟩

/- What is copied as a whole suits those that find it where nobody reads what was pasted, and it is of
the format that is being asked for. -/
theorem suitsOwner {target : Target} {buf : Bytes} (some : buf ≠ []) (caps : s.remoteCaps ≠ 0) :
    Suits s (tagged (.owner (Option.some target)) buf) ↔ s.pasting = none ∧ s.reading = [] ∧
      ∀ type, copying s.asking = Option.some type → x11AtomToType target = type := by
  unfold Suits
  rw [if_pos caps]
  simp only [pastedOwner,copiedOwner]
  refine and_congr ?_ (and_congr ?_ ?_)
  · exact (forall₂_congr fun _ _ => iff_false_intro some).trans Option.eq_none_iff_forall_not_mem.symm
  · exact (forall₂_congr fun _ _ => iff_false_intro some).trans List.eq_nil_iff_forall_not_mem.symm
  · exact forall₂_congr fun _ _ => ⟨fun same => same some,fun same _ => same⟩

/- What goes into the buffer has to be for all that wait for it or read it. -/
theorem replaceSound (content : Content) (sound : Sound s) : Sound {s with clientClipboard := content} ↔
    (∀ target, s.pasting = some target → Pasted target content) ∧ (∀ target ∈ s.reading, Pasted target content) ∧
      ∀ type, copying s.asking = some type → Copied type content :=
  ⟨fun next => ⟨next.pasting,next.reading,next.copying⟩,
    fun fits => ⟨sound.given,sound.provided,fits.1,fits.2.1,fits.2.2⟩⟩

theorem clearedSound (sound : Sound s) : Sound {s with clientClipboard := []} :=
  (replaceSound [] sound).mpr
    ⟨fun _ _ => List.forall_mem_nil _,fun _ _ => List.forall_mem_nil _,fun _ _ => List.forall_mem_nil _⟩

/- What has been handed out to the remote side, with one more. -/
theorem providedSound {type : ExtClipCaps} {content : Content} (sound : Sound s) :
    Sound {s with provided := s.provided ++ [(type,content)]} ↔ Copied type content := by
  constructor
  · exact fun next => next.provided _ (List.mem_append_right _ (List.mem_singleton_self _))
  · intro copied
    refine ⟨sound.given,?_,sound.pasting,sound.reading,sound.copying⟩
    exact List.forall_mem_append.mpr ⟨sound.provided,List.forall_mem_singleton.mpr copied⟩

/- What the record of the copy is has no part in it. -/
theorem recordSound (source : Option WindowSource) : Sound {s with sourceIncr := source} ↔ Sound s :=
  ⟨fun sound => ⟨sound.given,sound.provided,sound.pasting,sound.reading,sound.copying⟩,
    fun sound => ⟨sound.given,sound.provided,sound.pasting,sound.reading,sound.copying⟩⟩

theorem remoteKeeps {type : ExtClipCaps} {buf : Bytes} (idle : s.asking = .idle) (sound : Sound s) :
    Sound {s with clientClipboard := tagged (.remote type) buf} ↔ (buf ≠ [] → Awaited s type) := by
  rw [replaceSound _ sound,idle]
  simp only [pastedRemote]
  constructor
  · exact fun fits some => ⟨fun target now => fits.1 target now some,fun target inside => fits.2.1 target inside some⟩
  · intro fits
    exact ⟨fun target now some => (fits some).1 target now,fun target inside some => (fits some).2 target inside,
      fun _ none => nomatch none⟩

theorem provideKeeps (type : ExtClipCaps) (buf : Bytes) (sound : Sound s) :
    Sound (extClipboardRemoteDataEvent s type buf) ↔ Careful s (.recvProvide type buf) := by
  unfold extClipboardRemoteDataEvent Careful
  dsimp only
  split
  · rename_i busy
    refine iff_of_true sound fun idle caps asked => ?_
    rcases busy with busy | none | unasked
    · exact absurd idle busy
    · exact absurd none caps
    · exact absurd (unasked.symm.trans asked) Bool.false_ne_true
  · rename_i free
    obtain ⟨idle,rest⟩ := not_or.mp free
    obtain ⟨caps,asked⟩ := not_or.mp rest
    have idle := not_not.mp idle
    have same : Sound {s with
        clientClipboard := tagged (.remote type) buf
        localProvideTypes := clearBit s.localProvideTypes type.bit} ↔
        Sound {s with clientClipboard := tagged (.remote type) buf} :=
      ⟨fun next => ⟨next.given,next.provided,next.pasting,next.reading,next.copying⟩,
        fun next => ⟨next.given,next.provided,next.pasting,next.reading,next.copying⟩⟩
    refine same.trans ((remoteKeeps idle sound).trans ?_)
    exact ⟨fun fits _ _ _ => fits,fun fits => fits idle caps (by simpa using asked)⟩

theorem cutTextKeeps (buf : Bytes) (sound : Sound s) : Sound (recvCutTextEvent s buf) ↔ Careful s (.recvCutText buf) := by
  unfold recvCutTextEvent Careful
  dsimp only
  split
  · rename_i busy
    exact iff_of_true sound fun idle => absurd idle busy
  · rename_i free
    have idle := not_not.mp free
    exact (remoteKeeps idle sound).trans ⟨fun fits _ => fits,fun fits => fits idle⟩

theorem receiveKeeps (content : Content) (sound : Sound s) :
    Sound (selectionReceiveData s content) ↔ Suits s content := by
  unfold selectionReceiveData Suits
  split
  · exact replaceSound content sound
  · exact providedSound sound

theorem handOverKeeps (source : WindowSource) (sound : Sound s) : Sound (handOver s source) ↔ Suits s source.buf :=
  (recordSound _).trans (receiveKeeps source.buf sound)

theorem cachedKeeps (target : Target) (sound : Sound s) : Sound (convertSelection s target) ↔ SuitsCached s target := by
  unfold convertSelection SuitsCached
  cases record : s.sourceIncr with
  | none => exact iff_of_true sound fun _ none => nomatch none
  | some source =>
    dsimp only
    split
    · rename_i cached
      refine (handOverKeeps source sound).trans ⟨fun suits other same _ => ?_,fun suits => suits source rfl cached⟩
      obtain rfl := Option.some.inj same
      exact suits
    · rename_i fresh
      refine iff_of_true ((recordSound none).mpr sound) fun other same cached => ?_
      obtain rfl := Option.some.inj same
      exact absurd cached fresh

/- Nothing is handed out wrong where nothing is handed out. -/
theorem provideSound (type : ExtClipCaps) (rest : List ExtClipCaps) {content : Content} (copied : Copied type content)
    (sound : Sound s) : Sound (provide s type content rest) := by
  have handed := (providedSound sound).mpr copied
  refine ⟨sound.given,handed.provided,sound.pasting,sound.reading,fun other now => ?_⟩
  cases rest with
  | nil => cases now
  | cons first later => cases now

theorem convertKeeps (sound : Sound s) : Sound (convertNext s) ↔ Careful s .convertNext := by
  unfold convertNext
  split
  · rename_i type rest now
    refine iff_of_true (provideSound type rest (List.forall_mem_nil _) sound) fun other atom atoms _ here => ?_
    cases now.symm.trans here
  · rename_i type atom atoms rest now
    have waits : Sound {s with clientClipboard := [],asking := .waiting type atoms rest} := by
      have none := clearedSound sound
      exact ⟨none.given,none.provided,none.pasting,none.reading,fun _ _ => List.forall_mem_nil _⟩
    refine (cachedKeeps atom waits).trans ⟨fun suits => ?_,fun careful => careful type atom atoms rest now⟩
    intro other first others last here
    obtain ⟨rfl,⟨rfl,rfl⟩,rfl⟩ : type = other ∧ (atom = first ∧ atoms = others) ∧ rest = last := by
      simpa using now.symm.trans here
    exact suits
  · rename_i next
    refine iff_of_true sound fun type atom atoms rest here => ?_
    exact absurd here (next type atom atoms rest)

theorem askKeeps (types : Nat) (sound : Sound s) : Sound (sendExtClipboardProvide s types) := by
  unfold sendExtClipboardProvide
  split
  · exact sound
  · refine ⟨sound.given,sound.provided,sound.pasting,sound.reading,fun other now => ?_⟩
    generalize knownTypes.filter (allows types) = queue at now
    cases queue with
    | nil => cases now
    | cons first later => cases now

theorem readyKeeps (sound : Sound s) : Sound (localReady s) := by
  unfold localReady
  split
  · rename_i type atoms rest now
    split
    · exact sound
    · exact provideSound type rest (sound.copying type (by rw [now]; rfl)) sound
  · exact sound

theorem timeoutKeeps (sound : Sound s) : Sound (localTimeout s) := by
  unfold localTimeout
  split
  · exact ⟨sound.given,sound.provided,sound.pasting,sound.reading,fun _ none => nomatch none⟩
  · exact sound

/- A requestor that is given the content from now on finds its own. -/
theorem readingSound (target : Target) (sound : Sound s) :
    Sound {s with reading := s.reading ++ [target]} ↔ Pasted target s.clientClipboard := by
  constructor
  · exact fun next => next.reading target (List.mem_append_right _ (List.mem_singleton_self _))
  · intro pasted
    refine ⟨sound.given,sound.provided,sound.pasting,?_,sound.copying⟩
    exact List.forall_mem_append.mpr ⟨sound.reading,List.forall_mem_singleton.mpr pasted⟩

theorem pasteKeeps (target : Target) (idle : s.pasting = none) (sound : Sound s) :
    Sound (pasteRequest s target) ↔ Careful s (.pasteRequest target) := by
  unfold pasteRequest Careful
  dsimp only
  split
  · rename_i unknown
    exact iff_of_true sound fun _ known => absurd (unknown.symm.trans known) Bool.false_ne_true
  · rename_i known
    split
    · rename_i caps
      refine iff_of_true ?_ fun _ _ none => absurd none caps
      have none := clearedSound sound
      unfold sendExtClipboardRequest
      split
      · exact ⟨none.given,none.provided,fun _ _ => List.forall_mem_nil _,none.reading,none.copying⟩
      · exact ⟨none.given,none.provided,fun _ _ => List.forall_mem_nil _,none.reading,none.copying⟩
    · rename_i caps
      split
      · rename_i empty
        refine iff_of_true sound fun _ _ _ => ?_
        rw [empty]
        exact List.forall_mem_nil _
      · refine (readingSound target sound).trans ⟨fun pasted _ _ _ => pasted,fun pasted => ?_⟩
        exact pasted idle (by simpa using known) (not_not.mp caps)

theorem pasteReadyKeeps (sound : Sound s) : Sound (pasteReady s) := by
  unfold pasteReady
  split
  · rename_i target now
    split
    · exact sound
    · have reads := (readingSound target sound).mpr (sound.pasting target now)
      exact ⟨reads.given,reads.provided,fun _ none => (nomatch none),reads.reading,reads.copying⟩
  · exact sound

theorem dataKeeps (target : Target) (offset length : Nat) (sound : Sound s) :
    Sound (selectionSourceData s target offset length) := by
  unfold selectionSourceData
  split
  · exact sound
  · rename_i reads
    refine ⟨?_,sound.provided,sound.pasting,sound.reading,sound.copying⟩
    refine List.forall_mem_append.mpr ⟨sound.given,List.forall_mem_singleton.mpr fun entry inside => ?_⟩
    refine sound.reading target (by simpa using reads) entry ?_
    dsimp only at inside
    split at inside
    · exact List.mem_of_mem_drop (List.mem_of_mem_take inside)
    · exact absurd inside List.not_mem_nil

theorem targetsKeeps (targets : List Target) (idle : s.pasting = none) (sound : Sound s) :
    Sound (selectionReceiveTargets s targets) ↔ Careful s (.selectionReceiveTargets targets) := by
  unfold selectionReceiveTargets Careful
  dsimp only
  split
  · rename_i caps
    exact iff_of_true sound fun _ none => absurd none caps
  · rename_i caps
    split
    · rename_i atom found
      refine (cachedKeeps atom sound).trans ⟨fun suits _ _ other same => ?_,fun careful => ?_⟩
      · obtain rfl := Option.some.inj (found.symm.trans same)
        exact suits
      · exact careful idle (not_not.mp caps) atom found
    · rename_i none
      refine iff_of_true sound fun _ _ atom found => ?_
      exact absurd (none.symm.trans found) (by simp)

theorem pieceKeeps (target : Option Target) (buf : Bytes) (sound : Sound s) : Sound (copyPiece s target buf) := by
  unfold copyPiece
  split
  · exact (recordSound _).mpr sound
  · exact sound

theorem endKeeps (idle : s.pasting = none) (sound : Sound s) : Sound (copyEnd s) ↔ Careful s .copyEnd := by
  unfold copyEnd Careful
  cases record : s.sourceIncr with
  | none => exact iff_of_true sound fun _ _ none => nomatch none
  | some source =>
    refine (handOverKeeps source sound).trans ⟨fun suits _ other same => ?_,fun careful => careful idle source rfl⟩
    obtain rfl := Option.some.inj same
    exact suits

/- While the thread of X waits, none of its other steps is taken. -/
theorem onXKeeps {next : Clip} {C : Prop} (sound : Sound s) (waits : s.pasting ≠ none → C)
    (keeps : s.pasting = none → (Sound next ↔ C)) : Sound (onX s next) ↔ C := by
  unfold onX
  split
  · rename_i busy
    exact iff_of_true sound (waits busy)
  · rename_i idle
    exact keeps (not_not.mp idle)

theorem stepKeeps (s : Clip) (a : Action) (_ : True) (sound : Sound s) : Sound (step s a) ↔ Careful s a := by
  cases a with
  | recvCaps flags | recvNotify flags =>
    refine iff_of_true ?_ trivial
    rw [step]
    split
    · exact sound
    · exact ⟨sound.given,sound.provided,sound.pasting,sound.reading,sound.copying⟩
  | recvProvide type buf => exact provideKeeps type buf sound
  | recvCutText buf => exact cutTextKeeps buf sound
  | recvRequest flags => exact iff_of_true (askKeeps _ sound) trivial
  | convertNext => exact convertKeeps sound
  | localReady => exact iff_of_true (readyKeeps sound) trivial
  | localTimeout => exact iff_of_true (timeoutKeeps sound) trivial
  | pasteRequest target => exact onXKeeps sound (fun busy idle => absurd idle busy) fun idle => pasteKeeps target idle sound
  | pasteReady => exact iff_of_true (pasteReadyKeeps sound) trivial
  | pasteTimeout =>
    exact iff_of_true ⟨sound.given,sound.provided,fun _ none => (nomatch none),sound.reading,sound.copying⟩ trivial
  | selectionSourceData target offset length =>
    exact onXKeeps sound (fun _ => trivial) fun _ => iff_of_true (dataKeeps target offset length sound) trivial
  | pasteDone target =>
    refine iff_of_true ⟨sound.given,sound.provided,sound.pasting,fun other inside => ?_,sound.copying⟩ trivial
    exact sound.reading other (List.mem_of_mem_erase inside)
  | selectionChanged | copyIncr target =>
    exact onXKeeps sound (fun _ => trivial) fun _ => iff_of_true ((recordSound _).mpr sound) trivial
  | selectionReceiveTargets targets =>
    exact onXKeeps sound (fun busy idle => absurd idle busy) fun idle => targetsKeeps targets idle sound
  | copyWhole target buf =>
    refine onXKeeps sound (fun busy idle => absurd idle busy) fun idle => (receiveKeeps _ sound).trans ?_
    exact ⟨fun suits _ => suits,fun careful => careful idle⟩
  | copyPiece target buf =>
    exact onXKeeps sound (fun _ => trivial) fun _ => iff_of_true (pieceKeeps target buf sound) trivial
  | copyEnd => exact onXKeeps sound (fun busy idle => absurd idle busy) fun idle => endKeeps idle sound

end

theorem startSound (side : Side) (localCaps : Nat) : Sound (start side localCaps) :=
  ⟨List.forall_mem_nil _,List.forall_mem_nil _,fun _ none => (nomatch none),List.forall_mem_nil _,
    fun _ none => nomatch none⟩

/- The answer to a request that has timed out comes while another format is waited for. -/
def lateHtml : List Action :=
  [.recvCaps usualFlags,.recvNotify 5,.pasteRequest .textHtml,.pasteTimeout,.pasteRequest .utf8String,
    .recvProvide .typeHtml [0x3C,0x62,0x3E],.pasteReady,.selectionSourceData .utf8String 0 3]

end Ltsm.ClipboardDirections
