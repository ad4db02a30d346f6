import Ltsm.Library.Run
import Mathlib.Logic.Function.Basic

/-! The keys of an RFB client. A key comes as a keysym, and its keycode is looked up anew at
its press and at its release, in the layout group there is then; with xcb messages disabled
it is dropped. -/
namespace Ltsm.KeyEvents
open Library

/- The keysyms of the keycodes one after another, two of each group: normal and shifted. -/
structure KeyboardMapping where
  keysymsPerKeycode : Nat
  keysyms : List UInt32
  deriving DecidableEq, Repr

/- A key as the client sends it; without the LTSM keyboard encoding the scancode is zero. -/
structure Key where
  keysym : UInt32
  scancode : UInt16
  deriving DecidableEq, Repr

/- What does not change: the mapping, if the X server sends it, with what lies in front of
it in memory, the extensions, the user keymap, whether the client sends scancodes and the
keysyms of these, and the group that the X server is in when it has been told to lock one. -/
structure Keyboard where
  minKeycode : Nat
  maxKeycode : Nat
  mapping : Option KeyboardMapping
  before : Int → UInt32
  xkb : Bool
  test : Bool
  keymap : UInt32 → Option Int
  ltsm : Bool
  convertScanCodeToKeySym : UInt16 → UInt32
  lockGroup : Int → Int

/-! The lookups in the mapping. -/

namespace KeyboardMapping
variable (m : KeyboardMapping)

def groupsCount : Nat := m.keysymsPerKeycode / 2
def keycodesCount : Nat := m.keysyms.length / m.keysymsPerKeycode

/- The first of these keycodes that has the keysym in its group; an index that is out of
range ends the search. -/
def search (keysym : UInt32) : List (Nat × Nat) → Option (Nat × Nat)
  | [] => none
  | (group,ii) :: rest =>
    let index := ii * m.keysymsPerKeycode + group * 2
    if m.keysyms.length ≤ index + 1 then none
    else if m.keysyms[index]? = some keysym ∨ m.keysyms[index + 1]? = some keysym then some (group,ii)
    else search keysym rest

def groupKeys (group : Nat) : List (Nat × Nat) := (List.range m.keycodesCount).map (group,·)

end KeyboardMapping

namespace Keyboard
variable (kb : Keyboard)

def keycodeOf (ii : Nat) : Nat := (kb.minKeycode + ii) % 256

/- Zero is no keycode. -/
def keysymToKeycodeGroup (keysym : UInt32) : Nat × Int :=
  match kb.mapping with
  | none => (0,-1)
  | some m =>
    if m.keysymsPerKeycode < 1 then (0,-1)
    else
      match m.search keysym ((List.range m.groupsCount).flatMap m.groupKeys) with
      | none => (0,-1)
      | some (group,ii) => (kb.keycodeOf ii,group)

def keysymGroupToKeycode (keysym : UInt32) (group : Int) : Nat :=
  match kb.mapping with
  | none => 0
  | some m =>
    if m.keysymsPerKeycode < 1 then 0
    else if group < 0 ∨ (m.groupsCount : Int) ≤ group then 0
    else
      match m.search keysym (m.groupKeys group.toNat) with
      | none => 0
      | some (_,ii) => kb.keycodeOf ii

/- The index is checked at the far end only. -/
def keycodeGroupToKeysym (keycode : Nat) (group : Int) : UInt32 :=
  match kb.mapping with
  | none => 0
  | some m =>
    if m.keysymsPerKeycode < 1 then 0
    else
      let index := ((keycode : Int) - kb.minKeycode) * m.keysymsPerKeycode + group * 2
      if (m.keysyms.length : Int) ≤ index + 1 then 0
      else if index < 0 then kb.before index
      else m.keysyms.getD index.toNat 0

def keysymToKeycode (group : Int) (keysym : UInt32) : Nat :=
  kb.keysymGroupToKeycode keysym (if kb.xkb then group else 0)

/- The keycode, and the group there is afterwards. -/
def keysymToKeycodeAuto (group : Int) (keysym : UInt32) : Nat × Int :=
  let keycode := kb.keysymToKeycode group keysym
  if keycode = 0 then
    let (keysymKeycode,keysymGroup) := kb.keysymToKeycodeGroup keysym
    if keysymKeycode ≠ 0 then (keysymKeycode,if kb.xkb then kb.lockGroup keysymGroup else group)
    else (keycode,group)
  else (keycode,group)

def rfbUserKeycode (keysym : UInt32) : Int := (kb.keymap keysym).getD 0

/- The keysym of an event. -/
def eventKeysym (group : Int) (key : Key) : UInt32 :=
  if kb.ltsm then
    let x11sym := kb.convertScanCodeToKeySym key.scancode
    let keysym := if x11sym ≠ 0 then x11sym else key.keysym
    if kb.xkb then
      let keycodeGroup := kb.keysymToKeycodeGroup x11sym
      if group ≠ keycodeGroup.2 then kb.keycodeGroupToKeysym keycodeGroup.1 group else keysym
    else keysym
  else key.keysym

/- The keycode of an event, zero if there is none. -/
def eventKeycode (group : Int) (key : Key) : Int × Int :=
  let keysym := kb.eventKeysym group key
  let keycode := kb.rfbUserKeycode keysym
  if keycode = 0 then
    let found := kb.keysymToKeycodeAuto group keysym
    (found.1,found.2)
  else (keycode,group)

end Keyboard

/-! The X server and what is injected into it. -/

structure Server where
  group : Int
  allow : Bool
  held : List Nat
  deriving DecidableEq, Repr

/- A keycode the keyboard does not have is refused. -/
def screenInputKeycode (kb : Keyboard) (keycode : Nat) (pressed : Bool) (s : Server) : Server :=
  if keycode < kb.minKeycode ∨ kb.maxKeycode < keycode then s
  else {s with held := if pressed then keycode :: s.held else s.held.filter (· ≠ keycode)}

/- The state afterwards and the keycode that has been injected. -/
def serverRecvKeyEvent (kb : Keyboard) (pressed : Bool) (key : Key) (s : Server) : Server × Option Nat :=
  if !s.allow then (s,none)
  else if !kb.test then (s,none)
  else
    let (keycode,group) := kb.eventKeycode s.group key
    let s := {s with group := group}
    if keycode = 0 then (s,none)
    else
      let code := (keycode % 256).toNat
      (screenInputKeycode kb code pressed s,some code)

inductive Action where
  | key (pressed : Bool) (key : Key)
  | switchGroup (group : Int)
  | disableMessages (disable : Bool)
  deriving DecidableEq, Repr

/-! What is watched beside it. -/

/- When a key was pressed: whether messages were allowed, and in which group. -/
structure Moment where
  allow : Bool
  group : Int
  deriving DecidableEq, Repr

/- A release with the keycodes that were injected when the key was pressed, the one injected
now, and those of the former that are held after it. -/
structure Release where
  presses : List Nat
  released : Option Nat
  left : List Nat
  deriving DecidableEq, Repr

/- `holds` has for each key its presses since it was last released, with what was injected. -/
structure Desk where
  server : Server
  holds : Key → List (Moment × Option Nat)
  releases : List Release

def Desk.start (group : Int) (allow : Bool) : Desk := ⟨⟨group,allow,[]⟩,fun _ => [],[]⟩

def momentOf (s : Server) : Moment := ⟨s.allow,s.group⟩

def deskStep (kb : Keyboard) (d : Desk) : Action → Desk
  | .key true key =>
    let (server,code) := serverRecvKeyEvent kb true key d.server
    {d with server := server, holds := Function.update d.holds key ((momentOf d.server,code) :: d.holds key)}
  | .key false key =>
    let (server,code) := serverRecvKeyEvent kb false key d.server
    let presses := (d.holds key).filterMap Prod.snd
    let release : Release := ⟨presses,code,presses.filter fun p => server.held.contains p⟩
    {d with
      server := server
      holds := Function.update d.holds key []
      releases := if d.holds key = [] then d.releases else release :: d.releases}
  | .switchGroup group => {d with server := {d.server with group := group}}
  | .disableMessages disable => {d with server := {d.server with allow := !disable}}

/- What is released was pressed, and the key is not left pressed. -/
structure Release.Symmetric (r : Release) : Prop where
  same : ∀ code, r.released = some code → r.presses ≠ [] ∧ ∀ p ∈ r.presses, p = code
  free : r.left = []

/- A release that comes after no press is not looked at. -/
def Symmetric (d : Desk) : Prop := ∀ r ∈ d.releases, r.Symmetric

/- What is injected for a key at a moment. -/
def injects (kb : Keyboard) (key : Key) (m : Moment) : Option Nat :=
  if m.allow && kb.test then
    let keycode := (kb.eventKeycode m.group key).1
    if keycode = 0 then none else some (keycode % 256).toNat
  else none

/- The key has the keycode now that it had in the groups it was pressed in, and there was a
press that was not dropped. If nothing is injected now, nothing is held of its presses. -/
def Lasting (kb : Keyboard) (key : Key) (pressed : List Moment) (s : Server) : Prop :=
  match injects kb key (momentOf s) with
  | some code => (∃ m ∈ pressed, injects kb key m ≠ none) ∧
    ∀ m ∈ pressed, ∀ p, injects kb key m = some p → p = code
  | none => ∀ m ∈ pressed, ∀ p, injects kb key m = some p → p ∉ s.held

def Fair (kb : Keyboard) (d : Desk) : Action → Prop
  | .key false key => d.holds key ≠ [] → Lasting kb key ((d.holds key).map Prod.fst) d.server
  | _ => True

/-! One event. -/

section
variable {kb : Keyboard} {key : Key} {s : Server} {d : Desk}

/- What an event injects depends on the moment only, and is the same for press and release. -/
theorem eventInjects (pressed : Bool) : (serverRecvKeyEvent kb pressed key s).2 = injects kb key (momentOf s) := by
  unfold serverRecvKeyEvent injects momentOf
  cases s.allow
  · rfl
  · cases kb.test
    · rfl
    · simp only [Bool.not_true,Bool.and_self,if_true,Bool.false_eq_true,if_false]
      split <;> rfl

theorem eventHeld (pressed : Bool) : (serverRecvKeyEvent kb pressed key s).1.held =
    match injects kb key (momentOf s) with
    | none => s.held
    | some code => (screenInputKeycode kb code pressed s).held := by
  unfold serverRecvKeyEvent injects momentOf screenInputKeycode
  cases s.allow
  · rfl
  · cases kb.test
    · rfl
    · simp only [Bool.not_true,Bool.and_self,if_true,Bool.false_eq_true,if_false]
      by_cases nothing : (kb.eventKeycode s.group key).1 = 0
      · simp only [if_pos nothing]
      · simp only [if_neg nothing]
        split <;> rfl

def Keyboard.Has (kb : Keyboard) (keycode : Nat) : Prop := kb.minKeycode ≤ keycode ∧ keycode ≤ kb.maxKeycode

/- Only keycodes of the keyboard are held, and a released one is not. -/
theorem inputHeld {code : Nat} {pressed : Bool} (held : ∀ p ∈ s.held, kb.Has p) :
    (∀ p ∈ (screenInputKeycode kb code pressed s).held, kb.Has p) ∧
    (pressed = false → code ∉ (screenInputKeycode kb code pressed s).held) := by
  unfold screenInputKeycode
  by_cases refused : code < kb.minKeycode ∨ kb.maxKeycode < code
  · rw [if_pos refused]
    refine ⟨held,fun _ there => ?_⟩
    obtain ⟨low,high⟩ := held code there
    omega
  · rw [if_neg refused]
    have known : kb.Has code := ⟨by omega,by omega⟩
    cases pressed with
    | true =>
      refine ⟨fun p there => ?_,nofun⟩
      obtain rfl | there := List.mem_cons.mp there
      · exact known
      · exact held p there
    | false => exact ⟨fun p there => held p (List.mem_filter.mp there).1,fun _ there => by simp at there⟩

/-! What is kept about the watch. -/

structure Kept (kb : Keyboard) (d : Desk) : Prop where
  held : ∀ p ∈ d.server.held, kb.Has p
  injected : ∀ key, ∀ h ∈ d.holds key, h.2 = injects kb key h.1

theorem startKept (group : Int) (allow : Bool) : Kept kb (.start group allow) :=
  ⟨fun _ there => absurd there List.not_mem_nil,fun _ _ there => absurd there List.not_mem_nil⟩

theorem eventKept (kept : Kept kb d) (pressed : Bool) :
    ∀ p ∈ (serverRecvKeyEvent kb pressed key d.server).1.held, kb.Has p := by
  rw [eventHeld]
  cases injects kb key (momentOf d.server) with
  | none => exact kept.held
  | some code => exact (inputHeld kept.held).1

theorem stepKept (d : Desk) (a : Action) (kept : Kept kb d) : Kept kb (deskStep kb d a) := by
  cases a with
  | key pressed key =>
    cases pressed with
    | true =>
      refine ⟨eventKept kept true,fun other h there => ?_⟩
      simp only [deskStep] at there
      by_cases same : other = key
      · subst same
        rw [Function.update_self] at there
        obtain rfl | there := List.mem_cons.mp there
        · exact eventInjects true
        · exact kept.injected other h there
      · rw [Function.update_of_ne same] at there
        exact kept.injected other h there
    | false =>
      refine ⟨eventKept kept false,fun other h there => ?_⟩
      simp only [deskStep] at there
      by_cases same : other = key
      · subst same
        rw [Function.update_self] at there
        cases there
      · rw [Function.update_of_ne same] at there
        exact kept.injected other h there
  | switchGroup group => exact ⟨kept.held,kept.injected⟩
  | disableMessages disable => exact ⟨kept.held,kept.injected⟩

/-! The release of a key. -/

/- What has been injected at the presses. -/
theorem pressesOf (kept : Kept kb d) (key : Key) :
    (d.holds key).filterMap Prod.snd = ((d.holds key).map Prod.fst).filterMap (injects kb key) := by
  rw [List.filterMap_map]
  exact List.filterMap_congr fun h there => kept.injected key h there

/- Nothing of the presses is held. -/
theorem pressesFree (moments : List Moment) (now : List Nat) :
    (moments.filterMap (injects kb key)).filter (fun p => now.contains p) = [] ↔
      ∀ m ∈ moments, ∀ p, injects kb key m = some p → p ∉ now := by
  simp only [List.filter_eq_nil_iff,List.mem_filterMap,List.contains_iff_mem]
  constructor
  · intro none m there p gives
    exact none p ⟨m,there,gives⟩
  · rintro none p ⟨m,there,gives⟩
    exact none m there p gives

/- There was a press, and all presses had this keycode. -/
theorem pressesSame (moments : List Moment) (code : Nat) :
    (moments.filterMap (injects kb key) ≠ [] ∧ ∀ p ∈ moments.filterMap (injects kb key), p = code) ↔
      (∃ m ∈ moments, injects kb key m ≠ none) ∧ ∀ m ∈ moments, ∀ p, injects kb key m = some p → p = code := by
  have some : moments.filterMap (injects kb key) ≠ [] ↔ ∃ m ∈ moments, injects kb key m ≠ none := by
    rw [Ne,List.filterMap_eq_nil_iff]
    push Not
    rfl
  rw [some]
  refine and_congr_right fun _ => ?_
  simp only [List.mem_filterMap]
  constructor
  · intro all m there p gives
    exact all p ⟨m,there,gives⟩
  · rintro all p ⟨m,there,gives⟩
    exact all m there p gives

theorem releaseSymmetric {moments : List Moment} (held : ∀ p ∈ s.held, kb.Has p) :
    (Release.mk (moments.filterMap (injects kb key)) (serverRecvKeyEvent kb false key s).2
      ((moments.filterMap (injects kb key)).filter fun p =>
        (serverRecvKeyEvent kb false key s).1.held.contains p)).Symmetric ↔ Lasting kb key moments s := by
  have after := @eventHeld kb key s false
  rw [eventInjects,Lasting]
  cases now : injects kb key (momentOf s) with
  | none =>
    rw [now] at after
    rw [after]
    constructor
    · rintro ⟨_,none⟩
      exact (pressesFree moments s.held).mp none
    · intro none
      exact ⟨nofun,(pressesFree moments s.held).mpr none⟩
  | some code =>
    rw [now] at after
    rw [after]
    have gone : code ∉ (screenInputKeycode kb code false s).held := (inputHeld held).2 rfl
    constructor
    · rintro ⟨same,_⟩
      exact (pressesSame moments code).mp (same code rfl)
    · intro lasting
      refine ⟨fun c this => ?_,(pressesFree moments _).mpr fun m there p gives => ?_⟩
      · cases this
        exact (pressesSame moments code).mpr lasting
      · rw [lasting.2 m there p gives]
        exact gone

theorem stepSymmetric (d : Desk) (a : Action) (kept : Kept kb d) (symmetric : Symmetric d) :
    Symmetric (deskStep kb d a) ↔ Fair kb d a := by
  cases a with
  | key pressed key =>
    cases pressed with
    | true => exact ⟨fun _ => trivial,fun _ => symmetric⟩
    | false =>
      by_cases stray : d.holds key = []
      · have same : (deskStep kb d (.key false key)).releases = d.releases := if_pos stray
        refine ⟨fun _ some => absurd stray some,fun _ => ?_⟩
        unfold Symmetric
        rw [same]
        exact symmetric
      · have added := @releaseSymmetric kb key d.server ((d.holds key).map Prod.fst) kept.held
        rw [← pressesOf kept key] at added
        unfold Symmetric Fair
        simp only [deskStep,if_neg stray,List.forall_mem_cons]
        rw [added]
        exact ⟨fun both _ => both.1,fun lasting => ⟨lasting stray,symmetric⟩⟩
  | switchGroup group => exact ⟨fun _ => trivial,fun _ => symmetric⟩
  | disableMessages disable => exact ⟨fun _ => trivial,fun _ => symmetric⟩

end

/- Every release is that of its press, and no key is left pressed, in exactly the runs in
which each key that is released still has the keycode it was pressed with. -/
theorem symmetryIff (kb : Keyboard) (group : Int) (allow : Bool) (actions : List Action) :
    Always (deskStep kb) Symmetric (.start group allow) actions ↔
      Meets (deskStep kb) (Fair kb) (.start group allow) actions :=
  alwaysIff stepKept stepSymmetric (startKept group allow) (fun _ there => absurd there List.not_mem_nil) actions

/-! A key that is released right after it was pressed. The press may have switched to the
group that the keysym was found in. -/

section
variable {m : KeyboardMapping} {keysym : UInt32} {found : Nat × Nat}

theorem searchListed {keys : List (Nat × Nat)} (hit : m.search keysym keys = some found) : found ∈ keys := by
  induction keys with
  | nil => cases hit
  | cons key rest ih =>
    simp only [KeyboardMapping.search] at hit
    split at hit
    · cases hit
    · split at hit
      · cases hit
        exact List.mem_cons_self
      · exact List.mem_cons_of_mem _ (ih hit)

theorem searchAppend {keys more : List (Nat × Nat)} (hit : m.search keysym (keys ++ more) = some found) :
    m.search keysym keys = some found ∨ m.search keysym more = some found := by
  induction keys with
  | nil => exact .inr hit
  | cons key rest ih =>
    simp only [List.cons_append,KeyboardMapping.search] at hit ⊢
    split at hit
    · cases hit
    · rename_i inside
      rw [if_neg inside]
      split at hit
      · rename_i here
        rw [if_pos here]
        exact .inl hit
      · rename_i away
        rw [if_neg away]
        exact ih hit

/- The keycode found in all groups is the one found in its group. -/
theorem searchGroup {groups : List Nat} {group ii : Nat}
    (hit : m.search keysym (groups.flatMap m.groupKeys) = some (group,ii)) :
    group ∈ groups ∧ m.search keysym (m.groupKeys group) = some (group,ii) := by
  induction groups with
  | nil => cases hit
  | cons first rest ih =>
    rw [List.flatMap_cons] at hit
    obtain here | later := searchAppend hit
    · obtain ⟨_,_,same⟩ := List.mem_map.mp (searchListed here)
      cases same
      exact ⟨List.mem_cons_self,here⟩
    · obtain ⟨inside,found⟩ := ih later
      exact ⟨List.mem_cons_of_mem _ inside,found⟩

variable {kb : Keyboard}

theorem foundAgain {keycode : Nat} {group : Int} (found : kb.keysymToKeycodeGroup keysym = (keycode,group))
    (some : keycode ≠ 0) : kb.keysymGroupToKeycode keysym group = keycode := by
  unfold Keyboard.keysymToKeycodeGroup at found
  unfold Keyboard.keysymGroupToKeycode
  cases mapped : kb.mapping with
  | none =>
    rw [mapped] at found
    cases found
    exact absurd rfl some
  | some m =>
    rw [mapped] at found
    simp only at found ⊢
    split at found
    · cases found
      exact absurd rfl some
    · rename_i wide
      rw [if_neg wide]
      split at found
      · cases found
        exact absurd rfl some
      · rename_i index ii hit
        cases found
        obtain ⟨inside,alone⟩ := searchGroup hit
        have low := List.mem_range.mp inside
        rw [if_neg (by omega),Int.toNat_natCast,alone]

/- The automatic search leaves the keyboard where it finds the keycode again. -/
theorem autoKept (locks : ∀ g, kb.lockGroup g = g) (group : Int) :
    (kb.keysymToKeycodeAuto (kb.keysymToKeycodeAuto group keysym).2 keysym).1 =
      (kb.keysymToKeycodeAuto group keysym).1 := by
  by_cases here : kb.keysymToKeycode group keysym = 0
  · rcases split : kb.keysymToKeycodeGroup keysym with ⟨keycode,other⟩
    by_cases some : keycode = 0
    · have none : kb.keysymToKeycodeAuto group keysym = (0,group) := by
        simp [Keyboard.keysymToKeycodeAuto,here,split,some]
      rw [none,none]
    · cases extension : kb.xkb with
      | false =>
        have stays : kb.keysymToKeycodeAuto group keysym = (keycode,group) := by
          simp [Keyboard.keysymToKeycodeAuto,here,split,some,extension]
        rw [stays,stays]
      | true =>
        have switches : kb.keysymToKeycodeAuto group keysym = (keycode,other) := by
          simp [Keyboard.keysymToKeycodeAuto,here,split,some,extension,locks]
        have again : kb.keysymToKeycode other keysym = keycode := by
          rw [Keyboard.keysymToKeycode,if_pos extension]
          exact foundAgain split some
        rw [switches]
        simp [Keyboard.keysymToKeycodeAuto,again,some]
  · have stays : kb.keysymToKeycodeAuto group keysym = (kb.keysymToKeycode group keysym,group) := by
      simp [Keyboard.keysymToKeycodeAuto,here]
    rw [stays,stays]

theorem keycodeKept (locks : ∀ g, kb.lockGroup g = g) (plain : kb.ltsm = false) (group : Int) (key : Key) :
    (kb.eventKeycode (kb.eventKeycode group key).2 key).1 = (kb.eventKeycode group key).1 := by
  have same (g : Int) : kb.eventKeysym g key = key.keysym := by simp [Keyboard.eventKeysym,plain]
  by_cases user : kb.rfbUserKeycode key.keysym = 0
  · have auto (g : Int) : kb.eventKeycode g key =
        (((kb.keysymToKeycodeAuto g key.keysym).1 : Int),(kb.keysymToKeycodeAuto g key.keysym).2) := by
      simp [Keyboard.eventKeycode,same,user]
    rw [auto,auto]
    exact congrArg Nat.cast (autoKept locks group)
  · simp [Keyboard.eventKeycode,same,user]

theorem eventMoment (pressed : Bool) (key : Key) (s : Server) :
    momentOf (serverRecvKeyEvent kb pressed key s).1 =
      if s.allow && kb.test then ⟨true,(kb.eventKeycode s.group key).2⟩ else momentOf s := by
  unfold serverRecvKeyEvent screenInputKeycode momentOf
  cases allowed : s.allow
  · simp [allowed]
  · cases kb.test
    · simp [allowed]
    · simp only [Bool.not_true,Bool.false_eq_true,if_false,Bool.and_self,if_true]
      split
      · simp
      · split <;> simp

/- A tap is released as it was pressed. -/
theorem tapFair (locks : ∀ g, kb.lockGroup g = g) (plain : kb.ltsm = false) {d : Desk} {key : Key}
    (up : d.holds key = []) : Fair kb (deskStep kb d (.key true key)) (.key false key) := by
  intro _
  have moments : ((deskStep kb d (.key true key)).holds key).map Prod.fst = [momentOf d.server] := by
    simp [deskStep,up]
  have again : injects kb key (momentOf (deskStep kb d (.key true key)).server) =
      injects kb key (momentOf d.server) := by
    change injects kb key (momentOf (serverRecvKeyEvent kb true key d.server).1) = _
    rw [eventMoment]
    by_cases active : (d.server.allow && kb.test) = true
    · rw [if_pos active]
      unfold injects momentOf
      rw [if_pos active,keycodeKept locks plain d.server.group key]
      exact if_pos (Bool.and_eq_true_iff.mp active).2
    · rw [if_neg active]
  rw [moments,Lasting,again]
  cases gives : injects kb key (momentOf d.server) with
  | none => simp [gives]
  | some code => simp [gives]

end

/-! The full stop is on two keys of a keyboard with an English and a Russian group. -/

def fullStopKeyboard : Keyboard where
  minKeycode := 60
  maxKeycode := 61
  mapping := some ⟨4,[0x2E,0x3E,0x6C0,0x6E0,0x2F,0x3F,0x2E,0x2C]⟩
  before := fun _ => 0
  xkb := true
  test := true
  keymap := fun _ => none
  ltsm := false
  convertScanCodeToKeySym := fun _ => 0
  lockGroup := id

def fullStop : Key := ⟨0x2E,0⟩

theorem fullStopStuck :
    (run (deskStep fullStopKeyboard) (.start 0 true)
      [.key true fullStop,.switchGroup 1,.key false fullStop]).releases = [⟨[60],some 61,[60]⟩] ∧
    (run (deskStep fullStopKeyboard) (.start 0 true)
      [.key true fullStop,.disableMessages true,.key false fullStop]).releases = [⟨[60],none,[60]⟩] ∧
    ¬∀ actions, Always (deskStep fullStopKeyboard) Symmetric (.start 0 true) actions := by
  have switched : (run (deskStep fullStopKeyboard) (.start 0 true)
      [.key true fullStop,.switchGroup 1,.key false fullStop]).releases = [⟨[60],some 61,[60]⟩] := by decide
  refine ⟨switched,by decide,fun all => ?_⟩
  have last := all _ _ (List.prefix_refl _) ⟨[60],some 61,[60]⟩ (switched ▸ List.mem_singleton.mpr rfl)
  exact absurd last.free (by decide)

end Ltsm.KeyEvents
