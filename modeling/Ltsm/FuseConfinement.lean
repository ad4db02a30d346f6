import Mathlib.Data.List.TakeWhile
import Ltsm.FuseClient
import Ltsm.Library.PathWalk
import Ltsm.Library.Run

/-! What the messages of a server can make the client touch. A path is the string of the
server behind the share root, a descriptor the number the server names; the list of the
open ones is kept, and looked at by nothing but the end of the connector. -/
namespace Ltsm.FuseConfinement
open Library FuseClient

/- A message, with the files as they are then and what the system answers. -/
structure Turn where
  tree : FileTree
  kernel : Kernel
  request : Request

structure Session where
  state : State := {}
  log : List (FileTree × Access) := []

section
variable (owner : Owner)

/- An exception leaves everything as it was. -/
def serveTurn (s : Session) (t : Turn) : Session :=
  match serve owner t.kernel s.state t.request with
  | none => s
  | some done => ⟨done.state,s.log ++ done.accesses.map fun access => (t.tree,access)⟩

/- The descriptors opened and not closed since. -/
def heldAfter (held : List Int) : Access → List Int
  | .opens _ _ (some fd) => (fd.val : Int) :: held
  | .closes fd true => held.filter (· ≠ fd)
  | _ => held

def held (log : List (FileTree × Access)) : List Int := log.foldl (fun held entry => heldAfter held entry.2) []

/- A path lies below a folder the user shares, a descriptor is held. -/
def Allowed (before : List (FileTree × Access)) (tree : FileTree) : Access → Prop
  | .opens root path _ => root ∈ owner.shareFolders ∧ tree.Inside (cString root) path
  | .reads fd | .closes fd _ => fd ∈ held before

def Confined (log : List (FileTree × Access)) : Prop :=
  ∀ before entry after, log = before ++ entry :: after → Allowed owner before entry.1 entry.2

/- What the client does not check: that the path stays below the root, that the descriptor
is one of its own (or the system refuses to move in it, or it is taken for refused). -/
def Proper (s : Session) (t : Turn) : Prop :=
  s.state.fuseInit = true → match t.request with
    | .init _ => True
    | .opened _ _ path => t.tree.Inside (cString s.state.shareRoot) (cString (s.state.shareRoot ++ path))
    | .read _ fdh _ offset => fdOf fdh ∈ s.state.opens ∨
        ∀ position, t.kernel.lseek (fdOf fdh) offset = .ok position → intOf position < 0
    | .release _ fdh => fdOf fdh ∈ s.state.opens

/- The list of the connector is what is held, and the root is a folder the user shares. -/
structure Kept (s : Session) : Prop where
  opens : s.state.opens = held s.log
  root : s.state.fuseInit = true → s.state.shareRoot ∈ owner.shareFolders

theorem heldAppend (log : List (FileTree × Access)) (tree : FileTree) (access : Access) :
    held (log ++ [(tree,access)]) = heldAfter (held log) access := by
  simp [held]

theorem confinedAppend (log : List (FileTree × Access)) (tree : FileTree) (access : Access) :
    Confined owner (log ++ [(tree,access)]) ↔ Confined owner log ∧ Allowed owner log tree access := by
  constructor
  · intro all
    refine ⟨fun before entry after same => ?_,all log (tree,access) [] rfl⟩
    exact all before entry (after ++ [(tree,access)]) (by rw [same,List.append_assoc]; rfl)
  · rintro ⟨earlier,last⟩ before entry after same
    rcases List.eq_nil_or_concat after with rfl | ⟨more,final,rfl⟩
    · obtain ⟨rfl,one⟩ := List.append_inj' same rfl
      cases List.singleton_inj.mp one
      exact last
    · rw [List.concat_eq_append,← List.cons_append,← List.append_assoc] at same
      exact earlier before entry more (List.append_inj_left' same rfl)

/- What an access has to do with the state before it. -/
def Within (s : Session) (tree : FileTree) : Access → Prop
  | .opens root path _ => tree.Inside (cString root) path
  | .reads fd | .closes fd _ => fd ∈ s.state.opens

def FromRoot (s : Session) : Access → Prop
  | .opens root _ _ => root = s.state.shareRoot
  | _ => True

/- What a turn can do: set the root up, make one access, or nothing. -/
inductive TurnStep (s : Session) (t : Turn) : Session → Prop
  | setUp {mountPoint : Bytes} (asked : t.request = .init mountPoint) (ready : Bool) {root : Bytes}
      (shared : ready = true → root ∈ owner.shareFolders) :
      TurnStep s t ⟨{s.state with shareRoot := root, fuseInit := ready},s.log⟩
  | access (ready : s.state.fuseInit = true) (touched : Access) (root : FromRoot s touched)
      (proper : Proper s t ↔ Within s t.tree touched) :
      TurnStep s t ⟨{s.state with opens := heldAfter s.state.opens touched},s.log ++ [(t.tree,touched)]⟩
  | nothing (proper : Proper s t) : TurnStep s t s

theorem turnStep (s : Session) (t : Turn) : TurnStep owner s t (serveTurn owner s t) := by
  obtain ⟨tree,kernel,request⟩ := t
  unfold serveTurn
  by_cases ready : s.state.fuseInit = true
  · cases request with
    | init mountPoint =>
      by_cases shared : mountPoint ∈ owner.shareFolders
      · simp only [serve,fuseOpInit,if_pos shared,List.map_nil,List.append_nil]
        exact .setUp rfl true fun _ => shared
      · simp only [serve,fuseOpInit,if_neg shared,List.map_nil,List.append_nil]
        exact .setUp rfl false fun never => by cases never
    | opened rid flags path =>
      have proper : Proper s ⟨tree,kernel,.opened rid flags path⟩ ↔
          tree.Inside (cString s.state.shareRoot) (cString (s.state.shareRoot ++ path)) := by
        simp [Proper,ready]
      simp only [serve,if_pos ready,fuseOpOpen]
      cases kernel.openFile (cString (s.state.shareRoot ++ path)) flags with
      | error err => exact .access ready (.opens _ _ none) rfl proper
      | ok fd => exact .access ready (.opens _ _ (some fd)) rfl proper
    | read rid fdh blocksz offset =>
      simp only [serve,if_pos ready,fuseOpRead]
      cases seek : kernel.lseek (fdOf fdh) offset with
      | error err =>
        rw [List.map_nil,List.append_nil]
        exact .nothing fun _ => .inr fun position same => by rw [seek] at same; cases same
      | ok position =>
        by_cases negative : intOf position < 0
        · simp only [if_pos negative,List.map_nil,List.append_nil]
          exact .nothing fun _ => .inr fun other same => by rw [seek] at same; cases same; exact negative
        · have proper : Proper s ⟨tree,kernel,.read rid fdh blocksz offset⟩ ↔ fdOf fdh ∈ s.state.opens := by
            simp [Proper,ready,seek,negative]
          simp only [if_neg negative]
          cases kernel.readFile (fdOf fdh) position (min blocksz.toNat blockmax) with
          | error err => exact .access ready (.reads _) trivial proper
          | ok data => exact .access ready (.reads _) trivial proper
    | release rid fdh =>
      have proper : Proper s ⟨tree,kernel,.release rid fdh⟩ ↔ fdOf fdh ∈ s.state.opens := by
        simp [Proper,ready]
      simp only [serve,if_pos ready,fuseOpRelease]
      cases kernel.closeFile (fdOf fdh) with
      | error err => exact .access ready (.closes _ false) trivial proper
      | ok _ => exact .access ready (.closes _ true) trivial proper
  · cases request with
    | init mountPoint =>
      by_cases shared : mountPoint ∈ owner.shareFolders
      · simp only [serve,fuseOpInit,if_pos shared,List.map_nil,List.append_nil]
        exact .setUp rfl true fun _ => shared
      · simp only [serve,fuseOpInit,if_neg shared,List.map_nil,List.append_nil]
        exact .setUp rfl false fun never => by cases never
    | opened | read | release =>
      simp only [serve,if_neg ready]
      exact .nothing fun set => absurd set ready

theorem keptStep (s : Session) (t : Turn) (kept : Kept owner s) : Kept owner (serveTurn owner s t) := by
  have step := turnStep owner s t
  generalize serveTurn owner s t = next at step
  cases step with
  | setUp asked ready shared => exact ⟨kept.opens,shared⟩
  | access ready touched root proper =>
    refine ⟨?_,kept.root⟩
    rw [heldAppend,kept.opens]
  | nothing proper => exact kept

theorem confinedStep (s : Session) (t : Turn) (kept : Kept owner s) :
    Confined owner (serveTurn owner s t).log ↔ Confined owner s.log ∧ Proper s t := by
  have step := turnStep owner s t
  generalize serveTurn owner s t = next at step
  cases step with
  | setUp asked ready shared => rw [and_iff_left (by simp [Proper,asked])]
  | nothing proper => rw [and_iff_left proper]
  | access ready touched root proper =>
    rw [confinedAppend,proper]
    refine and_congr_right fun _ => ?_
    cases touched with
    | opens top path got =>
      have shared : top ∈ owner.shareFolders := root ▸ kept.root ready
      rw [Allowed,and_iff_right shared,Within]
    | reads fd => rw [Allowed,Within,kept.opens]
    | closes fd done => rw [Allowed,Within,kept.opens]

theorem confinedRun (s : Session) (turns : List Turn) (kept : Kept owner s) :
    Confined owner (run (serveTurn owner) s turns).log ↔ Confined owner s.log ∧ Meets (serveTurn owner) Proper s turns :=
  meetsIff (P := Kept owner) (Q := fun s => Confined owner s.log) (keptStep owner) (confinedStep owner) kept turns

theorem freshKept : Kept owner {} := ⟨rfl,fun ready => by cases ready⟩

theorem freshConfined : Confined owner ({} : Session).log := fun before entry after same => by
  exact absurd same (by simp)

theorem accessConfinedIff (turns : List Turn) :
    Confined owner (run (serveTurn owner) {} turns).log ↔ Meets (serveTurn owner) Proper {} turns := by
  rw [confinedRun owner {} turns (freshKept owner),and_iff_right (freshConfined owner)]

/- A path of names behind a slash is proper, where no links are below the root. -/
theorem plainOpenProper {s : Session} {t : Turn} {rid : UInt64} {flags : UInt32} {path : Bytes} {top : Location}
    (asked : t.request = .opened rid flags (FileTree.slash :: path)) (rooted : s.state.shareRoot ≠ [])
    (whole : 0 ∉ s.state.shareRoot ++ FileTree.slash :: path) (found : t.tree.locate s.state.shareRoot = some top)
    (plain : ∀ place, top <+: place → t.tree.link place = none)
    (names : FileTree.dots ∉ path.splitOn FileTree.slash) : Proper s t := by
  intro _
  have same (str : Bytes) (none : 0 ∉ str) : cString str = str :=
    List.takeWhile_eq_self_iff.mpr fun byte inside => by simpa using fun zero : byte = 0 => none (zero ▸ inside)
  rw [asked]
  dsimp only
  rw [same _ whole,same _ fun inside => whole (List.mem_append_left _ inside)]
  exact FileTree.plainInside rooted found plain names

end

def noLinks : FileTree := ⟨[],fun _ => none⟩

/- A system that opens whatever it is asked to. -/
def openAll : Kernel where
  errno := 0
  getuid := 1000
  getgid := 1000
  openFile _ _ := .ok 3
  closeFile _ := .ok ()
  lseek _ _ := .ok 0
  readFile _ _ _ := .ok []

/- The share is "/s", and the server opens "/../x" in it. -/
def upwards : List Turn :=
  [⟨noLinks,openAll,.init [0x2F,0x73]⟩,⟨noLinks,openAll,.opened 1 0 [0x2F,0x2E,0x2E,0x2F,0x78]⟩]

theorem upwardsOutside : ¬ Confined ⟨[[0x2F,0x73]],fun _ => ⟨[],[]⟩⟩
    (run (serveTurn ⟨[[0x2F,0x73]],fun _ => ⟨[],[]⟩⟩) {} upwards).log := by
  rw [confinedRun _ {} upwards (freshKept _)]
  rintro ⟨_,_,second,_⟩
  have place : noLinks.locate [0x2F,0x73,0x2F,0x2E,0x2E,0x2F,0x78] = some [[0x78]] := by
    have parts : ([0x2F,0x73,0x2F,0x2E,0x2E,0x2F,0x78] : Bytes).splitOn FileTree.slash =
        [[],[0x73],FileTree.dots,[0x78]] := by decide
    rw [FileTree.locate,parts]
    simp [FileTree.walk,noLinks,FileTree.dot,FileTree.dots,FileTree.slash]
  have top : noLinks.locate [0x2F,0x73] = some [[0x73]] := by
    have parts : ([0x2F,0x73] : Bytes).splitOn FileTree.slash = [[],[0x73]] := by decide
    rw [FileTree.locate,parts]
    simp [FileTree.walk,noLinks,FileTree.dot,FileTree.dots,FileTree.slash]
  obtain ⟨dir,same,below⟩ := second rfl _ place
  have root : noLinks.locate [0x2F,0x73] = some dir := same
  rw [top] at root
  cases root
  exact absurd below (by decide)

end Ltsm.FuseConfinement
