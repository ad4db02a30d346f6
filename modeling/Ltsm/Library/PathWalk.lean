import Mathlib.Data.List.Infix
import Ltsm.Library.ByteReader

/-! Where the system ends up when it walks a path: components one after the other, up for
`..`, and through symbolic links, of which it follows only so many. -/
namespace Ltsm.Library

/- A place, as the proper components below the root. -/
abbrev Location := List Bytes

structure LinkTarget where
  absolute : Bool
  parts : List Bytes
  deriving DecidableEq, Repr

def LinkTarget.start (target : LinkTarget) (dir : Location) : Location := if target.absolute then [] else dir

/- The working directory, and what stands in the symbolic links. -/
structure FileTree where
  cwd : Location
  link : Location → Option LinkTarget

namespace FileTree

def slash : UInt8 := 0x2F
def dot : Bytes := [0x2E]
def dots : Bytes := [0x2E,0x2E]

def maxLinks : Nat := 40

/- `fuel` links may still be followed. -/
def walk (tree : FileTree) : Nat → Location → List Bytes → Option Location
  | _, dir, [] => some dir
  | fuel, dir, name :: rest =>
    if name = [] ∨ name = dot then tree.walk fuel dir rest
    else if name = dots then tree.walk fuel dir.dropLast rest
    else match tree.link (dir ++ [name]) with
      | none => tree.walk fuel (dir ++ [name]) rest
      | some target =>
        match fuel with
        | 0 => none
        | fuel + 1 => tree.walk fuel (target.start dir) (target.parts ++ rest)
termination_by fuel _ names => (fuel,names.length)

def locate (tree : FileTree) (path : Bytes) : Option Location :=
  tree.walk maxLinks (if path.head? = some slash then [] else tree.cwd) (path.splitOn slash)

/- The path leads to the place of the root or below it, or nowhere. -/
def Inside (tree : FileTree) (root path : Bytes) : Prop :=
  ∀ place, tree.locate path = some place → ∃ top, tree.locate root = some top ∧ top <+: place
instance (tree root path) : Decidable (Inside tree root path) :=
  match found : tree.locate path, top : tree.locate root with
  | none, _ => isTrue fun _ same => by rw [found] at same; cases same
  | some place, none => isFalse fun inside => by
      obtain ⟨_,same,_⟩ := inside place found
      rw [top] at same
      cases same
  | some place, some dir =>
    decidable_of_iff (dir <+: place) ⟨fun below _ same => ⟨dir,top,by rw [found] at same; cases same; exact below⟩,
      fun inside => by
        obtain ⟨_,same,below⟩ := inside place found
        rw [top] at same
        cases same
        exact below⟩

/- Through names only: from one place the walk goes down, and no link turns it aside. -/
theorem walkBelow {tree : FileTree} {top : Location} (plain : ∀ place, top <+: place → tree.link place = none)
    {fuel : Nat} {dir place : Location} {names : List Bytes} (proper : dots ∉ names) (below : top <+: dir)
    (found : tree.walk fuel dir names = some place) : top <+: place := by
  induction names generalizing dir with
  | nil =>
    rw [walk] at found
    cases Option.some.inj found
    exact below
  | cons name rest ih =>
    obtain ⟨notUp,proper⟩ := not_or.mp fun either => proper (List.mem_cons.mpr either)
    have deeper : top <+: dir ++ [name] := below.trans (List.prefix_append dir [name])
    rw [walk] at found
    split at found
    · exact ih proper below found
    · rw [if_neg fun same => notUp same.symm,plain _ deeper] at found
      exact ih proper deeper found

/- Once the first components lead somewhere, the others are walked from there. -/
theorem walkAppend {tree : FileTree} {fuel : Nat} {dir middle : Location} {first : List Bytes}
    (found : tree.walk fuel dir first = some middle) :
    ∃ left, ∀ second, tree.walk fuel dir (first ++ second) = tree.walk left middle second := by
  fun_induction walk tree fuel dir first with
  | case1 fuel dir =>
    cases Option.some.inj found
    exact ⟨fuel,fun _ => rfl⟩
  | case2 fuel dir name rest stays ih =>
    obtain ⟨left,same⟩ := ih found
    exact ⟨left,fun second => by rw [List.cons_append,walk,if_pos stays,same]⟩
  | case3 fuel dir rest moves ih =>
    obtain ⟨left,same⟩ := ih found
    exact ⟨left,fun second => by rw [List.cons_append,walk,if_neg moves,if_pos rfl,same]⟩
  | case4 fuel dir name rest moves down plain ih =>
    obtain ⟨left,same⟩ := ih found
    refine ⟨left,fun second => ?_⟩
    rw [List.cons_append,walk,if_neg moves,if_neg down,plain]
    exact same second
  | case5 => cases found
  | case6 dir name rest moves down target linked fuel ih =>
    obtain ⟨left,same⟩ := ih found
    refine ⟨left,fun second => ?_⟩
    rw [List.cons_append,walk,if_neg moves,if_neg down,linked]
    dsimp only
    rw [← List.append_assoc,same]

/- A path below the root that goes up nowhere leads inside, where no links are. -/
theorem plainInside {tree : FileTree} {root path : Bytes} {top : Location} (any : root ≠ [])
    (found : tree.locate root = some top) (plain : ∀ place, top <+: place → tree.link place = none)
    (proper : dots ∉ path.splitOn slash) : tree.Inside root (root ++ slash :: path) := by
  intro place reached
  refine ⟨top,found,?_⟩
  have head : (root ++ slash :: path).head? = root.head? := by
    cases root with
    | nil => exact absurd rfl any
    | cons => rfl
  have parts : (root ++ slash :: path).splitOn slash = root.splitOn slash ++ path.splitOn slash :=
    List.splitOnP_append_cons root path (by simp)
  rw [locate] at found
  obtain ⟨left,same⟩ := walkAppend found
  rw [locate,head,parts,same] at reached
  exact walkBelow plain proper (List.prefix_refl top) reached

end FileTree
end Ltsm.Library
