import Ltsm.FuseClient
import Ltsm.Library.EmplaceMap
import Ltsm.Library.PathNames

/-! What the client finds below a folder that it shares, and what it sends of it. -/
namespace Ltsm.ShareTree
open Library FuseClient
open FileTree (slash)

def S_IFMT : UInt32 := 0xF000
def S_IFDIR : UInt32 := 0x4000
def S_IFREG : UInt32 := 0x8000
def S_IFLNK : UInt32 := 0xA000

/- The longest path the system takes. -/
def PATH_MAX : Nat := 4096

/- The file system of the client: the entries of a directory in the order it gives them, what
is seen through a link, and what is not. -/
structure FileSystem where
  entries : Bytes → List Name
  once : ∀ path, (entries path).Nodup
  stat : Bytes → Option Stat
  status : Bytes → Option Stat
  readSymlink : Bytes → Option Bytes
  absolute : Bytes → Bytes → Bytes

/- How an unordered map goes through its entries. -/
structure HashOrder where
  order : List (UInt64 × Bytes × Stat) → List (UInt64 × Bytes × Stat)
  perm : ∀ entries, (order entries).Perm entries

namespace FileSystem
variable (fs : FileSystem)

def lstat (path : Bytes) : Option Stat := if path.length < PATH_MAX then fs.status path else none

def isDirectory (path : Bytes) : Bool := (fs.stat path).any fun st => st.mode &&& S_IFMT = S_IFDIR

/- Tools::readDir with recursion: what is below a directory goes before it. -/
def readDir (path : Bytes) : List Bytes :=
  if _small : path.length < PATH_MAX then
    (fs.entries path).flatMap fun name =>
      (if fs.isDirectory (joined path name.val) then readDir (joined path name.val) else []) ++ [joined path name.val]
  else []
termination_by PATH_MAX - path.length
decreasing_by
  have filled := List.length_pos_iff.mpr name.property.1
  have longer : path.length < (joined path name.val).length := by
    rw [joined]
    split <;> simp only [List.length_append,List.length_cons] <;> omega
  omega

/- Where a symbolic link leads: relative to its folder, unless there is nothing but slashes. -/
def linkTo (path : Bytes) : Option Bytes := (fs.readSymlink path).map fun linkto =>
  if linkto.any (· ≠ slash) then fs.absolute (parentPath path) linkto else linkto

/- The scope is a prefix of the text. -/
def readSymLink (path : Bytes) (ino1 : UInt64) (dir : Bytes) : Option (UInt64 × UInt64) := do
  let linkto ← fs.linkTo path
  if dir <+: linkto then
    let st2 ← fs.stat linkto
    some (ino1,st2.ino)
  else none

/- An item that goes into the map, and into the list of the links if it is one. -/
structure Item where
  path : Bytes
  st : Stat
  link : Option (UInt64 × UInt64) := none

/- One turn of the loop in replyWriteShareRootInfo. -/
def collect (dir path : Bytes) : Option Item := do
  let st ← fs.lstat path
  if st.mode &&& S_IFMT = S_IFLNK then
    let link ← fs.readSymLink path st.ino dir
    some ⟨path,st,some link⟩
  else if st.mode &&& S_IFMT = S_IFDIR ∨ st.mode &&& S_IFMT = S_IFREG then some ⟨path,st,none⟩
  else none

def found (dir : Bytes) : List Item := (fs.readDir dir).filterMap (fs.collect dir)

/- The map of the inodes, for the first path of each. -/
def inodes (dir : Bytes) : List (UInt64 × Bytes × Stat) :=
  emplaceAll [] ((fs.found dir).map fun item => (item.st.ino,item.path,item.st))

def shareRootInfo (hash : HashOrder) (dir : Bytes) : ShareInfo :=
  {inodes := (hash.order (fs.inodes dir)).map Prod.snd, symlinks := (fs.found dir).filterMap Item.link}

end FileSystem

/- What stands before a name that is joined to a path. -/
def base (path : Bytes) : Bytes := if path = [] ∨ path.getLast? = some slash then path else path ++ [slash]

theorem joinedBase (path name : Bytes) : joined path name = base path ++ name := by
  rw [joined,base]
  split <;> simp

/- A name behind a name always gets a slash. -/
theorem joinedTwice (path : Bytes) (first second : Name) :
    joined (joined path first.val) second.val = joined path first.val ++ slashed [second] := by
  obtain ⟨filled,single⟩ := first.property
  have ends : (joined path first.val).getLast? ≠ some slash := by
    rw [joinedBase,List.getLast?_append_of_ne_nil _ filled]
    exact fun last => single (List.mem_of_getLast? last)
  have some : joined path first.val ≠ [] := by
    rw [joinedBase]
    exact List.append_ne_nil_of_right_ne_nil _ filled
  rw [joined,if_neg (by simp [some,ends])]
  simp [slashed]

theorem joinedInjective {path : Bytes} {first second : Name} {these those : List Name}
    (same : joined path first.val ++ slashed these = joined path second.val ++ slashed those) : first = second := by
  rw [joinedBase,joinedBase,List.append_assoc,List.append_assoc] at same
  have paths : slashed (first :: these) = slashed (second :: those) :=
    congrArg (slash :: ·) (List.append_cancel_left same)
  exact (List.cons.inj (slashedInjective paths)).1

section
variable (fs : FileSystem)

/- A path of the walk is that of an entry of the directory, or lies below it. -/
theorem readDirBelow {path p : Bytes} (inside : p ∈ fs.readDir path) :
    ∃ (name : Name) (names : List Name), p = joined path name.val ++ slashed names := by
  induction path using FileSystem.readDir.induct with
  | case1 path small ih =>
    rw [FileSystem.readDir,dif_pos small] at inside
    obtain ⟨name,_,inside⟩ := List.mem_flatMap.mp inside
    rcases List.mem_append.mp inside with deep | here
    · split at deep
      · obtain ⟨next,names,rfl⟩ := ih name deep
        refine ⟨name,next :: names,?_⟩
        rw [joinedTwice,List.append_assoc,← slashedAppend,List.singleton_append]
      · cases deep
    · exact ⟨name,[],by rw [List.mem_singleton.mp here]; simp [slashed]⟩
  | case2 path long =>
    rw [FileSystem.readDir,dif_neg long] at inside
    cases inside

theorem readDirOnce (path : Bytes) : (fs.readDir path).Nodup := by
  induction path using FileSystem.readDir.induct with
  | case1 path small ih =>
    rw [FileSystem.readDir,dif_pos small,List.nodup_flatMap]
    -- whatever a name brings begins with the name
    have begins : ∀ (name : Name) (p : Bytes), p ∈ (if fs.isDirectory (joined path name.val) then
        fs.readDir (joined path name.val) else []) ++ [joined path name.val] →
        ∃ names, p = joined path name.val ++ slashed names := by
      intro name p inside
      rcases List.mem_append.mp inside with deep | here
      · split at deep
        · obtain ⟨next,names,rfl⟩ := readDirBelow fs deep
          exact ⟨next :: names,by rw [joinedTwice,List.append_assoc,← slashedAppend,List.singleton_append]⟩
        · cases deep
      · exact ⟨[],by rw [List.mem_singleton.mp here]; simp [slashed]⟩
    refine ⟨fun name _ => ?_,(fs.once path).imp ?_⟩
    · split
      · refine (ih name).append (List.nodup_singleton _) ?_
        rw [List.disjoint_singleton]
        intro itself
        obtain ⟨next,names,same⟩ := readDirBelow fs itself
        rw [joinedTwice,List.append_assoc] at same
        have longer := congrArg List.length same
        simp [slashed] at longer
      · exact List.nodup_singleton _
    · intro first second other p one two
      obtain ⟨these,rfl⟩ := begins first p one
      obtain ⟨those,same⟩ := begins second _ two
      exact other (joinedInjective same)
  | case2 path long =>
    rw [FileSystem.readDir,dif_neg long]
    exact List.nodup_nil

theorem collectPath {dir path : Bytes} {item : FileSystem.Item} (got : fs.collect dir path = some item) :
    item.path = path ∧ path.length < PATH_MAX := by
  obtain ⟨st,seen,rest⟩ := Option.bind_eq_some_iff.mp got
  have short : path.length < PATH_MAX := by
    rw [FileSystem.lstat] at seen
    split at seen
    · assumption
    · cases seen
  refine ⟨?_,short⟩
  split at rest
  · obtain ⟨link,_,last⟩ := Option.bind_eq_some_iff.mp rest
    cases Option.some.inj last
    rfl
  · split at rest
    · cases Option.some.inj rest
      rfl
    · cases rest

theorem collectedPaths (dir : Bytes) (paths : List Bytes) :
    ((paths.filterMap (fs.collect dir)).map FileSystem.Item.path).Sublist paths := by
  induction paths with
  | nil => exact List.Sublist.slnil
  | cons path paths ih =>
    cases got : fs.collect dir path with
    | none =>
      rw [List.filterMap_cons_none got]
      exact ih.cons path
    | some item =>
      rw [List.filterMap_cons_some got,List.map_cons,(collectPath fs got).1]
      exact ih.cons_cons path

theorem foundOnce (dir : Bytes) : ((fs.found dir).map FileSystem.Item.path).Nodup :=
  (collectedPaths fs dir _).nodup (readDirOnce fs dir)

theorem foundBelow {dir : Bytes} {item : FileSystem.Item} (inside : item ∈ fs.found dir) :
    item.path.length < PATH_MAX ∧
      ∃ (name : Name) (names : List Name), item.path = joined dir name.val ++ slashed names := by
  obtain ⟨path,walked,got⟩ := List.mem_filterMap.mp inside
  obtain ⟨rfl,short⟩ := collectPath fs got
  exact ⟨short,readDirBelow fs walked⟩

/- Below a folder that does not end in a slash, the names follow with a slash before each. -/
theorem foundPlain {dir : Bytes} {item : FileSystem.Item} (plain : dir ≠ [] ∧ dir.getLast? ≠ some slash)
    (inside : item ∈ fs.found dir) : ∃ names, names ≠ [] ∧ item.path = dir ++ slashed names := by
  obtain ⟨_,name,names,path⟩ := foundBelow fs inside
  refine ⟨name :: names,List.cons_ne_nil _ _,?_⟩
  rw [path,joined,if_neg (by simp [plain])]
  simp [slashed]

theorem memInodes {dir : Bytes} {x : UInt64 × Bytes × Stat} (inside : x ∈ fs.inodes dir) :
    ∃ item ∈ fs.found dir, (item.st.ino,item.path,item.st) = x := by
  rcases memEmplaceAll inside with none | here
  · cases none
  · exact List.mem_map.mp here

theorem inodesOnce (dir : Bytes) : (keysOf (fs.inodes dir)).Nodup := keysEmplaceAll List.nodup_nil

end

end Ltsm.ShareTree
