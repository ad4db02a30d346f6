import Ltsm.KernelDirents

/-! Which shared folders the session shows whole: each item that the client has found, at its
path and with its own attributes, and each folder with exactly what is in it. -/
namespace Ltsm.FuseCompleteness
open Library FuseClient FuseReplies ShareTree FuseSession FuseHandshake FuseNamespace
open FileTree (slash dot dots)

section
variable (fs : FileSystem) (hash : HashOrder) (dirent : Dirent) (host : Host) (kernel : Kernel) (dir : Bytes)

def children (path : Bytes) : List Bytes :=
  ((fs.found dir).filter fun item => parentPath item.path = path).map fun item => fileName item.path

structure Complete (s : Session) : Prop where
  lookups : ∀ item ∈ fs.found dir,
    s.walk 1 (components (item.path.drop dir.length)) = some (forced host kernel.getuid kernel.getgid item.st)
  root : Lists dirent s 1 (children fs dir dir)
  folders : ∀ item ∈ fs.found dir, item.st.mode &&& S_IFMT = S_IFDIR →
    Lists dirent s item.st.ino (children fs dir item.path)

/- A handshake for a shared folder goes through, and leaves the session with the whole namespace. -/
def NamespaceComplete (shares : List Bytes) (state : State) : Prop :=
  ∃ s left, (remoteHandshake host dir).run
      (fuseOpInit ⟨dir :: shares,fs.shareRootInfo hash⟩ kernel state dir).reply = some (s,left) ∧
    Complete fs dirent host kernel dir s

def PlainFolder : Prop := dir ≠ [] ∧ dir.getLast? ≠ some slash

/- No two of the items that were found are one inode, none has that of the session's root, each
stands in the share or in another one of them, and their number fits in the count. The share
itself is named without a slash at the end. -/
structure Flattens : Prop where
  plain : fs.found dir ≠ [] → PlainFolder dir
  few : (fs.found dir).length < 4294967296
  once : ((fs.found dir).map fun item => item.st.ino).Nodup
  other : ∀ item ∈ fs.found dir, item.st.ino ≠ 1
  whole : ∀ item ∈ fs.found dir, parentPath item.path = dir ∨ parentPath item.path ∈ (fs.found dir).map FileSystem.Item.path

/- The inodes behind the count that goes with them. -/
def sent : List (Bytes × Stat) :=
  (fs.shareRootInfo hash dir).inodes.take ((fs.shareRootInfo hash dir).inodes.length % 256 ^ 4)

def entriesOf : List (Bytes × Stat) := ((sent fs hash dir).filter fun e => e.2.ino ≠ 1).map fun e =>
  (e.1.drop dir.length,forced host kernel.getuid kernel.getgid e.2)

section
variable {fs hash host kernel dir}

theorem memShareInodes {x : UInt64 × Bytes × Stat} (inside : x ∈ hash.order (fs.inodes dir)) :
    ∃ item ∈ fs.found dir, (item.st.ino,item.path,item.st) = x :=
  memInodes fs ((hash.perm _).mem_iff.mp inside)

theorem sentFound {e : Bytes × Stat} (inside : e ∈ sent fs hash dir) :
    ∃ item ∈ fs.found dir, (item.path,item.st) = e := by
  obtain ⟨x,ordered,rfl⟩ := List.mem_map.mp (List.mem_of_mem_take inside)
  obtain ⟨item,found,rfl⟩ := memShareInodes ordered
  exact ⟨item,found,rfl⟩

theorem itemUnique {one two : FileSystem.Item} (first : one ∈ fs.found dir) (second : two ∈ fs.found dir)
    (same : one.path = two.path) : one = two :=
  List.inj_on_of_nodup_map (foundOnce fs dir) first second same

theorem shareInos : ((fs.shareRootInfo hash dir).inodes.map fun e => e.2.ino).Nodup := by
  have keys : (keysOf (hash.order (fs.inodes dir))).Nodup :=
    ((hash.perm _).map Prod.fst).nodup_iff.mpr (inodesOnce fs dir)
  have same : ((fs.shareRootInfo hash dir).inodes.map fun e => e.2.ino) = keysOf (hash.order (fs.inodes dir)) := by
    rw [FileSystem.shareRootInfo,List.map_map]
    refine List.map_congr_left fun x inside => ?_
    obtain ⟨item,_,rfl⟩ := memShareInodes inside
    rfl
  rwa [same]

theorem sentInos : ((sent fs hash dir).map fun e => e.2.ino).Nodup :=
  ((List.take_sublist _ _).map _).nodup shareInos

theorem sentPaths : ((sent fs hash dir).map Prod.fst).Nodup := by
  refine List.Nodup.map_on ?_ sentInos.of_map
  intro one first two second same
  obtain ⟨_,here,rfl⟩ := sentFound first
  obtain ⟨_,there,rfl⟩ := sentFound second
  cases itemUnique here there same
  rfl

theorem foundPrefix {item : FileSystem.Item} (inside : item ∈ fs.found dir) : dir <+: item.path := by
  obtain ⟨_,name,names,path⟩ := foundBelow fs inside
  rw [path,joined]
  split
  · exact (List.prefix_append _ _).trans (List.prefix_append _ _)
  · exact (List.prefix_append _ _).trans (List.prefix_append _ _)

theorem sentPrefix {e : Bytes × Stat} (inside : e ∈ sent fs hash dir) : dir <+: e.1 := by
  obtain ⟨item,found,rfl⟩ := sentFound inside
  exact foundPrefix found

theorem dropInjective {one two : Bytes} (first : dir <+: one) (second : dir <+: two)
    (same : one.drop dir.length = two.drop dir.length) : one = two := by
  obtain ⟨more,rfl⟩ := first
  obtain ⟨rest,rfl⟩ := second
  rw [List.drop_left,List.drop_left] at same
  rw [same]

theorem foundNames {item : FileSystem.Item} (plain : PlainFolder dir) (inside : item ∈ fs.found dir) :
    ∃ names name, item.path = dir ++ slashed (names ++ [name]) := by
  obtain ⟨all,filled,path⟩ := foundPlain fs plain inside
  obtain ⟨names,name,rfl⟩ := (List.eq_nil_or_concat all).resolve_left filled
  exact ⟨names,name,by rw [path,List.concat_eq_append]⟩

/- Below any other folder the first name has no slash before it. -/
theorem foundLoose {item : FileSystem.Item} (loose : ¬PlainFolder dir) (inside : item ∈ fs.found dir) :
    ∃ (name : Name) (names : List Name), item.path = dir ++ (name.val ++ slashed names) := by
  obtain ⟨_,name,names,path⟩ := foundBelow fs inside
  refine ⟨name,names,?_⟩
  rw [path,joined,if_pos (by rw [PlainFolder] at loose; tauto),List.append_assoc]

theorem sentBelow {e : Bytes × Stat} (inside : e ∈ sent fs hash dir) : e.1.drop dir.length ≠ [slash] := by
  obtain ⟨item,found,rfl⟩ := sentFound inside
  dsimp only
  by_cases plain : PlainFolder dir
  · obtain ⟨names,name,path⟩ := foundNames plain found
    rw [path,List.drop_left]
    exact slashedBelow (by simp)
  · obtain ⟨name,names,path⟩ := foundLoose plain found
    rw [path,List.drop_left]
    intro root
    obtain ⟨c,rest,shape⟩ := List.exists_cons_of_ne_nil name.property.1
    rw [shape,List.cons_append] at root
    have first : c = slash := (List.cons.inj root).1
    exact name.property.2 (by rw [shape,first]; exact List.mem_cons_self)

theorem keptEntries : kept dir ((sent fs hash dir).map fun st => (st.1,forced host kernel.getuid kernel.getgid st.2)) =
    entriesOf fs hash host kernel dir := by
  rw [kept,List.filter_map,List.map_map]
  rfl

theorem memEntries {e : Bytes × Stat} : e ∈ entriesOf fs hash host kernel dir ↔
    ∃ x ∈ sent fs hash dir, x.2.ino ≠ 1 ∧ (x.1.drop dir.length,forced host kernel.getuid kernel.getgid x.2) = e := by
  simp only [entriesOf,List.mem_map,List.mem_filter,decide_eq_true_eq,and_assoc]

theorem filledMaps : Maps host (entriesOf fs hash host kernel dir)
    (filled host kernel.getuid kernel.getgid dir (sent fs hash dir)) := by
  have inodes : (keysOf (start host).inodes ++ (entriesOf fs hash host kernel dir).map fun e => e.2.ino).Nodup := by
    have same : ((entriesOf fs hash host kernel dir).map fun e => e.2.ino) =
        ((sent fs hash dir).filter fun e => e.2.ino ≠ 1).map fun e => e.2.ino := by
      rw [entriesOf,List.map_map]
      rfl
    rw [same]
    refine List.nodup_cons.mpr ⟨?_,(List.filter_sublist.map _).nodup sentInos⟩
    intro root
    obtain ⟨e,inside,one⟩ := List.mem_map.mp root
    exact of_decide_eq_true (List.mem_filter.mp inside).2 one
  have pathes : (keysOf (start host).pathes ++ (entriesOf fs hash host kernel dir).map fun e => e.1).Nodup := by
    have same : ((entriesOf fs hash host kernel dir).map fun e => e.1) =
        ((sent fs hash dir).filter fun e => e.2.ino ≠ 1).map fun e => e.1.drop dir.length := by
      rw [entriesOf,List.map_map]
      rfl
    rw [same]
    refine List.nodup_cons.mpr ⟨?_,List.Nodup.map_on ?_ (sentInos.of_map.filter _)⟩
    · intro root
      obtain ⟨e,inside,one⟩ := List.mem_map.mp root
      exact sentBelow (List.mem_of_mem_filter inside) one
    · intro one first two second same
      have first := List.mem_of_mem_filter first
      have second := List.mem_of_mem_filter second
      exact keyUnique sentPaths first second (dropInjective (sentPrefix first) (sentPrefix second) same)
  have below : ∀ e ∈ (sent fs hash dir).map fun st => (st.1,forced host kernel.getuid kernel.getgid st.2), dir <+: e.1 := by
    intro e inside
    obtain ⟨x,first,rfl⟩ := List.mem_map.mp inside
    exact (sentPrefix first : dir <+: x.1)
  rw [← keptEntries] at inodes pathes ⊢
  have built := addInodes below inodes pathes
  rw [filled,built]
  exact ⟨rfl,rfl,by simpa [keysOf,Function.comp_def] using inodes,by simpa [keysOf] using pathes⟩

/- What a name without its slash is asked for. -/
theorem componentsLoose (name : Name) (names : List Name) :
    components (name.val ++ slashed names) = (name :: names).map Subtype.val := by
  rw [← componentsSlashed]
  have bare : components (slashed (name :: names)) = components (name.val ++ slashed names) := by
    have split : (slash :: (name.val ++ slashed names)).splitOn slash = [] :: (name.val ++ slashed names).splitOn slash :=
      List.splitOn_append_cons_self_of_not_mem List.not_mem_nil _
    have shape : slashed (name :: names) = slash :: (name.val ++ slashed names) := rfl
    rw [components,components,shape,split,List.filter_cons_of_neg (by simp)]
  exact bare.symm

section
variable {s : Session} (maps : Maps host (entriesOf fs hash host kernel dir) s)
include maps

theorem plainOf (lookups : ∀ item ∈ fs.found dir,
    s.walk 1 (components (item.path.drop dir.length)) = some (forced host kernel.getuid kernel.getgid item.st)) :
    fs.found dir ≠ [] → PlainFolder dir := by
  intro some
  by_contra loose
  obtain ⟨item,inside⟩ := List.exists_mem_of_ne_nil _ some
  obtain ⟨name,names,path⟩ := foundLoose loose inside
  have walked := lookups item inside
  rw [path,List.drop_left,componentsLoose,@walkIff _ _ _ maps [] _ _ _ _ (List.cons_ne_nil _ _) maps.findInodeRoot] at walked
  obtain ⟨e,here,first⟩ := List.mem_map.mp (walked.2 [name] names (List.cons_ne_nil _ _) rfl)
  obtain ⟨x,sends,_,rfl⟩ := memEntries.mp here
  obtain ⟨other,found,rfl⟩ := sentFound sends
  obtain ⟨next,more,path⟩ := foundLoose loose found
  dsimp only at first
  rw [path,List.drop_left] at first
  obtain ⟨c,rest,shape⟩ := List.exists_cons_of_ne_nil next.property.1
  rw [shape,List.cons_append] at first
  have same : c = slash := (List.cons.inj first).1
  exact next.property.2 (by rw [shape,same]; exact List.mem_cons_self)

/- An item of a plain folder that is found again was sent, and so was each folder on its way. -/
theorem lookupIff {item : FileSystem.Item} {names : List Name} (filled : names ≠ [])
    (inside : item ∈ fs.found dir) (path : item.path = dir ++ slashed names) :
    s.walk 1 (components (item.path.drop dir.length)) = some (forced host kernel.getuid kernel.getgid item.st) ↔
      ((item.path,item.st) ∈ sent fs hash dir ∧ item.st.ino ≠ 1) ∧
        ∀ first rest, first ≠ [] → first ++ rest = names →
          ∃ e ∈ sent fs hash dir, e.2.ino ≠ 1 ∧ e.1 = dir ++ slashed first := by
  have key (first : List Name) : slashed first ∈ keysOf (entriesOf fs hash host kernel dir) ↔
      ∃ e ∈ sent fs hash dir, e.2.ino ≠ 1 ∧ e.1 = dir ++ slashed first := by
    constructor
    · intro there
      obtain ⟨_,there,same⟩ := List.mem_map.mp there
      obtain ⟨e,sends,other,rfl⟩ := memEntries.mp there
      refine ⟨e,sends,other,dropInjective (sentPrefix sends) (List.prefix_append _ _) ?_⟩
      rw [List.drop_left]
      exact same
    · rintro ⟨e,sends,other,path⟩
      refine List.mem_map.mpr ⟨_,memEntries.mpr ⟨e,sends,other,rfl⟩,?_⟩
      dsimp only
      rw [path,List.drop_left]
  have whole : (slashed names,forced host kernel.getuid kernel.getgid item.st) ∈ entriesOf fs hash host kernel dir ↔
      (item.path,item.st) ∈ sent fs hash dir ∧ item.st.ino ≠ 1 := by
    constructor
    · intro there
      obtain ⟨e,sends,other,same⟩ := memEntries.mp there
      obtain ⟨twin,found,rfl⟩ := sentFound sends
      have paths : twin.path = item.path := by
        refine dropInjective (foundPrefix found) (foundPrefix inside) ?_
        rw [path,List.drop_left]
        exact congrArg Prod.fst same
      cases itemUnique found inside paths
      exact ⟨sends,other⟩
    · rintro ⟨sends,other⟩
      refine memEntries.mpr ⟨_,sends,other,?_⟩
      rw [path,List.drop_left]
  rw [path,List.drop_left,componentsSlashed,@walkIff _ _ _ maps [] _ _ _ _ filled maps.findInodeRoot,← path,List.nil_append,whole]
  simp only [List.nil_append,key]

end

theorem parentBelow (plain : PlainFolder dir) (names : List Name) (name : Name) :
    parentPath (dir ++ slashed (names ++ [name])) = dir ++ slashed names ∧
      fileName (dir ++ slashed (names ++ [name])) = name.val := by
  have shape : dir ++ slashed (names ++ [name]) = (dir ++ slashed names) ++ slash :: name.val := by simp [slashed]
  have ends : (dir ++ slashed names).getLast? ≠ some slash := by
    cases names with
    | nil => simpa [slashed] using plain.2
    | cons first rest =>
      have filled : slashed (first :: rest) ≠ [] := List.cons_ne_nil _ _
      rw [List.getLast?_append_of_ne_nil _ filled]
      exact slashedEnds _
  rw [shape,parentPathBehind _ _ ends,fileNameBehind,if_neg (List.append_ne_nil_of_left_ne_nil plain.1 _)]
  exact ⟨rfl,rfl⟩

theorem shareFits : ∀ st ∈ (fs.shareRootInfo hash dir).inodes, st.1.length ≤ 0xFFFF := by
  intro st inside
  obtain ⟨x,ordered,rfl⟩ := List.mem_map.mp inside
  obtain ⟨item,found,rfl⟩ := memShareInodes ordered
  have short := (foundBelow fs found).1
  rw [PATH_MAX] at short
  dsimp only
  omega

theorem handshakeMaps {shares : List Bytes} {state : State} {s : Session} {left : Bytes}
    (ran : (remoteHandshake host dir).run (fuseOpInit ⟨dir :: shares,fs.shareRootInfo hash⟩ kernel state dir).reply =
      some (s,left)) : Maps host (entriesOf fs hash host kernel dir) s := by
  rw [handshakeRun host ⟨dir :: shares,fs.shareRootInfo hash⟩ kernel state dir List.mem_cons_self shareFits] at ran
  obtain ⟨out,_,last⟩ := Option.map_eq_some_iff.mp ran
  have maps := @filledMaps fs hash host kernel dir
  cases last
  exact ⟨maps.inodes,maps.pathes,maps.inodesOnce,maps.pathesOnce⟩

theorem sentFew : (sent fs hash dir).length < 4294967296 := by
  rw [sent,countTaken]
  exact Nat.mod_lt _ (by decide)

/- Where every lookup succeeds nothing that was found is missing in what was sent. -/
theorem flattensOf {shares : List Bytes} {state : State}
    (complete : NamespaceComplete fs hash dirent host kernel dir shares state) : Flattens fs dir := by
  obtain ⟨s,left,ran,complete⟩ := complete
  have maps := handshakeMaps ran
  have plain := plainOf maps complete.lookups
  have reached : ∀ item ∈ fs.found dir, ((item.path,item.st) ∈ sent fs hash dir ∧ item.st.ino ≠ 1) ∧
      (parentPath item.path = dir ∨ parentPath item.path ∈ (fs.found dir).map FileSystem.Item.path) := by
    intro item inside
    have folder := plain (List.ne_nil_of_mem inside)
    obtain ⟨names,name,path⟩ := foundNames folder inside
    obtain ⟨itself,above⟩ := (lookupIff maps (by simp) inside path).mp (complete.lookups item inside)
    refine ⟨itself,?_⟩
    rw [path,(parentBelow folder names name).1]
    by_cases root : names = []
    · left
      rw [root]
      exact List.append_nil dir
    · obtain ⟨e,sends,_,same⟩ := above names [name] root rfl
      obtain ⟨up,found,rfl⟩ := sentFound sends
      exact .inr (List.mem_map.mpr ⟨up,found,same⟩)
  have once : (fs.found dir).Nodup := (foundOnce fs dir).of_map
  have pairs : ((fs.found dir).map fun item => (item.path,item.st)).Nodup :=
    once.map_on fun one first two second same => itemUnique first second (congrArg Prod.fst same)
  refine ⟨plain,?_,?_,fun item inside => (reached item inside).1.2,fun item inside => (reached item inside).2⟩
  · have all : ((fs.found dir).map fun item => (item.path,item.st)) ⊆ sent fs hash dir := by
      intro e inside
      obtain ⟨item,found,rfl⟩ := List.mem_map.mp inside
      exact (reached item found).1.1
    have less := (List.subperm_of_subset pairs all).length_le
    rw [List.length_map] at less
    exact lt_of_le_of_lt less sentFew
  · refine once.map_on fun one first two second same => ?_
    have pair := List.inj_on_of_nodup_map sentInos (reached one first).1.1 (reached two second).1.1 same
    exact itemUnique first second (congrArg Prod.fst pair)

/- A folder on the way to an item that was found was found itself. -/
theorem aboveFound (flattens : Flattens fs dir) (plain : PlainFolder dir) {first rest : List Name} (some : first ≠ [])
    (below : dir ++ slashed (first ++ rest) ∈ (fs.found dir).map FileSystem.Item.path) :
    dir ++ slashed first ∈ (fs.found dir).map FileSystem.Item.path := by
  induction rest using List.reverseRecOn with
  | nil => rwa [List.append_nil] at below
  | append_singleton rest name ih =>
    rw [← List.append_assoc] at below
    obtain ⟨item,found,path⟩ := List.mem_map.mp below
    have parent := flattens.whole item found
    rw [path,(parentBelow plain (first ++ rest) name).1] at parent
    refine ih (parent.resolve_left fun same => ?_)
    obtain ⟨one,more,rfl⟩ := List.exists_cons_of_ne_nil some
    have none : slashed (one :: more ++ rest) = [] := by simpa using same
    exact List.cons_ne_nil _ _ none

theorem inodesAll (flattens : Flattens fs dir) :
    fs.inodes dir = (fs.found dir).map fun item => (item.st.ino,item.path,item.st) := by
  have keys : (keysOf ([] ++ (fs.found dir).map fun item => (item.st.ino,item.path,item.st))).Nodup := by
    simpa [keysOf,Function.comp_def] using flattens.once
  exact emplaceAllDistinct keys

theorem sentAll (flattens : Flattens fs dir) :
    (sent fs hash dir).Perm ((fs.found dir).map fun item => (item.path,item.st)) := by
  have inodes := inodesAll flattens
  have perm := (hash.perm (fs.inodes dir)).map Prod.snd
  have length := perm.length_eq
  rw [inodes,List.map_map] at perm
  rw [inodes,List.length_map,List.length_map,List.length_map] at length
  have few := flattens.few
  have whole : sent fs hash dir = (fs.shareRootInfo hash dir).inodes := by
    refine List.take_of_length_le (le_of_eq (Nat.mod_eq_of_lt ?_).symm)
    rw [FileSystem.shareRootInfo,inodes,List.length_map,length]
    exact few
  rw [whole,FileSystem.shareRootInfo,inodes]
  exact perm

/- The entries of the session, where the folder was found whole. -/
theorem entriesPerm (flattens : Flattens fs dir) : (entriesOf fs hash host kernel dir).Perm
    ((fs.found dir).map fun item => (item.path.drop dir.length,forced host kernel.getuid kernel.getgid item.st)) := by
  have sends := @sentAll fs hash dir flattens
  have all : (sent fs hash dir).filter (fun e => e.2.ino ≠ 1) = sent fs hash dir := by
    refine List.filter_eq_self.mpr fun e inside => ?_
    obtain ⟨item,found,rfl⟩ := sentFound inside
    exact decide_eq_true (flattens.other item found)
  have mapped := sends.map fun e => (e.1.drop dir.length,forced host kernel.getuid kernel.getgid e.2)
  rw [entriesOf,all]
  rwa [List.map_map] at mapped

/- What is shown of a folder, from its path in the session and from its path at the client. -/
theorem childrenPerm (flattens : Flattens fs dir) (front : List Name) :
    (((entriesOf fs hash host kernel dir).filter fun e => parentPath e.1 = rooted front).map fun e => fileName e.1).Perm
      (children fs dir (dir ++ slashed front)) := by
  have perm := ((@entriesPerm fs hash host kernel dir flattens).filter fun e => parentPath e.1 = rooted front).map fun e =>
    fileName e.1
  have same : ((((fs.found dir).map fun item => (item.path.drop dir.length,
      forced host kernel.getuid kernel.getgid item.st)).filter fun e => parentPath e.1 = rooted front).map fun e =>
        fileName e.1) = children fs dir (dir ++ slashed front) := by
    rw [List.filter_map,List.map_map,children]
    have names : ∀ item ∈ fs.found dir, (parentPath (item.path.drop dir.length) = rooted front ↔
        parentPath item.path = dir ++ slashed front) ∧ fileName (item.path.drop dir.length) = fileName item.path := by
      intro item inside
      have plain := flattens.plain (List.ne_nil_of_mem inside)
      obtain ⟨names,name,path⟩ := foundNames plain inside
      obtain ⟨parent,last⟩ := parentBelow plain names name
      rw [path,List.drop_left,parentSlashed,fileSlashed,parent,last]
      refine ⟨⟨fun same => by rw [rootedInjective same],fun same => ?_⟩,rfl⟩
      rw [slashedInjective (List.append_cancel_left same)]
    have chosen : (fs.found dir).filter ((fun e : Bytes × Stat => decide (parentPath e.1 = rooted front)) ∘ fun item =>
        (item.path.drop dir.length,forced host kernel.getuid kernel.getgid item.st)) =
          (fs.found dir).filter fun item => parentPath item.path = dir ++ slashed front :=
      List.filter_congr fun item inside => decide_eq_decide.mpr (names item inside).1
    rw [chosen]
    exact List.map_congr_left fun item inside => (names item (List.mem_of_mem_filter inside)).2
  rwa [same] at perm

theorem completeOf (dirent : Dirent) (shares : List Bytes) (state : State) (flattens : Flattens fs dir) :
    NamespaceComplete fs hash dirent host kernel dir shares state := by
  have few : (fs.shareRootInfo hash dir).inodes.length < 256 ^ 4 := by
    rw [FileSystem.shareRootInfo,List.length_map,(hash.perm _).length_eq,inodesAll flattens,List.length_map]
    exact flattens.few
  obtain ⟨out,links⟩ := linksRun few
  have ran := handshakeRun host ⟨dir :: shares,fs.shareRootInfo hash⟩ kernel state dir List.mem_cons_self shareFits
  dsimp only at ran
  rw [links,Option.map_some] at ran
  have maps := handshakeMaps ran
  have sends := @sentAll fs hash dir flattens
  have entries := @entriesPerm fs hash host kernel dir flattens
  have sentItem (item : FileSystem.Item) (inside : item ∈ fs.found dir) : (item.path,item.st) ∈ sent fs hash dir :=
    sends.mem_iff.mpr (List.mem_map.mpr ⟨item,inside,rfl⟩)
  have shapes : Plain (entriesOf fs hash host kernel dir) ∧
      ∀ e ∈ entriesOf fs hash host kernel dir, e.1.length < PATH_MAX := by
    refine forall₂_and.mp fun e inside => ?_
    obtain ⟨item,found,rfl⟩ := List.mem_map.mp (entries.mem_iff.mp inside)
    obtain ⟨names,name,path⟩ := foundNames (flattens.plain (List.ne_nil_of_mem found)) found
    have short := (foundBelow fs found).1
    refine ⟨⟨names,name,?_⟩,?_⟩
    · dsimp only
      rw [path,List.drop_left]
    · dsimp only
      rw [List.length_drop]
      omega
  have fits : (entriesOf fs hash host kernel dir).length < 256 ^ 4 := by
    rw [entries.length_eq,List.length_map]
    exact flattens.few
  refine ⟨_,_,ran,⟨fun item inside => ?_,?_,fun item inside folder => ?_⟩⟩
  · have plain := flattens.plain (List.ne_nil_of_mem inside)
    obtain ⟨names,name,path⟩ := foundNames plain inside
    refine (lookupIff maps (by simp) inside path).mpr
      ⟨⟨sentItem item inside,flattens.other item inside⟩,fun first rest filled split => ?_⟩
    have below : dir ++ slashed (first ++ rest) ∈ (fs.found dir).map FileSystem.Item.path := by
      rw [split,← path]
      exact List.mem_map_of_mem inside
    obtain ⟨up,found,same⟩ := List.mem_map.mp (aboveFound flattens plain filled below)
    exact ⟨_,sentItem up found,flattens.other up found,same⟩
  · have children := @childrenPerm fs hash host kernel dir flattens []
    have root : dir ++ slashed [] = dir := List.append_nil dir
    rw [root] at children
    exact listsShown maps dirent shapes.1 shapes.2 fits maps.findInodeRoot host.localDir children
  · have plain := flattens.plain (List.ne_nil_of_mem inside)
    obtain ⟨names,name,path⟩ := foundNames plain inside
    have entry : (item.path.drop dir.length,forced host kernel.getuid kernel.getgid item.st) ∈
        entriesOf fs hash host kernel dir := entries.mem_iff.mpr (List.mem_map.mpr ⟨item,inside,rfl⟩)
    have here := maps.findInodeOf entry
    have shape : item.path.drop dir.length = rooted (names ++ [name]) := by
      rw [path,List.drop_left,rooted,if_neg (by simp)]
    rw [shape] at here
    rw [path]
    exact listsShown maps dirent shapes.1 shapes.2 fits here folder (childrenPerm flattens _)

end

end

/- A share with one file of two names. -/
namespace TwoNames

def share : Bytes := [47,115]
def first : Name := ⟨[97],by decide⟩
def second : Name := ⟨[98],by decide⟩
def file : Stat := ⟨1,7,0x81A4,2,0,0,0,0,0,0,0,0,0⟩
def folder : Stat := ⟨1,2,0x41ED,2,0,0,0,0,0,0,0,0,0⟩

def entries (path : Bytes) : List Name := if path = share then [first,second] else []

def status (path : Bytes) : Option Stat :=
  if path = share then some folder
  else if path = [47,115,47,97] ∨ path = [47,115,47,98] then some file
  else none

theorem entriesOnce (path : Bytes) : (entries path).Nodup := by
  rw [entries]
  split
  · decide
  · exact List.nodup_nil

def system : FileSystem where
  entries := entries
  once := entriesOnce
  stat := status
  status := status
  readSymlink _ := none
  absolute folder path := folder ++ path

def inOrder : HashOrder := ⟨id,fun entries => List.Perm.refl entries⟩

def host : Host := ⟨0,0,folder,by decide⟩

theorem readShare : system.readDir share = [[47,115,47,97],[47,115,47,98]] := by
  have one : system.isDirectory (joined share first.val) = false := by decide
  have two : system.isDirectory (joined share second.val) = false := by decide
  have all : system.entries share = [first,second] := by decide
  rw [FileSystem.readDir,dif_pos (by decide),all]
  simp only [List.flatMap_cons,List.flatMap_nil,one,two]
  decide

end TwoNames

end Ltsm.FuseCompleteness
