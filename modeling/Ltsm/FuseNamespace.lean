import Ltsm.FuseHandshake

/-! The namespace of a share in the session: what the kernel finds when it goes along a path,
and what it is shown in a folder. -/
namespace Ltsm.FuseNamespace
open Library FuseClient FuseReplies ShareTree FuseSession FuseHandshake
open FileTree (slash dot dots)

/- The maps of a session, with the root and these entries. -/
structure Maps (host : Host) (entries : List (Bytes × Stat)) (s : Session) : Prop where
  inodes : s.inodes = (1,[slash],host.localStat) :: entries.map fun e => (e.2.ino,e)
  pathes : s.pathes = ([slash],host.localStat) :: entries
  inodesOnce : (keysOf s.inodes).Nodup
  pathesOnce : (keysOf s.pathes).Nodup

namespace Maps
variable {host : Host} {entries : List (Bytes × Stat)} {s : Session} (maps : Maps host entries s)
include maps

theorem entryOnce : entries.Nodup := by
  have once := maps.pathesOnce
  rw [maps.pathes,keysOf,List.map_cons] at once
  exact (List.nodup_cons.mp once).2.of_map _

theorem findInodeOf {e : Bytes × Stat} (inside : e ∈ entries) : s.findInode e.2.ino = some e := by
  refine (findKeyIff maps.inodesOnce).mpr ?_
  rw [maps.inodes]
  exact List.mem_cons_of_mem _ (List.mem_map.mpr ⟨e,inside,rfl⟩)

theorem findInodeRoot : s.findInode 1 = some ([slash],host.localStat) := by
  refine (findKeyIff maps.inodesOnce).mpr ?_
  rw [maps.inodes]
  exact List.mem_cons_self

theorem findPath {path : Bytes} {st : Stat} (below : path ≠ [slash]) :
    findKey s.pathes path = some st ↔ (path,st) ∈ entries := by
  rw [findKeyIff maps.pathesOnce,maps.pathes,List.mem_cons]
  exact or_iff_right fun root => below (congrArg Prod.fst root)

end Maps

theorem slashedBelow {names : List Name} (filled : names ≠ []) : slashed names ≠ [slash] := by
  cases names with
  | nil => exact absurd rfl filled
  | cons name rest =>
    intro root
    have front : name.val ++ slashed rest = [] := (List.cons.inj root).2
    exact name.property.1 (List.append_eq_nil_iff.mp front).1

/- A name behind a folder of the session. -/
theorem joinPathRooted (names : List Name) (name : Name) : Session.joinPath (rooted names) name.val = slashed (names ++ [name]) := by
  have single : slashed [name] = slash :: name.val := by simp [slashed]
  rw [Session.joinPath,if_neg name.property.1,rooted]
  by_cases root : names = []
  · rw [if_pos root,root]
    simp [single]
  · obtain ⟨first,rest,rfl⟩ := List.exists_cons_of_ne_nil root
    have head : name.val.head? ≠ some slash := fun same => name.property.2 (List.mem_of_head? same)
    have below : slashed (first :: rest) ≠ [] := List.cons_ne_nil _ _
    rw [if_neg root,if_neg below,if_pos ⟨slashedEnds _,head⟩,slashedAppend,single]

/- Along the names from a folder there is an entry for each of them. -/
theorem walkIff {host : Host} {entries : List (Bytes × Stat)} {s : Session} (maps : Maps host entries s)
    {front names : List Name} {inode : UInt64} {above st : Stat} (many : names ≠ [])
    (here : s.findInode inode = some (rooted front,above)) :
    s.walk inode (names.map Subtype.val) = some st ↔
      (slashed (front ++ names),st) ∈ entries ∧
        ∀ first rest, first ≠ [] → first ++ rest = names → slashed (front ++ first) ∈ keysOf entries := by
  induction names generalizing front inode above with
  | nil => exact absurd rfl many
  | cons name names ih =>
    have child (st : Stat) : s.findChildStat inode name.val = some st ↔ (slashed (front ++ [name]),st) ∈ entries := by
      rw [Session.findChildStat,here,Option.bind_some,joinPathRooted,maps.findPath (slashedBelow (by simp))]
    cases names with
    | nil =>
      rw [List.map_singleton,Session.walk,child]
      refine ⟨fun inside => ⟨inside,?_⟩,And.left⟩
      intro first rest filled split
      obtain ⟨rfl,rfl⟩ : first = [name] ∧ rest = [] := by
        cases first with
        | nil => exact absurd rfl filled
        | cons one more =>
          obtain ⟨rfl,left⟩ := List.cons.inj split
          obtain ⟨rfl,rfl⟩ := List.append_eq_nil_iff.mp left
          exact ⟨rfl,rfl⟩
      exact memKeysOf inside
    | cons next names =>
      have many : next :: names ≠ [] := List.cons_ne_nil _ _
      have step : s.walk inode ((name :: next :: names).map Subtype.val) =
          (s.findChildStat inode name.val).bind fun st => s.walk st.ino ((next :: names).map Subtype.val) := rfl
      have deeper {up : Stat} (inside : (slashed (front ++ [name]),up) ∈ entries) :
          s.findInode up.ino = some (rooted (front ++ [name]),up) := by
        rw [rooted,if_neg (by simp)]
        exact maps.findInodeOf inside
      have shape : front ++ name :: next :: names = front ++ [name] ++ next :: names := by simp
      rw [step,Option.bind_eq_some_iff,shape]
      constructor
      · rintro ⟨up,one,two⟩
        have inside := (child up).mp one
        obtain ⟨last,each⟩ := (ih many (deeper inside)).mp two
        refine ⟨last,fun first rest filled split => ?_⟩
        cases first with
        | nil => exact absurd rfl filled
        | cons first more =>
          obtain ⟨rfl,behind⟩ := List.cons.inj split
          cases more with
          | nil => exact memKeysOf inside
          | cons second more =>
            have found := each (second :: more) rest (List.cons_ne_nil _ _) behind
            rwa [List.append_assoc] at found
      · rintro ⟨last,each⟩
        obtain ⟨⟨path,up⟩,inside,rfl⟩ := List.mem_map.mp (each [name] _ (List.cons_ne_nil _ _) rfl)
        refine ⟨up,(child up).mpr inside,(ih many (deeper inside)).mpr ⟨last,fun first rest _ split => ?_⟩⟩
        have found := each (name :: first) rest (List.cons_ne_nil _ _) (by rw [List.cons_append,split])
        rwa [List.append_assoc]

theorem rootedInjective {first second : List Name} (same : rooted first = rooted second) : first = second := by
  by_cases one : first = [] <;> by_cases two : second = []
  · rw [one,two]
  · rw [rooted,rooted,if_pos one,if_neg two] at same
    exact absurd same.symm (slashedBelow two)
  · rw [rooted,rooted,if_neg one,if_pos two] at same
    exact absurd same (slashedBelow one)
  · rw [rooted,rooted,if_neg one,if_neg two] at same
    exact slashedInjective same

/- A folder comes before what is in it. -/
theorem rankBelow (names : List Name) (name : Name) : rank (rooted names) < rank (slashed (names ++ [name])) := by
  rw [rooted]
  by_cases root : names = []
  · have shape : slashed (names ++ [name]) = [slash] ++ name.val := by simp [root,slashed]
    rw [if_pos root,shape]
    exact rankAppend _ name.property.1
  · rw [if_neg root,slashedAppend]
    exact rankAppend _ (List.cons_ne_nil _ _)

def Plain (entries : List (Bytes × Stat)) : Prop := ∀ e ∈ entries, ∃ names name, e.1 = slashed (names ++ [name])

/- What createDirBuf takes from the map, in some order. -/
theorem shownPerm {host : Host} {entries : List (Bytes × Stat)} {s : Session} (maps : Maps host entries s)
    (plain : Plain entries) (front : List Name) :
    ((above rank (rooted front) s.pathes).filter fun e => parentPath e.1 = rooted front).Perm
      (entries.filter fun e => parentPath e.1 = rooted front) := by
  have pathes : s.pathes.Nodup := maps.pathesOnce.of_map _
  refine (List.perm_ext_iff_of_nodup ((aboveNodup pathes).filter _) (maps.entryOnce.filter _)).mpr fun e => ?_
  rw [List.mem_filter,List.mem_filter,memAbove,maps.pathes,List.mem_cons]
  refine and_congr_left fun parent => ?_
  have parent := of_decide_eq_true parent
  constructor
  · rintro ⟨rfl | inside,up⟩
    · have root : parentPath [slash] = [slash] := by decide
      exact absurd up (by rw [← parent,root]; exact lt_irrefl _)
    · exact inside
  · intro inside
    obtain ⟨names,name,path⟩ := plain e inside
    rw [path,parentSlashed] at parent
    exact ⟨.inr inside,by rw [path,rootedInjective parent.symm]; exact rankBelow names name⟩

/- A folder is shown as these names, for all sizes of the windows that hold each of them. -/
def Lists (dirent : Dirent) (s : Session) (inode : UInt64) (children : List Bytes) : Prop :=
  ∀ sizes, (∀ call, ∀ name ∈ dot :: dots :: children, dirent.width name ≤ sizes call) →
    ∃ calls rest, s.listing dirent inode sizes calls = some (dot :: dots :: rest) ∧ rest.Perm children

theorem fileNameLength (path : Bytes) : (fileName path).length ≤ path.length := by
  have turned : (fileName path).length = (path.reverse.takeWhile (· ≠ slash)).length := List.length_reverse
  have less := (List.takeWhile_sublist (fun c => decide (c ≠ slash)) (l := path.reverse)).length_le
  rwa [← turned,List.length_reverse] at less

theorem totalBound {E V : Type} {format : RecordFormat E V} {entries : List E} {bound : Nat}
    (each : ∀ e ∈ entries, format.size e ≤ bound) : format.total entries ≤ entries.length * bound := by
  induction entries with
  | nil => simp
  | cons e rest ih =>
    obtain ⟨first,later⟩ := List.forall_mem_cons.mp each
    rw [RecordFormat.totalCons,List.length_cons,Nat.succ_mul,Nat.add_comm]
    exact Nat.add_le_add (ih later) first

theorem listsShown {host : Host} {entries : List (Bytes × Stat)} {s : Session} (maps : Maps host entries s)
    (dirent : Dirent) (plain : Plain entries) (short : ∀ e ∈ entries, e.1.length < PATH_MAX)
    (few : entries.length < 256 ^ 4) {front : List Name} {inode : UInt64} {st : Stat}
    (here : s.findInode inode = some (rooted front,st)) (folder : st.mode &&& S_IFMT = S_IFDIR) {children : List Bytes}
    (same : ((entries.filter fun e => parentPath e.1 = rooted front).map fun e => fileName e.1).Perm children) :
    Lists dirent s inode children := by
  intro sizes holds
  have shown := (((shownPerm maps plain front).map fun e => fileName e.1).trans same)
  have window (maxsz off : Nat) : s.replyReadDir dirent inode maxsz off =
      some (windowOf (dirent.buffer (s.dirEntries (rooted front) st)) maxsz off) := by
    rw [Session.replyReadDir,here]
    exact if_neg (not_not.mpr folder)
  have names : (s.dirEntries (rooted front) st).map Prod.fst = dot :: dots ::
      ((above rank (rooted front) s.pathes).filter fun e => parentPath e.1 = rooted front).map fun e => fileName e.1 := by
    simp [Session.dirEntries]
  have small : ∀ e ∈ s.dirEntries (rooted front) st, e.1.length < PATH_MAX := by
    intro e inside
    rw [Session.dirEntries,List.mem_cons,List.mem_cons] at inside
    rcases inside with rfl | rfl | inside
    · exact (by decide : dot.length < PATH_MAX)
    · exact (by decide : dots.length < PATH_MAX)
    · obtain ⟨entry,chosen,rfl⟩ := List.mem_map.mp inside
      have inside := (memAbove.mp (List.mem_of_mem_filter chosen)).1
      rw [maps.pathes,List.mem_cons] at inside
      refine lt_of_le_of_lt (fileNameLength entry.1) ?_
      rcases inside with rfl | inside
      · exact (by decide : [slash].length < PATH_MAX)
      · exact short entry inside
  have count : (s.dirEntries (rooted front) st).length ≤ entries.length + 3 := by
    have less := ((List.filter_sublist (p := fun e => parentPath e.1 = rooted front)
      (l := above rank (rooted front) s.pathes)).trans (List.dropWhile_sublist _)).length_le
    rw [List.length_insertionSort,maps.pathes,List.length_cons] at less
    simp only [Session.dirEntries,List.length_cons,List.length_map]
    rw [maps.pathes]
    omega
  have width : ∀ e ∈ s.dirEntries (rooted front) st, dirent.size e ≤ 4128 := by
    intro e inside
    have slack := dirent.slack e.1
    have less := small e inside
    rw [RecordFormat.size,dirent.named]
    rw [PATH_MAX] at less
    omega
  have low : dirent.total (s.dirEntries (rooted front) st) < dirent.limit := by
    have total := totalBound width
    rw [dirent.positions]
    omega
  have all := RecordFormat.readThroughAll (fun e inside => dirent.names e (small e inside)) low fun call e inside => by
    have name : e.1 ∈ (s.dirEntries (rooted front) st).map Prod.fst := List.mem_map_of_mem inside
    rw [names,List.mem_cons,List.mem_cons,shown.mem_iff] at name
    rw [RecordFormat.size,dirent.named]
    exact holds call e.1 (by rw [List.mem_cons,List.mem_cons]; exact name)
  refine ⟨(s.dirEntries (rooted front) st).length + 1,_,?_,shown⟩
  rw [Session.listing,window,Option.isNone_some,if_neg Bool.false_ne_true]
  simp only [window,Option.getD_some]
  rw [all,← names]
  exact congrArg some (List.map_congr_left fun e _ => dirent.named e)

end Ltsm.FuseNamespace
