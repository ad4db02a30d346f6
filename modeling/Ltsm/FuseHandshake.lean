import Ltsm.FuseSession

/-! What the session has in its maps after the handshake: the inodes that the client has sent,
as many as their count can say. -/
namespace Ltsm.FuseHandshake
open Library FuseClient FuseReplies ShareTree FuseSession
open FileTree (slash)

theorem runReads {α β : Type} {r : Reader α} {f : α → Reader β} {bytes : Bytes} {a : α} (one : Reads r bytes a)
    (rest : Bytes) : (r >>= f).run (bytes ++ rest) = (f a).run rest := by
  rw [StateT.run_bind,one]
  rfl

theorem readsLEMod (count value : Nat) : Reads (recvIntLE count) (littleEndian count value) (value % 256 ^ count) := by
  have taken := readsMap (readsTake (littleEndian count value)) ofLittleEndian
  rw [lengthLittleEndian,ofLittleEndianOf] at taken
  exact taken

theorem readsLE64 (val : UInt64) : Reads (recvIntLE 8) (littleEndian 8 val.toNat) val.toNat := readsLE val.toNat_lt

theorem readsLE32 (val : UInt32) : Reads (recvIntLE 4) (littleEndian 4 val.toNat) val.toNat := readsLE val.toNat_lt

theorem readsStat (host : Host) (remoteUid remoteGid : UInt32) (st : Stat) :
    Reads (recvStatStruct host remoteUid remoteGid) (replyWriteStatStruct st) (forced host remoteUid remoteGid st) := by
  simp only [replyWriteStatStruct,List.append_assoc]
  unfold recvStatStruct
  refine readsBind (readsLE64 st.dev) (readsBind (readsLE64 st.ino) (readsBind (readsLE32 st.mode)
    (readsBind (readsLE64 st.nlink) (readsBind (readsLE32 st.uid) (readsBind (readsLE32 st.gid)
    (readsBind (readsLE64 st.rdev) (readsBind (readsLE64 st.size) (readsBind (readsLE64 st.blksize)
    (readsBind (readsLE64 st.blocks) (readsBind (readsLE64 st.atime) (readsBind (readsLE64 st.mtime) ?_)))))))))))
  simpa only [UInt64.ofNat_toNat,UInt32.ofNat_toNat] using readsMap (readsLE64 st.ctime) fun ctime =>
    forced host remoteUid remoteGid ⟨st.dev,st.ino,st.mode,st.nlink,st.uid,st.gid,st.rdev,st.size,st.blksize,st.blocks,
      st.atime,st.mtime,UInt64.ofNat ctime⟩

def inodeBytes (st : Bytes × Stat) : Bytes :=
  littleEndian 2 (min 0xFFFF st.1.length) ++ st.1 ++ replyWriteStatStruct st.2

def linkBytes (st : UInt64 × UInt64) : Bytes := littleEndian 8 st.1.toNat ++ littleEndian 8 st.2.toNat

theorem readsInode (host : Host) (remoteUid remoteGid : UInt32) (st : Bytes × Stat) (fits : st.1.length ≤ 0xFFFF) :
    Reads (recvInode host remoteUid remoteGid) (inodeBytes st) (st.1,forced host remoteUid remoteGid st.2) := by
  rw [inodeBytes,Nat.min_eq_right fits,List.append_assoc]
  exact readsBind (readsLE (by omega)) (readsBind (readsTake st.1)
    (readsMap (readsStat host remoteUid remoteGid st.2) fun stat => (st.1,stat)))

theorem readsLink (link : UInt64 × UInt64) : Reads recvLink (linkBytes link) link := by
  have second := readsMap (readsLE64 link.2) fun ino2 => (link.1,UInt64.ofNat ino2)
  rw [UInt64.ofNat_toNat] at second
  refine readsBind (readsLE64 link.1) ?_
  rw [UInt64.ofNat_toNat]
  exact second

/- A count of 32 bits, and as many of the items as it says. -/
theorem countTaken {α : Type} (items : List α) : (items.take (items.length % 256 ^ 4)).length = items.length % 256 ^ 4 := by
  rw [List.length_take]
  exact Nat.min_eq_left (Nat.mod_le _ _)

/- What the session has sent behind the inodes it has read. -/
def rest (info : ShareInfo) : Bytes :=
  (info.inodes.drop (info.inodes.length % 256 ^ 4)).flatMap inodeBytes ++
    (littleEndian 4 info.symlinks.length ++ info.symlinks.flatMap linkBytes)

/- The maps of a session that has read these inodes. -/
def filled (host : Host) (remoteUid remoteGid : UInt32) (remotePoint : Bytes) (inodes : List (Bytes × Stat)) : Session :=
  (inodes.map fun st => (st.1,forced host remoteUid remoteGid st.2)).foldl (addInode remotePoint) (start host)

theorem readsInodes (host : Host) (remoteUid remoteGid : UInt32) (inodes : List (Bytes × Stat))
    (fits : ∀ st ∈ inodes, st.1.length ≤ 0xFFFF) :
    Reads (recvMany (recvInode host remoteUid remoteGid) inodes.length) (inodes.flatMap inodeBytes)
      (inodes.map fun st => (st.1,forced host remoteUid remoteGid st.2)) :=
  readsMany fun st inside => readsInode host remoteUid remoteGid st (fits st inside)

/- The inodes in two parts: those that the count says, and the others in front of the links. -/
theorem shareBytes (info : ShareInfo) : replyWriteShareRootInfo info =
    littleEndian 4 info.inodes.length ++
      ((info.inodes.take (info.inodes.length % 256 ^ 4)).flatMap inodeBytes ++ rest info) := by
  have parts : info.inodes.flatMap inodeBytes = (info.inodes.take (info.inodes.length % 256 ^ 4)).flatMap inodeBytes ++
      (info.inodes.drop (info.inodes.length % 256 ^ 4)).flatMap inodeBytes := by
    rw [← List.flatMap_append,List.take_append_drop]
  have whole : replyWriteShareRootInfo info = littleEndian 4 info.inodes.length ++ info.inodes.flatMap inodeBytes ++
      littleEndian 4 info.symlinks.length ++ info.symlinks.flatMap linkBytes := rfl
  rw [whole,parts,rest]
  simp only [List.append_assoc]

/- The handshake after an accepted request: the maps do not depend on what comes behind the inodes. -/
theorem handshakeRun (host : Host) (owner : Owner) (kernel : Kernel) (s : State) (dir : Bytes)
    (shared : dir ∈ owner.shareFolders) (fits : ∀ st ∈ (owner.shareRootInfo dir).inodes, st.1.length ≤ 0xFFFF) :
    (remoteHandshake host dir).run (fuseOpInit owner kernel s dir).reply =
      (recvLinks.run (rest (owner.shareRootInfo dir))).map fun out =>
        ({filled host kernel.getuid kernel.getgid dir ((owner.shareRootInfo dir).inodes.take
          ((owner.shareRootInfo dir).inodes.length % 256 ^ 4)) with symlinks := out.1.reverse},out.2) := by
  have reply : (fuseOpInit owner kernel s dir).reply = littleEndian 2 FuseOp.Init ++ (littleEndian 4 0 ++
      (littleEndian 2 FuseOp.ProtoVer ++ (littleEndian 4 kernel.getuid.toNat ++ (littleEndian 4 kernel.getgid.toNat ++
        replyWriteShareRootInfo (owner.shareRootInfo dir))))) := by
    simp only [fuseOpInit,if_pos shared,if_true,List.append_assoc]
  have accepted : ¬(FuseOp.Init ≠ FuseOp.Init ∨ 0 ≠ 0) := by simp
  have version : ¬FuseOp.ProtoVer ≠ FuseOp.ProtoVer := by simp
  generalize owner.shareRootInfo dir = info at fits reply ⊢
  have inodes := readsInodes host kernel.getuid kernel.getgid (info.inodes.take (info.inodes.length % 256 ^ 4))
    fun st inside => fits st (List.mem_of_mem_take inside)
  rw [countTaken] at inodes
  rw [reply,shareBytes,remoteHandshake,runReads (readsLE (by decide)),runReads (readsLE (by decide)),if_neg accepted,
    runReads (readsLE (by decide)),runReads (readsLE32 _),runReads (readsLE32 _),runReads (readsLEMod _ _),if_neg version,
    UInt32.ofNat_toNat,UInt32.ofNat_toNat,runReads inodes,StateT.run_bind]
  cases recvLinks.run (rest info) <;> rfl

/- The count of the links, and as many of them as it says. -/
theorem linksRun {info : ShareInfo} (few : info.inodes.length < 256 ^ 4) :
    ∃ out, recvLinks.run (rest info) = some out := by
  have none : info.inodes.drop (info.inodes.length % 256 ^ 4) = [] := by
    rw [Nat.mod_eq_of_lt few,List.drop_length]
  have parts : info.symlinks.flatMap linkBytes = (info.symlinks.take (info.symlinks.length % 256 ^ 4)).flatMap linkBytes ++
      (info.symlinks.drop (info.symlinks.length % 256 ^ 4)).flatMap linkBytes := by
    rw [← List.flatMap_append,List.take_append_drop]
  have links := @readsMany _ _ recvLink linkBytes id (info.symlinks.take (info.symlinks.length % 256 ^ 4))
    fun link _ => readsLink link
  rw [countTaken] at links
  rw [rest,none,List.flatMap_nil,List.nil_append,parts,recvLinks,runReads (readsLEMod _ _),links]
  exact ⟨_,rfl⟩

/- What of an inode goes into the maps. -/
def relative (remotePoint : Bytes) (entry : Bytes × Stat) : Bytes × Stat := (entry.1.drop remotePoint.length,entry.2)

def kept (remotePoint : Bytes) (entries : List (Bytes × Stat)) : List (Bytes × Stat) :=
  (entries.filter (·.2.ino ≠ 1)).map (relative remotePoint)

/- Inodes and paths that come once go behind what there is in the maps; inode 1 is left out. -/
theorem addInodes {remotePoint : Bytes} {entries : List (Bytes × Stat)} {s : Session}
    (below : ∀ e ∈ entries, remotePoint <+: e.1)
    (inodes : (keysOf s.inodes ++ (kept remotePoint entries).map (·.2.ino)).Nodup)
    (pathes : (keysOf s.pathes ++ (kept remotePoint entries).map (·.1)).Nodup) :
    entries.foldl (addInode remotePoint) s = {s with
      inodes := s.inodes ++ (kept remotePoint entries).map fun e => (e.2.ino,e)
      pathes := s.pathes ++ kept remotePoint entries} := by
  induction entries generalizing s with
  | nil => simp [kept]
  | cons e rest ih =>
    obtain ⟨here,below⟩ := List.forall_mem_cons.mp below
    rw [List.foldl_cons]
    by_cases root : e.2.ino = 1
    · have skip : addInode remotePoint s e = s := if_neg (by simp [root])
      have same : kept remotePoint (e :: rest) = kept remotePoint rest := by simp [kept,root]
      rw [same] at inodes pathes ⊢
      rw [skip,ih below inodes pathes]
    · have more : kept remotePoint (e :: rest) = relative remotePoint e :: kept remotePoint rest := by simp [kept,root]
      rw [more,List.map_cons] at inodes pathes
      have newInode : e.2.ino ∉ keysOf s.inodes := fun there =>
        (List.nodup_append.mp inodes).2.2 _ there _ List.mem_cons_self rfl
      have newPath : e.1.drop remotePoint.length ∉ keysOf s.pathes := fun there =>
        (List.nodup_append.mp pathes).2.2 _ there _ List.mem_cons_self rfl
      have added : addInode remotePoint s e = {s with
          inodes := s.inodes ++ [(e.2.ino,relative remotePoint e)], pathes := s.pathes ++ [relative remotePoint e]} := by
        rw [addInode,if_pos ⟨root,here⟩]
        simp only [emplaceNew newInode,findKeyNew newInode,Option.map_some,Option.getD_some,emplaceNew newPath]
        rfl
      rw [added,ih below,more]
      · simp [relative]
      · simpa [keysOf,relative] using inodes
      · simpa [keysOf,relative] using pathes

end Ltsm.FuseHandshake
