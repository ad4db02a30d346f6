import Ltsm.FuseReplies
import Ltsm.ShareTree
import Ltsm.Library.WindowReads
import Mathlib.Data.List.Lex
import Mathlib.Order.Nat

/-! The session's end of a FUSE channel: the maps that the handshake fills, and what the
kernel is answered from them. -/
namespace Ltsm.FuseSession
open Library FuseClient FuseReplies ShareTree
open FileTree (slash dot dots)

/- The session's own identity, and the directory that it mounts on. -/
structure Host where
  uid : UInt32
  gid : UInt32
  localStat : Stat
  localDir : localStat.mode &&& S_IFMT = S_IFDIR

structure Session where
  inodes : List (UInt64 × Bytes × Stat)
  pathes : List (Bytes × Stat)
  symlinks : List (UInt64 × UInt64) := []

/- The owner of a file is the session's own, or root. -/
def forced (host : Host) (remoteUid remoteGid : UInt32) (st : Stat) : Stat :=
  {st with uid := if remoteUid ≠ st.uid then 0 else host.uid, gid := if remoteGid ≠ st.gid then 0 else host.gid}

def recvStatStruct (host : Host) (remoteUid remoteGid : UInt32) : Reader Stat := do
  let dev ← recvIntLE 8
  let ino ← recvIntLE 8
  let mode ← recvIntLE 4
  let nlink ← recvIntLE 8
  let uid ← recvIntLE 4
  let gid ← recvIntLE 4
  let rdev ← recvIntLE 8
  let size ← recvIntLE 8
  let blksize ← recvIntLE 8
  let blocks ← recvIntLE 8
  let atime ← recvIntLE 8
  let mtime ← recvIntLE 8
  let ctime ← recvIntLE 8
  pure (forced host remoteUid remoteGid ⟨UInt64.ofNat dev,UInt64.ofNat ino,UInt32.ofNat mode,UInt64.ofNat nlink,
    UInt32.ofNat uid,UInt32.ofNat gid,UInt64.ofNat rdev,UInt64.ofNat size,UInt64.ofNat blksize,UInt64.ofNat blocks,
    UInt64.ofNat atime,UInt64.ofNat mtime,UInt64.ofNat ctime⟩)

def recvInode (host : Host) (remoteUid remoteGid : UInt32) : Reader (Bytes × Stat) := do
  let len ← recvIntLE 2
  let path ← takeBytes len
  let st ← recvStatStruct host remoteUid remoteGid
  pure (path,st)

def recvLink : Reader (UInt64 × UInt64) := do
  let ino1 ← recvIntLE 8
  let ino2 ← recvIntLE 8
  pure (UInt64.ofNat ino1,UInt64.ofNat ino2)

/- With the root, which has inode 1. -/
def start (host : Host) : Session := {inodes := [(1,[slash],host.localStat)], pathes := [([slash],host.localStat)]}

/- A path goes in without the remote point, with what its inode has in the map. -/
def addInode (remotePoint : Bytes) (s : Session) (entry : Bytes × Stat) : Session :=
  if entry.2.ino ≠ 1 ∧ remotePoint <+: entry.1 then
    let path := entry.1.drop remotePoint.length
    let inodes := emplace s.inodes entry.2.ino (path,entry.2)
    {s with inodes, pathes := emplace s.pathes path (((findKey inodes entry.2.ino).map Prod.snd).getD entry.2)}
  else s

def recvLinks : Reader (List (UInt64 × UInt64)) := do
  let count ← recvIntLE 4
  recvMany recvLink count

def remoteHandshake (host : Host) (remotePoint : Bytes) : Reader Session := do
  let cmd ← recvIntLE 2
  let err ← recvIntLE 4
  if cmd ≠ FuseOp.Init ∨ err ≠ 0 then fail
  else
    let ver ← recvIntLE 2
    let uid ← recvIntLE 4
    let gid ← recvIntLE 4
    let count ← recvIntLE 4
    if ver ≠ FuseOp.ProtoVer then fail
    else
      let entries ← recvMany (recvInode host (UInt32.ofNat uid) (UInt32.ofNat gid)) count
      let links ← recvLinks
      pure {entries.foldl (addInode remotePoint) (start host) with symlinks := links.reverse}

namespace Session

def findInode (s : Session) (inode : UInt64) : Option (Bytes × Stat) := findKey s.inodes inode

/- PathStat::joinPath. -/
def joinPath (first str : Bytes) : Bytes :=
  if str = [] then first
  else if first = [] then str
  else if first.getLast? ≠ some slash ∧ str.head? ≠ some slash then first ++ slash :: str
  else first ++ str

def findChildStat (s : Session) (parent : UInt64) (child : Bytes) : Option Stat :=
  (s.findInode parent).bind fun pathStat => findKey s.pathes (joinPath pathStat.1 child)

/- The kernel looks one name after the other up, each in the inode it was given for the last one. -/
def walk (s : Session) (inode : UInt64) : List Bytes → Option Stat
  | [] => none
  | [name] => s.findChildStat inode name
  | name :: rest => (s.findChildStat inode name).bind fun st => s.walk st.ino rest

/- The entries of createDirBuf, with their names. -/
def dirEntries (s : Session) (dir : Bytes) (st : Stat) : List (Bytes × Stat) :=
  (dot,st) :: (dots,st) ::
    ((above rank dir s.pathes).filter fun entry => parentPath entry.1 = dir).map fun entry => (fileName entry.1,entry.2)

end Session

/- The entries of a directory in the buffer for the kernel: how the FUSE library writes one, and
how the kernel reads it. A record is the name with some more bytes. -/
structure Dirent extends RecordFormat (Bytes × Stat) Bytes where
  named : ∀ e, view e = e.1
  names : ∀ e : Bytes × Stat, e.1.length < PATH_MAX → Valid e
  slack : ∀ name, width name ≤ name.length + 32
  positions : limit = 9223372036854775808

namespace Session

def createDirBuf (dirent : Dirent) (s : Session) (dir : Bytes) (st : Stat) : Bytes := dirent.buffer (s.dirEntries dir st)

/- No buffer where there is no such directory. -/
def replyReadDir (dirent : Dirent) (s : Session) (inode : UInt64) (maxsz off : Nat) : Option Bytes :=
  match s.findInode inode with
  | none => none
  | some pathStat =>
    if pathStat.2.mode &&& S_IFMT ≠ S_IFDIR then none
    else some (windowOf (s.createDirBuf dirent pathStat.1 pathStat.2) maxsz off)

/- Successive calls, each for as many bytes as it wants. -/
def listing (dirent : Dirent) (s : Session) (inode : UInt64) (sizes : Nat → Nat) (calls : Nat) : Option (List Bytes) :=
  if (s.replyReadDir dirent inode 0 0).isNone then none
  else dirent.readThrough (fun maxsz off => (s.replyReadDir dirent inode maxsz off).getD []) sizes calls 0

end Session

end Ltsm.FuseSession
