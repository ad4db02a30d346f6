import Ltsm.FuseNamespace

/-! The entries of a directory in the layout of the kernel: a head of 24 bytes, the name, and
zeros up to a multiple of 8. -/
namespace Ltsm.KernelDirents
open Library FuseClient FuseReplies ShareTree FuseSession FuseHandshake

def padding (len : Nat) : Nat := (8 - (24 + len) % 8) % 8

def direntBytes (e : Bytes × Stat) (next : Nat) : Bytes :=
  littleEndian 8 e.2.ino.toNat ++ (littleEndian 8 next ++ (littleEndian 4 e.1.length ++
    (littleEndian 4 ((e.2.mode &&& S_IFMT).toNat / 4096) ++ (e.1 ++ List.replicate (padding e.1.length) 0))))

def readDirent : Reader (Bytes × Nat) := do
  let _ ← recvIntLE 8
  let off ← recvIntLE 8
  let namelen ← recvIntLE 4
  let _ ← recvIntLE 4
  let name ← takeBytes namelen
  let _ ← takeBytes (padding namelen)
  pure (name,off)

theorem needsLE (count value : Nat) : Needs (recvIntLE count) (littleEndian count value) := by
  have taken := readsTake (littleEndian count value)
  have short := needsTake (littleEndian count value)
  rw [lengthLittleEndian] at taken short
  exact needsMap taken short _

section
variable {e : Bytes × Stat} {next : Nat} (named : e.1.length < 256 ^ 4) (low : next < 256 ^ 8)
include named low

theorem readsDirent : Reads readDirent (direntBytes e next) (e.1,next) := by
  have zeros := readsTake (List.replicate (padding e.1.length) (0 : UInt8))
  rw [List.length_replicate] at zeros
  exact readsBind (readsLEMod 8 _) (readsBind (readsLE low) (readsBind (readsLE named) (readsBind (readsLEMod 4 _)
    (readsBind (readsTake e.1) (readsMap zeros fun _ => (e.1,next))))))

theorem needsDirent : Needs readDirent (direntBytes e next) := by
  have zeros := readsTake (List.replicate (padding e.1.length) (0 : UInt8))
  have short := needsTake (List.replicate (padding e.1.length) (0 : UInt8))
  rw [List.length_replicate] at zeros short
  exact needsBind (readsLEMod 8 _) (needsLE _ _) (needsBind (readsLE low) (needsLE _ _)
    (needsBind (readsLE named) (needsLE _ _) (needsBind (readsLEMod 4 _) (needsLE _ _)
      (needsBind (readsTake e.1) (needsTake e.1) (needsMap zeros short fun _ => (e.1,next))))))

end

theorem direntLength (e : Bytes × Stat) (next : Nat) :
    (direntBytes e next).length = 24 + e.1.length + padding e.1.length := by
  simp only [direntBytes,List.length_append,lengthLittleEndian,List.length_replicate]
  omega

def parseDirent (bytes : Bytes) : Option (Bytes × Nat) := (readDirent.run bytes).map Prod.fst

def direntWidth (name : Bytes) : Nat := 24 + name.length + padding name.length

theorem widthPositive (name : Bytes) : 0 < direntWidth name := by
  rw [direntWidth]
  omega

theorem widthFew (name : Bytes) : direntWidth name ≤ name.length + 32 := by
  rw [direntWidth,padding]
  omega

section
variable {e : Bytes × Stat} {next : Nat}

theorem parseWhole {more : Bytes} (named : e.1.length < 256 ^ 4) (low : next < 9223372036854775808) :
    parseDirent (direntBytes e next ++ more) = some (e.1,next) := by
  rw [parseDirent,readsDirent named (by omega)]
  rfl

theorem parsePart {n : Nat} (named : e.1.length < 256 ^ 4) (low : next < 9223372036854775808)
    (few : n < direntWidth e.1) : parseDirent ((direntBytes e next).take n) = none := by
  have short := needsDirent named (by omega : next < 256 ^ 8) n
  rw [direntLength] at short
  rw [parseDirent,short few]
  rfl

end

theorem nameFits (e : Bytes × Stat) (short : e.1.length < PATH_MAX) : e.1.length < 256 ^ 4 := by
  rw [PATH_MAX] at short
  omega

def kernelDirent : Dirent where
  Valid e := e.1.length < 256 ^ 4
  limit := 9223372036854775808
  view := Prod.fst
  width := direntWidth
  bytes := direntBytes
  parse := parseDirent
  length := direntLength
  positive e := widthPositive e.1
  nothing := rfl
  whole := parseWhole
  part := parsePart
  named _ := rfl
  names := nameFits
  slack := widthFew
  positions := rfl

end Ltsm.KernelDirents
