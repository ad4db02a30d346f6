import Ltsm.Library.ByteReader

/-! zlib used for one block at a time: a fresh stream on either side, which the
clipboard and the channels use, and the one call of the cursor images. -/
namespace Ltsm.ZLibBlocks
open Library

/- `inflate` answers with what the block holds; `none` is an error code. -/
structure ZLib where
  deflate : Bytes → Bytes
  inflate : Bytes → Option Bytes

namespace ZLib
variable (z : ZLib)

def deflateData (data : Bytes) : Bytes := if data = [] then [] else z.deflate data

def inflateData (zip : Bytes) : Option Bytes := if zip = [] then some [] else z.inflate zip

/- What is deflated is never nothing, and inflates to itself. -/
structure Lossless : Prop where
  filled : ∀ data, data ≠ [] → z.deflate data ≠ []
  restores : ∀ data, data ≠ [] → z.inflate (z.deflate data) = some data

/- The first byte of a zlib stream names the method and a window of 32 KiB. -/
def Headed : Prop := ∀ data, data ≠ [] → (z.deflate data).head? = some 0x78

variable {z}

theorem inflateDeflate (h : z.Lossless) (data : Bytes) : z.inflateData (z.deflateData data) = some data := by
  unfold inflateData deflateData
  by_cases empty : data = []
  · rw [if_pos empty,if_pos rfl,empty]
  · rw [if_neg empty,if_neg (h.filled data empty),h.restores data empty]

theorem deflateEmpty (h : z.Lossless) {data : Bytes} : z.deflateData data = [] ↔ data = [] := by
  unfold deflateData
  constructor
  · intro none
    by_contra some
    rw [if_neg some] at none
    exact h.filled data some none
  · intro empty
    rw [if_pos empty]

/- A library that answers as zlib does for one block; others it only marks as its own. -/
def recorded (block zip : Bytes) : ZLib where
  deflate data := if data = block then zip else 0x78 :: 0 :: data
  inflate data := if data = zip then some block else some (data.drop 2)

theorem recordedHeaded (block : Bytes) {zip : Bytes} (headed : zip.head? = some 0x78) :
    (recorded block zip).Headed := by
  intro data _
  simp only [recorded]
  split
  · exact headed
  · rfl

theorem recordedLossless (block : Bytes) {zip : Bytes} (marked : 1 < zip.length ∧ zip[1]? ≠ some 0) :
    (recorded block zip).Lossless where
  filled data _ := by
    simp only [recorded]
    split
    · exact List.ne_nil_of_length_pos (by omega)
    · exact List.cons_ne_nil _ _
  restores data _ := by
    simp only [recorded]
    by_cases same : data = block
    · rw [if_pos same,if_pos rfl,same]
    · have other : 0x78 :: 0 :: data ≠ zip := by
        intro equal
        apply marked.2
        rw [← equal]
        rfl
      rw [if_neg same,if_neg other]
      rfl

end ZLib
end Ltsm.ZLibBlocks
