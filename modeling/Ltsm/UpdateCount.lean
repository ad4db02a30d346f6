import Ltsm.UpdateMessages

/-! The count of an update. Every encoding cuts the region into blocks of its own
size, writes the number of blocks in sixteen bits and then all the blocks. -/
namespace Ltsm.UpdateCount
open Library Regions PixelStreams UpdateMessages

/- A part of the screen: coordinates are int16_t, and an empty part is not sent. -/
structure Area where
  region : Region
  fits : region.Fits
  filled : 0 < region.width ∧ 0 < region.height

/- The threads are at least one; `sendRegion` is what the encoding makes of a block,
`packets` what libavcodec returns for the frame. -/
structure Encoder where
  encoding : Encoding
  threads : Nat
  sendRegion : Region → Bytes
  packets : List Bytes

def sized (bytes : Bytes) : Bytes := sendIntBE32 bytes.length ++ bytes

/- The block size of the encodings that compress whole rows. -/
def rowsSize (displaySize : Size) (threads : Nat) (reg0 : Region) : Size :=
  if displaySize = reg0.toSize then
    if 1 < threads then ⟨reg0.width,toUInt16 (reg0.height / threads : Nat)⟩ else reg0.toSize
  else if reg0.width * reg0.height < 65536 then reg0.toSize
  else ⟨reg0.width,toUInt16 (65536 / reg0.height : Nat)⟩

namespace Encoder

def rect (e : Encoder) (reg0 : Region) (framed : Bytes → Bytes) (reg : Region) : Rect :=
  let job := reg.sub reg0.topLeft
  ⟨e.encoding.code,job.add reg0.topLeft,framed (e.sendRegion job)⟩

/- The count goes through a 16-bit conversion. -/
def sendBlocks (e : Encoder) (reg0 : Region) (bsz : Size) (framed : Bytes → Bytes) : Option Update := do
  let regions ← reg0.divideBlocks bsz
  some [(toUInt16 regions.length,regions.map (e.rect reg0 framed))]

def sendRows (e : Encoder) (st : EncoderStream) (reg0 : Region) : Option Update :=
  let bsz := rowsSize st.displaySize e.threads reg0
  if bsz.isEmpty then none else e.sendBlocks reg0 bsz sized

/- A count and a rectangle for each packet. -/
def sendPackets (e : Encoder) (reg0 : Region) : Update :=
  e.packets.map fun packet => (1,[⟨e.encoding.code,reg0,sized packet⟩])

def sendFrameBuffer (e : Encoder) (st : EncoderStream) (reg0 : Region) : Option Update :=
  match e.encoding with
  | .raw => some [(1,[e.rect reg0 id reg0])]
  | .zlib => some [(1,[e.rect reg0 sized reg0])]
  | .rre => e.sendBlocks reg0 ⟨128,128⟩ id
  | .corre => e.sendBlocks reg0 ⟨64,64⟩ id
  | .hextile => e.sendBlocks reg0 ⟨16,16⟩ id
  | .trle => e.sendBlocks reg0 ⟨64,64⟩ id
  | .zrle => e.sendBlocks reg0 ⟨64,64⟩ sized
  | .lz4 => e.sendRows st reg0
  | .tjpg => e.sendRows st reg0
  | .qoi => e.sendRows st reg0
  | .zqoi => e.sendRows st reg0
  | .h264 => some (e.sendPackets reg0)
  | .mpeg4 => some (e.sendPackets reg0)

end Encoder

/- The count is the number of rectangles after it, and a client that can read each
of them comes out at the end of the update. -/
def CountAgrees (e : Encoder) (sent : Option Update) : Prop :=
  ∃ rects, sent = some [(rects.length,rects)] ∧
    ∀ (σ : Type) (decode : Nat → Region → σ → Reader σ),
      (∀ rect ∈ rects, ∀ s, ∃ s', Reads (decode e.encoding.code rect.region s) rect.data s') →
      ∀ s, ∃ s', Reads (recvFBUpdate decode s) (Update.bytes [(rects.length,rects)]) s'

def TilesFit (side : Nat) (reg0 : Region) : Prop :=
  blockCount side reg0.width * blockCount side reg0.height < 65536

def CountFits (e : Encoder) (st : EncoderStream) (reg0 : Region) : Prop :=
  match e.encoding with
  | .raw | .zlib => True
  | .rre => TilesFit 128 reg0
  | .corre | .trle | .zrle => TilesFit 64 reg0
  | .hextile => TilesFit 16 reg0
  | .lz4 | .tjpg | .qoi | .zqoi => st.displaySize = reg0.toSize → e.threads ≤ reg0.height
  | .h264 | .mpeg4 => e.packets.length = 1

section
variable {e : Encoder} (area : Area) {framed : Bytes → Bytes}

theorem agreesWhen {count : Nat} {rects : List Rect} (counted : count = rects.length) (few : count < 65536)
    (typed : ∀ rect ∈ rects, rect.type = e.encoding.code) (stored : ∀ rect ∈ rects, Stored rect.region) :
    CountAgrees e (some [(count,rects)]) := by
  subst counted
  exact ⟨rects,rfl,fun _ _ each => readsUpdate few typed stored each⟩

theorem oneAgrees : CountAgrees e (some [(1,[e.rect area.region framed area.region])]) := by
  have one : 1 = [e.rect area.region framed area.region].length := rfl
  apply agreesWhen one (by decide)
  · simp [Encoder.rect]
  · simp only [List.mem_singleton,forall_eq,Encoder.rect]
    rw [subAdd (withinSelf _) area.fits area.filled]
    exact storedFits area.fits area.filled

theorem sendBlocksTiles {bsz : Size} (wide : 0 < bsz.width) (high : 0 < bsz.height) :
    ∃ rects, e.sendBlocks area.region bsz framed = some [(rects.length % 65536,rects)] ∧
      rects.length = blockCount bsz.width area.region.width * blockCount bsz.height area.region.height ∧
      (∀ rect ∈ rects, rect.type = e.encoding.code) ∧ ∀ rect ∈ rects, Stored rect.region := by
  obtain ⟨blocks,divides,tiles⟩ := divideTiles area.fits wide high
  have count : toUInt16 (blocks.length : Nat) = blocks.length % 65536 := by
    unfold toUInt16
    omega
  refine ⟨blocks.map (e.rect area.region framed),?_,?_,?_,?_⟩
  · rw [Encoder.sendBlocks,divides,List.length_map,← count]
    rfl
  · rw [List.length_map,tiles.counts]
  · simp [Encoder.rect]
  · intro rect listed
    obtain ⟨block,inBlocks,rfl⟩ := List.mem_map.mp listed
    have inside := tiles.within block inBlocks
    have filled := tiles.filled block inBlocks
    simp only [Encoder.rect]
    rw [subAdd inside area.fits filled]
    exact storedFits (withinFits inside area.fits) filled

theorem blocksAgree {bsz : Size} (wide : 0 < bsz.width) (high : 0 < bsz.height) :
    CountAgrees e (e.sendBlocks area.region bsz framed) ↔
      blockCount bsz.width area.region.width * blockCount bsz.height area.region.height < 65536 := by
  obtain ⟨rects,sends,count,typed,stored⟩ : ∃ rects, e.sendBlocks area.region bsz framed = _ ∧ _ :=
    sendBlocksTiles area wide high
  rw [sends,← count]
  constructor
  · rintro ⟨others,same,_⟩
    have part : (rects.length % 65536,rects) = (others.length,others) :=
      List.head_eq_of_cons_eq (Option.some.inj same)
    obtain ⟨counted,rfl⟩ := Prod.mk.inj part
    omega
  · intro few
    rw [Nat.mod_eq_of_lt few]
    exact agreesWhen rfl few typed stored

theorem blockCountLe {step : Nat} (positive : 0 < step) (length : Nat) : blockCount step length ≤ length := by
  obtain rfl | some := Nat.eq_zero_or_pos length
  · rw [blockCountNone positive]
  · unfold blockCount
    apply Nat.div_le_of_le_mul
    have stretch : step * length = step * (length - 1) + step := by
      rw [← Nat.mul_succ,Nat.succ_eq_add_one,Nat.sub_add_cancel some]
    have rest : length - 1 ≤ step * (length - 1) := Nat.le_mul_of_pos_left _ positive
    omega

/- Rows of blocks as wide as the region are never too many. -/
theorem rowsAgree {bsz : Size} (wide : bsz.width = area.region.width) (high : 0 < bsz.height) :
    CountAgrees e (e.sendBlocks area.region bsz framed) := by
  have bottom := area.fits.bottom
  have top := area.fits.top
  have rows := blockCountLe high area.region.height
  apply (blocksAgree area (wide ▸ area.filled.1) high).mpr
  rw [wide,blockCountOne area.filled.1]
  omega

theorem sendRowsFilled {st : EncoderStream} {bsz : Size}
    (size : rowsSize st.displaySize e.threads area.region = bsz) (wide : bsz.width = area.region.width)
    (high : 0 < bsz.height) : CountAgrees e (e.sendRows st area.region) := by
  have nonempty : bsz.isEmpty = false := by
    have filled := area.filled.1
    simp only [Size.isEmpty,Bool.or_eq_false_iff,decide_eq_false_iff_not]
    omega
  simp only [Encoder.sendRows,size,nonempty]
  exact rowsAgree area wide high

theorem sendRowsAgree (st : EncoderStream) : CountAgrees e (e.sendRows st area.region) ↔
    (st.displaySize = area.region.toSize → e.threads ≤ area.region.height) := by
  obtain ⟨left,top,right,bottom⟩ := area.fits
  obtain ⟨wide,high⟩ := area.filled
  by_cases display : st.displaySize = area.region.toSize
  · rw [forall_prop_of_true display]
    by_cases threads : 1 < e.threads
    · have stored : toUInt16 (area.region.height / e.threads : Nat) = area.region.height / e.threads :=
        toUInt16Fits ((Nat.div_le_self _ _).trans_lt (by omega))
      have size : rowsSize st.displaySize e.threads area.region =
          ⟨area.region.width,area.region.height / e.threads⟩ := by
        rw [rowsSize,if_pos display,if_pos threads,stored]
      by_cases enough : e.threads ≤ area.region.height
      · exact iff_of_true (sendRowsFilled area size rfl (Nat.div_pos enough (by omega))) enough
      · have empty : (⟨area.region.width,area.region.height / e.threads⟩ : Size).isEmpty = true := by
          rw [Nat.div_eq_of_lt (by omega)]
          simp [Size.isEmpty]
        refine iff_of_false ?_ enough
        rintro ⟨rects,same,_⟩
        simp only [Encoder.sendRows,size,empty,if_true] at same
        cases same
    · have size : rowsSize st.displaySize e.threads area.region = area.region.toSize := by
        rw [rowsSize,if_pos display,if_neg threads]
      exact iff_of_true (sendRowsFilled area size rfl high) (by omega)
  · refine iff_of_true ?_ (fun same => absurd same display)
    by_cases small : area.region.width * area.region.height < 65536
    · have size : rowsSize st.displaySize e.threads area.region = area.region.toSize := by
        rw [rowsSize,if_neg display,if_pos small]
      exact sendRowsFilled area size rfl high
    · have tall : 2 ≤ area.region.height := by
        by_contra low
        have one : area.region.height = 1 := by omega
        rw [one] at small
        omega
      have half : 65536 / area.region.height ≤ 65536 / 2 := Nat.div_le_div_left tall (by decide)
      have stored : toUInt16 (65536 / area.region.height : Nat) = 65536 / area.region.height :=
        toUInt16Fits (by omega)
      have size : rowsSize st.displaySize e.threads area.region =
          ⟨area.region.width,65536 / area.region.height⟩ := by
        rw [rowsSize,if_neg display,if_neg small]
        exact congrArg _ stored
      exact sendRowsFilled area size rfl (Nat.div_pos (by omega) high)

theorem packetsAgree : CountAgrees e (some (e.sendPackets area.region)) ↔ e.packets.length = 1 := by
  unfold Encoder.sendPackets
  constructor
  · rintro ⟨rects,same,_⟩
    have lengths := congrArg List.length (Option.some.inj same)
    rwa [List.length_map] at lengths
  · intro one
    obtain ⟨packet,only⟩ := List.length_eq_one_iff.mp one
    rw [only]
    have one : 1 = [(⟨e.encoding.code,area.region,sized packet⟩ : Rect)].length := rfl
    exact agreesWhen one (by decide) (by simp) (by simpa using storedFits area.fits area.filled)

end

theorem countAgreesIff (e : Encoder) (st : EncoderStream) (area : Area) :
    CountAgrees e (e.sendFrameBuffer st area.region) ↔ CountFits e st area.region := by
  unfold Encoder.sendFrameBuffer CountFits
  cases e.encoding with
  | raw => exact iff_of_true (oneAgrees area) trivial
  | zlib => exact iff_of_true (oneAgrees area) trivial
  | rre => exact blocksAgree area (by decide) (by decide)
  | corre => exact blocksAgree area (by decide) (by decide)
  | hextile => exact blocksAgree area (by decide) (by decide)
  | trle => exact blocksAgree area (by decide) (by decide)
  | zrle => exact blocksAgree area (by decide) (by decide)
  | lz4 => exact sendRowsAgree area st
  | tjpg => exact sendRowsAgree area st
  | qoi => exact sendRowsAgree area st
  | zqoi => exact sendRowsAgree area st
  | h264 => exact packetsAgree area
  | mpeg4 => exact packetsAgree area

/- A screen of 4096 by 4096 pixels, sent whole in tiles of sixteen. -/
def screen4096 : Area := ⟨⟨0,0,4096,4096⟩,by decide,by decide⟩
def stream4096 : EncoderStream := {connected with displaySize := ⟨4096,4096⟩}
def hextileEncoder : Encoder := ⟨.hextile,2,fun _ => [],[]⟩

theorem hextileCountZero : ∃ rects,
    hextileEncoder.sendFrameBuffer stream4096 screen4096.region = some [(0,rects)] ∧ rects.length = 65536 ∧
    ¬CountAgrees hextileEncoder (hextileEncoder.sendFrameBuffer stream4096 screen4096.region) := by
  have sent : ∃ rects, hextileEncoder.sendBlocks screen4096.region ⟨16,16⟩ id =
      some [(rects.length % 65536,rects)] ∧ rects.length = 65536 ∧ _ :=
    sendBlocksTiles screen4096 (by decide) (by decide)
  obtain ⟨rects,sends,tiles,_⟩ := sent
  rw [tiles] at sends
  refine ⟨rects,sends,tiles,?_⟩
  rintro ⟨others,same,_⟩
  have part : (0,rects) = (others.length,others) :=
    List.head_eq_of_cons_eq (Option.some.inj (sends.symm.trans same))
  obtain ⟨none,rfl⟩ := Prod.mk.inj part
  omega

end Ltsm.UpdateCount
