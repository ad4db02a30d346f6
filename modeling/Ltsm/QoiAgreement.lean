import Ltsm.CompressedPixels
import Ltsm.QoiCodec

/-! The QOI encoder and decoder stay in agreement: whatever opcode is chosen, the tables
of the one hold the colours of the other after every pixel. The decoder is ahead in a
run, whose length it knows from the start; the encoder learns it at the end. -/
namespace Ltsm.QoiAgreement
open Library Regions PixelFormats PixelStreams FrameBuffers CompressedPixels QoiCodec

/- A colour without what QOI does not send. -/
def rgb (col : Color) : Color := {col with x := 0}

/- What the decoder makes of the colour of an encoder's pixel. -/
def repack (clientPf pf : PixelFormat) (pixel : UInt32) : UInt32 := packBGRx (clientPf.color pixel) pf

/-! Colours in pixels. -/

section
variable {pf : PixelFormat} (h : RgbFormat pf)
include h

theorem packChannels (col : Color) : pf.red (packBGRx col pf) = col.r.toNat ∧
    pf.green (packBGRx col pf) = col.g.toNat ∧ pf.blue (packBGRx col pf) = col.b.toNat := by
  have order : packBGRx col pf = pf.assemble col.r.toUInt32 col.g.toUInt32 col.b.toUInt32 := by
    simp only [packBGRx,PixelFormat.assemble]
    rw [UInt32.or_comm,UInt32.or_comm (shiftUp col.b.toUInt32 _),UInt32.or_assoc]
  rw [order]
  exact h.assembleChannels col.r col.g col.b

theorem unpackPack (col : Color) : unpackBGRx (packBGRx col pf) pf = rgb col := by
  obtain ⟨red,green,blue⟩ := packChannels h col
  rw [h.redChannel] at red
  rw [h.greenChannel] at green
  rw [h.blueChannel] at blue
  have masks : pf.rmask = shiftUp 255 pf.redShift ∧ pf.gmask = shiftUp 255 pf.greenShift ∧
      pf.bmask = shiftUp 255 pf.blueShift := by
    simp only [PixelFormat.rmask,PixelFormat.gmask,PixelFormat.bmask,h.red,h.green,h.blue]
    exact ⟨rfl,rfl,rfl⟩
  obtain ⟨rmask,gmask,bmask⟩ := masks
  simp only [unpackBGRx,rmask,gmask,bmask,maskedChannel h.redLow,maskedChannel h.greenLow,
    maskedChannel h.blueLow,red,green,blue,UInt8.ofNat_toNat,rgb]

/- The colour a client's pixel was made of. -/
theorem colorPixel (col : Color) : rgb (pf.color (pf.pixel col)) = rgb col := by
  obtain ⟨red,green,blue⟩ := h.pixelChannels col
  simp only [rgb,PixelFormat.color,red,green,blue,UInt8.ofNat_toNat]

end

/-! Differences between bytes. -/

theorem toInt8Same (value : Int) : toInt8 value % 256 = value % 256 := Int.bmod_emod

theorem changedTo {value col : UInt8} {change : Int} (same : (value.toNat + change) % 256 = col.toNat) :
    changed value change = col := by
  have size : (2 ^ 8 : Int) = 256 := rfl
  apply UInt8.toNat_inj.mp
  rw [changed,UInt8.ofInt,UInt8.toNat_ofNat',size]
  omega

theorem changedBack (value col : UInt8) : changed value (toInt8 ((col.toNat : Int) - value.toNat)) = col := by
  have same := toInt8Same ((col.toNat : Int) - value.toNat)
  have low := col.toNat_lt
  apply changedTo
  omega

/- The same by way of the change in green. -/
theorem changedLuma (value col : UInt8) (vg : Int) :
    changed value (vg - 8 + (toInt8 (toInt8 ((col.toNat : Int) - value.toNat) - vg) + 8)) = col := by
  have same := toInt8Same ((col.toNat : Int) - value.toNat)
  have luma := toInt8Same (toInt8 ((col.toNat : Int) - value.toNat) - vg)
  have low := col.toNat_lt
  apply changedTo
  omega

/-! The bits of the opcodes. -/

theorem indexBits : ∀ index : Fin 64, (INDEX ||| index.val) % 256 = index.val ∧ index.val ≠ RGB ∧
    index.val &&& MASK2 = INDEX := by decide

theorem runBits : ∀ left : Fin 62, (RUN ||| left.val) % 256 = RUN ||| left.val ∧ RUN ||| left.val ≠ RGB ∧
    (RUN ||| left.val) &&& MASK2 = RUN ∧ (RUN ||| left.val) &&& 0x3f = left.val := by decide

theorem diffBits : ∀ r g b : Fin 4, let type := DIFF ||| r.val <<< 4 ||| g.val <<< 2 ||| b.val
    type % 256 = type ∧ type ≠ RGB ∧ type &&& MASK2 = DIFF ∧
      type >>> 4 &&& 0x03 = r.val ∧ type >>> 2 &&& 0x03 = g.val ∧ type &&& 0x03 = b.val := by decide

theorem lumaBits : ∀ green : Fin 64, let type := LUMA ||| green.val
    type % 256 = type ∧ type ≠ RGB ∧ type &&& MASK2 = LUMA ∧ type &&& 0x3f = green.val := by decide

theorem restBits : ∀ r b : Fin 16, let lm := r.val <<< 4 ||| b.val
    lm % 256 = lm ∧ lm >>> 4 &&& 0x0f = r.val ∧ lm &&& 0x0f = b.val := by decide

/-! Opcodes that carry a colour. -/

theorem readsByte (byte : UInt8) : Reads recvInt8 [byte] byte.toNat := by
  have read := readsInt8 byte.toNat
  rwa [sendInt8,UInt8.ofNat_toNat,Nat.mod_eq_of_lt byte.toNat_lt] at read

theorem readsColor (col : Color) : Reads recvColor [col.r,col.g,col.b] (rgb col) := by
  have same : rgb col =
      ⟨UInt8.ofNat col.r.toNat,UInt8.ofNat col.g.toNat,UInt8.ofNat col.b.toNat,0⟩ := by
    simp only [UInt8.ofNat_toNat,rgb]
  have bytes : [col.r,col.g,col.b] = [col.r] ++ ([col.g] ++ [col.b]) := rfl
  rw [bytes,same]
  refine readsBind (readsByte col.r) (readsBind (readsByte col.g) ?_)
  exact readsMap (readsByte col.b) _

section
variable {pf : PixelFormat} {d : Tables}

theorem readsRGB (col : Color) : Reads (decodeOpcode pf d) (sendRGB col) (remember pf d col) := by
  have tag : RGB % 256 = RGB := rfl
  refine readsBind (readsInt8 RGB) ?_
  rw [tag,if_pos rfl]
  exact readsMap (readsColor col) (remember pf d)

theorem readsDiff {pcol col : Color} (same : unpackBGRx d.pixel pf = rgb pcol) {vr vg vb : Int}
    (red : vr = toInt8 ((col.r.toNat : Int) - pcol.r.toNat))
    (green : vg = toInt8 ((col.g.toNat : Int) - pcol.g.toNat))
    (blue : vb = toInt8 ((col.b.toNat : Int) - pcol.b.toNat))
    (near : -3 < vr ∧ vr < 2 ∧ -3 < vg ∧ vg < 2 ∧ -3 < vb ∧ vb < 2) :
    Reads (decodeOpcode pf d)
      (sendInt8 (DIFF ||| (vr + 2).toNat <<< 4 ||| (vg + 2).toNat <<< 2 ||| (vb + 2).toNat))
      (remember pf d col) := by
  obtain ⟨small,notRgb,tag,r,g,b⟩ := diffBits ⟨(vr + 2).toNat,by omega⟩ ⟨(vg + 2).toNat,by omega⟩
    ⟨(vb + 2).toNat,by omega⟩
  simp only at small notRgb tag r g b
  have back : ((vr + 2).toNat : Int) - 2 = vr ∧ ((vg + 2).toNat : Int) - 2 = vg ∧
      ((vb + 2).toNat : Int) - 2 = vb := by omega
  have decoded : decodeDiff (rgb pcol) (DIFF ||| (vr + 2).toNat <<< 4 ||| (vg + 2).toNat <<< 2 |||
      (vb + 2).toNat) = rgb col := by
    simp only [decodeDiff,r,g,b,back]
    rw [red,green,blue]
    simp only [rgb,changedBack]
  have other : ¬DIFF = INDEX := by decide
  rw [← List.append_nil (sendInt8 _)]
  refine readsBind (readsInt8 _) ?_
  rw [small,if_neg notRgb,tag,if_neg other,if_pos rfl,same,decoded]
  exact readsPure _

theorem readsLuma {pcol col : Color} (same : unpackBGRx d.pixel pf = rgb pcol) {vg vg_r vg_b : Int}
    (green : vg = toInt8 ((col.g.toNat : Int) - pcol.g.toNat))
    (red : vg_r = toInt8 (toInt8 ((col.r.toNat : Int) - pcol.r.toNat) - vg))
    (blue : vg_b = toInt8 (toInt8 ((col.b.toNat : Int) - pcol.b.toNat) - vg))
    (near : -9 < vg_r ∧ vg_r < 8 ∧ -33 < vg ∧ vg < 32 ∧ -9 < vg_b ∧ vg_b < 8) :
    Reads (decodeOpcode pf d)
      (sendInt8 (LUMA ||| (vg + 32).toNat) ++ sendInt8 ((vg_r + 8).toNat <<< 4 ||| (vg_b + 8).toNat))
      (remember pf d col) := by
  obtain ⟨small,notRgb,tag,g⟩ := lumaBits ⟨(vg + 32).toNat,by omega⟩
  obtain ⟨smallRest,r,b⟩ := restBits ⟨(vg_r + 8).toNat,by omega⟩ ⟨(vg_b + 8).toNat,by omega⟩
  simp only at small notRgb tag g smallRest r b
  have back : ((vg + 32).toNat : Int) - 32 = vg ∧ ((vg_r + 8).toNat : Int) = vg_r + 8 ∧
      ((vg_b + 8).toNat : Int) = vg_b + 8 := by omega
  have decoded : decodeLuma (rgb pcol) (LUMA ||| (vg + 32).toNat)
      ((vg_r + 8).toNat <<< 4 ||| (vg_b + 8).toNat) = rgb col := by
    simp only [decodeLuma,g,r,b,back]
    have middle := changedBack pcol.g col.g
    rw [← green] at middle
    rw [red,blue]
    simp only [rgb,changedLuma,middle]
  have notIndex : ¬LUMA = INDEX := by decide
  have notDiff : ¬LUMA = DIFF := by decide
  refine readsBind (readsInt8 _) ?_
  rw [small,if_neg notRgb,tag,if_neg notIndex,if_neg notDiff,if_pos rfl,same,
    ← List.append_nil (sendInt8 _)]
  refine readsBind (readsInt8 _) ?_
  rw [smallRest,decoded]
  exact readsPure _

/- Whichever opcode a change takes, the decoder comes to the new colour. -/
theorem readsChange {pcol : Color} (same : unpackBGRx d.pixel pf = rgb pcol) (col : Color) :
    Reads (decodeOpcode pf d) (sendChange pcol col) (remember pf d col) := by
  unfold sendChange
  simp only
  split
  · rename_i near
    exact readsDiff same rfl rfl rfl near
  split
  · rename_i near
    exact readsLuma same rfl rfl rfl near
  · exact readsRGB col

end

/-! One pixel after another. -/

/- The decoder's tables hold what it makes of the encoder's pixels. -/
structure Agree (clientPf pf : PixelFormat) (e d : Tables) : Prop where
  prevPixel : d.prevPixel = e.prevPixel.map (repack clientPf pf)
  hashes : ∀ index, d.hashes index = (e.hashes index).map (repack clientPf pf)

theorem agreeStart (clientPf pf : PixelFormat) : Agree clientPf pf .start .start := ⟨rfl,fun _ => rfl⟩

section
variable {clientPf pf : PixelFormat} {e d : Tables}

theorem agreeRun (agree : Agree clientPf pf e d) (run run' : Nat) :
    Agree clientPf pf {e with run} {d with run := run'} := ⟨agree.prevPixel,agree.hashes⟩

/- A colour that is new to the encoder's table is remembered by the decoder. -/
theorem agreeSet (agree : Agree clientPf pf e d) (pixel : UInt32) :
    Agree clientPf pf {e with
      hashes := e.hashes.set (hashIndex64RGB (clientPf.color pixel)) pixel
      prevPixel := some pixel} (remember pf d (clientPf.color pixel)) := by
  refine ⟨rfl,fun index => ?_⟩
  simp only [remember,Hashes.set]
  split
  · rfl
  · exact agree.hashes index

theorem readsIndex {index : Nat} (low : index < 64) {pixel : UInt32} (there : d.hashes index = some pixel) :
    Reads (decodeOpcode pf d) (sendInt8 (INDEX ||| index)) {d with prevPixel := some pixel} := by
  obtain ⟨small,notRgb,tag⟩ := indexBits ⟨index,low⟩
  have inside : ¬64 ≤ index := by omega
  rw [← List.append_nil (sendInt8 _)]
  refine readsBind (readsInt8 _) ?_
  rw [small,if_neg notRgb,if_pos tag,if_neg inside,there]
  exact readsMap (readsOption pixel) _

theorem readsRun {left : Nat} (low : left < 62) :
    Reads (decodeOpcode pf d) (sendInt8 (RUN ||| left)) {d with run := left} := by
  obtain ⟨small,notRgb,tag,count⟩ := runBits ⟨left,low⟩
  have notIndex : ¬RUN = INDEX := by decide
  have notDiff : ¬RUN = DIFF := by decide
  have notLuma : ¬RUN = LUMA := by decide
  simp only at small notRgb tag count
  rw [← List.append_nil (sendInt8 _)]
  refine readsBind (readsInt8 _) ?_
  rw [small,if_neg notRgb,tag,if_neg notIndex,if_neg notDiff,if_neg notLuma,if_pos rfl,count]
  exact readsPure _

theorem readsOther (h : RgbFormat pf) (agree : Agree clientPf pf e d) (pixel : UInt32) :
    ∃ d', Reads (decodeOpcode pf d) (encodeOther clientPf e pixel).2 d' ∧ d'.run = d.run ∧
      Agree clientPf pf (encodeOther clientPf e pixel).1 d' := by
  unfold encodeOther
  simp only
  by_cases known : e.hashes (hashIndex64RGB (clientPf.color pixel)) = some pixel
  · have there : d.hashes (hashIndex64RGB (clientPf.color pixel)) = some (repack clientPf pf pixel) := by
      rw [agree.hashes,known]
      rfl
    rw [if_pos known]
    exact ⟨_,readsIndex (Nat.mod_lt _ (by decide)) there,rfl,rfl,agree.hashes⟩
  · rw [if_neg known]
    refine ⟨remember pf d (clientPf.color pixel),?_,rfl,agreeSet agree pixel⟩
    have previous := agree.prevPixel
    cases prev : e.prevPixel with
    | none => exact readsRGB _
    | some prevPixel =>
      have shown : d.pixel = packBGRx (clientPf.color prevPixel) pf := by
        rw [Tables.pixel,previous,prev]
        rfl
      exact readsChange (by rw [shown,unpackPack h]) _

end

/- How far the decoder is into the run that the encoder has begun, and the bytes it has
not read yet, when the given pixels are still to come. -/
def ahead (clientPf : PixelFormat) (e : Tables) : List UInt32 → Nat × Bytes
  | [] => (0,[])
  | pixel :: rest =>
    if 0 < e.run ∧ e.prevPixel = some pixel then
      let more := ahead clientPf (encodePixel clientPf rest.isEmpty e pixel).1 rest
      (more.1 + 1,more.2)
    else (0,(encodePixels clientPf {e with run := 0} (pixel :: rest)).2)

/- A run is flushed before it grows to 62 and at the last pixel. -/
structure RunKept (e : Tables) (pixels : List UInt32) : Prop where
  short : e.run < 62
  flushed : pixels = [] → e.run = 0

structure Synced (clientPf pf : PixelFormat) (e d : Tables) (pixels : List UInt32) : Prop where
  agree : Agree clientPf pf e d
  kept : RunKept e pixels
  run : d.run = (ahead clientPf e pixels).1

section
variable (clientPf : PixelFormat) {e : Tables} {pixel : UInt32} {rest : List UInt32}

theorem otherRun (e : Tables) (pixel : UInt32) :
    (encodeOther clientPf e pixel).1.run = e.run := by
  unfold encodeOther
  simp only
  split <;> rfl

theorem otherPixel (e : Tables) (pixel : UInt32) :
    (encodeOther clientPf e pixel).1.prevPixel = some pixel := by
  unfold encodeOther
  simp only
  split <;> rfl

theorem aheadNoRun (none : e.run = 0) (pixels : List UInt32) :
    ahead clientPf e pixels = (0,(encodePixels clientPf e pixels).2) := by
  cases pixels with
  | nil => rfl
  | cons pixel rest =>
    have same : {e with run := 0} = e := by
      rw [← none]
    rw [ahead,if_neg (by omega),same]

theorem runStays (kept : RunKept e (pixel :: rest)) :
    RunKept (encodePixel clientPf rest.isEmpty e pixel).1 rest := by
  have short := kept.short
  unfold encodePixel
  simp only
  split
  · split
    · exact ⟨by simp,fun _ => rfl⟩
    · rename_i goes
      rw [not_or] at goes
      refine ⟨by simp only; omega,fun none => ?_⟩
      simp [none] at goes
  · have zero : (encodeOther clientPf {e with run := 0} pixel).1.run = 0 := otherRun clientPf _ _
    exact ⟨by simp only [zero]; decide,fun _ => zero⟩

/- Inside a run the next byte the encoder writes has its whole length. -/
theorem aheadFlush {pixels : List UInt32} (more : pixels ≠ []) {e : Tables} (running : 0 < e.run)
    (short : e.run < 62) :
    (encodePixels clientPf e pixels).2 =
        sendInt8 (RUN ||| (e.run + (ahead clientPf e pixels).1 - 1)) ++ (ahead clientPf e pixels).2 ∧
      e.run + (ahead clientPf e pixels).1 ≤ 62 := by
  induction pixels generalizing e with
  | nil => exact absurd rfl more
  | cons pixel rest ih =>
    by_cases same : e.prevPixel = some pixel
    · rw [encodePixels,ahead,if_pos ⟨running,same⟩]
      simp only [encodePixel,if_pos same]
      by_cases ends : e.run + 1 = 62 ∨ rest.isEmpty = true
      · have last : ahead clientPf {e with run := 0} rest = (0,(encodePixels clientPf {e with run := 0} rest).2) :=
          aheadNoRun clientPf rfl rest
        simp only [if_pos ends,last]
        exact ⟨trivial,by omega⟩
      · rw [not_or] at ends
        have left : rest ≠ [] := by simpa using ends.2
        obtain ⟨bytes,bound⟩ := ih left (e := {e with run := e.run + 1}) (Nat.succ_pos _) (by simp only; omega)
        have goes : ¬(e.run + 1 = 62 ∨ rest.isEmpty = true) := not_or.mpr ends
        simp only [if_neg goes,List.nil_append]
        simp only at bytes bound
        have count : e.run + 1 + (ahead clientPf {e with run := e.run + 1} rest).1 - 1 =
            e.run + ((ahead clientPf {e with run := e.run + 1} rest).1 + 1) - 1 := by omega
        rw [count] at bytes
        exact ⟨bytes,by omega⟩
    · have other : ¬(0 < e.run ∧ e.prevPixel = some pixel) := fun both => same both.2
      have some : ¬e.run = 0 := by omega
      rw [ahead,if_neg other]
      simp only [encodePixels,encodePixel,if_neg same,if_neg some,if_true]
      exact ⟨by rw [List.nil_append,List.append_assoc]; rfl,by omega⟩

variable {clientPf pf : PixelFormat} {d : Tables}

/- The decoder comes to the pixel the encoder has just seen: it reads the bytes by which
the encoder has moved on, and is in step with it again. -/
def DecodesNext (clientPf pf : PixelFormat) (e d : Tables) (pixel : UInt32) (rest : List UInt32) : Prop :=
  ∃ d' bytes, Reads (decodePixel pf d) bytes d' ∧
    (ahead clientPf e (pixel :: rest)).2 =
      bytes ++ (ahead clientPf (encodePixel clientPf rest.isEmpty e pixel).1 rest).2 ∧
    Synced clientPf pf (encodePixel clientPf rest.isEmpty e pixel).1 d' rest ∧
    d'.prevPixel = some (repack clientPf pf pixel)

/- In a run that the decoder has read already. -/
theorem decodesRunning (sync : Synced clientPf pf e d (pixel :: rest))
    (goes : 0 < e.run ∧ e.prevPixel = some pixel) : DecodesNext clientPf pf e d pixel rest := by
  have kept := runStays clientPf sync.kept
  have run := sync.run
  unfold DecodesNext
  rw [ahead,if_pos goes] at run ⊢
  have inside : d.run ≠ 0 := by
    rw [run]
    exact Nat.succ_ne_zero _
  refine ⟨{d with run := d.run - 1},[],?_,rfl,⟨?_,kept,?_⟩,?_⟩
  · rw [decodePixel,if_pos inside]
    exact readsPure _
  · simp only [encodePixel,if_pos goes.2]
    split
    · exact agreeRun sync.agree _ _
    · exact agreeRun sync.agree _ _
  · simp only [run,Nat.add_sub_cancel]
  · simp only [sync.agree.prevPixel,goes.2,Option.map_some]

/- At the first pixel of a run: the decoder reads how long it is. -/
theorem decodesRun (sync : Synced clientPf pf e d (pixel :: rest)) (none : e.run = 0)
    (same : e.prevPixel = some pixel) : DecodesNext clientPf pf e d pixel rest := by
  have kept := runStays clientPf sync.kept
  have run := sync.run
  have start : {e with run := 0} = e := by
    rw [← none]
  have flush : encodePixel clientPf rest.isEmpty e pixel =
      if rest.isEmpty then ({e with run := 0},sendInt8 (RUN ||| 0)) else ({e with run := 1},[]) := by
    simp [encodePixel,same,none]
  rw [aheadNoRun clientPf none] at run
  unfold DecodesNext
  rw [aheadNoRun clientPf none,decodePixel,if_neg (not_not.mpr run)]
  rw [flush] at kept
  rw [encodePixels,flush]
  by_cases last : rest = []
  · subst last
    exact ⟨{d with run := 0},_,readsRun (by decide),rfl,⟨agreeRun sync.agree _ _,kept,rfl⟩,
      by simp only [sync.agree.prevPixel,same,Option.map_some]⟩
  · have more : rest.isEmpty = false := by simpa using last
    simp only [more,Bool.false_eq_true,if_false] at kept ⊢
    obtain ⟨bytes,bound⟩ := aheadFlush clientPf last (e := {e with run := 1}) Nat.one_pos
      (show 1 < 62 by decide)
    simp only [Nat.add_sub_cancel_left] at bytes bound
    refine ⟨{d with run := (ahead clientPf {e with run := 1} rest).1},_,readsRun (by omega),?_,
      ⟨agreeRun sync.agree _ _,kept,rfl⟩,by simp only [sync.agree.prevPixel,same,Option.map_some]⟩
    rw [List.nil_append,bytes]

/- At a pixel unlike the one before. -/
theorem decodesOther (h : RgbFormat pf) (sync : Synced clientPf pf e d (pixel :: rest))
    (differs : ¬e.prevPixel = some pixel) : DecodesNext clientPf pf e d pixel rest := by
  have kept := runStays clientPf sync.kept
  have run := sync.run
  have stops : ¬(0 < e.run ∧ e.prevPixel = some pixel) := fun both => differs both.2
  have next : encodePixel clientPf rest.isEmpty e pixel =
      ((encodeOther clientPf {e with run := 0} pixel).1,
        (encodePixel clientPf rest.isEmpty e pixel).2) := by
    rw [encodePixel,if_neg differs]
  have fresh : encodePixel clientPf rest.isEmpty {e with run := 0} pixel =
      encodeOther clientPf {e with run := 0} pixel := by
    simp [encodePixel,differs]
  obtain ⟨d',reads,ran,agree⟩ := readsOther h (agreeRun sync.agree 0 d.run) pixel
  have zero : (encodeOther clientPf {e with run := 0} pixel).1.run = 0 := otherRun clientPf _ _
  unfold DecodesNext
  rw [ahead,if_neg stops] at run ⊢
  rw [next] at kept ⊢
  rw [decodePixel,if_neg (not_not.mpr run),encodePixels,fresh,aheadNoRun clientPf zero]
  refine ⟨d',_,reads,rfl,⟨agree,kept,?_⟩,?_⟩
  · rw [aheadNoRun clientPf zero,ran]
    exact run
  · rw [agree.prevPixel,otherPixel]
    rfl

theorem decodeStep (h : RgbFormat pf) (sync : Synced clientPf pf e d (pixel :: rest)) :
    DecodesNext clientPf pf e d pixel rest := by
  by_cases same : e.prevPixel = some pixel
  · obtain none | some := Nat.eq_zero_or_pos e.run
    · exact decodesRun sync none same
    · exact decodesRunning sync ⟨some,same⟩
  · exact decodesOther h sync same

end
end Ltsm.QoiAgreement
