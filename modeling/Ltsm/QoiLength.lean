import Ltsm.QoiAgreement

/-! How long a QOI stream is, told from the pixels alone: what each pixel costs depends
on the pixels before it and on whether the next one is the same. -/
namespace Ltsm.QoiLength
open Library Regions PixelFormats PixelStreams FrameBuffers QoiCodec QoiAgreement

/- A small change, one that goes with green, or another. -/
def changeSize (pcol col : Color) : Nat :=
  let vr := toInt8 ((col.r.toNat : Int) - pcol.r.toNat)
  let vg := toInt8 ((col.g.toNat : Int) - pcol.g.toNat)
  let vb := toInt8 ((col.b.toNat : Int) - pcol.b.toNat)
  let vg_r := toInt8 (vr - vg)
  let vg_b := toInt8 (vb - vg)
  if -3 < vr ∧ vr < 2 ∧ -3 < vg ∧ vg < 2 ∧ -3 < vb ∧ vb < 2 then 1
  else if -9 < vg_r ∧ vg_r < 8 ∧ -33 < vg ∧ vg < 32 ∧ -9 < vg_b ∧ vg_b < 8 then 2
  else 4

section
variable (clientPf : PixelFormat)

def hashOf (pixel : UInt32) : Nat := hashIndex64RGB (clientPf.color pixel)

/- The last pixel with the hash. -/
def lastOf (index : Nat) (before : List UInt32) : Option UInt32 :=
  before.find? fun other => decide (hashOf clientPf other = index)

/- The pixels before come with the latest first. A run is paid for by every
sixty-second pixel of it and by its last one. -/
def opcodeSize (before : List UInt32) (pixel : UInt32) (rest : List UInt32) : Nat :=
  if before.head? = some pixel then
    if (before.takeWhile (· == pixel)).length % 62 = 0 ∨ rest.head? ≠ some pixel then 1 else 0
  else if lastOf clientPf (hashOf clientPf pixel) before = some pixel then 1
  else match before.head? with
    | none => 4
    | some prevPixel => changeSize (clientPf.color prevPixel) (clientPf.color pixel)

def opcodesSize (before : List UInt32) : List UInt32 → Nat
  | [] => 0
  | pixel :: rest => opcodeSize clientPf before pixel rest + opcodesSize (pixel :: before) rest

/- The length of the run before, but for the pixels already paid for. -/
def runOf : List UInt32 → Nat
  | [] => 0
  | pixel :: before => (before.takeWhile (· == pixel)).length % 62

/- The encoder's tables in terms of the pixels it has seen. -/
structure Seen (before : List UInt32) (e : Tables) : Prop where
  prevPixel : e.prevPixel = before.head?
  hashes : ∀ index, e.hashes index = lastOf clientPf index before
  run : e.run = runOf before

theorem seenStart : Seen clientPf [] .start := ⟨rfl,fun _ => rfl,rfl⟩

theorem lengthChange (pcol col : Color) : (sendChange pcol col).length = changeSize pcol col := by
  unfold sendChange changeSize
  simp only [apply_ite List.length]
  rfl

variable {clientPf} {before : List UInt32} {e : Tables} {pixel : UInt32}

theorem lastCons (index : Nat) : lastOf clientPf index (pixel :: before) =
    if hashOf clientPf pixel = index then some pixel else lastOf clientPf index before := by
  rw [lastOf,List.find?_cons]
  by_cases here : hashOf clientPf pixel = index
  · simp [here]
  · simp [here,lastOf]

/- A pixel unlike the one before. -/
theorem seenOther (seen : Seen clientPf before e) (fresh : before.head? ≠ some pixel) (rest : List UInt32) :
    Seen clientPf (pixel :: before) (encodeOther clientPf {e with run := 0} pixel).1 ∧
      (encodeOther clientPf {e with run := 0} pixel).2.length = opcodeSize clientPf before pixel rest := by
  have alone : runOf (pixel :: before) = 0 := by
    have none : before.takeWhile (· == pixel) = [] := by
      cases before with
      | nil => rfl
      | cons first _ =>
        have differs : first ≠ pixel := by simpa using fresh
        simp [differs]
    rw [runOf,none]
    rfl
  have last := seen.hashes (hashOf clientPf pixel)
  unfold encodeOther opcodeSize
  rw [if_neg fresh,← last]
  simp only
  by_cases known : e.hashes (hashOf clientPf pixel) = some pixel
  · have hit : e.hashes (hashIndex64RGB (clientPf.color pixel)) = some pixel := known
    rw [if_pos known,if_pos hit]
    refine ⟨⟨rfl,fun index => ?_,alone.symm⟩,rfl⟩
    rw [lastCons]
    split
    · rename_i same
      rw [← same]
      exact known
    · exact seen.hashes index
  · have miss : ¬e.hashes (hashIndex64RGB (clientPf.color pixel)) = some pixel := known
    rw [if_neg known,if_neg miss,seen.prevPixel]
    refine ⟨⟨rfl,fun index => ?_,alone.symm⟩,?_⟩
    · have entry : e.hashes.set (hashIndex64RGB (clientPf.color pixel)) pixel index =
          if index = hashOf clientPf pixel then some pixel else e.hashes index := rfl
      refine Eq.trans entry ?_
      rw [lastCons,seen.hashes]
      by_cases here : hashOf clientPf pixel = index
      · rw [if_pos here,if_pos here.symm]
      · rw [if_neg here,if_neg (Ne.symm here)]
    · cases before.head? with
      | none => rfl
      | some prevPixel => exact lengthChange _ _

/- A pixel like the one before, of a run that goes on. -/
theorem seenAgain (seen : Seen clientPf (pixel :: before) e) :
    Seen clientPf (pixel :: pixel :: before) {e with run := (e.run + 1) % 62} := by
  refine ⟨seen.prevPixel,fun index => ?_,?_⟩
  · rw [lastCons]
    split
    · rename_i here
      have entry : e.hashes index = lastOf clientPf index (pixel :: before) := seen.hashes index
      rw [lastCons,if_pos here] at entry
      exact entry
    · exact seen.hashes index
  · have longer : runOf (pixel :: pixel :: before) = (runOf (pixel :: before) + 1) % 62 := by
      simp only [runOf,List.takeWhile_cons,beq_self_eq_true,if_true,List.length_cons]
      omega
    rw [longer,← seen.run]

/- What is still to be written: what the pixels to come cost, and the run before them if
it has not been paid for. -/
theorem lengthPixels (pixels : List UInt32) {before : List UInt32} {e : Tables} (seen : Seen clientPf before e)
    (flushed : pixels = [] → e.run = 0) :
    (encodePixels clientPf e pixels).2.length = opcodesSize clientPf before pixels +
      if 0 < e.run ∧ pixels.head? ≠ e.prevPixel then 1 else 0 := by
  induction pixels generalizing before e with
  | nil => simp [encodePixels,opcodesSize,flushed rfl]
  | cons pixel rest ih =>
    rw [encodePixels,opcodesSize,List.length_append,List.head?_cons,seen.prevPixel]
    by_cases same : before.head? = some pixel
    · obtain ⟨tail,rfl⟩ : ∃ tail, before = pixel :: tail := List.head?_eq_some_iff.mp same
      have prev : e.prevPixel = some pixel := seen.prevPixel
      have count : ((pixel :: tail).takeWhile (· == pixel)).length % 62 = (e.run + 1) % 62 := by
        rw [seen.run]
        simp only [runOf,List.takeWhile_cons,beq_self_eq_true,if_true,List.length_cons]
        omega
      have small : e.run < 62 := by
        rw [seen.run]
        exact Nat.mod_lt _ (by decide)
      have paid : ¬(0 < e.run ∧ some pixel ≠ (pixel :: tail).head?) := fun both => both.2 rfl
      rw [if_neg paid,opcodeSize,if_pos same,count,encodePixel,if_pos prev]
      simp only
      by_cases last : rest = []
      · subst last
        simp [encodePixels,opcodesSize,sendInt8]
      have more : rest.isEmpty = false := by simpa using last
      have again := seenAgain seen
      by_cases full : e.run + 1 = 62
      · have later := ih (full ▸ again) fun none => absurd none last
        simp only [Nat.mod_self,Nat.lt_irrefl,false_and,if_false,Nat.add_zero] at later
        simp [full,later,sendInt8]
      · have goes : (e.run + 1) % 62 = e.run + 1 := Nat.mod_eq_of_lt (by omega)
        have later := ih (goes ▸ again) fun none => absurd none last
        simp only [Nat.succ_pos,true_and,prev] at later
        simp [full,more,goes,prev,later,Nat.add_comm]
    · obtain ⟨next,length⟩ := seenOther seen same rest
      have zero : (encodeOther clientPf {e with run := 0} pixel).1.run = 0 := otherRun clientPf _ _
      have later := ih next fun _ => zero
      have prev : ¬e.prevPixel = some pixel := by rwa [seen.prevPixel]
      simp only [zero,Nat.lt_irrefl,false_and,if_false,Nat.add_zero] at later
      have pending : (if 0 < e.run ∧ some pixel ≠ before.head? then 1 else 0) = if e.run = 0 then 0 else 1 := by
        have differs : some pixel ≠ before.head? := Ne.symm same
        by_cases none : e.run = 0
        · simp [none]
        · simp [none,differs,Nat.pos_of_ne_zero none]
      rw [pending]
      simp only [encodePixel,if_neg prev,List.length_append,length,later,apply_ite List.length]
      simp only [sendInt8,List.length_nil,List.length_singleton]
      omega

theorem changeSmall (pcol col : Color) : changeSize pcol col ≤ 4 := by
  unfold changeSize
  simp only
  split
  · omega
  · split <;> omega

theorem opcodeSmall (before : List UInt32) (pixel : UInt32) (rest : List UInt32) :
    opcodeSize clientPf before pixel rest ≤ 4 := by
  unfold opcodeSize
  split
  · split <;> omega
  · split
    · omega
    · split
      · omega
      · exact changeSmall _ _

theorem opcodesSmall (before pixels : List UInt32) : opcodesSize clientPf before pixels ≤ 4 * pixels.length := by
  induction pixels generalizing before with
  | nil => exact Nat.le_refl _
  | cons pixel rest ih =>
    have first : opcodeSize clientPf before pixel rest ≤ 4 := opcodeSmall before pixel rest
    have later := ih (pixel :: before)
    rw [opcodesSize,List.length_cons]
    omega

end

/- The length of the stream for a region, with the padding. -/
def streamLength (clientPf : PixelFormat) (fb : FrameBuffer) (reg : Region) : Nat :=
  opcodesSize clientPf [] (sourcePixels clientPf fb reg) + 8

theorem lengthStream (clientPf : PixelFormat) (fb : FrameBuffer) (reg : Region) :
    ((encodePixels clientPf .start (sourcePixels clientPf fb reg)).2 ++ qoiPadding).length =
      streamLength clientPf fb reg := by
  have whole := lengthPixels (sourcePixels clientPf fb reg) (seenStart clientPf) fun _ => rfl
  have none : Tables.start.run = 0 := rfl
  simp only [none,Nat.lt_irrefl,false_and,if_false,Nat.add_zero] at whole
  rw [List.length_append,whole]
  rfl

end Ltsm.QoiLength
