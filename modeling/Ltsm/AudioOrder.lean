import Ltsm.AudioCommands
import Ltsm.Library.Run

/-! What a session's sound becomes on its way to the client: captured blocks are cut into
frames for the encoder, which keeps what is left over for the next block. Silence goes
past the encoder, and past what it has kept. -/
namespace Ltsm.AudioOrder
open Library AudioCommands

def channels : Nat := 2
def bitsPerSample : Nat := 16
def sampleLength : Nat := channels * (bitsPerSample >>> 3)

def Frame (bytes : Bytes) : Prop := bytes.length = 480 * sampleLength ∨ bytes.length = 960 * sampleLength

/- The Opus library and the decoder at the other end, frame by frame. An encoded frame
has at least its table of contents. -/
structure Codec where
  encode : Bytes → Bytes
  decode : Bytes → Bytes
  inverse : ∀ frame, Frame frame → decode (encode frame) = frame
  filled : ∀ frame, Frame frame → encode frame ≠ []

structure Opus where
  last : Bytes
  deriving DecidableEq, Repr

structure AudioClient where
  encoder : Option Opus
  deriving DecidableEq, Repr

namespace Opus

def push (o : Opus) (span : Bytes) : Opus := ⟨o.last ++ span⟩

def encode (codec : Codec) (o : Opus) : Bytes × Opus :=
  let samplesCount := o.last.length / sampleLength
  if samplesCount < 480 then ([],o)
  else
    let framesCount := if samplesCount < 960 then 480 else 960
    (codec.encode (o.last.take (framesCount * sampleLength)),⟨o.last.drop (framesCount * sampleLength)⟩)

variable {codec : Codec} {o : Opus}

/- A frame is taken off the front, if there is one. -/
theorem encodeCases : (o.last.length < 480 * sampleLength ∧ o.encode codec = ([],o)) ∨
    ∃ length, Frame (o.last.take length) ∧
      o.encode codec = (codec.encode (o.last.take length),⟨o.last.drop length⟩) := by
  unfold encode
  have four : sampleLength = 4 := rfl
  simp only [Frame,four,List.length_take]
  by_cases short : o.last.length / 4 < 480
  · exact .inl ⟨by omega,if_pos short⟩
  · rw [if_neg short]
    by_cases medium : o.last.length / 4 < 960
    · exact .inr ⟨480 * 4,by omega,by rw [if_pos medium]⟩
    · exact .inr ⟨960 * 4,by omega,by rw [if_neg medium]⟩

theorem encodeShorter (some : (o.encode codec).1 ≠ []) : (o.encode codec).2.last.length < o.last.length := by
  obtain ⟨_,none⟩ | ⟨length,frame,taken⟩ := @encodeCases codec o
  · rw [none] at some
    exact absurd rfl some
  · rw [taken,List.length_drop]
    have four : sampleLength = 4 := rfl
    simp only [Frame,four,List.length_take] at frame
    omega

/- Until there is nothing more to encode. -/
def encodeAll (codec : Codec) (o : Opus) : List Bytes × Opus :=
  if (o.encode codec).1 = [] then ([],(o.encode codec).2)
  else ((o.encode codec).1 :: (encodeAll codec (o.encode codec).2).1,(encodeAll codec (o.encode codec).2).2)
termination_by o.last.length
decreasing_by exact encodeShorter (by assumption)

/- Decoded, the frames and the rest are what was there; the frames are whole. -/
theorem encodeAllKeeps (codec : Codec) (o : Opus) :
    (o.encodeAll codec).1.flatMap codec.decode ++ (o.encodeAll codec).2.last = o.last ∧
    (o.encodeAll codec).2.last.length < 480 * sampleLength ∧
    480 * sampleLength ∣ ((o.encodeAll codec).1.flatMap codec.decode).length := by
  induction o using encodeAll.induct codec with
  | case1 o done =>
    rw [encodeAll,if_pos done]
    obtain ⟨short,none⟩ | ⟨length,frame,taken⟩ := @encodeCases codec o
    · rw [none]
      exact ⟨rfl,short,Nat.dvd_zero _⟩
    · rw [taken] at done
      exact absurd done (codec.filled _ frame)
  | case2 o more ih =>
    rw [encodeAll,if_neg more]
    obtain ⟨_,none⟩ | ⟨length,frame,taken⟩ := @encodeCases codec o
    · rw [none] at more
      exact absurd rfl more
    · rw [taken] at ih ⊢
      obtain ⟨whole,short,frames⟩ := ih
      rw [List.flatMap_cons,codec.inverse _ frame,List.append_assoc,whole,List.take_append_drop,List.length_append]
      refine ⟨rfl,short,(Nat.dvd_add_left frames).mpr ?_⟩
      obtain one | two := frame
      · rw [one]
      · rw [two]
        exact ⟨2,rfl⟩

end Opus

def isSilent (span : Bytes) : Bool := span.all fun val => val == 0

def dataEncode (codec : Codec) (client : AudioClient) (span : Bytes) : List Command × AudioClient :=
  if isSilent span then ([.silent (UInt32.ofNat span.length)],client)
  else
    match client.encoder with
    | none => ([.data span],client)
    | some o =>
      let bufs := (o.push span).encodeAll codec
      (bufs.1.map .data,⟨some bufs.2⟩)

/- The sound of a packet. -/
def play (codec : Codec) (client : AudioClient) : Command → Bytes
  | .init _ => []
  | .data bytes => if client.encoder.isSome then codec.decode bytes else bytes
  | .silent len => List.replicate len.toNat 0

/- All that was captured, and what the packets sound like, so far. -/
structure Capture where
  client : AudioClient
  captured : Bytes
  heard : Bytes
  deriving DecidableEq, Repr

def start : Capture := ⟨⟨some ⟨[]⟩⟩,[],[]⟩

def capture (codec : Codec) (c : Capture) (span : Bytes) : Capture :=
  let packets := dataEncode codec c.client span
  ⟨packets.2,c.captured ++ span,c.heard ++ packets.1.flatMap (play codec c.client)⟩

/- What is heard is what was captured, less than a frame behind it. -/
structure InOrder (c : Capture) : Prop where
  front : c.heard <+: c.captured
  behind : c.captured.length < c.heard.length + 480 * sampleLength

namespace Capture

/- What the encoder has kept, and as many of the bytes captured last. -/
def kept (c : Capture) : Bytes := (c.client.encoder.map Opus.last).getD []
def recent (c : Capture) : Bytes := c.captured.drop (c.captured.length - c.kept.length)

end Capture

/- Silence comes with nothing but silence before it in the encoder, as far as it goes;
other blocks complete no frame, or the encoder has kept what was captured last. -/
def Ready (c : Capture) (span : Bytes) : Prop :=
  if isSilent span then span.length < 2 ^ 32 ∧ isSilent (c.recent.take span.length) = true
  else c.kept.length + span.length < 480 * sampleLength ∨ c.kept = c.recent
instance (c span) : Decidable (Ready c span) := by unfold Ready; infer_instance

/- What is still owed is as long as what the encoder has kept. -/
structure Pending (c : Capture) (o : Opus) (owed : Bytes) : Prop where
  encoder : c.client.encoder = some o
  captured : c.captured = c.heard ++ owed
  length : owed.length = o.last.length
  short : o.last.length < 480 * sampleLength

def Going (c : Capture) : Prop := ∃ o owed, Pending c o owed

section
variable {codec : Codec} {c : Capture} {o : Opus} {owed span : Bytes}

theorem pendingKept (h : Pending c o owed) : c.kept = o.last := by
  rw [Capture.kept,h.encoder]
  rfl

theorem pendingRecent (h : Pending c o owed) : c.recent = owed := by
  rw [Capture.recent,pendingKept h,h.captured,List.length_append,h.length,Nat.add_sub_cancel,List.drop_left]

theorem goingInOrder (going : Going c) : InOrder c := by
  obtain ⟨o,owed,h⟩ := going
  refine ⟨⟨owed,h.captured.symm⟩,?_⟩
  have length := h.length
  have short := h.short
  rw [h.captured,List.length_append]
  omega

/- Silence is heard as so many zeros, reduced to thirty-two bits. -/
theorem captureSilent (silent : isSilent span = true) : capture codec c span =
    ⟨c.client,c.captured ++ span,c.heard ++ List.replicate (span.length % 2 ^ 32) 0⟩ := by
  unfold capture dataEncode
  simp only [if_pos silent,List.flatMap_cons,List.flatMap_nil,List.append_nil,play,UInt32.toNat_ofNat']

theorem captureSound (h : Pending c o owed) (sound : ¬isSilent span = true) : capture codec c span =
    ⟨⟨some ((o.push span).encodeAll codec).2⟩,c.captured ++ span,
      c.heard ++ ((o.push span).encodeAll codec).1.flatMap codec.decode⟩ := by
  unfold capture dataEncode
  simp only [if_neg sound,h.encoder,List.flatMap_map,play,Option.isSome_some,if_true]

theorem silentIff : isSilent span = true ↔ ∀ val ∈ span, val = 0 := by
  simp [isSilent]

/- The zeros heard are the next bytes owed. -/
theorem zerosNext (silent : isSilent span = true) :
    List.replicate span.length 0 <+: owed ++ span ↔ isSilent (owed.take span.length) = true := by
  rw [silentIff,List.prefix_iff_eq_take,List.length_replicate,eq_comm,List.eq_replicate_iff]
  have length : ((owed ++ span).take span.length).length = span.length := by
    rw [List.length_take,List.length_append]
    omega
  rw [List.take_append]
  constructor
  · rintro ⟨_,zeros⟩ val listed
    exact zeros val (List.mem_append_left _ listed)
  · intro zeros
    refine ⟨List.take_append ▸ length,fun val listed => ?_⟩
    obtain before | now := List.mem_append.mp listed
    · exact zeros val before
    · exact silentIff.mp silent val (List.mem_of_mem_take now)

theorem silentKeeps (h : Pending c o owed) (silent : isSilent span = true) (small : span.length < 2 ^ 32)
    (zeros : isSilent (owed.take span.length) = true) : Going (capture codec c span) := by
  obtain ⟨rest,split⟩ := (zerosNext silent).mpr zeros
  rw [captureSilent silent,Nat.mod_eq_of_lt small]
  refine ⟨o,rest,h.encoder,?_,?_,h.short⟩
  · rw [h.captured,List.append_assoc,List.append_assoc,split]
  · have total := congrArg List.length split
    rw [List.length_append,List.length_append,List.length_replicate] at total
    have length := h.length
    omega

theorem silentReady (h : Pending c o owed) (silent : isSilent span = true) (next : InOrder (capture codec c span)) :
    span.length < 2 ^ 32 ∧ isSilent (owed.take span.length) = true := by
  rw [captureSilent silent] at next
  obtain ⟨front,behind⟩ := next
  have less := Nat.mod_lt span.length (show 0 < 2 ^ 32 by decide)
  have small : span.length < 2 ^ 32 := by
    have four : sampleLength = 4 := rfl
    rw [h.captured] at behind
    simp only [List.length_append,List.length_replicate,four] at behind
    omega
  rw [h.captured,Nat.mod_eq_of_lt small,List.append_assoc,List.prefix_append_right_inj] at front
  exact ⟨small,(zerosNext silent).mp front⟩

theorem pushLength (o : Opus) (span : Bytes) : (o.push span).last.length = o.last.length + span.length :=
  List.length_append

/- Frames that are completed begin with what the encoder has kept. -/
theorem soundKeeps (h : Pending c o owed) (sound : ¬isSilent span = true)
    (ready : o.last.length + span.length < 480 * sampleLength ∨ o.last = owed) : Going (capture codec c span) := by
  obtain ⟨whole,short,frames⟩ := (o.push span).encodeAllKeeps codec
  have total := congrArg List.length whole
  rw [captureSound h sound]
  obtain few | same := ready
  · have none : ((o.push span).encodeAll codec).1.flatMap codec.decode = [] := by
      refine List.length_eq_zero_iff.mp (Nat.eq_zero_of_dvd_of_lt frames ?_)
      rw [List.length_append,pushLength] at total
      omega
    rw [none,List.nil_append] at whole
    refine ⟨_,owed ++ span,rfl,?_,?_,short⟩
    · rw [none,List.append_nil,h.captured,List.append_assoc]
    · rw [whole,Opus.push,List.length_append,List.length_append,h.length]
  · refine ⟨_,((o.push span).encodeAll codec).2.last,rfl,?_,rfl,short⟩
    rw [h.captured,List.append_assoc,List.append_assoc,whole,Opus.push,same]

theorem soundReady (h : Pending c o owed) (sound : ¬isSilent span = true) (next : InOrder (capture codec c span)) :
    o.last.length + span.length < 480 * sampleLength ∨ o.last = owed := by
  obtain ⟨whole,short,frames⟩ := (o.push span).encodeAllKeeps codec
  have total := congrArg List.length whole
  rw [captureSound h sound] at next
  have front := next.front
  rw [h.captured,List.append_assoc,List.prefix_append_right_inj] at front
  by_cases few : o.last.length + span.length < 480 * sampleLength
  · exact .inl few
  · have some : 0 < (((o.push span).encodeAll codec).1.flatMap codec.decode).length := by
      rw [List.length_append,pushLength] at total
      omega
    have frame := Nat.le_of_dvd some frames
    have kept : o.last <+: ((o.push span).encodeAll codec).1.flatMap codec.decode :=
      List.prefix_of_prefix_length_le (show o.last <+: (o.push span).last from ⟨span,rfl⟩) ⟨_,whole⟩
        (by have := h.short; omega)
    have first : owed <+: ((o.push span).encodeAll codec).1.flatMap codec.decode :=
      List.prefix_of_prefix_length_le (show owed <+: owed ++ span from ⟨span,rfl⟩) front
        (by have := h.short; have := h.length; omega)
    exact .inr ((List.prefix_of_prefix_length_le kept first (by rw [h.length])).eq_of_length h.length.symm)

theorem goingKeeps (going : Going c) (ready : Ready c span) : Going (capture codec c span) := by
  obtain ⟨o,owed,h⟩ := going
  rw [Ready,pendingKept h,pendingRecent h] at ready
  by_cases silent : isSilent span = true
  · rw [if_pos silent] at ready
    exact silentKeeps h silent ready.1 ready.2
  · rw [if_neg silent] at ready
    exact soundKeeps h silent ready

theorem goingBreaks (going : Going c) (next : InOrder (capture codec c span)) : Ready c span := by
  obtain ⟨o,owed,h⟩ := going
  rw [Ready,pendingKept h,pendingRecent h]
  by_cases silent : isSilent span = true
  · rw [if_pos silent]
    exact silentReady h silent next
  · rw [if_neg silent]
    exact soundReady h silent next

end

theorem goingStart : Going start := ⟨⟨[]⟩,[],rfl,rfl,rfl,by decide⟩

/- What is heard follows what is captured all the way if and only if no block comes at the
wrong moment. -/
theorem inOrderIff (codec : Codec) (blocks : List Bytes) :
    Always (capture codec) InOrder start blocks ↔ Meets (capture codec) Ready start blocks :=
  alwaysMeetsIff (I := Going) (fun _ _ going ready => goingKeeps going ready) (fun _ going => goingInOrder going)
    (fun _ _ going next => goingBreaks going next) goingStart blocks

/- Frames sent as they are. -/
def plain : Codec where
  encode := id
  decode := id
  inverse _ _ := rfl
  filled frame whole := by
    rintro rfl
    obtain none | none := whole
    · cases none
    · cases none

/- One sample, and silence after it: the silence is heard first. -/
theorem silenceOvertakes : (run (capture plain) start [[1,0,0,0],[0,0,0,0]]).heard = [0,0,0,0] ∧
    (run (capture plain) start [[1,0,0,0],[0,0,0,0]]).captured = [1,0,0,0,0,0,0,0] ∧
    ¬∀ blocks, Always (capture plain) InOrder start blocks := by
  have none : (Opus.push ⟨[]⟩ [1,0,0,0]).encodeAll plain = ([],⟨[1,0,0,0]⟩) := by
    rw [Opus.encodeAll]
    rfl
  have after : run (capture plain) start [[1,0,0,0],[0,0,0,0]] =
      ⟨⟨some ⟨[1,0,0,0]⟩⟩,[1,0,0,0,0,0,0,0],[0,0,0,0]⟩ := by
    simp [capture,dataEncode,start,isSilent,none,play]
  refine ⟨by rw [after],by rw [after],fun all => ?_⟩
  have front := (all _ _ (List.prefix_refl [[1,0,0,0],[0,0,0,0]])).front
  rw [after] at front
  revert front
  decide

end Ltsm.AudioOrder
