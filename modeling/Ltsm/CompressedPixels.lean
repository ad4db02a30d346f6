import Mathlib.Tactic.IntervalCases
import Ltsm.PixelStreams

/-! Compressed pixels. The server sends three bytes of a 32-bit pixel, from the end
its own format calls least significant; the client puts three bytes at the end its
format does. -/
namespace Ltsm.CompressedPixels
open Library PixelFormats PixelStreams Regions

/- Eight-bit channels that fill whole bytes of the pixel, three of its four. -/
structure LaneFormat extends ByteFormat where
  redLane : 8 ∣ redShift
  greenLane : 8 ∣ greenShift
  blueLane : 8 ∣ blueShift

def SameRgb (pf : PixelFormat) (one two : UInt32) : Prop :=
  pf.red one = pf.red two ∧ pf.green one = pf.green two ∧ pf.blue one = pf.blue two

def CPixelKept (st : EncoderStream) (be : Bool) (pixel : UInt32) : Prop :=
  ∃ bytes received, st.sendCPixel pixel = some bytes ∧ bytes.length = 3 ∧
    Reads (recvCPixel be st.clientFormat) bytes received ∧
    SameRgb st.clientFormat received (st.clientFormat.convertFrom st.serverFormat pixel)

/- The lowest byte that a format counts to its three. -/
def windowStart (leastSignificant : Bool) : Nat := if leastSignificant then 0 else 1

def window (start : Nat) (word : Bytes) : Bytes := (word.drop start).take 3

def ordered (be : Bool) (bytes : Bytes) : Bytes := if be then bytes.reverse else bytes

def placed (start : Nat) (bytes : Bytes) : Bytes :=
  List.replicate start 0 ++ bytes ++ List.replicate (1 - start) 0

/- The bytes the client ends up with, lowest first, for the server's word. -/
def carried (serverStart clientStart : Nat) (swapped : Bool) (word : Bytes) : Bytes :=
  placed clientStart (ordered swapped (window serverStart word))

theorem wordWindow (be leastSignificant : Bool) (value : UInt32) :
    ((wordBytes be value).drop (cpixelOffset be leastSignificant)).take 3 =
      ordered be (window (windowStart leastSignificant) (littleEndian 4 value.toNat)) := by
  cases be <;> cases leastSignificant <;> rfl

theorem placedWord (be leastSignificant : Bool) {bytes : Bytes} (three : bytes.length = 3) :
    ofWordBytes be (List.replicate (cpixelOffset be leastSignificant) 0 ++ bytes ++
      List.replicate (1 - cpixelOffset be leastSignificant) 0) =
      ofWordBytes false (placed (windowStart leastSignificant) (ordered be bytes)) := by
  match bytes, three with
  | [a,b,c], _ => cases be <;> cases leastSignificant <;> rfl

theorem lengthWindow (be leastSignificant : Bool) (value : UInt32) :
    (ordered be (window (windowStart leastSignificant) (littleEndian 4 value.toNat))).length = 3 := by
  cases be <;> cases leastSignificant <;> rfl

theorem orderedTwice (one two : Bool) (bytes : Bytes) :
    ordered one (ordered two bytes) = ordered (one != two) bytes := by
  cases one <;> cases two <;> simp [ordered]

section
variable {st : EncoderStream}

/- The three bytes that are sent of a pixel, and the pixel they are read as. -/
def cpixelBytes (st : EncoderStream) (pixel : UInt32) : Bytes :=
  ordered st.platformBigEndian
    (window (windowStart st.serverFormat.leastSignificant) (littleEndian 4 (st.wirePixel pixel).toNat))

def carriedPixel (st : EncoderStream) (be : Bool) (pixel : UInt32) : UInt32 :=
  ofWordBytes false (carried (windowStart st.serverFormat.leastSignificant)
    (windowStart st.clientFormat.leastSignificant) (be != st.platformBigEndian)
    (littleEndian 4 (st.wirePixel pixel).toNat))

theorem sendsCPixel (bits : st.clientFormat.bitsPixel = 32) (pixel : UInt32) :
    st.sendCPixel pixel = some (cpixelBytes st pixel) := by
  rw [EncoderStream.sendCPixel,if_neg (not_not.mpr bits)]
  exact congrArg some (wordWindow _ _ _)

theorem lengthCPixel (st : EncoderStream) (pixel : UInt32) : (cpixelBytes st pixel).length = 3 :=
  lengthWindow _ _ _

theorem readsCPixel (bits : st.clientFormat.bitsPixel = 32) (be : Bool) (pixel : UInt32) :
    Reads (recvCPixel be st.clientFormat) (cpixelBytes st pixel) (carriedPixel st be pixel) := by
  have placed : ofWordBytes be (List.replicate (cpixelOffset be st.clientFormat.leastSignificant) 0 ++
      cpixelBytes st pixel ++ List.replicate (1 - cpixelOffset be st.clientFormat.leastSignificant) 0) =
      carriedPixel st be pixel := by
    rw [carriedPixel,carried,← orderedTwice]
    exact placedWord be _ (lengthCPixel st pixel)
  rw [recvCPixel,if_neg (not_not.mpr bits),← placed]
  have read := readsMap (readsTake (cpixelBytes st pixel)) (fun bytes => ofWordBytes be
    (List.replicate (cpixelOffset be st.clientFormat.leastSignificant) 0 ++ bytes ++
      List.replicate (1 - cpixelOffset be st.clientFormat.leastSignificant) 0))
  rwa [lengthCPixel] at read

theorem keptIffCarried (bits : st.clientFormat.bitsPixel = 32) (be : Bool) (pixel : UInt32) :
    CPixelKept st be pixel ↔ SameRgb st.clientFormat (carriedPixel st be pixel)
      (st.clientFormat.convertFrom st.serverFormat pixel) := by
  constructor
  · rintro ⟨bytes,received,sends,_,reads,same⟩
    cases Option.some.inj ((sendsCPixel bits pixel).symm.trans sends)
    cases readsUnique (readsCPixel bits be pixel) reads
    exact same
  · exact fun same => ⟨_,_,sendsCPixel bits pixel,lengthCPixel st pixel,readsCPixel bits be pixel,same⟩

end

/- The byte of a word that a channel at a multiple of eight reads. -/
theorem channelLane {lane : Nat} {value : UInt32} (there : lane < (littleEndian 4 value.toNat).length) :
    channel value (8 * lane) 255 = (littleEndian 4 value.toNat)[lane].toNat := by
  have low : lane < 4 := by simpa using there
  rw [channelByte (by omega)]
  interval_cases lane
  · simp [littleEndian]
  · simp [littleEndian]
  · simp [littleEndian,Nat.div_div_eq_div_mul]
  · simp [littleEndian,Nat.div_div_eq_div_mul]

theorem littleEndianWord {bytes : Bytes} (four : bytes.length = 4) :
    littleEndian 4 (ofWordBytes false bytes).toNat = bytes := wordBytesOf false four

theorem carriedFour {serverStart clientStart : Nat} (swapped : Bool) (server : serverStart ≤ 1)
    (client : clientStart ≤ 1) (value : UInt32) :
    (carried serverStart clientStart swapped (littleEndian 4 value.toNat)).length = 4 := by
  interval_cases serverStart <;> interval_cases clientStart <;> cases swapped <;> rfl

/- The three lanes of the client come out as they went in. -/
def LanesKept (serverStart clientStart : Nat) (swapped : Bool) (word : Bytes) (r g b : Nat) : Prop :=
  (carried serverStart clientStart swapped word)[r]? = word[r]? ∧
    (carried serverStart clientStart swapped word)[g]? = word[g]? ∧
    (carried serverStart clientStart swapped word)[b]? = word[b]?
instance (serverStart clientStart swapped word r g b) :
    Decidable (LanesKept serverStart clientStart swapped word r g b) := by
  unfold LanesKept; infer_instance

theorem channelKept {lane : Nat} (low : lane < 4) {bytes : Bytes} (four : bytes.length = 4)
    (value : UInt32) : channel (ofWordBytes false bytes) (8 * lane) 255 = channel value (8 * lane) 255 ↔
      bytes[lane]? = (littleEndian 4 value.toNat)[lane]? := by
  have there : lane < (littleEndian 4 value.toNat).length := by simpa using low
  rw [channelLane (by simpa using low),channelLane there,UInt8.toNat_inj,List.getElem?_eq_getElem (by omega),
    List.getElem?_eq_getElem there,Option.some.injEq]
  simp only [littleEndianWord four]

namespace LaneFormat
variable (f server client : LaneFormat)

def lanes (f : LaneFormat) : Nat × Nat × Nat := (f.redShift / 8,f.greenShift / 8,f.blueShift / 8)

theorem lanesOf : f.redShift = 8 * f.lanes.1 ∧ f.greenShift = 8 * f.lanes.2.1 ∧
    f.blueShift = 8 * f.lanes.2.2 :=
  ⟨(Nat.mul_div_cancel' f.redLane).symm,(Nat.mul_div_cancel' f.greenLane).symm,
    (Nat.mul_div_cancel' f.blueLane).symm⟩

theorem lanesLow : f.lanes.1 < 4 ∧ f.lanes.2.1 < 4 ∧ f.lanes.2.2 < 4 := by
  have shifts := f.lanesOf
  have red := f.redLow
  have green := f.greenLow
  have blue := f.blueLow
  omega

theorem lanesApart : f.lanes.1 ≠ f.lanes.2.1 ∧ f.lanes.1 ≠ f.lanes.2.2 ∧ f.lanes.2.1 ≠ f.lanes.2.2 := by
  obtain ⟨red,green,blue⟩ := f.lanesOf
  have redGreen := f.redGreen
  have redBlue := f.redBlue
  have greenBlue := f.greenBlue
  unfold Apart at redGreen redBlue greenBlue
  omega

theorem leastSignificantIff :
    f.leastSignificant = true ↔ f.lanes.1 = 0 ∨ f.lanes.2.2 = 0 ∨ f.lanes.2.1 = 0 := by
  obtain ⟨red,green,blue⟩ := f.lanesOf
  simp [PixelFormat.leastSignificant,red,green,blue,or_assoc]

theorem sameLanes (bytes : Bytes) (four : bytes.length = 4) (value : UInt32) :
    SameRgb f.toPixelFormat (ofWordBytes false bytes) value ↔
      bytes[f.lanes.1]? = (littleEndian 4 value.toNat)[f.lanes.1]? ∧
      bytes[f.lanes.2.1]? = (littleEndian 4 value.toNat)[f.lanes.2.1]? ∧
      bytes[f.lanes.2.2]? = (littleEndian 4 value.toNat)[f.lanes.2.2]? := by
  obtain ⟨red,green,blue⟩ := f.lanesOf
  obtain ⟨redLow,greenLow,blueLow⟩ := f.lanesLow
  rw [SameRgb,f.redChannel,f.redChannel,f.greenChannel,f.greenChannel,f.blueChannel,f.blueChannel,
    red,green,blue,channelKept redLow four,channelKept greenLow four,channelKept blueLow four]

end LaneFormat

/-! What the wire carries between two byte formats. -/

section
variable (server client : LaneFormat) (declared platform : Bool) (sz : Size)

def lanesBetween : EncoderStream :=
  ⟨server.toPixelFormat,client.toPixelFormat,declared,platform,sz⟩

theorem wireMoves (pixel : UInt32) :
    (lanesBetween server client declared platform sz).wirePixel pixel = pixel ∧
        server.compare client.toPixelFormat true = true ∨
      (lanesBetween server client declared platform sz).wirePixel pixel =
        client.assemble (ByteFormat.byteAt pixel server.redShift).toUInt32
          (ByteFormat.byteAt pixel server.greenShift).toUInt32
          (ByteFormat.byteAt pixel server.blueShift).toUInt32 := by
  by_cases equal : server.compare client.toPixelFormat true = true
  · exact .inl ⟨if_pos equal,equal⟩
  · right
    have differ : ¬client.compare server.toPixelFormat true = true := fun h =>
      have shifts := ByteFormat.compareShifts.mp h
      equal (ByteFormat.compareShifts.mpr ⟨shifts.1.symm,shifts.2.1.symm,shifts.2.2.symm⟩)
    have converts : (lanesBetween server client declared platform sz).wirePixel pixel =
        client.convertFrom server.toPixelFormat pixel := if_neg equal
    rw [converts,PixelFormat.convertFrom,convertPixelFromTo,if_neg differ]
    exact ByteFormat.rescaleMoves _ _ _

theorem wireSame (pixel : UInt32) : SameRgb client.toPixelFormat
    ((lanesBetween server client declared platform sz).wirePixel pixel)
    (client.convertFrom server.toPixelFormat pixel) := by
  by_cases equal : server.compare client.toPixelFormat true = true
  · have shifts := ByteFormat.compareShifts.mp equal
    have back : client.compare server.toPixelFormat true = true :=
      ByteFormat.compareShifts.mpr ⟨shifts.1.symm,shifts.2.1.symm,shifts.2.2.symm⟩
    have wire : (lanesBetween server client declared platform sz).wirePixel pixel = pixel := if_pos equal
    rw [wire,PixelFormat.convertFrom,convertPixelFromTo,if_pos back]
    by_cases shift : client.alphaShift = server.alphaShift
    · rw [if_pos ⟨by rw [client.alphaNone,server.alphaNone],shift⟩]
      exact ⟨rfl,rfl,rfl⟩
    · rw [if_neg (fun h => shift h.2),if_neg (fun h => h.2 server.alphaNone),
        if_neg (fun h => h.1 client.alphaNone),ByteFormat.rescaleMoves]
      obtain ⟨red,green,blue⟩ := client.assembleChannels (ByteFormat.byteAt pixel server.redShift)
        (ByteFormat.byteAt pixel server.greenShift) (ByteFormat.byteAt pixel server.blueShift)
      rw [SameRgb,red,green,blue,ByteFormat.byteAtNat,ByteFormat.byteAtNat,ByteFormat.byteAtNat,shifts.1,
        shifts.2.1,shifts.2.2]
      exact ⟨client.redChannel pixel,client.greenChannel pixel,client.blueChannel pixel⟩
  · have wire : (lanesBetween server client declared platform sz).wirePixel pixel =
        client.convertFrom server.toPixelFormat pixel := if_neg equal
    rw [wire]
    exact ⟨rfl,rfl,rfl⟩

theorem keptIffLanes (be : Bool) (pixel : UInt32) :
    CPixelKept (lanesBetween server client declared platform sz) be pixel ↔
      LanesKept (windowStart server.leastSignificant) (windowStart client.leastSignificant) (be != platform)
        (littleEndian 4 ((lanesBetween server client declared platform sz).wirePixel pixel).toNat)
        client.lanes.1 client.lanes.2.1 client.lanes.2.2 := by
  have starts (leastSignificant : Bool) : windowStart leastSignificant ≤ 1 := by
    cases leastSignificant <;> decide
  obtain ⟨red,green,blue⟩ := wireSame server client declared platform sz pixel
  have kept : CPixelKept (lanesBetween server client declared platform sz) be pixel ↔
      SameRgb client.toPixelFormat _ (client.convertFrom server.toPixelFormat pixel) :=
    keptIffCarried client.bits be pixel
  rw [kept]
  unfold SameRgb
  rw [← red,← green,← blue]
  exact client.sameLanes _ (carriedFour _ (starts _) (starts _) _) _

end

/- A pixel with a byte of its own in every lane shows which lane went where. -/
theorem lanesTold : ∀ r g b : Fin 4, r ≠ g → r ≠ b → g ≠ b → ∀ server client swapped : Bool,
    LanesKept (windowStart server) (windowStart client) swapped
      (littleEndian 4 (shiftUp 1 (8 * r) ||| shiftUp 2 (8 * g) ||| shiftUp 3 (8 * b)).toNat) r g b →
    swapped = false ∧ server = client ∧ (client = true → r.val < 3 ∧ g.val < 3 ∧ b.val < 3) := by
  decide +kernel

/- Both ends take the same three bytes, and the client's channels are among them. -/
def LanesAgree (server client : LaneFormat) (platform be : Bool) : Prop :=
  be = platform ∧ server.leastSignificant = client.leastSignificant ∧
    (client.leastSignificant = true →
      client.redShift ≤ 16 ∧ client.greenShift ≤ 16 ∧ client.blueShift ≤ 16)

theorem carriedWindow {start lane : Nat} (word : Bytes) (four : word.length = 4) (begins : start ≤ 1)
    (after : start ≤ lane) (before : lane < start + 3) :
    (carried start start false word)[lane]? = word[lane]? := by
  match word,four with
  | [a,b,c,d],_ => interval_cases start <;> interval_cases lane <;> rfl

/- A pixel with a mark in each channel has the marks on the wire. -/
theorem wireMarked (server client : LaneFormat) (declared platform : Bool) (sz : Size) :
    (lanesBetween server client declared platform sz).wirePixel (server.assemble 1 2 3) = client.assemble 1 2 3 := by
  obtain ⟨same,equal⟩ | moved := wireMoves server client declared platform sz (server.assemble 1 2 3)
  · obtain ⟨redSame,greenSame,blueSame⟩ := ByteFormat.compareShifts.mp equal
    rw [same,PixelFormat.assemble,PixelFormat.assemble,redSame,greenSame,blueSame]
  · obtain ⟨redByte,greenByte,blueByte⟩ := server.assembleChannels 1 2 3
    have redOne : ByteFormat.byteAt (server.assemble 1 2 3) server.redShift = 1 :=
      (server.redChannel _ ▸ congrArg UInt8.ofNat redByte :)
    have greenTwo : ByteFormat.byteAt (server.assemble 1 2 3) server.greenShift = 2 :=
      (server.greenChannel _ ▸ congrArg UInt8.ofNat greenByte :)
    have blueThree : ByteFormat.byteAt (server.assemble 1 2 3) server.blueShift = 3 :=
      (server.blueChannel _ ▸ congrArg UInt8.ofNat blueByte :)
    rw [moved,redOne,greenTwo,blueThree]
    rfl

/- The lanes of a client that agrees are among the three bytes sent. -/
theorem lanesInside {server client : LaneFormat} {platform be : Bool} (agree : LanesAgree server client platform be) :
    (windowStart client.leastSignificant ≤ client.lanes.1 ∧
      client.lanes.1 < windowStart client.leastSignificant + 3) ∧
    (windowStart client.leastSignificant ≤ client.lanes.2.1 ∧
      client.lanes.2.1 < windowStart client.leastSignificant + 3) ∧
    windowStart client.leastSignificant ≤ client.lanes.2.2 ∧
      client.lanes.2.2 < windowStart client.leastSignificant + 3 := by
  obtain ⟨red,green,blue⟩ := client.lanesOf
  obtain ⟨redLow,greenLow,blueLow⟩ := client.lanesLow
  obtain ⟨_,_,inside⟩ := agree
  by_cases least : client.leastSignificant = true
  · have low := inside least
    simp only [windowStart,least,if_true]
    omega
  · have nonzero := mt client.leastSignificantIff.mpr least
    simp only [windowStart,least,Bool.false_eq_true,if_false]
    omega

theorem cpixelKeptIff (server client : LaneFormat) (declared platform be : Bool) (sz : Size) :
    (∀ pixel, CPixelKept (lanesBetween server client declared platform sz) be pixel) ↔
      LanesAgree server client platform be := by
  constructor
  · intro all
    obtain ⟨red,green,blue⟩ := client.lanesOf
    obtain ⟨redLow,greenLow,blueLow⟩ := client.lanesLow
    obtain ⟨redGreen,redBlue,greenBlue⟩ := client.lanesApart
    have kept := (keptIffLanes server client declared platform sz be (server.assemble 1 2 3)).mp (all _)
    rw [wireMarked,PixelFormat.assemble,red,green,blue] at kept
    obtain ⟨order,same,inside⟩ := lanesTold ⟨_,redLow⟩ ⟨_,greenLow⟩ ⟨_,blueLow⟩
      (fun h => redGreen (congrArg Fin.val h)) (fun h => redBlue (congrArg Fin.val h))
      (fun h => greenBlue (congrArg Fin.val h)) _ _ _ kept
    refine ⟨by simpa using order,same,fun least => ?_⟩
    have lanes := inside least
    simp only at lanes
    omega
  · intro agree pixel
    obtain ⟨red,green,blue⟩ := lanesInside agree
    obtain ⟨rfl,same,_⟩ := agree
    rw [keptIffLanes,same,bne_self_eq_false]
    have begins : windowStart client.leastSignificant ≤ 1 := by
      unfold windowStart
      split <;> omega
    have four : (littleEndian 4 ((lanesBetween server client declared be sz).wirePixel pixel).toNat).length = 4 :=
      lengthLittleEndian _ _
    exact ⟨carriedWindow _ four begins red.1 red.2,carriedWindow _ four begins green.1 green.2,
      carriedWindow _ four begins blue.1 blue.2⟩

/- The server's usual format, and a client whose lowest byte is the unused one. -/
def serverLanes : LaneFormat :=
  ⟨⟨serverBGRX32,rfl,rfl,rfl,rfl,rfl,by decide,by decide,by decide,by decide,by decide,by decide⟩,
    by decide,by decide,by decide⟩
def clientRGBX32 : PixelFormat := ⟨255,255,255,0,24,16,8,0,32⟩
def clientLanes : LaneFormat :=
  ⟨⟨clientRGBX32,rfl,rfl,rfl,rfl,rfl,by decide,by decide,by decide,by decide,by decide,by decide⟩,
    by decide,by decide,by decide⟩
def rgbxStream : EncoderStream := lanesBetween serverLanes clientLanes false false ⟨640,480⟩

theorem cpixelShifted : clientRGBX32.convertFrom serverBGRX32 0x123456 = 0x12345600 ∧
    rgbxStream.sendCPixel 0x123456 = some [0x00,0x56,0x34] ∧
    (recvCPixel false clientRGBX32).run [0x00,0x56,0x34] = some (0x34560000,[]) ∧
    ¬CPixelKept rgbxStream false 0x123456 := by
  have reads : (recvCPixel false clientRGBX32).run [0x00,0x56,0x34] = some (0x34560000,[]) := rfl
  refine ⟨by decide +kernel,rfl,reads,?_⟩
  rintro ⟨bytes,received,sends,_,returns,same,_⟩
  cases (Option.some.inj sends).symm
  have whole := returns []
  rw [List.append_nil] at whole
  cases (Option.some.inj (reads.symm.trans whole))
  revert same
  decide +kernel

/-! Between equal formats one byte is lost, and with it the colour that is in it. -/

def lostByte (pf : PixelFormat) : UInt32 := if pf.leastSignificant then 0xFF000000 else 0xFF
def keptBytes (pf : PixelFormat) : UInt32 := if pf.leastSignificant then 0xFFFFFF else 0xFFFFFF00

def keptPixel (pf : PixelFormat) (pixel : UInt32) : UInt32 := pixel &&& keptBytes pf

/- No channel of the pixel has a bit in the byte that is not sent. -/
def ColourKept (pf : PixelFormat) (pixel : UInt32) : Prop :=
  pixel &&& pf.rmask &&& lostByte pf = 0 ∧ pixel &&& pf.gmask &&& lostByte pf = 0 ∧
    pixel &&& pf.bmask &&& lostByte pf = 0
instance (pf pixel) : Decidable (ColourKept pf pixel) := by unfold ColourKept; infer_instance

theorem highBytes {value : Nat} (low : value < 4294967296) : value &&& 0xFFFFFF00 = value / 256 * 256 := by
  have bits : value &&& 0xFFFFFF <<< 8 = (value >>> 8 &&& 0xFFFFFF) <<< 8 := by
    apply Nat.eq_of_testBit_eq
    intro i
    simp only [Nat.testBit_and,Nat.testBit_shiftLeft,Nat.testBit_shiftRight]
    by_cases high : 8 ≤ i
    · simp [high]
    · simp [high]
  have mask : value >>> 8 &&& 0xFFFFFF = (value >>> 8) % 2 ^ 24 := Nat.and_two_pow_sub_one_eq_mod _ 24
  have small : value / 2 ^ 8 % 2 ^ 24 = value / 2 ^ 8 := Nat.mod_eq_of_lt (by omega)
  rw [mask,Nat.shiftRight_eq_div_pow,Nat.shiftLeft_eq,small,Nat.shiftLeft_eq] at bits
  exact bits

theorem lowBytes (value : Nat) : value &&& 0xFFFFFF = value % 16777216 :=
  Nat.and_two_pow_sub_one_eq_mod value 24

theorem carriedSame {st : EncoderStream} (same : st.serverFormat = st.clientFormat) (pixel : UInt32) :
    carriedPixel st st.platformBigEndian pixel = keptPixel st.clientFormat pixel := by
  have low := pixel.toNat_lt
  have wire : st.wirePixel pixel = pixel := by simp [EncoderStream.wirePixel,same]
  have three (value : Nat) : ofLittleEndian (littleEndian 3 value) = value % 16777216 :=
    ofLittleEndianOf 3 value
  rw [carriedPixel,wire,same,bne_self_eq_false]
  apply UInt32.toNat_inj.mp
  unfold keptPixel keptBytes windowStart
  cases st.clientFormat.leastSignificant
  · have bytes : carried 1 1 false (littleEndian 4 pixel.toNat) = 0 :: littleEndian 3 (pixel.toNat / 256) := rfl
    have mask : (0xFFFFFF00 : UInt32).toNat = 0xFFFFFF00 := rfl
    simp only [Bool.false_eq_true,if_false,bytes,ofWordBytes,ofLittleEndian,three,UInt32.toNat_and,
      UInt32.toNat_ofNat',mask,highBytes low]
    have zero : (0 : UInt8).toNat = 0 := rfl
    omega
  · have bytes : carried 0 0 false (littleEndian 4 pixel.toNat) = littleEndian 3 pixel.toNat ++ [0] := rfl
    have last (bytes : Bytes) : ofLittleEndian (bytes ++ [0]) = ofLittleEndian bytes := by
      induction bytes with
      | nil => rfl
      | cons byte rest ih => rw [List.cons_append,ofLittleEndian,ofLittleEndian,ih]
    have mask : (0xFFFFFF : UInt32).toNat = 0xFFFFFF := rfl
    simp only [if_true,bytes,ofWordBytes,Bool.false_eq_true,if_false,last,three,UInt32.toNat_and,
      UInt32.toNat_ofNat',mask,lowBytes]
    omega

theorem lostIffNotKept (pf : PixelFormat) {i : Nat} (inside : i < 32) :
    (keptBytes pf).toNat.testBit i = !(lostByte pf).toNat.testBit i := by
  unfold keptBytes lostByte
  cases pf.leastSignificant
  · interval_cases i <;> rfl
  · interval_cases i <;> rfl

/- A channel survives if none of its bits is in the lost byte. -/
theorem channelSurvives {shift : Nat} (low : shift ≤ 24) (pf : PixelFormat) (pixel : UInt32) :
    channel (keptPixel pf pixel) shift 255 = channel pixel shift 255 ↔
      pixel &&& shiftUp 255 shift &&& lostByte pf = 0 := by
  constructor
  · intro same
    apply UInt32.toNat_inj.mp
    apply Nat.eq_of_testBit_eq
    intro i
    rw [UInt32.toNat_and,UInt32.toNat_and,Nat.testBit_and,Nat.testBit_and,maskBits low,UInt32.toNat_zero,
      Nat.zero_testBit]
    by_cases inside : shift ≤ i ∧ i < shift + 8
    · have bit := congrArg (fun value => value.testBit (i - shift)) same
      have place : shift + (i - shift) = i := by omega
      have small : i - shift < 8 := by omega
      simp only [channelBits low,place,small,decide_true,Bool.true_and,keptPixel,UInt32.toNat_and,
        Nat.testBit_and,lostIffNotKept pf (show i < 32 by omega)] at bit
      cases value : pixel.toNat.testBit i
      · simp
      · simpa [value,inside] using bit
    · simp [inside]
  · intro none
    apply Nat.eq_of_testBit_eq
    intro i
    rw [channelBits low,channelBits low]
    by_cases small : i < 8
    · have bit := congrArg (fun value => value.toNat.testBit (shift + i)) none
      have inside : shift ≤ shift + i ∧ shift + i < shift + 8 := by omega
      simp only [UInt32.toNat_and,Nat.testBit_and,maskBits low,inside,decide_true,Bool.and_true,
        UInt32.toNat_zero,Nat.zero_testBit,and_self] at bit
      simp only [keptPixel,UInt32.toNat_and,Nat.testBit_and,lostIffNotKept pf (show shift + i < 32 by omega)]
      cases value : pixel.toNat.testBit (shift + i)
      · simp
      · simpa [value,small] using bit
    · simp [small]

theorem sameRgbKept {pf : PixelFormat} (h : RgbBytes pf) (pixel : UInt32) :
    SameRgb pf (keptPixel pf pixel) pixel ↔ ColourKept pf pixel := by
  unfold SameRgb ColourKept PixelFormat.rmask PixelFormat.gmask PixelFormat.bmask PixelFormat.red
    PixelFormat.green PixelFormat.blue
  rw [h.red,h.green,h.blue,channelSurvives h.redLow,channelSurvives h.greenLow,channelSurvives h.blueLow]
  rfl

end Ltsm.CompressedPixels
