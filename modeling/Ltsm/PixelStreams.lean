import Ltsm.Library.ByteReader
import Ltsm.PixelFormats
import Ltsm.Regions

/-! Pixels on the wire. The server's stream knows both formats and the byte order
the client asked for; each end also has the byte order of the machine it is built
for, which is what its native words are laid out in. -/
namespace Ltsm.PixelStreams
open Library PixelFormats Regions

structure EncoderStream where
  serverFormat : PixelFormat
  clientFormat : PixelFormat
  clientIsBigEndian : Bool
  platformBigEndian : Bool
  displaySize : Size
  deriving DecidableEq, Repr

def sendInt8 (value : Nat) : Bytes := [UInt8.ofNat value]
def sendIntBE16 (value : Nat) : Bytes := bigEndian 2 value
def sendIntBE32 (value : Nat) : Bytes := bigEndian 4 value

def wordBytes (be : Bool) (value : UInt32) : Bytes :=
  if be then bigEndian 4 value.toNat else littleEndian 4 value.toNat

def ofWordBytes (be : Bool) (bytes : Bytes) : UInt32 :=
  UInt32.ofNat (if be then ofBigEndian bytes else ofLittleEndian bytes)

def sendPixelRaw (pixel : UInt32) (bpp : Nat) (be : Bool) : Option Bytes :=
  match bpp with
  | 4 => some (wordBytes be pixel)
  | 2 => some (if be then bigEndian 2 pixel.toNat else littleEndian 2 pixel.toNat)
  | 1 => some (sendInt8 pixel.toNat)
  | _ => none

/- How far into the native word the three bytes of a compressed pixel start. -/
def cpixelOffset (be leastSignificant : Bool) : Nat :=
  if be then (if leastSignificant then 1 else 0) else (if leastSignificant then 0 else 1)

namespace EncoderStream

def sendPixel (st : EncoderStream) (pixel : UInt32) : Option Bytes :=
  sendPixelRaw (st.clientFormat.convertFrom st.serverFormat pixel) st.clientFormat.bytePerPixel
    st.clientIsBigEndian

def wirePixel (st : EncoderStream) (pixel : UInt32) : UInt32 :=
  if st.serverFormat.compare st.clientFormat true then pixel
  else st.clientFormat.convertFrom st.serverFormat pixel

def sendCPixel (st : EncoderStream) (pixel : UInt32) : Option Bytes :=
  if st.clientFormat.bitsPixel ≠ 32 then st.sendPixel pixel
  else
    let native := wordBytes st.platformBigEndian (st.wirePixel pixel)
    some ((native.drop (cpixelOffset st.platformBigEndian st.serverFormat.leastSignificant)).take 3)

end EncoderStream

def recvInt8 : Reader Nat := takeBytes 1 >>= fun bytes => pure (ofLittleEndian bytes)
def recvIntBE16 : Reader Nat := takeBytes 2 >>= fun bytes => pure (ofBigEndian bytes)
def recvIntBE32 : Reader Nat := takeBytes 4 >>= fun bytes => pure (ofBigEndian bytes)

/- The reads of sixteen bits stand behind a return, without a label of their own. -/
def recvPixel (be : Bool) (clientPf : PixelFormat) : Reader UInt32 :=
  match clientPf.bytePerPixel with
  | 4 => takeBytes 4 >>= fun bytes => pure (ofWordBytes be bytes)
  | 1 => recvInt8 >>= fun byte => pure (UInt32.ofNat byte)
  | _ => fail

def recvCPixel (be : Bool) (clientPf : PixelFormat) : Reader UInt32 :=
  if clientPf.bitsPixel ≠ 32 then recvPixel be clientPf
  else
    let offset := cpixelOffset be clientPf.leastSignificant
    takeBytes 3 >>= fun bytes =>
      pure (ofWordBytes be (List.replicate offset 0 ++ bytes ++ List.replicate (1 - offset) 0))

structure SetPixelFormat where
  bitsPerPixel : UInt8
  depth : UInt8
  bigEndian : UInt8
  trueColor : UInt8
  redMax : UInt16
  greenMax : UInt16
  blueMax : UInt16
  redShift : UInt8
  greenShift : UInt8
  blueShift : UInt8
  deriving DecidableEq, Repr

/- The server's side of SetPixelFormat; `none` where it throws. -/
def recvPixelFormat (msg : SetPixelFormat) (st : EncoderStream) : Option EncoderStream :=
  if msg.bitsPerPixel ≠ 32 ∧ msg.bitsPerPixel ≠ 16 ∧ msg.bitsPerPixel ≠ 8 then none
  else if msg.trueColor = 0 ∨ msg.redMax = 0 ∨ msg.greenMax = 0 ∨ msg.blueMax = 0 then none
  else some {st with
    clientFormat := ⟨msg.redMax.toNat,msg.greenMax.toNat,msg.blueMax.toNat,0,
      msg.redShift.toNat,msg.greenShift.toNat,msg.blueShift.toNat,0,msg.bitsPerPixel.toNat⟩
    clientIsBigEndian := msg.bigEndian ≠ 0}

section
variable {be : Bool}

theorem lengthWordBytes (be : Bool) (value : UInt32) : (wordBytes be value).length = 4 := by
  cases be <;> simp [wordBytes]

theorem ofWordBytesOf (be : Bool) (value : UInt32) : ofWordBytes be (wordBytes be value) = value := by
  have low := value.toNat_lt
  apply UInt32.toNat_inj.mp
  cases be
  · simp only [ofWordBytes,wordBytes,Bool.false_eq_true,if_false,ofLittleEndianOf,UInt32.toNat_ofNat']
    omega
  · simp only [ofWordBytes,wordBytes,if_true,ofBigEndianOf,UInt32.toNat_ofNat']
    omega

theorem wordBytesOf (be : Bool) {bytes : Bytes} (four : bytes.length = 4) :
    wordBytes be (ofWordBytes be bytes) = bytes := by
  have ordered {bytes : Bytes} (four : bytes.length = 4) :
      littleEndian 4 (UInt32.ofNat (ofLittleEndian bytes)).toNat = bytes := by
    have bound := ofLittleEndianLt bytes
    have whole := littleEndianOf bytes
    rw [four] at bound whole
    rwa [UInt32.toNat_ofNat',Nat.mod_eq_of_lt (by omega)]
  cases be
  · exact ordered four
  · simp only [wordBytes,ofWordBytes,if_true,bigEndian,ofBigEndian]
    rw [ordered (by rwa [List.length_reverse]),List.reverse_reverse]

theorem readsInt8 (value : Nat) : Reads recvInt8 (sendInt8 value) (value % 256) := by
  have read := readsMap (readsTake (sendInt8 value)) ofLittleEndian
  simpa [recvInt8,sendInt8,ofLittleEndian] using read

theorem readsIntBE16 (value : Nat) : Reads recvIntBE16 (sendIntBE16 value) (value % 65536) := by
  have read := readsMap (readsTake (sendIntBE16 value)) ofBigEndian
  rw [sendIntBE16,lengthBigEndian,ofBigEndianOf] at read
  exact read

theorem readsIntBE32 (value : Nat) : Reads recvIntBE32 (sendIntBE32 value) (value % 4294967296) := by
  have read := readsMap (readsTake (sendIntBE32 value)) ofBigEndian
  rw [sendIntBE32,lengthBigEndian,ofBigEndianOf] at read
  exact read

theorem readsWord {bytes : Bytes} (four : bytes.length = 4) :
    Reads (takeBytes 4 >>= fun bytes => pure (ofWordBytes be bytes)) bytes (ofWordBytes be bytes) := by
  have read := readsMap (readsTake bytes) (ofWordBytes be)
  rwa [four] at read

end

/-! Pixels of a client format that SetPixelFormat accepts. -/

def Transports (st : EncoderStream) (be : Bool) (pixel : UInt32) : Prop :=
  ∃ bytes, st.sendPixel pixel = some bytes ∧ bytes.length = st.clientFormat.bytePerPixel ∧
    Reads (recvPixel be st.clientFormat) bytes (st.clientFormat.convertFrom st.serverFormat pixel)

def TransportWhen (st : EncoderStream) (be : Bool) (pixel : UInt32) : Prop :=
  let converted := st.clientFormat.convertFrom st.serverFormat pixel
  (st.clientFormat.bitsPixel = 32 ∧
      (st.clientIsBigEndian = be ∨ wordBytes true converted = wordBytes false converted)) ∨
    (st.clientFormat.bitsPixel = 8 ∧ converted.toNat < 256)

theorem recvPixelFormatBits {msg : SetPixelFormat} {st accepted : EncoderStream}
    (h : recvPixelFormat msg st = some accepted) : accepted.clientFormat.bitsPixel = 32 ∨
      accepted.clientFormat.bitsPixel = 16 ∨ accepted.clientFormat.bitsPixel = 8 := by
  unfold recvPixelFormat at h
  split at h
  · cases h
  rename_i width
  split at h
  · cases h
  cases Option.some.inj h
  by_cases wide : msg.bitsPerPixel = 32
  · exact .inl (congrArg UInt8.toNat wide)
  by_cases middle : msg.bitsPerPixel = 16
  · exact .inr (.inl (congrArg UInt8.toNat middle))
  have narrow : msg.bitsPerPixel = 8 := by
    by_contra other
    exact width ⟨wide,middle,other⟩
  exact .inr (.inr (congrArg UInt8.toNat narrow))

section
variable {st : EncoderStream} {be : Bool}

/- A word read in the other byte order is the same one only if it is a palindrome. -/
theorem wordSwapped {sent read : Bool} (value : UInt32) :
    ofWordBytes read (wordBytes sent value) = value ↔
      sent = read ∨ wordBytes true value = wordBytes false value := by
  have same : ofWordBytes read (wordBytes sent value) = value ↔
      wordBytes sent value = wordBytes read value := by
    constructor
    · intro h
      rw [← wordBytesOf read (lengthWordBytes sent value),h]
    · intro h
      rw [h,ofWordBytesOf]
  rw [same]
  cases sent <;> cases read <;> simp [eq_comm]

theorem transportsWide (bits : st.clientFormat.bitsPixel = 32) (pixel : UInt32) :
    Transports st be pixel ↔ ofWordBytes be (wordBytes st.clientIsBigEndian
      (st.clientFormat.convertFrom st.serverFormat pixel)) =
        st.clientFormat.convertFrom st.serverFormat pixel := by
  have four : st.clientFormat.bytePerPixel = 4 := by simp [PixelFormat.bytePerPixel,bits]
  have sent : st.sendPixel pixel = some (wordBytes st.clientIsBigEndian
      (st.clientFormat.convertFrom st.serverFormat pixel)) := by
    rw [EncoderStream.sendPixel,four]
    rfl
  have read : Reads (recvPixel be st.clientFormat) (wordBytes st.clientIsBigEndian
      (st.clientFormat.convertFrom st.serverFormat pixel)) (ofWordBytes be (wordBytes
        st.clientIsBigEndian (st.clientFormat.convertFrom st.serverFormat pixel))) := by
    rw [recvPixel,four]
    exact readsWord (lengthWordBytes _ _)
  constructor
  · rintro ⟨bytes,sends,_,reads⟩
    cases Option.some.inj (sent.symm.trans sends)
    exact readsUnique read reads
  · intro same
    refine ⟨_,sent,by rw [lengthWordBytes,four],?_⟩
    rwa [same] at read

theorem transportsNarrow (bits : st.clientFormat.bitsPixel = 8) (pixel : UInt32) :
    Transports st be pixel ↔ (st.clientFormat.convertFrom st.serverFormat pixel).toNat < 256 := by
  have one : st.clientFormat.bytePerPixel = 1 := by simp [PixelFormat.bytePerPixel,bits]
  have sent : st.sendPixel pixel = some (sendInt8
      (st.clientFormat.convertFrom st.serverFormat pixel).toNat) := by
    rw [EncoderStream.sendPixel,one]
    rfl
  have read : Reads (recvPixel be st.clientFormat) (sendInt8
      (st.clientFormat.convertFrom st.serverFormat pixel).toNat) (UInt32.ofNat
        ((st.clientFormat.convertFrom st.serverFormat pixel).toNat % 256)) := by
    rw [recvPixel,one]
    exact readsMap (readsInt8 _) UInt32.ofNat
  constructor
  · rintro ⟨bytes,sends,_,reads⟩
    cases Option.some.inj (sent.symm.trans sends)
    have same := congrArg UInt32.toNat (readsUnique read reads)
    rw [UInt32.toNat_ofNat'] at same
    omega
  · intro small
    refine ⟨_,sent,one.symm,?_⟩
    rwa [Nat.mod_eq_of_lt small,UInt32.ofNat_toNat] at read

theorem notTransportsMiddle (bits : st.clientFormat.bitsPixel = 16) (pixel : UInt32) :
    ¬Transports st be pixel := by
  have two : st.clientFormat.bytePerPixel = 2 := by simp [PixelFormat.bytePerPixel,bits]
  rintro ⟨bytes,_,_,reads⟩
  rw [recvPixel,two] at reads
  exact notReadsFail _ _ reads

end

theorem transportsIff {msg : SetPixelFormat} {st accepted : EncoderStream}
    (h : recvPixelFormat msg st = some accepted) (be : Bool) (pixel : UInt32) :
    Transports accepted be pixel ↔ TransportWhen accepted be pixel := by
  unfold TransportWhen
  obtain bits | bits | bits := recvPixelFormatBits h
  · rw [transportsWide bits,wordSwapped]
    simp [bits]
  · exact iff_of_false (notTransportsMiddle bits pixel) (by simp [bits])
  · rw [transportsNarrow bits]
    simp [bits]

/- The server's usual format, and a client that asks for RGB565. -/
def serverBGRX32 : PixelFormat := ⟨255,255,255,0,16,8,0,32,32⟩
def connected : EncoderStream := ⟨serverBGRX32,serverBGRX32,false,false,⟨640,480⟩⟩
def askRGB565 : SetPixelFormat := ⟨16,16,0,1,31,63,31,11,5,0⟩
def withRGB565 : EncoderStream :=
  {connected with clientFormat := ⟨31,63,31,0,11,5,0,0,16⟩}

theorem transportsRGB565 : recvPixelFormat askRGB565 connected = some withRGB565 ∧
    (Transports withRGB565 false 0 ↔ TransportWhen withRGB565 false 0) :=
  have accepted : recvPixelFormat askRGB565 connected = some withRGB565 := rfl
  ⟨accepted,transportsIff accepted false 0⟩

theorem sixteenBitsThrow : recvPixelFormat askRGB565 connected = some withRGB565 ∧
    withRGB565.sendPixel 0x123456 = some [0xAA,0x11] ∧
    (recvPixel false withRGB565.clientFormat).run [0xAA,0x11] = none ∧
    ¬Transports withRGB565 false 0x123456 := by
  have throws : (recvPixel false withRGB565.clientFormat).run [0xAA,0x11] = none := rfl
  refine ⟨rfl,rfl,throws,?_⟩
  rintro ⟨bytes,sends,_,reads⟩
  cases (Option.some.inj sends).symm
  have returns := reads []
  rw [List.append_nil] at returns
  exact Option.some_ne_none _ (returns.symm.trans throws)

end Ltsm.PixelStreams
