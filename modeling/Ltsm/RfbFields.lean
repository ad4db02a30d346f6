import Ltsm.CutText

/-! Fields of the messages in the types both ends keep them in, and the messages that
go in either direction: the data of a channel, and cut text. -/
namespace Ltsm.RfbFields
open Library PixelStreams UpdateMessages CutText

def recvUInt8 : Reader UInt8 := recvInt8 >>= fun value => pure (UInt8.ofNat value)
def recvUInt16 : Reader UInt16 := recvIntBE16 >>= fun value => pure (UInt16.ofNat value)
def recvUInt32 : Reader UInt32 := recvIntBE32 >>= fun value => pure (UInt32.ofNat value)
def recvInt32 : Reader Int32 := recvUInt32 >>= fun value => pure value.toInt32

def PROTOCOL_LTSM : Nat := 119
def LtsmProtocolVersion : Nat := 3

/- sendLtsmChannel of the server and sendLtsmChannelData of the client: nothing is sent
of no data, and the assertion holds what does not fit into sixteen bits. -/
def sendLtsmChannel (channel : UInt8) (buf : Bytes) : Option Bytes :=
  if buf = [] ∨ 0xFFFF < buf.length then none
  else some (sendInt8 PROTOCOL_LTSM ++ (sendInt8 LtsmProtocolVersion ++ (sendInt8 channel.toNat ++
    (sendIntBE16 buf.length ++ buf))))

/- The message type has been read. -/
def recvLtsmProto : Reader (UInt8 × Bytes) :=
  recvInt8 >>= fun version =>
    if version ≠ LtsmProtocolVersion then fail
    else recvUInt8 >>= fun channel => recvIntBE16 >>= fun length => takeBytes length >>= fun buf =>
      pure (channel,buf)

theorem readsUInt8 (value : UInt8) : Reads recvUInt8 (sendInt8 value.toNat) value := by
  have read := readsMap (readsInt8 value.toNat) UInt8.ofNat
  rwa [Nat.mod_eq_of_lt value.toNat_lt,UInt8.ofNat_toNat] at read

theorem readsUInt16 (value : UInt16) : Reads recvUInt16 (sendIntBE16 value.toNat) value := by
  have read := readsMap (readsIntBE16 value.toNat) UInt16.ofNat
  rwa [Nat.mod_eq_of_lt value.toNat_lt,UInt16.ofNat_toNat] at read

theorem readsUInt32 (value : UInt32) : Reads recvUInt32 (sendIntBE32 value.toNat) value := by
  have read := readsMap (readsIntBE32 value.toNat) UInt32.ofNat
  rwa [Nat.mod_eq_of_lt value.toNat_lt,UInt32.ofNat_toNat] at read

theorem readsInt32 (value : Int32) : Reads recvInt32 (sendIntBE32 value.toUInt32.toNat) value := by
  have read := readsMap (readsUInt32 value.toUInt32) UInt32.toInt32
  rwa [Int32.toInt32_toUInt32] at read

theorem readsBool (value : Bool) : Reads recvInt8 (sendInt8 value.toNat) value.toNat := by
  have read := readsInt8 value.toNat
  rwa [Nat.mod_eq_of_lt (Nat.lt_trans value.toNat_lt (by decide))] at read

theorem readsLtsmProto {channel : UInt8} {buf bytes : Bytes} (sent : sendLtsmChannel channel buf = some bytes) :
    ∃ body, bytes = sendInt8 PROTOCOL_LTSM ++ body ∧ Reads recvLtsmProto body (channel,buf) := by
  unfold sendLtsmChannel at sent
  split at sent
  · cases sent
  · rename_i fits
    push Not at fits
    refine ⟨_,(Option.some.inj sent).symm,?_⟩
    have length : Reads recvIntBE16 (sendIntBE16 buf.length) buf.length := readsSmall16 (by omega)
    exact readsBind (readsInt8 LtsmProtocolVersion) (readsBind (readsUInt8 channel)
      (readsBind length (readsMap (readsTake buf) fun buf => (channel,buf))))

/-! Cut text of any length. -/

/- What the sender means. -/
def cutText (buf : Bytes) (ext : Bool) : Received :=
  if buf = [] then .nothing else if ext then .extended buf else .text buf

/- The length as the receiver has it. -/
def claimed (ext : Bool) (size : Nat) : Int :=
  toInt32 ((if ext then extLength size else size) % 4294967296)

/- Only the server of the two has a limit for a text. -/
def Admits (size : Nat) : Side → Prop
  | .server limit => limit = 0 ∨ size ≤ limit
  | .client => True

structure CutTextWhen (side : Side) (localCaps : Nat) (buf : Bytes) (ext : Bool) : Prop where
  small : buf.length < 2147483648
  able : buf ≠ [] → ext = true → localCaps ≠ 0
  admitted : ext = false → Admits buf.length side

/- What comes of a length and as many bytes. -/
def heard (len : Int) (buf : Bytes) : Received :=
  if len = 0 then .nothing else if 0 < len then .text buf else .extended buf

/- What a side takes of a text. -/
def passed (buf : Bytes) : Side → Bytes
  | .server limit => if limit = 0 then buf else buf.take limit
  | .client => buf

theorem readsAbsIff {f : Bytes → Reader Received} {len : Int} {buf : Bytes} {got : Received} :
    Reads (recvAbs len >>= fun buf => f buf) buf got ↔
      len ≠ -2147483648 ∧ Reads (takeBytes len.natAbs >>= f) buf got := by
  unfold recvAbs
  by_cases least : len = -2147483648
  · rw [if_pos least,failBind]
    exact iff_of_false (notReadsFail _ _) fun all => all.1 least
  · rw [if_neg least]
    exact (and_iff_right least).symm

theorem readsTextIff {limit size : Nat} {buf : Bytes} {got : Received} :
    Reads (takeBytes (if limit = 0 then size else min size limit) >>= fun buffer =>
        recvSkip (size - if limit = 0 then size else min size limit) >>= fun _ => pure (.text buffer)) buf got ↔
      size = buf.length ∧ Received.text (passed buf (.server limit)) = got := by
  have part : (if limit = 0 then size else min size limit) ≤ size := by
    split <;> omega
  generalize taken : (if limit = 0 then size else min size limit) = recv at part ⊢
  rcases Nat.lt_or_ge buf.length recv with short | enough
  · exact iff_of_false (notReadsShort short) fun all => by omega
  have skipped (count : Nat) : (recvSkip count >>= fun _ => pure (Received.text (buf.take recv))) =
      takeBytes count >>= fun _ => pure (Received.text (buf.take recv)) := by
    rw [recvSkip,bind_assoc]
    rfl
  rw [readsTakeIff enough,skipped,readsRestIff,List.length_drop]
  have kept (whole : size = buf.length) : buf.take recv = passed buf (.server limit) := by
    subst taken
    by_cases unlimited : limit = 0
    · simp [passed,unlimited,whole]
    · simp only [passed,if_neg unlimited,List.take_eq_take_iff]
      omega
  constructor
  · rintro ⟨rest,same⟩
    have whole : size = buf.length := by omega
    exact ⟨whole,kept whole ▸ same⟩
  · rintro ⟨whole,same⟩
    exact ⟨by omega,(kept whole).symm ▸ same⟩

/- A side takes all of the data, and no more, if the length is that of the data. -/
theorem readsBodyIff (side : Side) (localCaps word : Nat) {buf : Bytes} {got : Received} :
    Reads (side.recv localCaps) (sendZero 3 ++ (sendIntBE32 word ++ buf)) got ↔
      (toInt32 (word % 4294967296)).natAbs = buf.length ∧ toInt32 (word % 4294967296) ≠ -2147483648 ∧
        (toInt32 (word % 4294967296) < 0 → localCaps ≠ 0) ∧
        heard (toInt32 (word % 4294967296)) (if 0 < toInt32 (word % 4294967296) then passed buf side else buf) = got := by
  cases side with
  | client =>
    rw [Side.recv,recvCutTextEvent,readsBindIff (readsZero 3),readsBindIff (readsIntBE32 word)]
    generalize toInt32 (word % 4294967296) = len
    dsimp only
    split
    · rename_i refused
      exact iff_of_false (notReadsFail _ _) fun all => all.2.2.1 refused.1 refused.2
    · rename_i able
      have told : (fun buf => if len = 0 then pure .nothing else if 0 < len then pure (.text buf)
          else pure (.extended buf) : Bytes → Reader Received) = fun buf => pure (heard len buf) := by
        funext buf
        unfold heard
        split_ifs <;> rfl
      rw [readsAbsIff,told,readsRestIff,passed,ite_self]
      tauto
  | server limit =>
    rw [Side.recv,recvCutText,readsBindIff (readsZero 3),readsBindIff (readsIntBE32 word)]
    generalize toInt32 (word % 4294967296) = len
    dsimp only
    rcases lt_trichotomy len 0 with below | rfl | above
    · have other : ¬0 < len := by omega
      rw [if_neg other,if_pos below,if_neg other]
      by_cases able : localCaps = 0
      · rw [if_pos able]
        exact iff_of_false (notReadsFail _ _) fun all => all.2.2.1 below able
      · rw [if_neg able,readsAbsIff,readsRestIff,heard,if_neg (by omega),if_neg other]
        tauto
    · simp [readsPureIff,heard,eq_comm]
    · rw [if_pos above,if_pos above,readsTextIff,heard,if_neg (by omega),if_pos above]
      have size : len.toNat = len.natAbs := by omega
      rw [size]
      constructor
      · rintro ⟨whole,same⟩
        exact ⟨whole,by omega,fun below => by omega,same⟩
      · rintro ⟨whole,_,_,same⟩
        exact ⟨whole,same⟩

theorem claimedWhole {ext : Bool} {size : Nat} (whole : (claimed ext size).natAbs = size)
    (least : claimed ext size ≠ -2147483648) : size < 2147483648 := by
  unfold claimed at whole least
  generalize (if ext then extLength size else size) = word at whole least
  unfold toInt32 at whole least
  split at whole <;> omega

theorem claimedSmall {size : Nat} (small : size < 2147483648) (ext : Bool) :
    claimed ext size = if ext then -(size : Int) else size := by
  cases ext with
  | false =>
    rw [claimed,if_neg Bool.false_ne_true,if_neg Bool.false_ne_true,Nat.mod_eq_of_lt (by omega)]
    exact toInt32Text small
  | true =>
    rw [claimed,if_pos rfl,if_pos rfl,Nat.mod_eq_of_lt (extLengthSmall size)]
    rcases Nat.eq_zero_or_pos size with rfl | filled
    · rfl
    · exact toInt32Ext filled small

theorem passedWhole (side : Side) (buf : Bytes) : passed buf side = buf ↔ Admits buf.length side := by
  cases side with
  | client => exact iff_of_true rfl trivial
  | server limit =>
    by_cases unlimited : limit = 0
    · simp [passed,Admits,unlimited]
    · simp [passed,Admits,unlimited,List.take_eq_self_iff]

/- Cut text arrives as it was meant, and the message is read to its end. -/
theorem cutTextIff (side : Side) (localCaps : Nat) (buf : Bytes) (ext : Bool) :
    Reads (side.recv localCaps) (sendZero 3 ++ (sendIntBE32 (if ext then extLength buf.length else buf.length) ++ buf))
      (cutText buf ext) ↔ CutTextWhen side localCaps buf ext := by
  rw [readsBodyIff]
  change (claimed ext buf.length).natAbs = buf.length ∧ claimed ext buf.length ≠ -2147483648 ∧
    (claimed ext buf.length < 0 → localCaps ≠ 0) ∧
    heard (claimed ext buf.length) (if 0 < claimed ext buf.length then passed buf side else buf) = cutText buf ext ↔ _
  constructor
  · rintro ⟨whole,least,able,same⟩
    have small := claimedWhole whole least
    rw [claimedSmall small] at able same
    constructor
    · exact small
    · intro filled extended
      have some := List.length_pos_iff.mpr filled
      rw [if_pos extended] at able
      exact able (by omega)
    · rintro rfl
      rw [← passedWhole]
      by_cases filled : buf = []
      · subst filled
        cases side <;> simp [passed]
      · have some := List.length_pos_iff.mpr filled
        rw [if_neg Bool.false_ne_true,heard,if_neg (by omega),if_pos (by omega),if_pos (by omega),cutText,
          if_neg filled,if_neg Bool.false_ne_true] at same
        exact Received.text.inj same
  · rintro ⟨small,able,admitted⟩
    rw [claimedSmall small]
    by_cases filled : buf = []
    · subst filled
      simp [heard,cutText]
    · have some := List.length_pos_iff.mpr filled
      rw [cutText,if_neg filled]
      cases ext with
      | false =>
        have kept := (passedWhole side buf).mpr (admitted rfl)
        rw [if_neg Bool.false_ne_true,heard,if_neg (by omega),if_pos (by omega),if_pos (by omega),kept]
        exact ⟨by omega,by omega,fun below => by omega,rfl⟩
      | true =>
        rw [if_pos rfl,heard,if_neg (by omega),if_neg (by omega),if_neg (by omega)]
        exact ⟨by omega,by omega,fun _ => able filled rfl,rfl⟩

end Ltsm.RfbFields
