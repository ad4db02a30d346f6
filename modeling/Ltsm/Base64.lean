import Ltsm.Library.ByteReader

/-! Bytes written in the base64 alphabet, three of them in four characters, and read back. A group
that the bytes do not fill is filled up with equals signs. -/
namespace Ltsm.Base64
open Library

def equals : UInt8 := 0x3D

def base64EncodeChar (v : UInt8) : UInt8 :=
  if v ≤ 25 then v + 0x41
  else if v ≤ 51 then v + 0x61 - 26
  else if v ≤ 61 then v + 0x30 - 52
  else if v = 62 then 0x2B
  else if v = 63 then 0x2F
  else 0

def base64DecodeChar (v : UInt8) : UInt8 :=
  if v = 0x2B then 62
  else if v = 0x2F then 63
  else if 0x30 ≤ v ∧ v ≤ 0x39 then v - 0x30 + 52
  else if 0x41 ≤ v ∧ v ≤ 0x5A then v - 0x41
  else if 0x61 ≤ v ∧ v ≤ 0x7A then v - 0x61 + 26
  else 0

def tripleOf (b1 b2 b3 : UInt8) : UInt32 := (b1.toUInt32 <<< 16) ||| (b2.toUInt32 <<< 8) ||| b3.toUInt32

def sextet (triple shift : UInt32) : UInt8 := (0x3F &&& (triple >>> shift)).toUInt8

/- One turn of the loop; the bytes behind the end are zero and have no character. -/
def encodeGroup (b1 : UInt8) (next1 next2 : Option UInt8) : Bytes :=
  let triple := tripleOf b1 (next1.getD 0) (next2.getD 0)
  [base64EncodeChar (sextet triple 18),base64EncodeChar (sextet triple 12),
    if next1.isSome then base64EncodeChar (sextet triple 6) else equals,
    if next2.isSome then base64EncodeChar (sextet triple 0) else equals]

def base64Encode : Bytes → Bytes
  | [] => []
  | [b1] => encodeGroup b1 none none
  | [b1,b2] => encodeGroup b1 (some b2) none
  | b1 :: b2 :: b3 :: arr => encodeGroup b1 (some b2) (some b3) ++ base64Encode arr

def pushBelow (len : Nat) (res : Bytes) (v : UInt8) : Bytes := if res.length < len then res ++ [v] else res

def decodeGroup (len : Nat) (res : Bytes) (a b c d : UInt8) : Bytes :=
  let triple : UInt32 := ((base64DecodeChar a).toUInt32 <<< 18) + ((base64DecodeChar b).toUInt32 <<< 12) +
    ((base64DecodeChar c).toUInt32 <<< 6) + (base64DecodeChar d).toUInt32
  pushBelow len (pushBelow len (pushBelow len res ((triple >>> 16) &&& 0xFF).toUInt8)
    ((triple >>> 8) &&& 0xFF).toUInt8) (triple &&& 0xFF).toUInt8

def decodeGroups (len : Nat) : Bytes → Bytes → Bytes
  | res,a :: b :: c :: d :: str => decodeGroups len (decodeGroup len res a b c d) str
  | res,_ => res

def decodedLength (str : Bytes) : Nat :=
  3 * str.length / 4 - (if str[str.length - 1]? = some equals then 1 else 0) -
    (if str[str.length - 2]? = some equals then 1 else 0)

def base64Decode (str : Bytes) : Option Bytes :=
  if str = [] ∨ str.length % 4 ≠ 0 then none else some (decodeGroups (decodedLength str) [] str)

/- The alphabet. -/
theorem alphabetTable : ∀ v : Fin 64, base64DecodeChar (base64EncodeChar (UInt8.ofNat v)) = UInt8.ofNat v ∧
    base64EncodeChar (UInt8.ofNat v) ≠ equals := by decide

theorem alphabetBack {v : UInt8} (small : v.toNat < 64) :
    base64DecodeChar (base64EncodeChar v) = v ∧ base64EncodeChar v ≠ equals := by
  have entry := alphabetTable ⟨v.toNat,small⟩
  rwa [UInt8.ofNat_toNat] at entry

theorem shiftedNat (b : UInt8) (shift : UInt32) (small : shift.toNat ≤ 24) :
    (b.toUInt32 <<< shift).toNat = b.toNat * 2 ^ shift.toNat := by
  have place : shift.toNat % 32 = shift.toNat := Nat.mod_eq_of_lt (by omega)
  have fits : b.toNat * 2 ^ shift.toNat < 2 ^ 32 := calc
    b.toNat * 2 ^ shift.toNat < 2 ^ 8 * 2 ^ shift.toNat := Nat.mul_lt_mul_of_pos_right b.toNat_lt (Nat.two_pow_pos _)
    _ ≤ 2 ^ 8 * 2 ^ 24 := Nat.mul_le_mul_left _ (Nat.pow_le_pow_right (by decide) small)
    _ = 2 ^ 32 := rfl
  rw [UInt32.toNat_shiftLeft,UInt8.toNat_toUInt32,place,Nat.shiftLeft_eq,Nat.mod_eq_of_lt fits]

theorem tripleNat (b1 b2 b3 : UInt8) :
    (tripleOf b1 b2 b3).toNat = b1.toNat * 65536 + b2.toNat * 256 + b3.toNat := by
  have second := b2.toNat_lt
  have high : (b1.toUInt32 <<< 16).toNat = b1.toNat * 65536 := shiftedNat b1 16 (by decide)
  have middle : (b2.toUInt32 <<< 8).toNat = b2.toNat * 256 := shiftedNat b2 8 (by decide)
  have pair : b1.toNat * 65536 ||| b2.toNat * 256 = (b1.toNat * 256 + b2.toNat) * 256 := by
    have joined := @Nat.shiftLeft_add_eq_or_of_lt 16 (b2.toNat * 256) (by omega) b1.toNat
    rw [Nat.shiftLeft_eq] at joined
    rw [← joined]
    omega
  have joined := @Nat.shiftLeft_add_eq_or_of_lt 8 b3.toNat b3.toNat_lt (b1.toNat * 256 + b2.toNat)
  rw [Nat.shiftLeft_eq] at joined
  rw [tripleOf,UInt32.toNat_or,UInt32.toNat_or,high,middle,UInt8.toNat_toUInt32,pair,← joined]
  omega

theorem sextetNat (triple shift : UInt32) (small : shift.toNat < 32) :
    (sextet triple shift).toNat = triple.toNat / 2 ^ shift.toNat % 64 := by
  have mask : triple.toNat >>> shift.toNat &&& 63 = (triple.toNat >>> shift.toNat) % 64 :=
    Nat.and_two_pow_sub_one_eq_mod _ 6
  have place : shift.toNat % 32 = shift.toNat := Nat.mod_eq_of_lt small
  have whole : (0x3F : UInt32).toNat = 63 := rfl
  rw [sextet,UInt32.toNat_toUInt8,UInt32.toNat_and,UInt32.toNat_shiftRight,place,Nat.and_comm,whole,mask,
    Nat.shiftRight_eq_div_pow]
  omega

theorem byteOf (triple shift : UInt32) (small : shift.toNat < 32) (b : UInt8)
    (same : triple.toNat / 2 ^ shift.toNat % 256 = b.toNat) : ((triple >>> shift) &&& 0xFF).toUInt8 = b := by
  have mask : triple.toNat >>> shift.toNat &&& 255 = (triple.toNat >>> shift.toNat) % 256 :=
    Nat.and_two_pow_sub_one_eq_mod _ 8
  have place : shift.toNat % 32 = shift.toNat := Nat.mod_eq_of_lt small
  have whole : (0xFF : UInt32).toNat = 255 := rfl
  apply UInt8.toNat_inj.mp
  rw [UInt32.toNat_toUInt8,UInt32.toNat_and,UInt32.toNat_shiftRight,place,whole,mask,Nat.shiftRight_eq_div_pow,
    Nat.mod_mod,same]

/- Four sextets make up what they were cut from. -/
theorem sextetsJoined (triple : UInt32) (low : triple.toNat < 2 ^ 24) :
    ((sextet triple 18).toUInt32 <<< 18) + ((sextet triple 12).toUInt32 <<< 12) +
      ((sextet triple 6).toUInt32 <<< 6) + (sextet triple 0).toUInt32 = triple := by
  have one : (sextet triple 18).toNat = triple.toNat / 262144 % 64 := sextetNat triple 18 (by decide)
  have two : (sextet triple 12).toNat = triple.toNat / 4096 % 64 := sextetNat triple 12 (by decide)
  have three : (sextet triple 6).toNat = triple.toNat / 64 % 64 := sextetNat triple 6 (by decide)
  have four : (sextet triple 0).toNat = triple.toNat / 1 % 64 := sextetNat triple 0 (by decide)
  have first : ((sextet triple 18).toUInt32 <<< 18).toNat = (sextet triple 18).toNat * 262144 :=
    shiftedNat _ 18 (by decide)
  have second : ((sextet triple 12).toUInt32 <<< 12).toNat = (sextet triple 12).toNat * 4096 :=
    shiftedNat _ 12 (by decide)
  have third : ((sextet triple 6).toUInt32 <<< 6).toNat = (sextet triple 6).toNat * 64 := shiftedNat _ 6 (by decide)
  apply UInt32.toNat_inj.mp
  rw [UInt32.toNat_add,UInt32.toNat_add,UInt32.toNat_add,first,second,third,UInt8.toNat_toUInt32,one,two,three,four]
  omega

theorem sextetBack (triple shift : UInt32) (small : shift.toNat < 32) :
    base64DecodeChar (base64EncodeChar (sextet triple shift)) = sextet triple shift ∧
      base64EncodeChar (sextet triple shift) ≠ equals := by
  refine alphabetBack ?_
  rw [sextetNat triple shift small]
  exact Nat.mod_lt _ (by decide)

/- A group of characters gives back as many of its bytes as are asked for. -/
theorem groupDecoded (len : Nat) (res : Bytes) (b1 b2 b3 x y : UInt8)
    (third : base64DecodeChar x = sextet (tripleOf b1 b2 b3) 6) (last : base64DecodeChar y = sextet (tripleOf b1 b2 b3) 0) :
    decodeGroup len res (base64EncodeChar (sextet (tripleOf b1 b2 b3) 18))
      (base64EncodeChar (sextet (tripleOf b1 b2 b3) 12)) x y =
        pushBelow len (pushBelow len (pushBelow len res b1) b2) b3 := by
  have whole := tripleNat b1 b2 b3
  have small1 := b1.toNat_lt
  have small2 := b2.toNat_lt
  have small3 := b3.toNat_lt
  have joined := sextetsJoined (tripleOf b1 b2 b3) (by omega)
  have byte1 : ((tripleOf b1 b2 b3 >>> 16) &&& 0xFF).toUInt8 = b1 :=
    byteOf _ 16 (by decide) b1 (show (tripleOf b1 b2 b3).toNat / 65536 % 256 = b1.toNat by omega)
  have byte2 : ((tripleOf b1 b2 b3 >>> 8) &&& 0xFF).toUInt8 = b2 :=
    byteOf _ 8 (by decide) b2 (show (tripleOf b1 b2 b3).toNat / 256 % 256 = b2.toNat by omega)
  have byte3 : ((tripleOf b1 b2 b3 >>> 0) &&& 0xFF).toUInt8 = b3 :=
    byteOf _ 0 (by decide) b3 (show (tripleOf b1 b2 b3).toNat / 1 % 256 = b3.toNat by omega)
  rw [UInt32.shiftRight_zero] at byte3
  rw [decodeGroup,(sextetBack _ 18 (by decide)).1,(sextetBack _ 12 (by decide)).1,third,last,joined,byte1,byte2,byte3]

/- The sextet of bytes that are not there is what the equals sign is read as. -/
theorem equalsSextet (b1 b2 : UInt8) : base64DecodeChar equals = sextet (tripleOf b1 b2 0) 0 := by
  apply UInt8.toNat_inj.mp
  have cut : (sextet (tripleOf b1 b2 0) 0).toNat = (tripleOf b1 b2 0).toNat / 1 % 64 := sextetNat _ 0 (by decide)
  have zero : (0 : UInt8).toNat = 0 := rfl
  have read : (base64DecodeChar equals).toNat = 0 := rfl
  rw [cut,tripleNat,read,zero]
  omega

theorem equalsSextets (b1 : UInt8) : base64DecodeChar equals = sextet (tripleOf b1 0 0) 6 := by
  apply UInt8.toNat_inj.mp
  have cut : (sextet (tripleOf b1 0 0) 6).toNat = (tripleOf b1 0 0).toNat / 64 % 64 := sextetNat _ 6 (by decide)
  have zero : (0 : UInt8).toNat = 0 := rfl
  have read : (base64DecodeChar equals).toNat = 0 := rfl
  rw [cut,tripleNat,read,zero]
  omega

theorem pushRoom {len : Nat} {res : Bytes} (room : res.length < len) (v : UInt8) : pushBelow len res v = res ++ [v] :=
  if_pos room

theorem pushFull {len : Nat} {res : Bytes} (full : len ≤ res.length) (v : UInt8) : pushBelow len res v = res :=
  if_neg (not_lt.mpr full)

/- By the groups that the bytes are written in. -/
theorem groupsDecoded (arr res : Bytes) : decodeGroups (res.length + arr.length) res (base64Encode arr) = res ++ arr := by
  induction arr using base64Encode.induct generalizing res with
  | case1 => simp [base64Encode,decodeGroups]
  | case2 b1 =>
    have group := groupDecoded (res.length + 1) res b1 0 0 equals equals (equalsSextets b1) (equalsSextet b1 0)
    rw [@pushRoom _ res (by omega),@pushFull _ (res ++ [b1]) (by simp),pushFull (by simp)] at group
    simp only [base64Encode,encodeGroup,Option.getD_none,Option.isSome_none,Bool.false_eq_true,if_false,
      List.length_singleton,decodeGroups,group]
  | case3 b1 b2 =>
    have group := groupDecoded (res.length + 2) res b1 b2 0 _ equals (sextetBack (tripleOf b1 b2 0) 6 (by decide)).1
      (equalsSextet b1 b2)
    rw [@pushRoom _ res (by omega),@pushRoom _ (res ++ [b1]) (by simp),pushFull (by simp)] at group
    simp only [base64Encode,encodeGroup,Option.getD_some,Option.getD_none,Option.isSome_some,Option.isSome_none,
      Bool.false_eq_true,if_false,if_true,List.length_cons,List.length_nil,decodeGroups,group,List.append_assoc,
      List.cons_append,List.nil_append]
  | case4 b1 b2 b3 arr ih =>
    have group := groupDecoded (res.length + (arr.length + 3)) res b1 b2 b3 _ _
      (sextetBack (tripleOf b1 b2 b3) 6 (by decide)).1 (sextetBack (tripleOf b1 b2 b3) 0 (by decide)).1
    rw [@pushRoom _ res (by omega),@pushRoom _ (res ++ [b1]) (by simp),@pushRoom _ (res ++ [b1] ++ [b2]) (by simp)] at group
    have rest := ih (res ++ [b1] ++ [b2] ++ [b3])
    have length : (res ++ [b1] ++ [b2] ++ [b3]).length + arr.length = res.length + (arr.length + 3) := by
      simp
      omega
    rw [length] at rest
    simp only [base64Encode,encodeGroup,Option.getD_some,Option.isSome_some,if_true,List.length_cons,
      List.cons_append,List.nil_append,decodeGroups,group,rest]
    simp

theorem lengthEncoded (arr : Bytes) : (base64Encode arr).length = 4 * ((arr.length + 2) / 3) := by
  induction arr using base64Encode.induct with
  | case1 => rfl
  | case2 => simp [base64Encode,encodeGroup]
  | case3 => simp [base64Encode,encodeGroup]
  | case4 b1 b2 b3 arr ih =>
    simp only [base64Encode,encodeGroup,List.length_append,List.length_cons,List.length_nil,ih]
    omega

/- The last two characters tell how far the last group is filled. -/
theorem padding (arr : Bytes) (filled : arr ≠ []) :
    ((base64Encode arr)[(base64Encode arr).length - 1]? = some equals ↔ arr.length % 3 ≠ 0) ∧
      ((base64Encode arr)[(base64Encode arr).length - 2]? = some equals ↔ arr.length % 3 = 1) := by
  induction arr using base64Encode.induct with
  | case1 => exact absurd rfl filled
  | case2 => simp [base64Encode,encodeGroup]
  | case3 b1 b2 =>
    have plain := (sextetBack (tripleOf b1 b2 0) 6 (by decide)).2
    simp [base64Encode,encodeGroup,plain]
  | case4 b1 b2 b3 arr ih =>
    by_cases last : arr = []
    · subst last
      have plain := (sextetBack (tripleOf b1 b2 b3) 6 (by decide)).2
      have plainToo := (sextetBack (tripleOf b1 b2 b3) 0 (by decide)).2
      simp [base64Encode,encodeGroup,plain,plainToo]
    · obtain ⟨one,two⟩ := ih last
      have length := lengthEncoded arr
      have some : 0 < arr.length := List.length_pos_iff.mpr last
      have group : (encodeGroup b1 (Option.some b2) (Option.some b3)).length = 4 := rfl
      have behind (back : Nat) (few : back ≤ (base64Encode arr).length) (any : 0 < back) :
          (base64Encode (b1 :: b2 :: b3 :: arr))[(base64Encode (b1 :: b2 :: b3 :: arr)).length - back]? =
            (base64Encode arr)[(base64Encode arr).length - back]? := by
        rw [base64Encode,List.length_append,List.getElem?_append_right (by omega)]
        congr 1
        omega
      have remainder : (b1 :: b2 :: b3 :: arr).length % 3 = arr.length % 3 := by
        simp only [List.length_cons]
        omega
      rw [behind 1 (by omega) (by decide),behind 2 (by omega) (by decide),remainder]
      exact ⟨one,two⟩

theorem lengthDecoded (arr : Bytes) (filled : arr ≠ []) : decodedLength (base64Encode arr) = arr.length := by
  obtain ⟨last,before⟩ := padding arr filled
  have length := lengthEncoded arr
  unfold decodedLength
  by_cases whole : arr.length % 3 = 0
  · rw [if_neg (fun padded => last.mp padded whole),if_neg (fun padded => by have := before.mp padded; omega)]
    omega
  · rw [if_pos (last.mpr whole)]
    by_cases one : arr.length % 3 = 1
    · rw [if_pos (before.mpr one)]
      omega
    · rw [if_neg (mt before.mp one)]
      omega

/- What has been written is read back. -/
theorem decodesEncoded (arr : Bytes) (filled : arr ≠ []) : base64Decode (base64Encode arr) = some arr := by
  have length := lengthEncoded arr
  have some : 0 < arr.length := List.length_pos_iff.mpr filled
  have accepted : ¬(base64Encode arr = [] ∨ (base64Encode arr).length % 4 ≠ 0) := by
    rintro (empty | odd)
    · rw [empty,List.length_nil] at length
      omega
    · omega
  have whole := groupsDecoded arr []
  rw [List.length_nil,Nat.zero_add] at whole
  rw [base64Decode,if_neg accepted,lengthDecoded arr filled,whole,List.nil_append]

theorem decodesTwoBytes : base64Decode (base64Encode [0xFF,0x3E]) = some [0xFF,0x3E] :=
  decodesEncoded [0xFF,0x3E] (by simp)

end Ltsm.Base64
