import Ltsm.JsonParses

/-! What the reader makes of a single token of a flushed text: a string is the one that was
pushed, and a number too if it fits an int. -/
namespace Ltsm.JsonScalars
open Library JsonTokens JsonContent JsonStreams JsonTexts JsonParses

theorem unescapePlain (c : UInt8) (rest : Bytes) (plain : c ≠ backslash) :
    unescapeFrom (c :: rest) = c :: unescapeFrom rest := by
  cases rest with
  | nil => rfl
  | cons e rest => simp [unescapeFrom,plain]

theorem unescapeEscape {c e : UInt8} (known : escapedChar e = some c) (rest : Bytes) :
    unescapeFrom (backslash :: e :: rest) = c :: 0 :: unescapeFrom rest := by
  simp [unescapeFrom,known]

section
variable {write : UInt8 → Bytes} (writes : Escapes write)
include writes

theorem unescapeWritten (val : Bytes) (proper : 0 ∉ val) : (unescapeFrom (val.flatMap write)).filter (· ≠ 0) = val := by
  induction val with
  | nil => rfl
  | cons c val ih =>
    simp only [List.mem_cons,not_or] at proper
    have tail := ih proper.2
    rw [List.flatMap_cons]
    obtain ⟨same,_,direct⟩ | ⟨e,pair,_,known⟩ := writes c (Ne.symm proper.1)
    · rw [same,List.singleton_append,unescapePlain c _ direct]
      simpa [Ne.symm proper.1] using tail
    · rw [pair,List.cons_append,List.singleton_append,unescapeEscape known]
      simpa [Ne.symm proper.1] using tail

/- A text of fewer than two characters has no escape. -/
theorem writtenShort (val : Bytes) (proper : 0 ∉ val) (short : (val.flatMap write).length < 2) : val.flatMap write = val := by
  have some : ∀ c ≠ 0, 0 < (write c).length := by
    intro c other
    obtain ⟨same,_⟩ | ⟨e,pair,_⟩ := writes c other
    · simp [same]
    · simp [pair]
  match val with
  | [] => rfl
  | [c] =>
    have other : c ≠ 0 := fun zero => proper (zero ▸ List.mem_cons_self)
    obtain ⟨same,_⟩ | ⟨e,pair,_⟩ := writes c other
    · simp [same]
    · simp [pair] at short
  | c :: d :: val =>
    simp only [List.mem_cons,not_or] at proper
    have first := some c (Ne.symm proper.1)
    have second := some d (Ne.symm proper.2.1)
    simp only [List.flatMap_cons,List.length_append] at short
    omega

theorem unescapedWritten (val : Bytes) (proper : 0 ∉ val) : unescaped (val.flatMap write) = val := by
  unfold unescaped
  split
  · exact writtenShort writes val proper ‹_›
  · exact unescapeWritten writes val proper

end

theorem unescapedEscaped (val : Text) : unescaped (escapedText val.val) = val.val :=
  unescapedWritten escapedByteEscapes val.val val.property

/- The ten digits are no signs and no spaces. -/
theorem digitTable : ∀ digit : Fin 10, digitOf 10 (asciiDigit digit) = some digit.val ∧
    (asciiDigit digit = 0x30 → digit.val = 0) ∧
    asciiDigit digit ≠ 0x2D ∧ asciiDigit digit ≠ 0x2B ∧ isSpace (asciiDigit digit) = false := by decide

theorem digitOfAscii (digit : Nat) (small : digit < 10) : digitOf 10 (asciiDigit digit) = some digit :=
  (digitTable ⟨digit,small⟩).1

/- The digits of a number behind those of another. -/
theorem numberFromDigits (n value : Nat) (rest : Bytes) :
    numberFrom 10 value (decimalDigits n ++ rest) =
      numberFrom 10 (value * 10 ^ (decimalDigits n).length + n) rest := by
  fun_induction decimalDigits n generalizing rest with
  | case1 n small => simp [numberFrom,digitOfAscii n small]
  | case2 n _ ih =>
    rw [List.append_assoc,ih,List.singleton_append,numberFrom,digitOfAscii _ (Nat.mod_lt n (by decide))]
    simp only [List.length_append,List.length_singleton,Nat.pow_succ]
    congr 1
    rw [Nat.add_mul,Nat.mul_assoc,Nat.add_assoc,Nat.mul_comm (n / 10) 10,Nat.div_add_mod]

/- Only zero begins with the digit that would make a number octal. -/
theorem digitsHead (n : Nat) : ∃ digit rest, digit < 10 ∧ decimalDigits n = asciiDigit digit :: rest ∧
    (digit = 0 → n = 0) := by
  fun_induction decimalDigits n with
  | case1 n small => exact ⟨n,[],small,rfl,id⟩
  | case2 n big ih =>
    obtain ⟨digit,rest,small,shape,leading⟩ := ih
    refine ⟨digit,rest ++ [asciiDigit (n % 10)],small,by simp [shape],fun zero => ?_⟩
    have tenth := leading zero
    omega

theorem magnitudeDigits (n : Nat) : magnitude (decimalDigits n) = some n := by
  obtain ⟨digit,rest,small,shape,leading⟩ := digitsHead n
  have whole := numberFromDigits n 0 []
  have start : number 10 (asciiDigit digit :: rest) = some n := by
    simp only [List.append_nil,shape,numberFrom,digitOfAscii digit small,Nat.zero_mul,Nat.zero_add] at whole
    simp [number,digitOfAscii digit small,whole]
  by_cases zero : digit = 0
  · rw [leading zero,decimalDigits]
    rfl
  · have head : asciiDigit digit ≠ 0x30 := fun same => zero ((digitTable ⟨digit,small⟩).2.1 same)
    simp only [shape,magnitude,if_neg head,start]

theorem strtolDecimal (val : Int) : strtol (decimal val) = some val := by
  unfold decimal
  split
  · have skip : (0x2D :: decimalDigits val.natAbs : Bytes).dropWhile isSpace = 0x2D :: decimalDigits val.natAbs := rfl
    have whole : strtol (0x2D :: decimalDigits val.natAbs) = some (-(val.natAbs : Int)) := by
      simp [strtol,skip,magnitudeDigits]
    rw [whole]
    congr 1
    omega
  · obtain ⟨digit,rest,small,shape,_⟩ := digitsHead val.natAbs
    have head := (digitTable ⟨digit,small⟩).2.2
    have digits := magnitudeDigits val.natAbs
    have whole : strtol (decimalDigits val.natAbs) = some (val.natAbs : Int) := by
      rw [shape] at digits ⊢
      simp [strtol,head,digits]
    rw [whole]
    congr 1
    omega

theorem stoiDecimal (val : Int) : stoi (decimal val) = if FitsInt val then .ok val else .error .outOfRange := by
  rw [stoi,strtolDecimal]

theorem okBind {ε α β : Type} (x : Except ε α) (f : α → Except ε β) (b : β) :
    x >>= f = .ok b ↔ ∃ a, x = .ok a ∧ f a = .ok b := by
  cases x <;> simp [bind,Except.bind]

theorem okMap {ε α β : Type} (x : Except ε α) (f : α → β) (b : β) : x.map f = .ok b ↔ ∃ a, x = .ok a ∧ f a = b := by
  cases x <;> simp [Except.map]

theorem noDot (word : Bytes) (chars : ∀ c ∈ word, WordChar c) : dot ∉ word :=
  fun mem => absurd (chars dot mem) (by simp [WordChar,dot])

section
variable {F : Type} (stod : Bytes → Except StdError F) (content : Bytes)

theorem readInteger (val : Int) : getValuePrimitive stod (decimal val) =
    if FitsInt val then .ok (.integer val) else .error (.std .outOfRange) := by
  rw [getValuePrimitive,if_neg (noDot _ (decimalChars val)),stoiDecimal]
  by_cases fits : FitsInt val <;> simp [fits,Except.map]

theorem readNull : getValuePrimitive stod nullText = .ok .null := rfl

theorem readBoolean (val : Bool) :
    getValuePrimitive stod (if val then trueText else falseText) = .ok (.boolean val) := by
  cases val <;> rfl

theorem primitiveTokenText (pos : Nat) (word post : Bytes) (there : content.drop pos = word ++ post) :
    stringToken content (primitiveToken pos word) = word := by
  cases word with
  | nil => simp [stringToken,primitiveToken]
  | cons c word =>
    simp only [stringToken,primitiveToken,there,Nat.add_sub_cancel_left]
    simp

/- Between the quotes. -/
theorem stringTokenText {pos : Nat} {inner post : Bytes} (there : content.drop pos = quote :: (inner ++ quote :: post))
    (size : Nat) : stringToken content ⟨.string,pos + 1,some (pos + 1 + inner.length),size⟩ = inner := by
  have behind : content.drop (pos + 1) = inner ++ quote :: post := by
    rw [← List.drop_drop,there]
    rfl
  simp only [stringToken,behind,Nat.add_sub_cancel_left,List.take_left]
  split
  · rfl
  · symm
    rw [← List.length_eq_zero_iff]
    omega

theorem textTokenText (pos size : Nat) (val post : Bytes) (there : content.drop pos = quoted val ++ post) :
    stringToken content (textToken pos val size) = escapedText val := by
  have inner : content.drop pos = quote :: (escapedText val ++ quote :: post) := by
    rw [there]
    simp [quoted,escapedText]
  exact stringTokenText content inner size

theorem dropBehind {pos : Nat} {front post : Bytes} (there : content.drop pos = front ++ post) :
    content.drop (pos + front.length) = post := by
  rw [← List.drop_drop,there,List.drop_left]

end

end Ltsm.JsonScalars
