import Ltsm.JsonTexts

/-! The tokenizer on the text of a tree: it puts the tokens of the tree behind those it has,
counts the tree into the token above it, and stands where it stood before. -/
namespace Ltsm.JsonParses
open Library JsonTokens JsonContent JsonStreams JsonTexts

section
variable (pos : Nat) (p : Parser) (rest : Bytes)

theorem parseEnd : parseFrom pos p [] = p.finish := by rw [parseFrom]

theorem parseLeftBracket :
    parseFrom pos p (leftBracket :: rest) = parseFrom (pos + 1) (p.openContainer .array pos) rest := by
  rw [parseFrom]
  simp [leftBracket,leftBrace]

theorem parseLeftBrace :
    parseFrom pos p (leftBrace :: rest) = parseFrom (pos + 1) (p.openContainer .object pos) rest := by
  rw [parseFrom]
  simp [leftBrace]

theorem parseRightBracket (q : Parser) (closed : p.closeContainer .array pos = .ok q) :
    parseFrom pos p (rightBracket :: rest) = parseFrom (pos + 1) q rest := by
  rw [parseFrom]
  simp [closed,leftBracket,leftBrace,rightBracket,rightBrace,bind,Except.bind]

theorem parseRightBrace (q : Parser) (closed : p.closeContainer .object pos = .ok q) :
    parseFrom pos p (rightBrace :: rest) = parseFrom (pos + 1) q rest := by
  rw [parseFrom]
  simp [closed,leftBracket,leftBrace,rightBrace,bind,Except.bind]

theorem parseComma : parseFrom pos p (comma :: rest) = parseFrom (pos + 1) p.nextMember rest := by
  rw [parseFrom]
  simp [leftBracket,leftBrace,rightBracket,rightBrace,quote,spaces,colon,comma]

theorem parseColon : parseFrom pos p (colon :: rest) =
    parseFrom (pos + 1) {p with toksuper := if p.tokens = [] then none else some (p.tokens.length - 1)} rest := by
  rw [parseFrom]
  simp [leftBracket,leftBrace,rightBracket,rightBrace,quote,spaces,colon]

end

/- One step of the scan of a string. -/
theorem stringLengthStep (c : UInt8) (rest : Bytes) (plain : c ≠ 0) (inner : c ≠ quote) (direct : c ≠ backslash) :
    stringLength (c :: rest) = (stringLength rest).map (· + 1) := by
  rw [stringLength.eq_def]
  simp [plain,inner,direct]

theorem stringLengthEscape (e : UInt8) (rest : Bytes) (known : e ∈ escapes) :
    stringLength (backslash :: e :: rest) = (stringLength rest).map (· + 2) := by
  rw [stringLength.eq_def]
  simp [known,backslash,quote]

theorem stringLengthQuote (rest : Bytes) : stringLength (quote :: rest) = .ok 0 := by
  rw [stringLength.eq_def]
  simp [quote]

/- How the characters of a string may be written: as they are, or behind a backslash as what the
reader takes back for them. -/
def Escapes (write : UInt8 → Bytes) : Prop :=
  ∀ c ≠ 0, write c = [c] ∧ c ≠ quote ∧ c ≠ backslash ∨ ∃ e, write c = [backslash,e] ∧ e ∈ escapes ∧ escapedChar e = some c

theorem escapedByteEscapes : Escapes escapedByte := by
  intro c _
  unfold escapedByte
  split
  · rename_i special
    exact .inr ⟨c,rfl,by rcases special with rfl | rfl <;> decide,by rcases special with rfl | rfl <;> decide⟩
  · rename_i plain
    exact .inl ⟨rfl,not_or.mp plain⟩

section
variable {write : UInt8 → Bytes} (writes : Escapes write)
include writes

/- No zero, and no quote that is not behind a backslash. -/
theorem stringLengthEscaped (val rest : Bytes) (proper : 0 ∉ val) :
    stringLength (val.flatMap write ++ quote :: rest) = .ok (val.flatMap write).length := by
  induction val with
  | nil => exact stringLengthQuote rest
  | cons c val ih =>
    simp only [List.mem_cons,not_or] at proper
    have tail := ih proper.2
    rw [List.flatMap_cons,List.append_assoc]
    obtain ⟨same,inner,direct⟩ | ⟨e,pair,known,_⟩ := writes c (Ne.symm proper.1)
    · rw [same,List.singleton_append,stringLengthStep c _ (Ne.symm proper.1) inner direct,tail]
      rfl
    · rw [pair,List.cons_append,List.singleton_append,stringLengthEscape e _ known,tail]
      rfl

theorem parseString (pos : Nat) (p : Parser) (val rest : Bytes) (proper : 0 ∉ val) :
    parseFrom pos p (quote :: (val.flatMap write ++ quote :: rest)) = parseFrom (pos + ((val.flatMap write).length + 2))
      (p.fillToken .string (pos + 1) (pos + 1 + (val.flatMap write).length)) rest := by
  have scan := stringLengthEscaped writes val rest proper
  have behind : (val.flatMap write ++ quote :: rest).drop ((val.flatMap write).length + 1) = rest := by
    rw [← List.drop_drop,List.drop_left]
    rfl
  rw [parseFrom,scan,← Nat.add_assoc]
  simp only [bind,Except.bind,behind]
  simp [leftBracket,leftBrace,rightBracket,rightBrace,quote]

end

theorem parseQuoted (pos : Nat) (p : Parser) (val rest : Bytes) (proper : 0 ∉ val) :
    parseFrom pos p (quoted val ++ rest) = parseFrom (pos + (quoted val).length)
      (p.fillToken .string (pos + 1) (pos + 1 + (escapedText val).length)) rest := by
  have shape : quoted val ++ rest = quote :: (val.flatMap escapedByte ++ quote :: rest) := by simp [quoted]
  have size : (quoted val).length = (val.flatMap escapedByte).length + 2 := by simp [quoted]
  rw [shape,parseString escapedByteEscapes pos p val rest proper,size]
  rfl

/- The characters of the words and numbers that are written. -/
def WordChar (c : UInt8) : Prop := 0x61 ≤ c ∧ c ≤ 0x7A ∨ 0x30 ≤ c ∧ c ≤ 0x39 ∨ c = 0x2D

theorem wordCharPlain (c : UInt8) (word : WordChar c) :
    c ∉ [0,leftBrace,leftBracket,rightBrace,rightBracket,quote,colon,comma] ∧ c ∉ spaces ∧ ¬(c < 32 ∨ 127 ≤ c) := by
  simp only [WordChar,UInt8.le_iff_toNat_le,UInt8.lt_iff_toNat_lt,← UInt8.toNat_inj,List.mem_cons,spaces,
    leftBrace,leftBracket,rightBrace,rightBracket,quote,colon,comma,List.not_mem_nil,or_false,UInt8.reduceToNat] at *
  omega

/- What stands behind a value inside a container. -/
def Delimiter (c : UInt8) : Prop := c = comma ∨ c = rightBracket ∨ c = rightBrace

theorem delimiterStops {d : UInt8} (ends : Delimiter d) (rest : Bytes) : primitiveLength (d :: rest) = .ok 0 := by
  have stops : d ∈ [colon,comma,rightBracket,rightBrace] := by rcases ends with rfl | rfl | rfl <;> decide
  rw [primitiveLength,if_pos (.inr (.inr stops))]

theorem primitiveLengthWord (word rest : Bytes) (chars : ∀ c ∈ word, WordChar c) (ends : primitiveLength rest = .ok 0) :
    primitiveLength (word ++ rest) = .ok word.length := by
  induction word with
  | nil => exact ends
  | cons c word ih =>
    have head := chars c List.mem_cons_self
    have tail := ih fun c mem => chars c (List.mem_cons_of_mem _ mem)
    have plain := wordCharPlain c head
    have inner : ¬(c = 0 ∨ c ∈ spaces ∨ c ∈ [colon,comma,rightBracket,rightBrace]) := by
      have away := plain.1
      simp only [List.mem_cons,not_or] at away ⊢
      exact ⟨away.1,plain.2.1,away.2.2.2.2.2.2.1,away.2.2.2.2.2.2.2.1,away.2.2.2.2.1,away.2.2.2.1,away.2.2.2.2.2.2.2.2⟩
    rw [List.cons_append,primitiveLength,if_neg inner,if_neg plain.2.2,tail]
    rfl

/- A word at the front is a primitive. -/
theorem parseWord (pos : Nat) (p : Parser) (word rest : Bytes) (proper : word ≠ []) (chars : ∀ c ∈ word, WordChar c)
    (ends : primitiveLength rest = .ok 0) :
    parseFrom pos p (word ++ rest) =
      parseFrom (pos + word.length) (p.fillToken .primitive pos (pos + word.length)) rest := by
  cases word with
  | nil => exact absurd rfl proper
  | cons c word =>
    have scan := primitiveLengthWord word rest (fun c mem => chars c (List.mem_cons_of_mem _ mem)) ends
    have plain := wordCharPlain c (chars c List.mem_cons_self)
    have away := plain.1
    simp only [List.mem_cons,not_or] at away
    have behind : (word ++ rest).drop word.length = rest := by simp
    rw [List.cons_append,parseFrom,scan]
    simp only [bind,Except.bind,behind,if_neg plain.2.2,if_neg plain.2.1]
    simp [away,Nat.add_assoc]

/- The words that are written. -/
theorem wordChars (val : Bool) : ∀ c ∈ (if val then trueText else falseText), WordChar c := by
  cases val <;> simp [trueText,falseText,WordChar]

theorem nullChars : ∀ c ∈ nullText, WordChar c := by simp [nullText,WordChar]

theorem digitChar (digit : Nat) (small : digit < 10) : WordChar (asciiDigit digit) := by
  right; left
  simp only [asciiDigit,UInt8.le_iff_toNat_le,UInt8.toNat_ofNat',UInt8.reduceToNat]
  omega

theorem digitChars (n : Nat) : ∀ c ∈ decimalDigits n, WordChar c := by
  fun_induction decimalDigits n with
  | case1 n small => simpa using digitChar n small
  | case2 n _ ih =>
    intro c mem
    rcases List.mem_append.mp mem with front | last
    · exact ih c front
    · rw [List.mem_singleton.mp last]
      exact digitChar _ (Nat.mod_lt n (by decide))

theorem decimalChars (val : Int) : ∀ c ∈ decimal val, WordChar c := by
  intro c mem
  unfold decimal at mem
  split at mem
  · rcases List.mem_cons.mp mem with rfl | digit
    · exact .inr (.inr rfl)
    · exact digitChars _ c digit
  · exact digitChars _ c mem

theorem digitsProper (n : Nat) : decimalDigits n ≠ [] := by
  unfold decimalDigits
  split <;> simp

theorem decimalProper (val : Int) : decimal val ≠ [] := by
  unfold decimal
  split
  · simp
  · exact digitsProper _

/- The last token of a list in front of some that fail the test. -/
theorem lastWhereAt (test : Token → Bool) (base inner : List Token) (tok : Token) (meets : test tok = true)
    (fail : ∀ t ∈ inner, test t = false) : lastWhere test (base ++ tok :: inner) = some (base.length,tok) := by
  have nothing : ∀ inner : List Token, (∀ t ∈ inner, test t = false) → lastWhere test inner = none := by
    intro inner fail
    induction inner with
    | nil => rfl
    | cons t inner ih =>
      rw [lastWhere,ih fun t mem => fail t (List.mem_cons_of_mem _ mem)]
      simp [fail t List.mem_cons_self]
  induction base with
  | nil => simp [lastWhere,nothing inner fail,meets]
  | cons t base ih => simp [lastWhere,ih]

/- A change that the test does not see moves nothing. -/
theorem lastWhereModify (test : Token → Bool) (change : Token → Token) (same : ∀ t, test (change t) = test t)
    (l : List Token) (i : Nat) :
    (lastWhere test (l.modify i change)).map Prod.fst = (lastWhere test l).map Prod.fst := by
  induction l generalizing i with
  | nil => simp
  | cons t l ih =>
    cases i with
    | zero => cases found : lastWhere test l <;> simp [lastWhere,found,same]
    | succ i =>
      have tail := ih i
      simp only [List.modify_succ_cons,lastWhere]
      cases one : lastWhere test (l.modify i change) with
      | none =>
        cases two : lastWhere test l with
        | none => rfl
        | some found => simp [one,two] at tail
      | some found =>
        cases two : lastWhere test l with
        | none => simp [one,two] at tail
        | some other =>
          simp only [one,two,Option.map_some,Option.some.injEq] at tail
          simp [tail]

theorem modifyAt (base inner : List Token) (tok : Token) (change : Token → Token) :
    (base ++ tok :: inner).modify base.length change = base ++ change tok :: inner := by
  induction base with
  | nil => rfl
  | cons t base ih => simp [ih]

@[simp] theorem countMemberLength (p : Parser) : p.countMember.length = p.tokens.length := by
  unfold Parser.countMember
  split <;> simp

theorem countMemberOpen (p : Parser) :
    (lastWhere Token.unclosed p.countMember).map Prod.fst = (lastWhere Token.unclosed p.tokens).map Prod.fst := by
  unfold Parser.countMember
  split
  · rfl
  · exact lastWhereModify Token.unclosed (fun token => {token with size := token.size + 1}) (fun _ => rfl) _ _

/- The tokens of a tree are closed. -/
mutual
theorem closedTokens (pos : Nat) (value : Json) : ∀ t ∈ tokens pos value, t.unclosed = false := by
  match value with
  | .null => simp [tokens,primitiveToken,Token.unclosed]
  | .boolean _ => simp [tokens,primitiveToken,Token.unclosed]
  | .integer _ => simp [tokens,primitiveToken,Token.unclosed]
  | .string _ => simp [tokens,textToken,Token.unclosed]
  | .array items =>
    have inner := closedItems (pos + 1) [] items
    simpa [tokens,Token.unclosed] using inner
  | .object fields =>
    have inner := closedFields (pos + 1) [] fields
    simpa [tokens,Token.unclosed] using inner

theorem closedItems (pos : Nat) (sep : Bytes) (items : Items) : ∀ t ∈ itemsTokens pos sep items, t.unclosed = false := by
  match items with
  | .nil => simp [itemsTokens]
  | .cons item rest =>
    intro t mem
    rcases List.mem_append.mp mem with head | tail
    · exact closedTokens _ item t head
    · exact closedItems _ _ rest t tail

theorem closedFields (pos : Nat) (sep : Bytes) (fields : Fields) :
    ∀ t ∈ fieldsTokens pos sep fields, t.unclosed = false := by
  match fields with
  | .nil => simp [fieldsTokens]
  | .cons key value rest =>
    intro t mem
    rcases List.mem_cons.mp mem with rfl | mem
    · rfl
    rcases List.mem_append.mp mem with head | tail
    · exact closedTokens _ value t head
    · exact closedFields _ _ rest t tail
end

/- An open container, with closed tokens behind it. -/
structure Inside (base : List Token) (outer : Token) (inner : List Token) (p : Parser) : Prop where
  tokens : p.tokens = base ++ outer :: inner
  container : outer.container = true
  unclosed : outer.unclosed = true
  closed : ∀ t ∈ inner, t.unclosed = false

/- Where the next member is counted into the container: at its start, or after a comma. -/
def Resumes (base : List Token) (sep : Bytes) (p : Parser) : Prop :=
  sep = [] ∧ p.toksuper = some base.length ∨ sep = [comma] ∧ p.nextMember = {p with toksuper := some base.length}

section
variable {base inner : List Token} {outer : Token} {p : Parser}

theorem Inside.last (inside : Inside base outer inner p) :
    lastWhere Token.unclosed p.tokens = some (base.length,outer) := by
  rw [inside.tokens]
  exact lastWhereAt _ base inner outer inside.unclosed inside.closed

theorem Inside.lastContainer (inside : Inside base outer inner p) :
    lastWhere (fun token => token.container && token.unclosed) p.tokens = some (base.length,outer) := by
  rw [inside.tokens]
  refine lastWhereAt _ base inner outer ?_ fun t mem => ?_
  · simp [inside.container,inside.unclosed]
  · simp [inside.closed t mem]

/- After a value of an array, and after one of a key. -/
theorem Inside.resumes (inside : Inside base outer inner p) (above : p.toksuper = some base.length) :
    Resumes base [comma] p := by
  refine .inr ⟨rfl,?_⟩
  simp [Parser.nextMember,above,inside.tokens,inside.container]
  rw [← inside.tokens,← above]

theorem Inside.resumesKey (inside : Inside base outer inner p) (i : Nat) (key : Token)
    (above : p.toksuper = some i) (there : p.tokens[i]? = some key) (plain : key.container = false) :
    Resumes base [comma] p := by
  refine .inr ⟨rfl,?_⟩
  simp [Parser.nextMember,above,there,plain,inside.lastContainer]

theorem sepParsed (pos : Nat) (sep js : Bytes) (resumes : Resumes base sep p) :
    parseFrom pos p (sep ++ js) = parseFrom (pos + sep.length) {p with toksuper := some base.length} js := by
  rcases resumes with ⟨rfl,above⟩ | ⟨rfl,next⟩
  · rw [← above]
    rfl
  · rw [List.singleton_append,parseComma,next]
    rfl

/- One more member of the container. -/
theorem Inside.counted (inside : Inside base outer inner p) (above : p.toksuper = some base.length) :
    p.countMember = base ++ {outer with size := outer.size + 1} :: inner := by
  rw [Parser.countMember,above,inside.tokens]
  exact modifyAt base inner outer _

theorem Inside.append (inside : Inside base outer inner p) (more : List Token) (sup : Option Nat)
    (closed : ∀ t ∈ more, t.unclosed = false) : Inside base {outer with size := outer.size + 1} (inner ++ more)
      ⟨base ++ {outer with size := outer.size + 1} :: inner ++ more,sup⟩ where
  tokens := by simp
  container := inside.container
  unclosed := inside.unclosed
  closed := fun t mem => (List.mem_append.mp mem).elim (inside.closed t) (closed t)

theorem Inside.close (inside : Inside base outer inner p) (pos : Nat) :
    p.closeContainer outer.type pos = .ok ⟨base ++ {outer with stop := some (pos + 1)} :: inner,
      (lastWhere Token.unclosed base).map Prod.fst⟩ := by
  simp only [Parser.closeContainer,inside.last]
  simp [inside.tokens,modifyAt]

end

/- What the tokenizer does with the members of a container, up to its bracket. -/
def ParsesMembers (text : Bytes → Bytes) (tokens : Nat → Bytes → List Token) (count : Nat) (bracket : UInt8) : Prop :=
  ∀ (pos : Nat) (sep rest : Bytes) (base inner : List Token) (outer : Token) (p : Parser),
    Inside base outer inner p → Resumes base sep p →
    ∃ sup, parseFrom pos p (text sep ++ bracket :: rest) = parseFrom (pos + (text sep).length)
      ⟨base ++ {outer with size := outer.size + count} :: (inner ++ tokens pos sep),sup⟩ (bracket :: rest)

def ParsesItems (items : Items) : Prop :=
  ParsesMembers (itemsText · items) (itemsTokens · · items) (countItems items) rightBracket

def ParsesFields (fields : Fields) : Prop :=
  ParsesMembers (fieldsText · fields) (fieldsTokens · · fields) (countFields fields) rightBrace

/- A whole array or object, whatever follows it. -/
def ParsesWhole (value : Json) : Prop :=
  ∀ (pos : Nat) (p : Parser) (rest : Bytes),
    parseFrom pos p (text value ++ rest) = parseFrom (pos + (text value).length)
      ⟨p.countMember ++ tokens pos value,(lastWhere Token.unclosed p.tokens).map Prod.fst⟩ rest

/- A value in a container: the member after it is counted where this one was, or into the
innermost open container. -/
def ParsesValue (value : Json) : Prop :=
  ∀ (pos : Nat) (p : Parser) (rest : Bytes) (d : UInt8), Delimiter d →
    ∃ sup, parseFrom pos p (text value ++ d :: rest) = parseFrom (pos + (text value).length)
        ⟨p.countMember ++ tokens pos value,sup⟩ (d :: rest) ∧
      (sup = p.toksuper ∨ sup = (lastWhere Token.unclosed p.tokens).map Prod.fst)

theorem wholeValue (value : Json) (whole : ParsesWhole value) : ParsesValue value :=
  fun pos p rest d _ => ⟨_,whole pos p (d :: rest),.inr rfl⟩

theorem wordValue (value : Json) (word : Bytes) (spelling : text value = word)
    (token : ∀ pos, tokens pos value = [primitiveToken pos word]) (proper : word ≠ [])
    (chars : ∀ c ∈ word, WordChar c) : ParsesValue value := by
  intro pos p rest d ends
  refine ⟨p.toksuper,?_,.inl rfl⟩
  rw [spelling,parseWord pos p word _ proper chars (delimiterStops ends rest),token]
  rfl

theorem openInside (p : Parser) (type : TokenType) (pos : Nat) (container : type = .array ∨ type = .object) :
    Inside p.countMember ⟨type,pos,none,0⟩ [] (p.openContainer type pos) where
  tokens := rfl
  container := by rcases container with rfl | rfl <;> rfl
  unclosed := rfl
  closed := by simp

theorem openResumes (p : Parser) (type : TokenType) (pos : Nat) :
    Resumes p.countMember [] (p.openContainer type pos) := by
  refine .inl ⟨rfl,?_⟩
  simp [Parser.openContainer]

theorem arrayParsed (items : Items) (members : ParsesItems items) : ParsesWhole (.array items) := by
  intro pos p rest
  obtain ⟨sup,inner⟩ := members (pos + 1) [] rest p.countMember [] _ _
    (openInside p .array pos (.inl rfl)) (openResumes p .array pos)
  have closing : Inside p.countMember ⟨.array,pos,none,countItems items⟩ (itemsTokens (pos + 1) [] items)
      ⟨p.countMember ++ ⟨.array,pos,none,countItems items⟩ :: itemsTokens (pos + 1) [] items,sup⟩ :=
    ⟨rfl,rfl,rfl,closedItems _ _ _⟩
  have shape : text (.array items) ++ rest = leftBracket :: (itemsText [] items ++ rightBracket :: rest) := by
    simp [text]
  have size : (text (.array items)).length = (itemsText [] items).length + 2 := by simp [text]
  simp only [List.nil_append,Nat.zero_add] at inner
  rw [shape,parseLeftBracket,inner,parseRightBracket _ _ _ _ (closing.close _),countMemberOpen,size,tokens]
  have last : pos + 1 + (itemsText [] items).length + 1 = pos + ((itemsText [] items).length + 2) := by omega
  rw [last,Nat.add_assoc pos]

theorem objectParsed (fields : Fields) (members : ParsesFields fields) : ParsesWhole (.object fields) := by
  intro pos p rest
  obtain ⟨sup,inner⟩ := members (pos + 1) [] rest p.countMember [] _ _
    (openInside p .object pos (.inr rfl)) (openResumes p .object pos)
  have closing : Inside p.countMember ⟨.object,pos,none,countFields fields⟩ (fieldsTokens (pos + 1) [] fields)
      ⟨p.countMember ++ ⟨.object,pos,none,countFields fields⟩ :: fieldsTokens (pos + 1) [] fields,sup⟩ :=
    ⟨rfl,rfl,rfl,closedFields _ _ _⟩
  have shape : text (.object fields) ++ rest = leftBrace :: (fieldsText [] fields ++ rightBrace :: rest) := by
    simp [text]
  have size : (text (.object fields)).length = (fieldsText [] fields).length + 2 := by simp [text]
  simp only [List.nil_append,Nat.zero_add] at inner
  rw [shape,parseLeftBrace,inner,parseRightBrace _ _ _ _ (closing.close _),countMemberOpen,size,tokens]
  have last : pos + 1 + (fieldsText [] fields).length + 1 = pos + ((fieldsText [] fields).length + 2) := by omega
  rw [last,Nat.add_assoc pos]

theorem itemsFollow (items : Items) (rest : Bytes) :
    ∃ d more, Delimiter d ∧ itemsText [comma] items ++ rightBracket :: rest = d :: more := by
  cases items with
  | nil => exact ⟨rightBracket,rest,.inr (.inl rfl),rfl⟩
  | cons item items => exact ⟨comma,_,.inl rfl,rfl⟩

theorem fieldsFollow (fields : Fields) (rest : Bytes) :
    ∃ d more, Delimiter d ∧ fieldsText [comma] fields ++ rightBrace :: rest = d :: more := by
  cases fields with
  | nil => exact ⟨rightBrace,rest,.inr (.inr rfl),rfl⟩
  | cons key value fields => exact ⟨comma,_,.inl rfl,rfl⟩

/- Behind a key and its colon: the key stands above the value. -/
def keyed (base inner : List Token) (outer key : Token) : Parser :=
  ⟨base ++ {outer with size := outer.size + 1} :: inner ++ [key],some (base.length + inner.length + 1)⟩

theorem keyParsed {base inner : List Token} {outer : Token} {p : Parser} (pos : Nat) (key : Text) (js : Bytes)
    (inside : Inside base outer inner p) (above : p.toksuper = some base.length) :
    parseFrom pos p (quoted key.val ++ colon :: js) =
      parseFrom (pos + (quoted key.val).length + 1) (keyed base inner outer (textToken pos key.val 0)) js := by
  rw [parseQuoted pos p key.val _ key.property,parseColon,Parser.fillToken,inside.counted above]
  simp [keyed,textToken,Nat.add_assoc]

theorem keyedCounted (base inner : List Token) (outer : Token) (pos : Nat) (val : Bytes) :
    (keyed base inner outer (textToken pos val 0)).countMember =
      base ++ {outer with size := outer.size + 1} :: inner ++ [textToken pos val 1] := by
  have place : base.length + inner.length + 1 = (base ++ {outer with size := outer.size + 1} :: inner).length := by
    simp [Nat.add_assoc]
  simp only [keyed,Parser.countMember,place]
  exact modifyAt _ [] _ _

/- By the constructors of the tree. -/
mutual
theorem valueParsed (value : Json) : ParsesValue value := by
  match value with
  | .null => exact wordValue .null nullText rfl (fun _ => rfl) (by decide) nullChars
  | .boolean val => exact wordValue (.boolean val) _ rfl (fun _ => rfl) (by cases val <;> decide) (wordChars val)
  | .integer val => exact wordValue (.integer val) _ rfl (fun _ => rfl) (decimalProper val) (decimalChars val)
  | .string val =>
    intro pos p rest d _
    exact ⟨p.toksuper,parseQuoted pos p val.val (d :: rest) val.property,.inl rfl⟩
  | .array items => exact wholeValue _ (arrayParsed items (itemsParsed items))
  | .object fields => exact wholeValue _ (objectParsed fields (fieldsParsed fields))

theorem itemsParsed (items : Items) : ParsesItems items := by
  intro pos sep rest base inner outer p inside resumes
  match items with
  | .nil => exact ⟨p.toksuper,by simp [itemsText,itemsTokens,countItems,← inside.tokens]⟩
  | .cons item items =>
    obtain ⟨d,more,ends,follow⟩ := itemsFollow items rest
    obtain ⟨sup,one,above⟩ := valueParsed item (pos + sep.length) {p with toksuper := some base.length} more d ends
    have again : Inside base outer inner {p with toksuper := some base.length} := ⟨inside.tokens,inside.container,
      inside.unclosed,inside.closed⟩
    have back : sup = some base.length := by
      rcases above with same | outside
      · exact same
      · rw [outside,again.last]
        rfl
    have next := again.append (tokens (pos + sep.length) item) sup (closedTokens _ _)
    obtain ⟨final,tail⟩ := itemsParsed items (pos + sep.length + (text item).length) [comma] rest _ _ _ _ next
      (next.resumes back)
    have shape : itemsText sep (.cons item items) ++ rightBracket :: rest = sep ++ (text item ++ d :: more) := by
      simp [itemsText,follow]
    have size : pos + (itemsText sep (.cons item items)).length =
        pos + sep.length + (text item).length + (itemsText [comma] items).length := by
      simp only [itemsText,List.length_append]
      omega
    refine ⟨final,?_⟩
    rw [shape,sepParsed pos sep _ resumes,one,again.counted rfl,← follow,tail,size]
    simp [itemsTokens,countItems,Nat.add_assoc,Nat.add_comm 1]

theorem fieldsParsed (fields : Fields) : ParsesFields fields := by
  intro pos sep rest base inner outer p inside resumes
  match fields with
  | .nil => exact ⟨p.toksuper,by simp [fieldsText,fieldsTokens,countFields,← inside.tokens]⟩
  | .cons key value fields =>
    obtain ⟨d,more,ends,follow⟩ := fieldsFollow fields rest
    have again : Inside base outer inner {p with toksuper := some base.length} := ⟨inside.tokens,inside.container,
      inside.unclosed,inside.closed⟩
    have front := keyParsed (pos + sep.length) key (text value ++ d :: more) again rfl
    obtain ⟨sup,one,above⟩ := valueParsed value (pos + sep.length + (quoted key.val).length + 1)
      (keyed base inner outer (textToken (pos + sep.length) key.val 0)) more d ends
    have before := again.append [textToken (pos + sep.length) key.val 0] (some (base.length + inner.length + 1))
      (by simp [textToken,Token.unclosed])
    have last := before.last
    have next := again.append (textToken (pos + sep.length) key.val 1 ::
      tokens (pos + sep.length + (quoted key.val).length + 1) value) sup (by
        intro t mem
        rcases List.mem_cons.mp mem with rfl | mem
        · rfl
        · exact closedTokens _ _ t mem)
    have resumed : Resumes base [comma] ⟨base ++ {outer with size := outer.size + 1} :: inner ++
        textToken (pos + sep.length) key.val 1 :: tokens (pos + sep.length + (quoted key.val).length + 1) value,sup⟩ := by
      rcases above with same | outside
      · exact next.resumesKey _ (textToken (pos + sep.length) key.val 1) same (by simp [Nat.add_assoc]) rfl
      · refine next.resumes ?_
        rw [outside,keyed,last]
        rfl
    obtain ⟨final,tail⟩ := fieldsParsed fields
      (pos + sep.length + (quoted key.val).length + 1 + (text value).length) [comma] rest _ _ _ _ next resumed
    have shape : fieldsText sep (.cons key value fields) ++ rightBrace :: rest =
        sep ++ (quoted key.val ++ colon :: (text value ++ d :: more)) := by simp [fieldsText,follow]
    have size : pos + (fieldsText sep (.cons key value fields)).length = pos + sep.length + (quoted key.val).length + 1 +
        (text value).length + (fieldsText [comma] fields).length := by
      simp only [fieldsText,List.length_append,List.length_cons]
      omega
    refine ⟨final,?_⟩
    rw [shape,sepParsed pos sep _ resumes,front,one,keyedCounted,List.append_assoc _ [_],List.singleton_append,← follow,
      tail,size]
    simp [fieldsTokens,countFields,Nat.add_assoc,Nat.add_comm 1]
end

theorem jsmnParseEnd (value : Json) (sup : Option Nat) (all : parseFrom 0 {} (text value) =
    parseFrom (text value).length ⟨tokens 0 value,sup⟩ []) : jsmnParse (text value) = .ok (tokens 0 value) := by
  have closed : (tokens 0 value).any Token.unclosed = false := by
    rw [List.any_eq_false]
    intro t mem
    simp [closedTokens 0 value t mem]
  simp [jsmnParse,all,parseEnd,Parser.finish,closed,Except.map]

/- The tokens of a text that a stream has flushed. -/
theorem jsmnParseWhole (value : Json) (whole : ParsesWhole value) : jsmnParse (text value) = .ok (tokens 0 value) := by
  have all := whole 0 {} []
  rw [List.append_nil,Nat.zero_add] at all
  exact jsmnParseEnd value _ all

theorem jsmnParseWord (value : Json) {word : Bytes} (spelling : text value = word)
    (token : ∀ pos, tokens pos value = [primitiveToken pos word]) (proper : word ≠ [])
    (chars : ∀ c ∈ word, WordChar c) : jsmnParse (text value) = .ok (tokens 0 value) := by
  have all := parseWord 0 {} word [] proper chars rfl
  rw [List.append_nil,Nat.zero_add] at all
  refine jsmnParseEnd value none ?_
  rw [spelling,token,all]
  simp [Parser.fillToken,Parser.countMember,primitiveToken]

/- A text may be a scalar too. -/
theorem jsmnParseText (value : Json) : jsmnParse (text value) = .ok (tokens 0 value) := by
  match value with
  | .null => exact jsmnParseWord .null rfl (fun _ => rfl) (by decide) nullChars
  | .boolean val => exact jsmnParseWord (.boolean val) rfl (fun _ => rfl) (by cases val <;> decide) (wordChars val)
  | .integer val => exact jsmnParseWord (.integer val) rfl (fun _ => rfl) (decimalProper val) (decimalChars val)
  | .string val =>
    have all := parseQuoted 0 {} val.val [] val.property
    rw [List.append_nil,Nat.zero_add] at all
    exact jsmnParseEnd (.string val) _ all
  | .array items => exact jsmnParseWhole _ (arrayParsed items (itemsParsed items))
  | .object fields => exact jsmnParseWhole _ (objectParsed fields (fieldsParsed fields))

end Ltsm.JsonParses
