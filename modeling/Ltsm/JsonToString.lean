import Ltsm.JsonRoundTrip
import Ltsm.Library.EmplaceMap

/-! The text that toString writes for a JSON value, and the value that is read back from it. -/
namespace Ltsm.JsonToString
open Library JsonTokens JsonContent JsonStreams JsonTexts JsonParses JsonScalars JsonLayouts JsonRoundTrip

/- What is written behind a backslash. -/
def escapeTable : List (UInt8 × UInt8) :=
  [(backslash,backslash),(quote,quote),(0x2F,0x2F),(0x09,0x74),(0x0A,0x6E),(0x0D,0x72),(0x0C,0x66),(0x08,0x62)]

def escapedSwitch (ch : UInt8) : Bytes :=
  match escapeTable.lookup ch with
  | some e => [backslash,e]
  | none => [ch]

def escaped (str : Bytes) (quotes : Bool) : Bytes :=
  let mark := if quotes then [quote] else []
  mark ++ str.flatMap escapedSwitch ++ mark

/- Each row is one that the reader takes back. -/
theorem tableRead {row : UInt8 × UInt8} (inside : row ∈ escapeTable) : row.2 ∈ escapes ∧ escapedChar row.2 = some row.1 := by
  simp only [escapeTable,List.mem_cons,List.not_mem_nil,or_false] at inside
  rcases inside with rfl | rfl | rfl | rfl | rfl | rfl | rfl | rfl <;> exact ⟨by decide,by decide⟩

theorem switchEscapes : Escapes escapedSwitch := by
  intro c _
  unfold escapedSwitch
  split
  · rename_i e row
    obtain ⟨before,after,table,_⟩ := List.lookup_eq_some_iff.mp row
    have inside : (c,e) ∈ escapeTable := table ▸ List.mem_append_right _ List.mem_cons_self
    obtain ⟨known,taken⟩ := tableRead inside
    exact .inr ⟨e,rfl,known,taken⟩
  · rename_i none
    have absent := List.lookup_eq_none_iff.mp none
    refine .inl ⟨rfl,?_,?_⟩
    · simpa using absent (quote,quote) (by decide)
    · simpa using absent (backslash,backslash) (by decide)

theorem escapedBack (str : Bytes) (proper : 0 ∉ str) : unescaped (escaped str false) = str := by
  simpa [escaped] using unescapedWritten switchEscapes str proper

section
variable {F : Type} (to_string : F → Bytes)

/- The texts of the members, with a comma and a blank between them. A double goes out in the
library's digits. -/
mutual
def toString : JsonValue F → Bytes
  | .null => nullText
  | .boolean val => if val then trueText else falseText
  | .integer val => decimal val
  | .double val => to_string val
  | .string val => escaped val true
  | .array content => [leftBracket,blank] ++ valuesString content ++ [blank,rightBracket]
  | .object content => [leftBrace,blank] ++ entriesString content ++ [blank,rightBrace]

def valuesString : List (JsonValue F) → Bytes
  | [] => []
  | val :: rest => toString val ++ (if rest.isEmpty then [] else [comma,blank]) ++ valuesString rest

def entriesString : List (Bytes × JsonValue F) → Bytes
  | [] => []
  | (key,val) :: rest => escaped key true ++ [colon,blank] ++ toString val ++ (if rest.isEmpty then [] else [comma,blank]) ++
      entriesString rest
end

/- No doubles, ints of 32 bits, strings and keys without zero bytes, and no key twice. -/
mutual
def Plain : JsonValue F → Prop
  | .null => True
  | .boolean _ => True
  | .integer val => FitsInt val
  | .double _ => False
  | .string val => 0 ∉ val
  | .array content => ValuesPlain content
  | .object content => (keysOf content).Nodup ∧ EntriesPlain content

def ValuesPlain : List (JsonValue F) → Prop
  | [] => True
  | val :: rest => Plain val ∧ ValuesPlain rest

def EntriesPlain : List (Bytes × JsonValue F) → Prop
  | [] => True
  | (key,val) :: rest => 0 ∉ key ∧ Plain val ∧ EntriesPlain rest
end

end

/- What follows a value: it ends a word, and is parsed alike. -/
structure Follows (content other js ks : Bytes) : Prop where
  stops : primitiveLength js = .ok 0
  stops' : primitiveLength ks = .ok 0
  alike : Alike content other js ks

/- Two texts of the same, whatever they stand in and whatever follows. -/
def Spells (text written : Bytes) : Prop :=
  ∀ content other js ks, Follows content other js ks → Alike content other (text ++ js) (written ++ ks)

theorem blankStops (ks : Bytes) : primitiveLength (blank :: ks) = .ok 0 := by
  rw [primitiveLength,if_pos (.inr (.inl (by decide)))]

theorem wordSpells {word : Bytes} (proper : word ≠ []) (chars : ∀ c ∈ word, WordChar c) : Spells word word :=
  fun _ _ _ _ follows => alikeWord follows.alike proper chars follows.stops follows.stops'

theorem stringSpells {val : Bytes} (proper : 0 ∉ val) : Spells (quoted val) (escaped val true) :=
  fun _ _ _ _ follows => alikeString follows.alike escapedByteEscapes switchEscapes proper

/- Brackets around members, with blanks inside of them in the second text. -/
theorem closedSpells {left right : UInt8} {inner written : Bytes} (ends : Delimiter right)
    (opens : ∀ content other js ks, Alike content other js ks → Alike content other (left :: js) (left :: ks))
    (closes : ∀ content other js ks, Alike content other js ks → Alike content other (right :: js) (right :: ks))
    (members : Spells inner written) : Spells (left :: (inner ++ [right])) ([left,blank] ++ written ++ [blank,right]) := by
  intro content other js ks follows
  have after : Follows content other (right :: js) (blank :: right :: ks) :=
    ⟨delimiterStops ends js,blankStops _,alikeBlank (closes _ _ _ _ follows.alike)⟩
  have whole := opens _ _ _ _ (alikeBlank (members _ _ _ _ after))
  simpa using whole

/- One member more, with separators if it is not the last one. -/
theorem consSpells {head written tail others : Bytes} {last : Bool} (none : last = true → tail = [] ∧ others = [])
    (first : Spells head written) (rest : Spells tail others) :
    Spells (head ++ ((if last then [] else [comma]) ++ tail)) (written ++ (if last then [] else [comma,blank]) ++ others) := by
  intro content other js ks follows
  cases last with
  | true =>
    obtain ⟨rfl,rfl⟩ := none rfl
    simpa using first _ _ _ _ follows
  | false =>
    have behind := rest _ _ _ _ follows
    have after : Follows content other (comma :: (tail ++ js)) (comma :: blank :: (others ++ ks)) :=
      ⟨delimiterStops (.inl rfl) _,delimiterStops (.inl rfl) _,alikeComma (alikeBlank behind)⟩
    simpa using first _ _ _ _ after

theorem colonStops (rest : Bytes) : primitiveLength (colon :: rest) = .ok 0 := by
  rw [primitiveLength,if_pos (.inr (.inr (by decide)))]

theorem entrySpells {name label head written : Bytes} (key : Spells name label) (first : Spells head written) :
    Spells (name ++ colon :: head) (label ++ [colon,blank] ++ written) := by
  intro content other js ks follows
  have behind := first _ _ _ _ follows
  have after : Follows content other (colon :: (head ++ js)) (colon :: blank :: (written ++ ks)) :=
    ⟨colonStops _,colonStops _,alikeColon (alikeBlank behind)⟩
  simpa using key _ _ _ _ after

section
variable {F : Type} (to_string : F → Bytes)

theorem itemsShape (item : Json) (items : Items) :
    itemsText [] (.cons item items) =
      text item ++ ((if (itemsValue items : List (JsonValue F)).isEmpty then [] else [comma]) ++ itemsText [] items) := by
  cases items <;> simp [itemsText,itemsValue]

theorem fieldsShape (key : Text) (val : Json) (fields : Fields) :
    fieldsText [] (.cons key val fields) =
      quoted key.val ++ colon :: text val ++ ((if (keys fields).isEmpty then [] else [comma]) ++ fieldsText [] fields) := by
  cases fields <;> simp [fieldsText,keys]

theorem itemsNone {items : Items} (none : (itemsValue items : List (JsonValue F)) = []) : items = .nil := by
  cases items with
  | nil => rfl
  | cons item rest => cases none

/- Each value is that of a tree, whose text it spells. -/
mutual
theorem valueSpells (v : JsonValue F) (plain : Plain v) :
    ∃ tree, value tree = v ∧ AllFit tree ∧ Spells (text tree) (toString to_string v) := by
  match v with
  | .null => exact ⟨.null,rfl,trivial,wordSpells (by decide) nullChars⟩
  | .boolean val => exact ⟨.boolean val,rfl,trivial,wordSpells (by cases val <;> decide) (wordChars val)⟩
  | .integer val => exact ⟨.integer val,rfl,plain,wordSpells (decimalProper val) (decimalChars val)⟩
  | .double _ => exact plain.elim
  | .string val => exact ⟨.string ⟨val,plain⟩,rfl,trivial,stringSpells plain⟩
  | .array content =>
    obtain ⟨items,same,fit,members⟩ := valuesSpell content plain
    exact ⟨.array items,congrArg JsonValue.array same,fit,
      closedSpells (.inr (.inl rfl)) (fun _ _ _ _ => alikeLeftBracket) (fun _ _ _ _ => alikeRightBracket) members⟩
  | .object content =>
    obtain ⟨once,each⟩ := plain
    obtain ⟨fields,same,names,fit,members⟩ := entriesSpell content once each
    exact ⟨.object fields,congrArg JsonValue.object same,fit,
      closedSpells (.inr (.inr rfl)) (fun _ _ _ _ => alikeLeftBrace) (fun _ _ _ _ => alikeRightBrace) members⟩

theorem valuesSpell (vs : List (JsonValue F)) (plain : ValuesPlain vs) :
    ∃ items, itemsValue items = vs ∧ ItemsAllFit items ∧ Spells (itemsText [] items) (valuesString to_string vs) := by
  match vs with
  | [] => exact ⟨.nil,rfl,trivial,fun _ _ _ _ follows => follows.alike⟩
  | v :: rest =>
    obtain ⟨item,rfl,fit,first⟩ := valueSpells v plain.1
    obtain ⟨items,rfl,fits,others⟩ := valuesSpell rest plain.2
    refine ⟨.cons item items,rfl,⟨fit,fits⟩,?_⟩
    rw [itemsShape (F := F)]
    refine consSpells (fun last => ?_) first others
    have none := List.isEmpty_iff.mp last
    rw [none,itemsNone none]
    exact ⟨rfl,rfl⟩

theorem entriesSpell (es : List (Bytes × JsonValue F)) (once : (keysOf es).Nodup) (plain : EntriesPlain es) :
    ∃ fields, fieldsValue fields = es ∧ keys fields = keysOf es ∧ FieldsAllFit fields ∧
      Spells (fieldsText [] fields) (entriesString to_string es) := by
  match es with
  | [] => exact ⟨.nil,rfl,rfl,trivial,fun _ _ _ _ follows => follows.alike⟩
  | (key,v) :: rest =>
    obtain ⟨proper,here,later⟩ := plain
    obtain ⟨apart,distinct⟩ := List.nodup_cons.mp once
    obtain ⟨val,rfl,fit,first⟩ := valueSpells v here
    obtain ⟨fields,rfl,names,fits,others⟩ := entriesSpell rest distinct later
    have fresh : key ∉ keys fields := by
      rw [names]
      exact apart
    refine ⟨.cons ⟨key,proper⟩ val fields,?_,?_,⟨fit,fits⟩,?_⟩
    · rw [fieldsValue,if_neg (by simpa using fresh)]
    · rw [keys,names]
      rfl
    · have empty : (fieldsValue fields : List (Bytes × JsonValue F)).isEmpty = (keys fields).isEmpty := by
        rw [names,keysOf,List.isEmpty_map]
      rw [fieldsShape,entriesString,empty]
      refine consSpells (fun last => ?_) (entrySpells (stringSpells proper) first) others
      have none := List.isEmpty_iff.mp last
      have nothing : fields = .nil := by
        cases fields with
        | nil => rfl
        | cons => cases none
      rw [nothing]
      exact ⟨rfl,rfl⟩
end

variable (stod : Bytes → Except StdError F)

/- Any value can be read back from its text. -/
theorem valueBack (v : JsonValue F) (plain : Plain v) : ∃ toks, jsmnParse (toString to_string v) = .ok toks ∧
    getValueFromIter stod (toString to_string v) toks = .ok (v,toks.length) := by
  obtain ⟨tree,same,fit,spells⟩ := valueSpells to_string v plain
  have alike := spells (text tree) (toString to_string v) [] [] ⟨rfl,rfl,alikeEnd⟩
  rw [List.append_nil,List.append_nil] at alike
  obtain ⟨r,parsed,tokens⟩ := (okMap _ _ _).mp (jsmnParseText tree)
  obtain ⟨s,parsed',twins⟩ := alike 0 0 {} {} rfl rfl ⟨.nil,rfl⟩ r parsed
  have start : (text tree).drop 0 = text tree ++ [] := (List.append_nil _).symm
  have found := valueRead stod tree 0 [] s.tokens [] start (tokens ▸ twins.tokens)
  refine ⟨s.tokens,by rw [jsmnParse,parsed']; rfl,?_⟩
  rw [List.append_nil] at found
  rw [found,(meaningOk tree v).mpr ⟨fit,same.symm⟩]
  rfl

theorem emptyRead (content : Bytes) : getValueFromIter stod content [] = .error .json := by rw [getValueFromIter]

/- A primitive is no container. -/
theorem primitiveScalar (val : Bytes) {v : JsonValue F} (read : getValuePrimitive stod val = .ok v) :
    (∀ entries, v ≠ .object entries) ∧ ∀ content, v ≠ .array content := by
  unfold getValuePrimitive at read
  dsimp only at read
  split at read
  · rename_i number
    cases read
    split at number
    all_goals
      obtain ⟨_,_,rfl⟩ := (okMap _ _ _).mp number
      exact ⟨nofun,nofun⟩
  · cases read
  · split at read
    · cases read
      exact ⟨nofun,nofun⟩
    · split at read <;> cases read <;> exact ⟨nofun,nofun⟩

/- A container comes from a token of its type. -/
theorem frontType {content : Bytes} {toks : List Token} {v : JsonValue F} {count : Nat}
    (found : getValueFromIter stod content toks = .ok (v,count)) : ∃ tok rest, toks = tok :: rest ∧
      (∀ entries, v = .object entries → tok.type = .object) ∧ ∀ values, v = .array values → tok.type = .array := by
  cases toks with
  | nil =>
    rw [emptyRead] at found
    cases found
  | cons tok rest =>
    refine ⟨tok,rest,rfl,?_⟩
    cases kind : tok.type with
    | object =>
      rw [iterObject stod content tok rest kind] at found
      obtain ⟨_,_,same⟩ := (okMap _ _ _).mp found
      cases same
      exact ⟨fun _ _ => rfl,nofun⟩
    | array =>
      rw [iterArray stod content tok rest kind] at found
      obtain ⟨_,_,same⟩ := (okMap _ _ _).mp found
      cases same
      exact ⟨nofun,fun _ _ => rfl⟩
    | primitive =>
      rw [iterPrimitive stod content tok rest kind] at found
      obtain ⟨_,read,same⟩ := (okMap _ _ _).mp found
      cases same
      have scalar := primitiveScalar stod _ read
      exact ⟨fun entries container => absurd container (scalar.1 entries),fun values container => absurd container (scalar.2 values)⟩
    | string =>
      rw [iterString stod content tok rest kind] at found
      cases found
      exact ⟨nofun,nofun⟩

theorem objectRead {content : Bytes} {toks : List Token} (parsed : jsmnParse content = .ok toks)
    {entries : List (Bytes × JsonValue F)} {count : Nat}
    (found : getValueFromIter stod content toks = .ok (.object entries,count)) : toObject stod content = .ok entries := by
  obtain ⟨tok,rest,rfl,object,_⟩ := frontType stod found
  have kind := object entries rfl
  rw [iterObject stod content tok rest kind] at found
  obtain ⟨_,pushed,same⟩ := (okMap _ _ _).mp found
  cases same
  simp only [toObject,frontToken,parsed,bind,Except.bind,kind,if_true,pushed]
  rfl

theorem arrayRead {content : Bytes} {toks : List Token} (parsed : jsmnParse content = .ok toks)
    {values : List (JsonValue F)} {count : Nat}
    (found : getValueFromIter stod content toks = .ok (.array values,count)) : toArray stod content = .ok values := by
  obtain ⟨tok,rest,rfl,_,array⟩ := frontType stod found
  have kind := array values rfl
  rw [iterArray stod content tok rest kind] at found
  obtain ⟨_,pushed,same⟩ := (okMap _ _ _).mp found
  cases same
  simp only [toArray,frontToken,parsed,bind,Except.bind,kind,if_true,pushed]
  rfl

/- Whatever is written is read back as it was, and so is every string from its escapes. -/
theorem toStringBack :
    (∀ v : JsonValue F, Plain v → ∃ toks, jsmnParse (toString to_string v) = .ok toks ∧
      getValueFromIter stod (toString to_string v) toks = .ok (v,toks.length)) ∧
    (∀ entries : List (Bytes × JsonValue F), Plain (.object entries) →
      toObject stod (toString to_string (.object entries)) = .ok entries) ∧
    (∀ values : List (JsonValue F), Plain (.array values) → toArray stod (toString to_string (.array values)) = .ok values) ∧
    ∀ str : Bytes, 0 ∉ str → unescaped (escaped str false) = str := by
  refine ⟨valueBack to_string stod,fun entries plain => ?_,fun values plain => ?_,escapedBack⟩
  · obtain ⟨_,parsed,found⟩ := valueBack to_string stod _ plain
    exact objectRead stod parsed found
  · obtain ⟨_,parsed,found⟩ := valueBack to_string stod _ plain
    exact arrayRead stod parsed found

end

/- A key with a slash and a line feed, and under it a string of a quote, a backslash and bytes above
127 beside a nested array. -/
theorem toStringBackNested :
    toObject (fun _ => (.error .invalidArgument : Except StdError Unit)) (toString (fun _ : Unit => [])
      (.object [([0x2F,0x0A],.array [.string [quote,backslash,0xD0,0xB0],.array [.null,.integer (-2 ^ 31)]])])) =
        .ok [([0x2F,0x0A],.array [.string [quote,backslash,0xD0,0xB0],.array [.null,.integer (-2 ^ 31)]])] := by
  have text : Plain (.string [quote,backslash,0xD0,0xB0] : JsonValue Unit) := show _ ∉ _ by decide
  have least : Plain (.integer (-2 ^ 31) : JsonValue Unit) := show FitsInt _ by decide
  exact (toStringBack _ _).2.1 _ ⟨by decide,by decide,⟨text,⟨trivial,least,trivial⟩,trivial⟩,trivial⟩

end Ltsm.JsonToString
