import Ltsm.JsonLayouts

/-! A flushed stream read back. The reader finds the tree that the text spells if every
number of it fits an int; it is the tree that was pushed if no text went into an array. -/
namespace Ltsm.JsonRoundTrip
open Library JsonTokens JsonContent JsonStreams JsonTexts JsonParses JsonScalars JsonLayouts

def keys : Fields → List Bytes
  | .nil => []
  | .cons key _ rest => key.val :: keys rest

section
variable {F : Type}

/- What was pushed. Of the values under one key the object has the last. -/
mutual
def value : Json → JsonValue F
  | .null => .null
  | .boolean val => .boolean val
  | .integer val => .integer val
  | .string val => .string val.val
  | .array items => .array (itemsValue items)
  | .object fields => .object (fieldsValue fields)

def itemsValue : Items → List (JsonValue F)
  | .nil => []
  | .cons item rest => value item :: itemsValue rest

def fieldsValue : Fields → List (Bytes × JsonValue F)
  | .nil => []
  | .cons key val rest => if (keys rest).contains key.val then fieldsValue rest else (key.val,value val) :: fieldsValue rest
end

/- What the reader makes of a tree. -/
mutual
def meaning : Json → Except JsonError (JsonValue F)
  | .null => .ok .null
  | .boolean val => .ok (.boolean val)
  | .integer val => if FitsInt val then .ok (.integer val) else .error (.std .outOfRange)
  | .string val => .ok (.string val.val)
  | .array items => (itemsMeaning items).map .array
  | .object fields => (fieldsMeaning [] fields).map .object

def itemsMeaning : Items → Except JsonError (List (JsonValue F))
  | .nil => .ok []
  | .cons item rest => do
    let val ← meaning item
    let values ← itemsMeaning rest
    .ok (val :: values)

def fieldsMeaning (entries : List (Bytes × JsonValue F)) : Fields → Except JsonError (List (Bytes × JsonValue F))
  | .nil => .ok entries
  | .cons key val rest => do
    let val ← meaning val
    fieldsMeaning (putEntry key.val val entries) rest
end

/- The number is the int that it is. -/
mutual
def AllFit : Json → Prop
  | .null => True
  | .boolean _ => True
  | .integer val => FitsInt val
  | .string _ => True
  | .array items => ItemsAllFit items
  | .object fields => FieldsAllFit fields

def ItemsAllFit : Items → Prop
  | .nil => True
  | .cons item rest => AllFit item ∧ ItemsAllFit rest

def FieldsAllFit : Fields → Prop
  | .nil => True
  | .cons _ val rest => AllFit val ∧ FieldsAllFit rest
end

variable (stod : Bytes → Except StdError F) (content : Bytes)

/- The reader on a token, by its type. -/
section
variable (tok : Token) (rest : List Token)

theorem iterPrimitive (kind : tok.type = .primitive) : getValueFromIter stod content (tok :: rest) =
    (getValuePrimitive stod (stringToken content tok)).map fun val => (val,1) := by
  rw [getValueFromIter]
  simp only [kind]
  cases getValuePrimitive stod (stringToken content tok) <;> rfl

theorem iterString (kind : tok.type = .string) : getValueFromIter stod content (tok :: rest) =
    .ok (.string (unescaped (stringToken content tok)),1) := by
  rw [getValueFromIter]
  simp only [kind]

theorem iterArray (kind : tok.type = .array) : getValueFromIter stod content (tok :: rest) =
    (pushValuesToArray stod content tok.size rest []).map fun found => (.array found.1,found.2 + 1) := by
  rw [getValueFromIter]
  simp only [kind]
  cases pushValuesToArray stod content tok.size rest [] <;> rfl

theorem iterObject (kind : tok.type = .object) : getValueFromIter stod content (tok :: rest) =
    (pushValuesToObject stod content tok.size rest []).map fun found => (.object found.1,found.2 + 1) := by
  rw [getValueFromIter]
  simp only [kind]
  cases pushValuesToObject stod content tok.size rest [] <;> rfl

end

theorem tokensProper (pos : Nat) (tree : Json) : tokens pos tree ≠ [] := by
  cases tree <;> simp [tokens]

/- What the reader sees of the tokens of a tree gives the meaning of the tree. -/
section
variable {content} {other : Bytes}

theorem wordRead {pos : Nat} {word post : Bytes} {it : List Token} (there : content.drop pos = word ++ post)
    (twins : List.Forall₂ (Twin content other) [primitiveToken pos word] it) (more : List Token) :
    getValueFromIter stod other (it ++ more) = (getValuePrimitive stod word).map fun val => (val,it.length) := by
  obtain ⟨tok,_,here,behind,rfl⟩ := List.forall₂_cons_left_iff.mp twins
  cases behind
  rw [List.singleton_append,iterPrimitive stod other _ _ here.type,here.word rfl,primitiveTokenText content pos word post there]
  rfl

mutual
theorem valueRead (tree : Json) (pos : Nat) (post : Bytes) (it more : List Token)
    (there : content.drop pos = text tree ++ post) (twins : List.Forall₂ (Twin content other) (tokens pos tree) it) :
    getValueFromIter stod other (it ++ more) = (meaning tree).map fun val => (val,it.length) := by
  match tree with
  | .null =>
    rw [wordRead stod there twins,text,readNull]
    rfl
  | .boolean val =>
    rw [wordRead stod there twins,text,readBoolean]
    rfl
  | .integer val =>
    rw [wordRead stod there twins,text,readInteger]
    rfl
  | .string val =>
    obtain ⟨tok,_,here,behind,rfl⟩ := List.forall₂_cons_left_iff.mp twins
    cases behind
    have inner := textTokenText content pos 0 val.val post there
    rw [List.singleton_append,iterString stod other _ _ here.type,here.string rfl,inner,unescapedEscaped]
    rfl
  | .array items =>
    obtain ⟨tok,members,here,behind,rfl⟩ := List.forall₂_cons_left_iff.mp twins
    have inside : content.drop (pos + 1) = itemsText [] items ++ rightBracket :: post := by
      rw [← List.drop_drop,there]
      simp [text]
    rw [List.cons_append,iterArray stod other _ _ here.type,here.size,
      itemsRead items (pos + 1) [] _ members more [] inside behind,meaning]
    cases itemsMeaning items <;> rfl
  | .object fields =>
    obtain ⟨tok,members,here,behind,rfl⟩ := List.forall₂_cons_left_iff.mp twins
    have inside : content.drop (pos + 1) = fieldsText [] fields ++ rightBrace :: post := by
      rw [← List.drop_drop,there]
      simp [text]
    rw [List.cons_append,iterObject stod other _ _ here.type,here.size,
      fieldsRead fields (pos + 1) [] _ members more [] inside behind,meaning]
    cases fieldsMeaning [] fields <;> rfl

theorem itemsRead (items : Items) (pos : Nat) (sep post : Bytes) (it more : List Token) (values : List (JsonValue F))
    (there : content.drop pos = itemsText sep items ++ post)
    (twins : List.Forall₂ (Twin content other) (itemsTokens pos sep items) it) :
    pushValuesToArray stod other (countItems items) (it ++ more) values =
      (itemsMeaning items).map fun found => (values ++ found,it.length) := by
  match items with
  | .nil =>
    cases twins
    rw [countItems,pushValuesToArray]
    simp [itemsMeaning,Except.map]
  | .cons item rest =>
    rw [itemsText,List.append_assoc,List.append_assoc] at there
    have first := dropBehind content there
    obtain ⟨front,back,rfl,here,behind⟩ := splitTwins twins
    have one := valueRead item (pos + sep.length) _ front (back ++ more) first here
    have tail := fun val => itemsRead rest _ [comma] post back more (values ++ [val]) (dropBehind content first) behind
    have proper : front ≠ [] := fun none => tokensProper (pos + sep.length) item (List.forall₂_nil_right_iff.mp (none ▸ here))
    rw [countItems,pushValuesToArray,List.append_assoc,if_neg (by simp [proper]),one,itemsMeaning]
    cases meaning item with
    | error e => rfl
    | ok val =>
      simp only [Except.map,bind,Except.bind,List.drop_left,tail val]
      cases itemsMeaning rest with
      | error e => rfl
      | ok found => simp

theorem fieldsRead (fields : Fields) (pos : Nat) (sep post : Bytes) (it more : List Token)
    (entries : List (Bytes × JsonValue F)) (there : content.drop pos = fieldsText sep fields ++ post)
    (twins : List.Forall₂ (Twin content other) (fieldsTokens pos sep fields) it) :
    pushValuesToObject stod other (countFields fields) (it ++ more) entries =
      (fieldsMeaning entries fields).map fun found => (found,it.length) := by
  match fields with
  | .nil =>
    cases twins
    rw [countFields,pushValuesToObject]
    simp [fieldsMeaning,Except.map]
  | .cons key val rest =>
    rw [fieldsText,List.append_assoc,List.append_assoc] at there
    have first := dropBehind content there
    have second : content.drop (pos + sep.length + (quoted key.val).length + 1) =
        text val ++ (fieldsText [comma] rest ++ post) := by
      rw [← List.drop_drop,dropBehind content first]
      simp
    obtain ⟨tok,_,named,others,rfl⟩ := List.forall₂_cons_left_iff.mp twins
    obtain ⟨front,back,rfl,here,behind⟩ := splitTwins others
    have name := (named.string rfl).trans (congrArg unescaped (textTokenText content (pos + sep.length) 1 key.val _ first))
    have one := valueRead val _ _ front (back ++ more) second here
    have tail := fun read => fieldsRead rest _ [comma] post back more (putEntry key.val read entries)
      (dropBehind content second) behind
    have proper : front ≠ [] := fun none => tokensProper _ val (List.forall₂_nil_right_iff.mp (none ▸ here))
    rw [countFields,List.cons_append,List.append_assoc,pushValuesToObject,if_neg (by simp [proper]),one,
      name,unescapedEscaped,fieldsMeaning]
    cases meaning val with
    | error e => rfl
    | ok read =>
      simp only [Except.map,bind,Except.bind,List.drop_left,tail read]
      cases fieldsMeaning (putEntry key.val read entries) rest with
      | error e => rfl
      | ok found => simp
end

end

/- An entry goes out when its key comes again. -/
theorem putFilter (key : Bytes) (val : JsonValue F) (entries : List (Bytes × JsonValue F)) (names : List Bytes) :
    (putEntry key val entries).filter (·.1 ∉ names) =
      entries.filter (·.1 ∉ key :: names) ++ if key ∈ names then [] else [(key,val)] := by
  rw [putEntry,List.filter_append,List.filter_filter]
  congr 1
  · refine List.filter_congr fun entry _ => ?_
    simp [Bool.and_comm]
  · by_cases mem : key ∈ names <;> simp [mem]

mutual
theorem meaningOk (tree : Json) (val : JsonValue F) : meaning tree = .ok val ↔ AllFit tree ∧ val = value tree := by
  match tree with
  | .null => simp [meaning,AllFit,value,eq_comm (a := val)]
  | .boolean _ => simp [meaning,AllFit,value,eq_comm (a := val)]
  | .integer n => by_cases fits : FitsInt n <;> simp [meaning,AllFit,value,fits,eq_comm (a := val)]
  | .string _ => simp [meaning,AllFit,value,eq_comm (a := val)]
  | .array items => simp [meaning,okMap,AllFit,value,itemsMeaningOk items,eq_comm (a := val)]
  | .object fields => simp [meaning,okMap,AllFit,value,fieldsMeaningOk fields,eq_comm (a := val)]

theorem itemsMeaningOk (items : Items) (values : List (JsonValue F)) :
    itemsMeaning items = .ok values ↔ ItemsAllFit items ∧ values = itemsValue items := by
  match items with
  | .nil =>
    simp [itemsMeaning,ItemsAllFit,itemsValue]
  | .cons item rest =>
    simp [itemsMeaning,okBind,ItemsAllFit,itemsValue,meaningOk item,itemsMeaningOk rest,and_assoc,eq_comm (a := values)]

theorem fieldsMeaningOk (fields : Fields) (entries found : List (Bytes × JsonValue F)) :
    fieldsMeaning entries fields = .ok found ↔
      FieldsAllFit fields ∧ found = entries.filter (·.1 ∉ keys fields) ++ fieldsValue fields := by
  match fields with
  | .nil => simp [fieldsMeaning,FieldsAllFit,fieldsValue,keys,eq_comm (a := found)]
  | .cons key val rest =>
    simp only [fieldsMeaning,okBind,FieldsAllFit,fieldsValue,keys,meaningOk val,fieldsMeaningOk rest,putFilter]
    by_cases again : key.val ∈ keys rest <;> simp [again,and_assoc]
end

/- An array or object. -/
def composed : Json → Bool
  | .array _ => true
  | .object _ => true
  | _ => false

def scalarFits : Json → Prop
  | .integer val => FitsInt val
  | _ => True

/- The items of the array that stay single values. -/
def ItemsFit : Items → Prop
  | .nil => True
  | .cons item rest => scalarFits item ∧ ItemsFit rest

def ItemsClean : Items → Prop
  | .nil => True
  | .cons item rest => composed item = false ∧ ItemsClean rest

/- The integers that stand in the text as they were pushed fit. -/
mutual
def Fits : Json → Prop
  | .integer val => FitsInt val
  | .array items => ItemsFit items
  | .object fields => FieldsFit fields
  | _ => True

def FieldsFit : Fields → Prop
  | .nil => True
  | .cons _ val rest => Fits val ∧ FieldsFit rest
end

/- No array or object was pushed into an array, but below a key that was pushed again. -/
mutual
def Clean : Json → Prop
  | .array items => ItemsClean items
  | .object fields => FieldsClean fields
  | _ => True

def FieldsClean : Fields → Prop
  | .nil => True
  | .cons key val rest => (key.val ∈ keys rest ∨ Clean val) ∧ FieldsClean rest
end

theorem charFits (c : UInt8) : FitsInt (charInt c) := by
  have low := c.toInt8.le_toInt
  have high := c.toInt8.toInt_lt
  simp only [FitsInt,charInt]
  omega

theorem charItemsFit (chars : Bytes) (rest : Items) : ItemsAllFit (charItems chars rest) ↔ ItemsAllFit rest := by
  induction chars with
  | nil => rfl
  | cons c chars ih => simp [charItems,ItemsAllFit,AllFit,charFits,ih]

theorem itemsSpeltFit (items : Items) : ItemsAllFit (speltItems items) ↔ ItemsFit items := by
  match items with
  | .nil => rfl
  | .cons item rest =>
    have tail := itemsSpeltFit rest
    cases item <;> simp [speltItems,pushed,ItemsAllFit,ItemsFit,scalarFits,AllFit,charItemsFit,tail]

mutual
theorem speltFit (tree : Json) : AllFit (spelt tree) ↔ Fits tree := by
  match tree with
  | .null => rfl
  | .boolean _ => rfl
  | .integer _ => rfl
  | .string _ => rfl
  | .array items => exact itemsSpeltFit items
  | .object fields => exact fieldsSpeltFit fields

theorem fieldsSpeltFit (fields : Fields) : FieldsAllFit (speltFields fields) ↔ FieldsFit fields := by
  match fields with
  | .nil => rfl
  | .cons key val rest => simp [speltFields,FieldsAllFit,FieldsFit,speltFit val,fieldsSpeltFit rest]
end

theorem countChars (chars : Bytes) (rest : Items) :
    countItems (charItems chars rest) = chars.length + countItems rest := by
  induction chars with
  | nil => simp [charItems]
  | cons c chars ih =>
    simp only [charItems,countItems,ih,List.length_cons]
    omega

/- A text has two brackets: as characters it is more than one item. -/
theorem plainBrackets (tree : Json) (plain : Bytes) (made : pushed tree = .plain plain) : 2 ≤ plain.length := by
  have same := pushedText tree
  rw [made] at same
  change plain = _ at same
  cases tree <;> simp [pushed] at made
  all_goals
    rw [same]
    simp [spelt,text]

theorem speltScalar (item : Json) (rest : Items) (scalar : composed item = false) :
    speltItems (.cons item rest) = .cons item (speltItems rest) := by
  cases item with
  | array _ => cases scalar
  | object _ => cases scalar
  | _ => rfl

theorem speltComposed (item : Json) (rest : Items) (whole : composed item = true) :
    countItems (speltItems rest) + 2 ≤ countItems (speltItems (.cons item rest)) := by
  have made : ∃ plain, pushed item = .plain plain := by
    cases item with
    | array items => exact ⟨_,rfl⟩
    | object fields => exact ⟨_,rfl⟩
    | _ => cases whole
  obtain ⟨plain,made⟩ := made
  have size := plainBrackets item plain made
  simp only [speltItems,made,countChars]
  omega

theorem countSpelt (items : Items) : countItems items ≤ countItems (speltItems items) := by
  match items with
  | .nil => exact le_refl _
  | .cons item rest =>
    have tail := countSpelt rest
    cases kind : composed item with
    | true =>
      have more := speltComposed item rest kind
      rw [countItems]
      omega
    | false =>
      rw [speltScalar item rest kind,countItems,countItems]
      omega

theorem cleanCount (items : Items) (same : countItems (speltItems items) = countItems items) : ItemsClean items := by
  match items with
  | .nil => trivial
  | .cons item rest =>
    have tail := countSpelt rest
    cases kind : composed item with
    | true =>
      have more := speltComposed item rest kind
      rw [same,countItems] at more
      omega
    | false =>
      rw [speltScalar item rest kind,countItems,countItems] at same
      exact ⟨kind,cleanCount rest (by omega)⟩

theorem cleanSpelt (items : Items) (clean : ItemsClean items) : speltItems items = items := by
  match items with
  | .nil => rfl
  | .cons item rest => rw [speltScalar item rest clean.1,cleanSpelt rest clean.2]

theorem itemsValueLength (items : Items) : (itemsValue items : List (JsonValue F)).length = countItems items := by
  match items with
  | .nil => rfl
  | .cons item rest => simp [itemsValue,countItems,itemsValueLength rest]

theorem itemsSpelt (items : Items) :
    (itemsValue (speltItems items) : List (JsonValue F)) = itemsValue items ↔ ItemsClean items := by
  refine ⟨fun same => cleanCount items ?_,fun clean => by rw [cleanSpelt items clean]⟩
  have sizes := congrArg List.length same
  rwa [itemsValueLength,itemsValueLength] at sizes

theorem keysSpelt (fields : Fields) : keys (speltFields fields) = keys fields := by
  match fields with
  | .nil => rfl
  | .cons key val rest => simp [speltFields,keys,keysSpelt rest]

mutual
theorem valueSpelt (tree : Json) : (value (spelt tree) : JsonValue F) = value tree ↔ Clean tree := by
  match tree with
  | .null => simp [spelt,Clean]
  | .boolean _ => simp [spelt,Clean]
  | .integer _ => simp [spelt,Clean]
  | .string _ => simp [spelt,Clean]
  | .array items => simp [spelt,value,Clean,itemsSpelt items]
  | .object fields => simp [spelt,value,Clean,fieldsSpelt fields]

theorem fieldsSpelt (fields : Fields) :
    (fieldsValue (speltFields fields) : List (Bytes × JsonValue F)) = fieldsValue fields ↔ FieldsClean fields := by
  match fields with
  | .nil => simp [speltFields,FieldsClean]
  | .cons key val rest =>
    by_cases again : key.val ∈ keys rest <;>
      simp [speltFields,fieldsValue,FieldsClean,keysSpelt,again,valueSpelt val,fieldsSpelt rest]
end

/- A stream read back. -/
theorem toObjectFlush (fields : Fields) :
    toObject stod (JsonObjectStream.flush (pushFields JsonObjectStream.start fields)) =
      fieldsMeaning [] (speltFields fields) := by
  have parsed := jsmnParseWhole _ (objectParsed (speltFields fields) (fieldsParsed _))
  have inside : (text (.object (speltFields fields))).drop 1 = fieldsText [] (speltFields fields) ++ [rightBrace] := rfl
  have found := fieldsRead stod (speltFields fields) 1 [] _ _ [] [] inside (selfTwins _ _)
  rw [List.append_nil] at found
  rw [objectFlush,toObject,frontToken,parsed]
  simp only [tokens,bind,Except.bind,if_true,found]
  cases fieldsMeaning [] (speltFields fields) <;> rfl

theorem toArrayFlush (items : Items) :
    toArray stod (JsonArrayStream.flush (pushItems JsonArrayStream.start items)) = itemsMeaning (speltItems items) := by
  have parsed := jsmnParseWhole _ (arrayParsed (speltItems items) (itemsParsed _))
  have inside : (text (.array (speltItems items))).drop 1 = itemsText [] (speltItems items) ++ [rightBracket] := rfl
  have found := itemsRead stod (speltItems items) 1 [] _ _ [] [] inside (selfTwins _ _)
  rw [List.append_nil] at found
  rw [arrayFlush,toArray,frontToken,parsed]
  simp only [tokens,bind,Except.bind,if_true,found]
  cases itemsMeaning (speltItems items) <;> rfl

/- A flushed stream is read back as what was pushed exactly if every integer that stands
in it fits an int and no array or object was pushed into an array. -/
theorem streamsReadBack :
    (∀ fields : Fields, toObject stod (JsonObjectStream.flush (pushFields JsonObjectStream.start fields)) =
      .ok (fieldsValue fields) ↔ FieldsFit fields ∧ FieldsClean fields) ∧
    (∀ items : Items, toArray stod (JsonArrayStream.flush (pushItems JsonArrayStream.start items)) =
      .ok (itemsValue items) ↔ ItemsFit items ∧ ItemsClean items) := by
  refine ⟨fun fields => ?_,fun items => ?_⟩
  · rw [toObjectFlush,fieldsMeaningOk,fieldsSpeltFit,List.filter_nil,List.nil_append,eq_comm,fieldsSpelt]
  · rw [toArrayFlush,itemsMeaningOk,itemsSpeltFit,eq_comm,itemsSpelt]

end

/- An empty object in an array comes back as two numbers, and the first number above an int
as an exception. -/
theorem pushesLost :
    toArray (fun _ => (.error .invalidArgument : Except StdError Unit))
      (JsonArrayStream.flush (pushItems JsonArrayStream.start (.cons (.object .nil) .nil))) ≠
        .ok (itemsValue (.cons (.object .nil) .nil)) ∧
    toObject (fun _ => (.error .invalidArgument : Except StdError Unit))
      (JsonObjectStream.flush (pushFields JsonObjectStream.start (.cons ⟨[0x6E],by decide⟩ (.integer (2 ^ 31)) .nil))) ≠
        .ok (fieldsValue (.cons ⟨[0x6E],by decide⟩ (.integer (2 ^ 31)) .nil)) := by
  constructor
  · intro same
    rw [toArrayFlush,itemsMeaningOk] at same
    have clean := (itemsSpelt _).mp same.2.symm
    exact absurd clean.1 (by decide)
  · intro same
    rw [toObjectFlush,fieldsMeaningOk,fieldsSpeltFit] at same
    exact absurd same.1.1 (by simp [Fits,FitsInt])

end Ltsm.JsonRoundTrip
