import Ltsm.JsonStreams

/-! The text behind a flush, as the text of a tree: an object or array text that was pushed
into an array is spelt there as the numbers of its characters. The tokens of a tree are
those of its text. -/
namespace Ltsm.JsonTexts
open Library JsonTokens JsonContent JsonStreams

def escapedText (val : Bytes) : Bytes := val.flatMap escapedByte

mutual
def text : Json → Bytes
  | .null => nullText
  | .boolean val => if val then trueText else falseText
  | .integer val => decimal val
  | .string val => quoted val.val
  | .array items => leftBracket :: (itemsText [] items ++ [rightBracket])
  | .object fields => leftBrace :: (fieldsText [] fields ++ [rightBrace])

/- The separator stands before the first one here, a comma before those behind it. -/
def itemsText (sep : Bytes) : Items → Bytes
  | .nil => []
  | .cons item rest => sep ++ (text item ++ itemsText [comma] rest)

def fieldsText (sep : Bytes) : Fields → Bytes
  | .nil => []
  | .cons key value rest => sep ++ (quoted key.val ++ colon :: (text value ++ fieldsText [comma] rest))
end

def charItems : Bytes → Items → Items
  | [], rest => rest
  | c :: text, rest => .cons (.integer (charInt c)) (charItems text rest)

mutual
def spelt : Json → Json
  | .null => .null
  | .boolean val => .boolean val
  | .integer val => .integer val
  | .string val => .string val
  | .array items => .array (speltItems items)
  | .object fields => .object (speltFields fields)

def speltItems : Items → Items
  | .nil => .nil
  | .cons item rest =>
    match pushed item with
    | .plain text => charItems text (speltItems rest)
    | _ => .cons item (speltItems rest)

def speltFields : Fields → Fields
  | .nil => .nil
  | .cons key value rest => .cons key (spelt value) (speltFields rest)
end

def countItems : Items → Nat
  | .nil => 0
  | .cons _ rest => countItems rest + 1

def countFields : Fields → Nat
  | .nil => 0
  | .cons _ _ rest => countFields rest + 1

def primitiveToken (pos : Nat) (word : Bytes) : Token := ⟨.primitive,pos,some (pos + word.length),0⟩

/- Between the quotes. -/
def textToken (pos : Nat) (val : Bytes) (size : Nat) : Token :=
  ⟨.string,pos + 1,some (pos + 1 + (escapedText val).length),size⟩

mutual
def tokens (pos : Nat) : Json → List Token
  | .null => [primitiveToken pos nullText]
  | .boolean val => [primitiveToken pos (if val then trueText else falseText)]
  | .integer val => [primitiveToken pos (decimal val)]
  | .string val => [textToken pos val.val 0]
  | .array items =>
    ⟨.array,pos,some (pos + (itemsText [] items).length + 2),countItems items⟩ :: itemsTokens (pos + 1) [] items
  | .object fields =>
    ⟨.object,pos,some (pos + (fieldsText [] fields).length + 2),countFields fields⟩ :: fieldsTokens (pos + 1) [] fields

def itemsTokens (pos : Nat) (sep : Bytes) : Items → List Token
  | .nil => []
  | .cons item rest =>
    tokens (pos + sep.length) item ++ itemsTokens (pos + sep.length + (text item).length) [comma] rest

def fieldsTokens (pos : Nat) (sep : Bytes) : Fields → List Token
  | .nil => []
  | .cons key value rest =>
    textToken (pos + sep.length) key.val 1 ::
      (tokens (pos + sep.length + (quoted key.val).length + 1) value ++
        fieldsTokens (pos + sep.length + (quoted key.val).length + 1 + (text value).length) [comma] rest)
end

theorem charsText (chars : Bytes) (rest : Items) :
    itemsText [comma] (charItems chars rest) =
      itemsText [comma] (charItems chars .nil) ++ itemsText [comma] rest := by
  induction chars with
  | nil => simp [charItems,itemsText]
  | cons c chars ih => simp [charItems,itemsText,ih]

theorem pushChars (s : Stream) (chars : Bytes) :
    (chars.foldl (fun s c => JsonArrayStream.pushScalar s (decimal (charInt c))) s).os =
      s.os ++ itemsText (separator s) (charItems chars .nil) := by
  induction chars generalizing s with
  | nil => simp [charItems,itemsText]
  | cons c chars ih =>
    rw [List.foldl_cons,ih]
    simp [JsonArrayStream.pushScalar,separator,charItems,itemsText,text]

theorem pushPlain (s : Stream) (plain : Bytes) (rest : Items) (proper : plain ≠ []) :
    (JsonArrayStream.push s (.plain plain)).os ++ itemsText [comma] rest =
      s.os ++ itemsText (separator s) (charItems plain rest) := by
  cases plain with
  | nil => exact absurd rfl proper
  | cons c chars =>
    have chain := pushChars ⟨s.os ++ separator s,false⟩ (c :: chars)
    rw [JsonArrayStream.push,chain]
    simp [separator,charItems,itemsText,charsText chars rest]

theorem pushComma (s : Stream) (val : Pushed) : (JsonArrayStream.push s val).comma = true := by
  cases val <;> rfl

/- What stands in the streams is the text of the spelt tree. -/
mutual
theorem pushedText (value : Json) : (pushed value).text = text (spelt value) := by
  match value with
  | .null => rfl
  | .boolean _ => rfl
  | .integer _ => rfl
  | .string _ => rfl
  | .array items =>
    rw [pushed,Pushed.text,JsonArrayStream.flush,pushItemsText]
    simp [JsonArrayStream.start,spelt,text,separator]
  | .object fields =>
    rw [pushed,Pushed.text,JsonObjectStream.flush,pushFieldsText]
    simp [JsonObjectStream.start,spelt,text,separator]

theorem pushItemsText (s : Stream) (items : Items) :
    (pushItems s items).os = s.os ++ itemsText (separator s) (speltItems items) := by
  match items with
  | .nil => simp [pushItems,speltItems,itemsText]
  | .cons item rest =>
    have more := pushItemsText (JsonArrayStream.push s (pushed item)) rest
    have follows : separator (JsonArrayStream.push s (pushed item)) = [comma] := by simp [separator,pushComma]
    rw [pushItems,more,follows,speltItems]
    cases item with
    | null => simp [pushed,JsonArrayStream.push,JsonArrayStream.pushScalar,itemsText,text,Pushed.text]
    | boolean val => simp [pushed,JsonArrayStream.push,JsonArrayStream.pushScalar,itemsText,text,Pushed.text]
    | integer val => simp [pushed,JsonArrayStream.push,JsonArrayStream.pushScalar,itemsText,text,Pushed.text]
    | string val => simp [pushed,JsonArrayStream.push,JsonArrayStream.pushScalar,itemsText,text,Pushed.text]
    | array items => exact pushPlain s _ _ (by simp [JsonArrayStream.flush])
    | object fields => exact pushPlain s _ _ (by simp [JsonObjectStream.flush])

theorem pushFieldsText (s : Stream) (fields : Fields) :
    (pushFields s fields).os = s.os ++ fieldsText (separator s) (speltFields fields) := by
  match fields with
  | .nil => simp [pushFields,speltFields,fieldsText]
  | .cons key value rest =>
    rw [pushFields,pushFieldsText,speltFields,fieldsText,JsonObjectStream.push,pushedText value]
    simp [separator]
end

theorem arrayFlush (items : Items) :
    JsonArrayStream.flush (pushItems JsonArrayStream.start items) = text (.array (speltItems items)) :=
  pushedText (.array items)

theorem objectFlush (fields : Fields) :
    JsonObjectStream.flush (pushFields JsonObjectStream.start fields) = text (.object (speltFields fields)) :=
  pushedText (.object fields)

end Ltsm.JsonTexts
