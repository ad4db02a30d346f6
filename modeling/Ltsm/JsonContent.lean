import Ltsm.JsonTokens

/-! The values of a JSON text, walked out of its tokens. A primitive is a number if the
library reads one at its start, and a number that does not fit is an exception nobody
catches. -/
namespace Ltsm.JsonContent
open Library JsonTokens

/- `F` is the type of the doubles. -/
inductive JsonValue (F : Type)
  | null
  | boolean (val : Bool)
  | integer (val : Int)
  | double (val : F)
  | string (val : Bytes)
  | array (content : List (JsonValue F))
  | object (content : List (Bytes × JsonValue F))

inductive StdError
  | invalidArgument
  | outOfRange
  deriving DecidableEq, Repr

/- What a reading can end in: no tokens or the wrong container, or an exception of a number. -/
inductive JsonError
  | json
  | std (error : StdError)
  deriving DecidableEq, Repr

/- The characters that isspace knows. -/
def isSpace (c : UInt8) : Bool := c = 0x20 || 0x09 ≤ c && c ≤ 0x0D

/- A digit of any base up to 36. -/
def digitValue (c : UInt8) : Option Nat :=
  if 0x30 ≤ c ∧ c ≤ 0x39 then some (c.toNat - 0x30)
  else if 0x41 ≤ c ∧ c ≤ 0x5A then some (c.toNat - 0x41 + 10)
  else if 0x61 ≤ c ∧ c ≤ 0x7A then some (c.toNat - 0x61 + 10)
  else none

def digitOf (base : Nat) (c : UInt8) : Option Nat := (digitValue c).filter (· < base)

/- The digits at the front, if there are any. -/
def numberFrom (base value : Nat) : Bytes → Nat
  | [] => value
  | c :: rest =>
    match digitOf base c with
    | some digit => numberFrom base (value * base + digit) rest
    | none => value

def number (base : Nat) (str : Bytes) : Option Nat :=
  match str with
  | [] => none
  | c :: rest => (digitOf base c).map fun digit => numberFrom base digit rest

/- Base 0 goes by the prefix; `0x` without a digit behind it is a zero. -/
def magnitude (str : Bytes) : Option Nat :=
  match str with
  | [] => none
  | c :: rest =>
    if c = 0x30 then
      match rest with
      | x :: h :: more => if (x = 0x78 ∨ x = 0x58) ∧ (digitOf 16 h).isSome then number 16 (h :: more) else number 8 str
      | _ => number 8 str
    else number 10 str

def strtol (str : Bytes) : Option Int :=
  match str.dropWhile isSpace with
  | [] => none
  | c :: rest =>
    if c = 0x2D then (magnitude rest).map fun value => -(value : Int)
    else if c = 0x2B then (magnitude rest).map fun value => (value : Int)
    else (magnitude (c :: rest)).map fun value => (value : Int)

/- An int of 32 bits. -/
def FitsInt (value : Int) : Prop := -2 ^ 31 ≤ value ∧ value < 2 ^ 31
instance (value : Int) : Decidable (FitsInt value) := by unfold FitsInt; infer_instance

def stoi (str : Bytes) : Except StdError Int :=
  match strtol str with
  | none => .error .invalidArgument
  | some value => if FitsInt value then .ok value else .error .outOfRange

/- Behind a backslash: what takes the place of the two. -/
def escapedChar (c : UInt8) : Option UInt8 :=
  [(backslash,backslash),(quote,quote),(0x2F,0x2F),(0x74,0x09),(0x6E,0x0A),(0x72,0x0D),(0x66,0x0C),(0x62,0x08)].lookup c

/- The loop of unescaped from a place on; what is taken out is set to zero. -/
def unescapeFrom : Bytes → Bytes
  | [] => []
  | [c] => [c]
  | c :: e :: rest =>
    if c ≠ backslash then c :: unescapeFrom (e :: rest)
    else match escapedChar e with
      | some r => r :: 0 :: unescapeFrom rest
      | none => if e = 0 then c :: e :: unescapeFrom rest else c :: unescapeFrom (e :: rest)

def unescaped (val : Bytes) : Bytes := if val.length < 2 then val else (unescapeFrom val).filter (· ≠ 0)

def lower (val : Bytes) : Bytes := val.map fun c => if 0x41 ≤ c ∧ c ≤ 0x5A then c + 0x20 else c

def dot : UInt8 := 0x2E
def wordFals : Bytes := [0x66,0x61,0x6C,0x73]
def wordTrue : Bytes := [0x74,0x72,0x75,0x65]

section
variable {F : Type} (stod : Bytes → Except StdError F) (content : Bytes)

def stringToken (tok : Token) : Bytes :=
  match tok.stop with
  | none => []
  | some stop => if tok.start < stop then (content.drop tok.start).take (stop - tok.start) else []

def getValuePrimitive (val : Bytes) : Except JsonError (JsonValue F) :=
  let number := if dot ∈ val then (stod val).map .double else (stoi val).map .integer
  match number with
  | .ok value => .ok value
  | .error .outOfRange => .error (.std .outOfRange)
  | .error .invalidArgument =>
    if wordFals <+: lower val then .ok (.boolean false)
    else if wordTrue <+: lower val then .ok (.boolean true)
    else .ok .null

/- The map has no order; an entry stands where it was put last. -/
def putEntry (key : Bytes) (value : JsonValue F) (entries : List (Bytes × JsonValue F)) : List (Bytes × JsonValue F) :=
  entries.filter (·.1 ≠ key) ++ [(key,value)]

/- A value of the tokens from `it` on, and how many of them it takes. -/
mutual
def getValueFromIter (it : List Token) : Except JsonError (JsonValue F × Nat) :=
  match it with
  | [] => .error .json
  | tok :: rest =>
    match tok.type with
    | .array => do
      let (values,skip) ← pushValuesToArray tok.size rest []
      .ok (.array values,skip + 1)
    | .object => do
      let (entries,skip) ← pushValuesToObject tok.size rest []
      .ok (.object entries,skip + 1)
    | .primitive => do
      let value ← getValuePrimitive stod (stringToken content tok)
      .ok (value,1)
    | .string => .ok (.string (unescaped (stringToken content tok)),1)
termination_by (it.length,0,0)

/- The values of the array, put behind those it has already. -/
def pushValuesToArray (counts : Nat) (it : List Token) (values : List (JsonValue F)) :
    Except JsonError (List (JsonValue F) × Nat) :=
  match counts with
  | 0 => .ok (values,0)
  | counts + 1 =>
    if it = [] then .ok (values,0)
    else do
      let (value,count) ← getValueFromIter it
      let (values,skip) ← pushValuesToArray counts (it.drop count) (values ++ [value])
      .ok (values,count + skip)
termination_by (it.length,1,counts)
decreasing_by
  · decreasing_tactic
  · have shorter : (it.drop count).length ≤ it.length := by simp
    rcases Nat.lt_or_eq_of_le shorter with less | same
    · exact Prod.Lex.left _ _ less
    · rw [same]; decreasing_tactic

def pushValuesToObject (counts : Nat) (it : List Token) (entries : List (Bytes × JsonValue F)) :
    Except JsonError (List (Bytes × JsonValue F) × Nat) :=
  match counts, it with
  | 0, _ => .ok (entries,0)
  | _, [] => .ok (entries,0)
  | counts + 1, tok :: rest =>
    if rest = [] then .ok (entries,0)
    else do
      let (value,count) ← getValueFromIter rest
      let (entries,skip) ← pushValuesToObject counts (rest.drop count)
        (putEntry (unescaped (stringToken content tok)) value entries)
      .ok (entries,count + skip + 1)
termination_by (it.length,1,counts)
end

/- A text that is refused leaves no tokens. -/
def frontToken : Except JsonError (Token × List Token) :=
  match jsmnParse content with
  | .ok (tok :: rest) => .ok (tok,rest)
  | _ => .error .json

def toObject : Except JsonError (List (Bytes × JsonValue F)) := do
  let (tok,rest) ← frontToken content
  if tok.type = .object then (pushValuesToObject stod content tok.size rest []).map Prod.fst else .error .json

def toArray : Except JsonError (List (JsonValue F)) := do
  let (tok,rest) ← frontToken content
  if tok.type = .array then (pushValuesToArray stod content tok.size rest []).map Prod.fst else .error .json

end

end Ltsm.JsonContent
