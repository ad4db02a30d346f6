import Ltsm.JsonContent

/-! The streams that write JSON texts, and what is pushed into them. A text that has been
written already is pushed as it is into an object; into an array it goes character by
character, as any other range does. -/
namespace Ltsm.JsonStreams
open Library JsonTokens JsonContent

/- A string without zero bytes. -/
abbrev Text := {bytes : Bytes // 0 ∉ bytes}

/- What is pushed, with the pushes behind a text that is pushed into another stream. -/
mutual
inductive Json
  | null
  | boolean (val : Bool)
  | integer (val : Int)
  | string (val : Text)
  | array (items : Items)
  | object (fields : Fields)

inductive Items
  | nil
  | cons (item : Json) (rest : Items)

inductive Fields
  | nil
  | cons (key : Text) (value : Json) (rest : Fields)
end

/- One argument of push; an integer of one byte goes out as an int. -/
inductive Pushed
  | null
  | boolean (val : Bool)
  | integer (val : Int)
  | string (val : Bytes)
  | plain (text : Bytes)

structure Stream where
  os : Bytes
  comma : Bool := false
  deriving DecidableEq, Repr

def asciiDigit (digit : Nat) : UInt8 := UInt8.ofNat (0x30 + digit)

def decimalDigits (n : Nat) : Bytes :=
  if n < 10 then [asciiDigit n] else decimalDigits (n / 10) ++ [asciiDigit (n % 10)]

def decimal (val : Int) : Bytes := if val < 0 then 0x2D :: decimalDigits val.natAbs else decimalDigits val.natAbs

def escapedByte (c : UInt8) : Bytes := if c = quote ∨ c = backslash then [backslash,c] else [c]

/- std::quoted. -/
def quoted (val : Bytes) : Bytes := quote :: (val.flatMap escapedByte ++ [quote])

def nullText : Bytes := [0x6E,0x75,0x6C,0x6C]
def trueText : Bytes := [0x74,0x72,0x75,0x65]
def falseText : Bytes := [0x66,0x61,0x6C,0x73,0x65]

def separator (s : Stream) : Bytes := if s.comma then [comma] else []

/- What an object stream writes for a value, behind the key. -/
def Pushed.text : Pushed → Bytes
  | .null => nullText
  | .boolean val => if val then trueText else falseText
  | .integer val => decimal val
  | .string val => quoted val
  | .plain text => text

/- A char is signed. -/
def charInt (c : UInt8) : Int := c.toInt8.toInt

namespace JsonObjectStream

def start : Stream := {os := [leftBrace]}

def push (s : Stream) (key : Bytes) (val : Pushed) : Stream :=
  ⟨s.os ++ separator s ++ quoted key ++ [colon] ++ val.text,true⟩

def flush (s : Stream) : Bytes := s.os ++ [rightBrace]

end JsonObjectStream

namespace JsonArrayStream

def start : Stream := {os := [leftBracket]}

def pushScalar (s : Stream) (text : Bytes) : Stream := ⟨s.os ++ separator s ++ text,true⟩

/- The characters of a range are pushed after the separator, the first one without another. -/
def push (s : Stream) : Pushed → Stream
  | .plain text =>
    let s : Stream := ⟨s.os ++ separator s,false⟩
    {text.foldl (fun s c => pushScalar s (decimal (charInt c))) s with comma := true}
  | val => pushScalar s val.text

def flush (s : Stream) : Bytes := s.os ++ [rightBracket]

end JsonArrayStream

/- The streams for the pushes, the inner ones first. -/
mutual
def pushed : Json → Pushed
  | .null => .null
  | .boolean val => .boolean val
  | .integer val => .integer val
  | .string val => .string val.val
  | .array items => .plain (JsonArrayStream.flush (pushItems JsonArrayStream.start items))
  | .object fields => .plain (JsonObjectStream.flush (pushFields JsonObjectStream.start fields))

def pushItems (s : Stream) : Items → Stream
  | .nil => s
  | .cons item rest => pushItems (JsonArrayStream.push s (pushed item)) rest

def pushFields (s : Stream) : Fields → Stream
  | .nil => s
  | .cons key value rest => pushFields (JsonObjectStream.push s key.val (pushed value)) rest
end

end Ltsm.JsonStreams
