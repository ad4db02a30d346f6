import Mathlib.Data.List.Basic
import Ltsm.Library.ByteReader

/-! The tokenizer of the JSON texts, in its lenient mode and without links to the parents.
Tokens stand in the order of their first characters; a container counts its members, a key
its value. There are as many tokens as the text needs: the caller comes again with more
room until they fit. -/
namespace Ltsm.JsonTokens
open Library

def quote : UInt8 := 0x22
def comma : UInt8 := 0x2C
def colon : UInt8 := 0x3A
def backslash : UInt8 := 0x5C
def leftBracket : UInt8 := 0x5B
def rightBracket : UInt8 := 0x5D
def leftBrace : UInt8 := 0x7B
def rightBrace : UInt8 := 0x7D

/- Tab, line feed, carriage return and blank. -/
def spaces : Bytes := [0x09,0x0A,0x0D,0x20]

inductive TokenType
  | object
  | array
  | string
  | primitive
  deriving DecidableEq, Repr

/- `stop` is the end of the token, which a container has once it is closed. -/
structure Token where
  type : TokenType
  start : Nat
  stop : Option Nat
  size : Nat := 0
  deriving DecidableEq, Repr

def Token.unclosed (token : Token) : Bool := token.stop.isNone

def Token.container (token : Token) : Bool := token.type = .array || token.type = .object

/- JSMN_ERROR_INVAL and JSMN_ERROR_PART. -/
inductive ParseError
  | inval
  | part
  deriving DecidableEq, Repr

structure Parser where
  tokens : List Token := []
  toksuper : Option Nat := none
  deriving DecidableEq, Repr

/- The last token that meets the test, with its place. -/
def lastWhere (test : Token → Bool) : List Token → Option (Nat × Token)
  | [] => none
  | token :: rest =>
    match lastWhere test rest with
    | some (i,found) => some (i + 1,found)
    | none => if test token then some (0,token) else none

namespace Parser

def countMember (p : Parser) : List Token :=
  match p.toksuper with
  | none => p.tokens
  | some i => p.tokens.modify i fun token => {token with size := token.size + 1}

def fillToken (p : Parser) (type : TokenType) (start stop : Nat) : Parser :=
  {p with tokens := p.countMember ++ [⟨type,start,some stop,0⟩]}

def openContainer (p : Parser) (type : TokenType) (pos : Nat) : Parser :=
  ⟨p.countMember ++ [⟨type,pos,none,0⟩],some p.tokens.length⟩

def closeContainer (p : Parser) (type : TokenType) (pos : Nat) : Except ParseError Parser :=
  match lastWhere Token.unclosed p.tokens with
  | none => .error .inval
  | some (i,token) =>
    if token.type ≠ type then .error .inval
    else .ok ⟨p.tokens.modify i fun token => {token with stop := some (pos + 1)},
      (lastWhere Token.unclosed (p.tokens.take i)).map Prod.fst⟩

/- After a key and its value the members of the container go on. -/
def nextMember (p : Parser) : Parser :=
  match p.toksuper.bind fun i => p.tokens[i]? with
  | none => p
  | some token =>
    if token.container then p
    else match lastWhere (fun token => token.container && token.unclosed) p.tokens with
      | none => p
      | some (i,_) => {p with toksuper := some i}

def finish (p : Parser) : Except ParseError Parser :=
  if p.tokens.any Token.unclosed then .error .part else .ok p

end Parser

def isHex (c : UInt8) : Bool := 0x30 ≤ c && c ≤ 0x39 || 0x41 ≤ c && c ≤ 0x46 || 0x61 ≤ c && c ≤ 0x66

/- The characters after a backslash, but for `u`. -/
def escapes : Bytes := [quote,0x2F,backslash,0x62,0x66,0x72,0x6E,0x74]

/- The hex digits of a code point: four, or fewer where the text ends. -/
def hexLength : Nat → Bytes → Except ParseError Nat
  | 0, _ => .ok 0
  | _, [] => .ok 0
  | count + 1, c :: rest => if c = 0 then .ok 0 else if isHex c then (hexLength count rest).map (· + 1) else .error .inval

/- What stands before the closing quote. -/
def stringLength (js : Bytes) : Except ParseError Nat :=
  match js with
  | [] => .error .part
  | c :: rest =>
    if c = 0 then .error .part
    else if c = quote then .ok 0
    else if c = backslash then
      match rest with
      | [] => .error .part
      | e :: rest =>
        if e ∈ escapes then (stringLength rest).map (· + 2)
        else if e = 0x75 then do
          let digits ← hexLength 4 rest
          let more ← stringLength (rest.drop digits)
          .ok (more + digits + 2)
        else .error .inval
    else (stringLength rest).map (· + 1)
termination_by js.length

/- A primitive goes on up to a separator, whatever it is made of. -/
def primitiveLength : Bytes → Except ParseError Nat
  | [] => .ok 0
  | c :: rest =>
    if c = 0 ∨ c ∈ spaces ∨ c ∈ [colon,comma,rightBracket,rightBrace] then .ok 0
    else if c < 32 ∨ 127 ≤ c then .error .inval
    else (primitiveLength rest).map (· + 1)

/- The loop of jsmn_parse from a position on. -/
def parseFrom (pos : Nat) (p : Parser) (js : Bytes) : Except ParseError Parser :=
  match js with
  | [] => p.finish
  | c :: rest =>
    if c = 0 then p.finish
    else if c = leftBrace then parseFrom (pos + 1) (p.openContainer .object pos) rest
    else if c = leftBracket then parseFrom (pos + 1) (p.openContainer .array pos) rest
    else if c = rightBrace then do
      let p ← p.closeContainer .object pos
      parseFrom (pos + 1) p rest
    else if c = rightBracket then do
      let p ← p.closeContainer .array pos
      parseFrom (pos + 1) p rest
    else if c = quote then do
      let len ← stringLength rest
      parseFrom (pos + len + 2) (p.fillToken .string (pos + 1) (pos + 1 + len)) (rest.drop (len + 1))
    else if c ∈ spaces then parseFrom (pos + 1) p rest
    else if c = colon then
      parseFrom (pos + 1) {p with toksuper := if p.tokens = [] then none else some (p.tokens.length - 1)} rest
    else if c = comma then parseFrom (pos + 1) p.nextMember rest
    else if c < 32 ∨ 127 ≤ c then .error .inval
    else do
      let len ← primitiveLength rest
      parseFrom (pos + len + 1) (p.fillToken .primitive pos (pos + len + 1)) (rest.drop len)
termination_by js.length

def jsmnParse (js : Bytes) : Except ParseError (List Token) := (parseFrom 0 {} js).map Parser.tokens

end Ltsm.JsonTokens
