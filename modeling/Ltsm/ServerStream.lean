import Mathlib.Data.List.Basic

/-! The encoder's side of a client connection. A failed read or write stops the
messages for good instead of reaching the caller, so whoever reads after that
goes on with the bytes that already were in its buffer. -/
namespace Ltsm

/- `input` is what the client still sends, `writes` how many writes the peer
still takes, `junk` what the unfilled buffers hold. -/
structure ServerStream where
  input : List UInt8
  writes : Nat
  junk : List UInt8
  rfbMessages : Bool
  sent : List UInt8
  deriving DecidableEq, Repr

namespace ServerStream

def sendRaw (s : ServerStream) (bytes : List UInt8) : ServerStream :=
  if s.rfbMessages then
    match s.writes with
    | 0 => {s with rfbMessages := false}
    | n + 1 => {s with writes := n, sent := s.sent ++ bytes}
  else s

def sendInt8 (s : ServerStream) (val : UInt8) : ServerStream := s.sendRaw [val]

def sendIntBE32 (s : ServerStream) (val : UInt32) : ServerStream :=
  s.sendRaw [(val >>> 24).toUInt8,(val >>> 16).toUInt8,(val >>> 8).toUInt8,val.toUInt8]

def sendData (s : ServerStream) (bytes : List UInt8) : ServerStream := s.sendRaw bytes

def sendString (s : ServerStream) (text : String) : ServerStream :=
  s.sendRaw text.toUTF8.data.toList

/- The bytes of one read, or `none` when it failed and the buffer is as it was. -/
def recvRaw (s : ServerStream) (len : Nat) : Option (List UInt8) × ServerStream :=
  if s.rfbMessages = true ∧ len ≤ s.input.length then
    (some (s.input.take len),{s with input := s.input.drop len})
  else (none,{s with rfbMessages := false})

/- A read into an uninitialised buffer. -/
def recvBuffer (s : ServerStream) (len : Nat) : List UInt8 × ServerStream :=
  match s.recvRaw len with
  | (some bytes,s) => (bytes,s)
  | (none,s) => ((s.junk ++ List.replicate len 0).take len,{s with junk := s.junk.drop len})

def recvInt8 (s : ServerStream) : UInt8 × ServerStream :=
  let (bytes,s) := s.recvBuffer 1
  (bytes.headD 0,s)

def recvIntBE32 (s : ServerStream) : UInt32 × ServerStream :=
  let (bytes,s) := s.recvBuffer 4
  (bytes.foldl (fun val byte => val <<< 8 ||| byte.toUInt32) 0,s)

/- A read into a vector, which starts as zeros. -/
def recvData (s : ServerStream) (len : Nat) : List UInt8 × ServerStream :=
  match s.recvRaw len with
  | (some bytes,s) => (bytes,s)
  | (none,s) => (List.replicate len 0,s)

/- The next byte is one the client sent. -/
def Delivers (s : ServerStream) : Prop := s.rfbMessages = true ∧ s.input ≠ []
instance (s : ServerStream) : Decidable s.Delivers := by unfold Delivers; infer_instance

end ServerStream
end Ltsm
