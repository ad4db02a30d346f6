import Ltsm.Library.ByteReader

/-! The tokens of the GSS handshake, each behind its length. The server goes through its
network layer, the client through the socket of the decoder. -/
namespace Ltsm.GssTokens
open Library

/- A length fits in the four bytes before the body. -/
abbrev Token := {bytes : Bytes // bytes.length < 256 ^ 4}

/- What has arrived for one end and is not read yet, and what it has sent. -/
structure Socket where
  incoming : Bytes
  outgoing : Bytes
  deriving DecidableEq, Repr

/- A call without a result waits for bytes that have not arrived. -/
abbrev Call := StateT Socket Option

def receive {α : Type} (r : Reader α) : Call α :=
  fun s => (r.run s.incoming).map fun got => (got.1,{s with incoming := got.2})

def send (bytes : Bytes) : Call Unit := fun s => some ((),{s with outgoing := s.outgoing ++ bytes})

namespace Client

def recvLength : Call Nat := do
  let val ← receive (takeBytes 4)
  pure (ofBigEndian val)

/- The value is brought into network order, and then it is read over. -/
def sendLength (len : Nat) : Call Bytes := do
  let val := bigEndian 4 len
  receive (takeBytes val.length)

def recvToken : Call Bytes := do
  let len ← recvLength
  receive (takeBytes len)

def sendToken (buf : Bytes) : Call Unit := do
  let _ ← sendLength buf.length
  send buf

end Client

namespace Server

def recvIntBE32 : Reader Nat := do
  let bytes ← takeBytes 4
  pure (ofBigEndian bytes)

def recvLayer : Call Bytes := do
  let len ← receive recvIntBE32
  receive (takeBytes len)

def sendLayer (buf : Bytes) : Call Unit := do
  send (bigEndian 4 buf.length)
  send buf

end Server

def sendAll (sendToken : Bytes → Call Unit) : List Token → Call Unit
  | [] => pure ()
  | token :: rest => do
    sendToken token.val
    sendAll sendToken rest

def recvAll (recvToken : Call Bytes) : Nat → Call (List Bytes)
  | 0 => pure []
  | count + 1 => do
    let token ← recvToken
    let rest ← recvAll recvToken count
    pure (token :: rest)

/- One end sends the tokens, whatever has arrived for it; the other reads just them, in
their order, and nothing is left. -/
def Delivered (sendToken : Bytes → Call Unit) (recvToken : Call Bytes) (incoming : Bytes) (tokens : List Token) :
    Prop :=
  ∃ sender receiver, sendAll sendToken tokens ⟨incoming,[]⟩ = some ((),sender) ∧
    recvAll recvToken tokens.length ⟨sender.outgoing,[]⟩ = some (tokens.map Subtype.val,receiver) ∧
    receiver.incoming = []

def layerReader : Reader Bytes := do
  let len ← Server.recvIntBE32
  takeBytes len

theorem receiveBind {α β : Type} (r : Reader α) (f : α → Reader β) :
    (receive r >>= fun a => receive (f a)) = receive (r >>= f) := by
  funext s
  simp only [receive,bind,StateT.bind,StateT.run]
  cases r s.incoming <;> rfl

theorem recvLayerReceive : Server.recvLayer = receive layerReader := receiveBind _ _

theorem recvTokenReceive : Client.recvToken = receive layerReader := by
  have length : Client.recvLength = receive Server.recvIntBE32 :=
    receiveBind (takeBytes 4) fun val => pure (ofBigEndian val)
  rw [Client.recvToken,length]
  exact receiveBind _ _

theorem recvAllReceive (r : Reader Bytes) (count : Nat) : recvAll (receive r) count = receive (recvMany r count) := by
  induction count with
  | zero => rfl
  | succ count ih =>
    rw [recvAll,recvMany,← receiveBind,ih]
    refine bind_congr fun token => ?_
    rw [← receiveBind]
    rfl

def frame (token : Token) : Bytes := bigEndian 4 token.val.length ++ token.val

theorem readsFrame (token : Token) : Reads layerReader (frame token) token.val := by
  have length : Reads Server.recvIntBE32 (bigEndian 4 token.val.length) token.val.length := by
    have taken := readsMap (readsTake (bigEndian 4 token.val.length)) ofBigEndian
    rw [lengthBigEndian,ofBigEndianOf,Nat.mod_eq_of_lt token.property] at taken
    exact taken
  exact readsBind length (readsTake token.val)

theorem layerConsumes {bytes token rest : Bytes} (ran : layerReader.run bytes = some (token,rest)) :
    bytes.length = 4 + token.length + rest.length := by
  rw [layerReader,Server.recvIntBE32,bind_assoc,StateT.run_bind] at ran
  obtain ⟨⟨length,body⟩,one,two⟩ := Option.bind_eq_some_iff.mp ran
  have first := takeConsumes one
  have second := takeConsumes two
  dsimp only at second
  omega

theorem manyConsume {count : Nat} {bytes rest : Bytes} {tokens : List Bytes}
    (ran : (recvMany layerReader count).run bytes = some (tokens,rest)) :
    bytes.length = 4 * count + tokens.flatten.length + rest.length := by
  induction count generalizing bytes tokens with
  | zero =>
    cases Option.some.inj ran
    simp
  | succ count ih =>
    rw [recvMany,StateT.run_bind] at ran
    obtain ⟨⟨token,more⟩,one,ran⟩ := Option.bind_eq_some_iff.mp ran
    rw [StateT.run_bind] at ran
    obtain ⟨⟨later,last⟩,two,ran⟩ := Option.bind_eq_some_iff.mp ran
    cases Option.some.inj ran
    have first := layerConsumes one
    have second := ih two
    rw [List.flatten_cons,List.length_append]
    dsimp only at first second ⊢
    omega

/- What the client has put on the wire is the bodies alone. -/
theorem clientSends {tokens : List Token} {s sender : Socket}
    (sent : sendAll Client.sendToken tokens s = some ((),sender)) :
    sender.outgoing = s.outgoing ++ tokens.flatMap Subtype.val := by
  induction tokens generalizing s with
  | nil =>
    cases Option.some.inj sent
    simp
  | cons token rest ih =>
    obtain ⟨⟨_,middle⟩,one,later⟩ := Option.bind_eq_some_iff.mp sent
    obtain ⟨⟨_,taken⟩,length,body⟩ := Option.bind_eq_some_iff.mp one
    obtain ⟨got,_,same⟩ := Option.map_eq_some_iff.mp length
    cases same
    cases Option.some.inj body
    rw [ih later,List.flatMap_cons,List.append_assoc]

/- With nothing from the server yet the client's first token waits for good. -/
theorem clientWaits (token : Token) (rest : List Token) (outgoing : Bytes) :
    sendAll Client.sendToken (token :: rest) ⟨[],outgoing⟩ = none := by
  simp [sendAll,Client.sendToken,Client.sendLength,receive,takeBytes,StateT.run,bind,StateT.bind]

theorem serverSends (tokens : List Token) (s : Socket) :
    sendAll Server.sendLayer tokens s = some ((),{s with outgoing := s.outgoing ++ tokens.flatMap frame}) := by
  induction tokens generalizing s with
  | nil =>
    rw [List.flatMap_nil,List.append_nil]
    rfl
  | cons token rest ih =>
    have one : Server.sendLayer token.val s = some ((),{s with outgoing := s.outgoing ++ frame token}) := by
      simp [Server.sendLayer,send,frame,bind,StateT.bind]
    have all : sendAll Server.sendLayer (token :: rest) s =
        sendAll Server.sendLayer rest {s with outgoing := s.outgoing ++ frame token} := by
      simp only [sendAll,bind,StateT.bind,one]
      rfl
    rw [all,ih,List.flatMap_cons,List.append_assoc]

/- From the server to the client every sequence arrives as it was. -/
theorem downwardDelivered (incoming : Bytes) (tokens : List Token) :
    Delivered Server.sendLayer Client.recvToken incoming tokens := by
  have each := fun token (_ : token ∈ tokens) => readsFrame token
  have read := readsMany each []
  rw [List.append_nil] at read
  refine ⟨_,⟨[],[]⟩,serverSends tokens ⟨incoming,[]⟩,?_,rfl⟩
  rw [recvTokenReceive,recvAllReceive,List.nil_append,receive,read]
  rfl

theorem upwardDeliveredIff (incoming : Bytes) (tokens : List Token) :
    Delivered Client.sendToken Server.recvLayer incoming tokens ↔ tokens = [] := by
  constructor
  · rintro ⟨sender,receiver,sent,received,empty⟩
    rw [recvLayerReceive,recvAllReceive] at received
    obtain ⟨⟨all,rest⟩,ran,same⟩ := Option.map_eq_some_iff.mp received
    cases same
    have length := manyConsume ran
    dsimp only at length
    rw [clientSends sent,List.nil_append,List.flatMap_def] at length
    exact List.eq_nil_of_length_eq_zero (by omega)
  · rintro rfl
    exact ⟨_,_,rfl,rfl,rfl⟩

/- Both directions of the exchange. -/
def TokensDelivered (toClient toServer : Bytes) (tokens : List Token) : Prop :=
  Delivered Client.sendToken Server.recvLayer toClient tokens ∧
    Delivered Server.sendLayer Client.recvToken toServer tokens

theorem tokensDeliveredIff (toClient toServer : Bytes) (tokens : List Token) :
    TokensDelivered toClient toServer tokens ↔ tokens = [] := by
  rw [TokensDelivered,and_iff_left (downwardDelivered toServer tokens)]
  exact upwardDeliveredIff toClient tokens

theorem oneTokenLost : ¬ TokensDelivered [] [] [⟨[0x60],by decide⟩] := by
  rintro ⟨upward,_⟩
  rw [upwardDeliveredIff] at upward
  cases upward

end Ltsm.GssTokens
