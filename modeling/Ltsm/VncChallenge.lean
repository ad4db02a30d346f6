import Mathlib.Data.Vector.Basic
import Mathlib.Logic.Equiv.Basic
import Mathlib.Tactic.IntervalCases
import Ltsm.Library.BlockModes
import Ltsm.Library.ByteReader

/-! The answer to a VNC challenge at both ends. The server puts each block through a
cipher set up anew, the client both blocks through one; the permutation of a single
block under a key is given. -/
namespace Ltsm.VncChallenge
open Library

abbrev Block := Vector UInt8 8

/- The permutation of the blocks under a key of 8 bytes. -/
abbrev Des := Block → Equiv.Perm Block

def zeroBlock : Block := Vector.replicate 8 0

def xorBlock (block other : Block) : Block := Vector.zipWith (fun x y => x ^^^ y) block other

theorem xorZero (block : Block) : xorBlock block zeroBlock = block := by
  ext i hi
  simp [xorBlock,zeroBlock]

theorem xorFixed (block other : Block) (same : xorBlock block other = block) : other = zeroBlock := by
  ext i hi
  have entry : block[i] ^^^ other[i] = block[i] := by
    have there := congrArg (fun b : Block => b[i]) same
    simpa only [xorBlock,Vector.getElem_zipWith] using there
  have cancelled : block[i] ^^^ (block[i] ^^^ other[i]) = block[i] ^^^ block[i] := by rw [entry]
  rw [← UInt8.xor_assoc,UInt8.xor_self,UInt8.zero_xor] at cancelled
  simp [cancelled,zeroBlock]

def xorMixing : Mixing Block := ⟨xorBlock,zeroBlock,xorZero,xorFixed⟩

/- Neither library takes a part of a block. -/
def blocksOf : Bytes → Option (List Block)
  | [] => some []
  | b0 :: b1 :: b2 :: b3 :: b4 :: b5 :: b6 :: b7 :: rest =>
    (blocksOf rest).map (#v[b0,b1,b2,b3,b4,b5,b6,b7] :: ·)
  | _ => none

def bytesOf (blocks : List Block) : Bytes := blocks.flatMap Vector.toList

theorem blockBytes (block : Block) : block.toList =
    [block[0],block[1],block[2],block[3],block[4],block[5],block[6],block[7]] := by
  refine List.ext_getElem (by simp) fun i hi _ => ?_
  have bound : i < 8 := by simpa using hi
  interval_cases i <;> simp

theorem bytesOfCons (block : Block) (rest : List Block) :
    bytesOf (block :: rest) = block.toList ++ bytesOf rest := List.flatMap_cons

theorem blocksOfBytes (blocks : List Block) : blocksOf (bytesOf blocks) = some blocks := by
  induction blocks with
  | nil => rfl
  | cons block rest ih =>
    have same : #v[block[0],block[1],block[2],block[3],block[4],block[5],block[6],block[7]] = block := by
      rw [← Vector.toList_inj,blockBytes block]
      rfl
    rw [bytesOfCons,blockBytes]
    simp only [List.cons_append,List.nil_append,blocksOf,ih,Option.map_some,same]

/- The chaining mode of GNUTLS_CIPHER_DES_CBC and EVP_des_cbc. -/
def encryptCBC (des : Des) (key iv : Block) (data : Bytes) : Option Bytes :=
  (blocksOf data).map fun blocks => bytesOf (chained xorMixing (des key) iv blocks)

/- Reverse the order of bits in the byte -/
def reverseBits (val : UInt8) : UInt8 :=
  if val = 0 then val
  else ((val.toUInt64 * 0x0202020202 &&& 0x010884422010) % 1023 &&& 0xfe).toUInt8

theorem reverseBitsEvery : ∀ n < 256, reverseBits (UInt8.ofNat n) =
    UInt8.ofBitVec (BitVec.reverse (UInt8.ofNat n).toBitVec) &&& 0xfe := by
  decide +kernel

theorem reverseBitsReverses (val : UInt8) :
    reverseBits val = UInt8.ofBitVec (BitVec.reverse val.toBitVec) &&& 0xfe := by
  have each := reverseBitsEvery val.toNat val.toNat_lt
  rwa [UInt8.ofNat_toNat] at each

/- The first bytes of the password, zeros behind them. -/
def desKey (str : Bytes) : Block := Vector.ofFn fun i => reverseBits (str.getD i 0)

namespace TLS

/- The loop of encryptDES from the offset on. -/
def encryptFrom (des : Des) (key iv : Block) (res : Bytes) : Option Bytes :=
  if res = [] then some []
  else do
    let block ← encryptCBC des key iv (res.take 8)
    let rest ← encryptFrom des key iv (res.drop 8)
    some (block ++ rest)
termination_by res.length
decreasing_by
  have : res.length ≠ 0 := by simpa using ‹¬ res = []›
  rw [List.length_drop]
  omega

def encryptDES (des : Des) (data str : Bytes) : Option Bytes := encryptFrom des (desKey str) zeroBlock data

end TLS

namespace OpenSSL

def encryptDES (des : Des) (data str : Bytes) : Option Bytes := encryptCBC des (desKey str) zeroBlock data

end OpenSSL

theorem tlsBlocks (des : Des) (blocks : List Block) (str : Bytes) :
    TLS.encryptDES des (bytesOf blocks) str = some (bytesOf (independent (des (desKey str)) blocks)) := by
  unfold TLS.encryptDES
  induction blocks with
  | nil => rw [TLS.encryptFrom]; rfl
  | cons block rest ih =>
    have first : (bytesOf (block :: rest)).take 8 = bytesOf [block] := by
      rw [bytesOfCons,List.take_left' (by simp)]
      simp [bytesOf]
    have later : (bytesOf (block :: rest)).drop 8 = bytesOf rest := by
      rw [bytesOfCons,List.drop_left' (by simp)]
    have more : bytesOf (block :: rest) ≠ [] := by
      rw [bytesOfCons,blockBytes]
      simp
    have alone : encryptCBC des (desKey str) zeroBlock (bytesOf [block]) = some (bytesOf [des (desKey str) block]) := by
      rw [encryptCBC,blocksOfBytes]
      exact congrArg (fun blocks => some (bytesOf blocks)) (chainedOne xorMixing block)
    rw [TLS.encryptFrom,if_neg more,first,later,ih,alone]
    simp [independent,bytesOf]

theorem openSslBlocks (des : Des) (blocks : List Block) (str : Bytes) :
    OpenSSL.encryptDES des (bytesOf blocks) str =
      some (bytesOf (chained xorMixing (des (desKey str)) zeroBlock blocks)) := by
  rw [OpenSSL.encryptDES,encryptCBC,blocksOfBytes]
  rfl

theorem bytesOfInjective : Function.Injective bytesOf := fun blocks others same =>
  Option.some.inj ((blocksOfBytes blocks).symm.trans ((congrArg blocksOf same).trans (blocksOfBytes others)))

theorem encryptDesAgreeIff (des : Des) (blocks : List Block) (str : Bytes) :
    OpenSSL.encryptDES des (bytesOf blocks) str = TLS.encryptDES des (bytesOf blocks) str ↔
      ∀ block ∈ blocks.dropLast, des (desKey str) block = zeroBlock := by
  rw [openSslBlocks,tlsBlocks,Option.some_inj,bytesOfInjective.eq_iff]
  exact chainedIndependentIff xorMixing (des (desKey str)).injective blocks

abbrev Challenge := Vector UInt8 16

def firstHalf (challenge : Challenge) : Block := Vector.ofFn fun i => challenge[i]
def secondHalf (challenge : Challenge) : Block := Vector.ofFn fun i => challenge[i.val + 8]

theorem challengeBytes (challenge : Challenge) :
    challenge.toList = bytesOf [firstHalf challenge,secondHalf challenge] := by
  refine List.ext_getElem (by simp [bytesOf]) fun i hi _ => ?_
  have bound : i < 16 := by simpa using hi
  simp only [bytesOf,List.flatMap_cons,List.flatMap_nil,List.append_nil,blockBytes]
  interval_cases i <;> simp [firstHalf,secondHalf]

/- What authVncInitAwait sends back. -/
def clientResponse (des : Des) (challenge : Challenge) (password : Bytes) : Option Bytes :=
  OpenSSL.encryptDES des challenge.toList password

/- What authVncInit compares the response with, for one line of the passwd file. -/
def serverExpects (des : Des) (challenge : Challenge) (pass : Bytes) : Option Bytes :=
  TLS.encryptDES des challenge.toList pass

/- The key of a password: the bits of each byte the other way round, the one that DES
leaves out cleared. -/
def reversedKey (password : Bytes) : Block :=
  Vector.ofFn fun i => UInt8.ofBitVec (BitVec.reverse (password.getD i 0).toBitVec) &&& 0xfe

theorem desKeyReversed (password : Bytes) : desKey password = reversedKey password := by
  ext i hi
  simp only [desKey,reversedKey,Vector.getElem_ofFn,reverseBitsReverses]

/- Both halves under the key of the password, each for itself. -/
def response (des : Des) (challenge : Challenge) (password : Bytes) : Bytes :=
  bytesOf (independent (des (reversedKey password)) [firstHalf challenge,secondHalf challenge])

theorem serverExpectsResponse (des : Des) (challenge : Challenge) (pass : Bytes) :
    serverExpects des challenge pass = some (response des challenge pass) := by
  rw [serverExpects,challengeBytes,tlsBlocks,desKeyReversed,response]

/- The client sends what the server waits for: the two halves, each for itself. -/
def ResponsesAgree (des : Des) (challenge : Challenge) (password : Bytes) : Prop :=
  clientResponse des challenge password = serverExpects des challenge password ∧
    clientResponse des challenge password = some (response des challenge password)

/- It does exactly for the challenges whose first half comes out as the zero block. -/
theorem responsesAgreeIff (des : Des) (challenge : Challenge) (password : Bytes) :
    ResponsesAgree des challenge password ↔
      firstHalf challenge = (des (reversedKey password)).symm zeroBlock := by
  rw [ResponsesAgree,← serverExpectsResponse,and_self,clientResponse,serverExpects,challengeBytes,encryptDesAgreeIff,
    desKeyReversed,Equiv.eq_symm_apply]
  simp

/- What DES makes of the zero block under the key of the empty password. -/
def zeroImage : Block := #v[0x8C,0xA6,0x4D,0xE9,0xC1,0xB1,0x23,0xA7]

theorem zeroChallengeApart :
    ¬ ResponsesAgree (fun _ => Equiv.swap zeroBlock zeroImage) (Vector.replicate 16 0) [] := by
  intro agree
  have same := agree.1
  rw [clientResponse,serverExpects,challengeBytes,encryptDesAgreeIff] at same
  revert same
  decide

end Ltsm.VncChallenge
