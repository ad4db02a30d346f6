import Ltsm.ChannelFrames
import Ltsm.ClientMessages
import Ltsm.Library.SharedStream
import Mathlib.Data.List.Permutation

/-! The coroutines of the client that send messages. Each of them writes to the stream itself; the
strand they run on keeps their handlers apart, but not the parts of their writes. -/
namespace Ltsm.ClientSenders
open Library PixelStreams CutText ClientMessages
open SharedStream (idle Whole Alone Kept)

/- What a sender writes; none is spawned for an empty buffer. -/
def written (side : ClientSide) : ClientMessage → Bytes
  | .cutTextEvent buf ext =>
    if buf = [] then [] else (sendCutText CLIENT_CUT_TEXT side.extClipboardRemoteCaps buf ext).getD []
  | .ltsmChannelData channel buf => ChannelFrames.sendLtsmChannelData channel buf
  | msg => (side.send msg).getD []

/- A coroutine gets to async_write with a message, or the stream takes the next part of one. -/
inductive Action
  | spawned (id : Nat) (side : ClientSide) (msg : ClientMessage)
  | wrote (id count : Nat)

def step (s : SharedStream UInt8) : Action → SharedStream UInt8
  | .spawned id side msg => s.begin id (written side msg)
  | .wrote id count => s.write id count

/- Nobody writes between two parts of another's message. -/
def Proper (s : SharedStream UInt8) : Action → Prop
  | .spawned _ _ _ => True
  | .wrote id count => Alone s id count

theorem stepKept {s : SharedStream UInt8} {action : Action} (kept : Kept s) (proper : Proper s action) :
    Kept (step s action) := by
  cases action with
  | spawned id side msg => exact SharedStream.beginKept kept id (written side msg)
  | wrote id count => exact SharedStream.writeKept kept proper

/- In every state of a run there are whole messages on the wire, and the beginning of one at most,
exactly if nobody writes inside another's message. Then, with everything written, the bytes are those
of all messages in some order. -/
theorem wholeMessagesIff (actions : List Action) :
    (Always step Whole idle actions ↔ Meets step Proper idle actions) ∧
      (Meets step Proper idle actions → (∀ id, (run step idle actions).writers id = none) →
        ∃ order : List Nat, order.Perm (List.range (run step idle actions).messages.length) ∧
          (run step idle actions).wire.map Prod.snd = order.flatMap (run step idle actions).message) := by
  constructor
  · refine alwaysMeetsIff (I := Kept) (fun _ _ => stepKept) (fun _ => SharedStream.keptWhole) ?_
      SharedStream.keptIdle actions
    intro s action kept whole
    cases action with
    | spawned id side msg => trivial
    | wrote id count => exact SharedStream.wholeAlone kept whole
  · intro meets quiet
    have kept := meetsInvariant (P := Kept) (fun _ _ proper kept => stepKept kept proper) SharedStream.keptIdle meets
    exact SharedStream.wholeIdle (SharedStream.keptWhole kept) quiet

/- A cut text goes out in two parts, with a movement of the pointer between them. -/
def torn : List Action :=
  [.spawned 1 ⟨false,0⟩ (.cutTextEvent [72,105] false),.wrote 1 9,.spawned 2 ⟨false,0⟩ (.pointerEvent 0 1 2),
    .wrote 2 6,.wrote 1 1]

theorem tornCutText :
    (run step idle torn).wire.map Prod.snd = [6,0,0,0,0,0,0,2,72,5,0,0,1,0,2,105] ∧
      (∀ id, (run step idle torn).writers id = none) ∧
      ¬∃ order : List Nat, order.Perm (List.range (run step idle torn).messages.length) ∧
        (run step idle torn).wire.map Prod.snd = order.flatMap (run step idle torn).message := by
  refine ⟨by decide,?_,?_⟩
  · rintro (_ | _ | _ | id) <;> rfl
  · rintro ⟨order,perm,same⟩
    have none : ∀ order ∈ (List.range 2).permutations',
        (run step idle torn).wire.map Prod.snd ≠ order.flatMap (run step idle torn).message := by decide
    exact none order (List.mem_permutations'.mpr perm) same

end Ltsm.ClientSenders
