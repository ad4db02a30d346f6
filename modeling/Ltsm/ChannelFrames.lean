import Ltsm.RfbFields

/-! The frames of a channel, as the client sends them and the server receives them. A frame
has sixteen bits for the size of its data, and in a release nothing holds back what is larger. -/
namespace Ltsm.ChannelFrames
open Library PixelStreams UpdateMessages RfbFields

/- sendLtsmChannelAwait. -/
def sendLtsmChannelAwait (channel : UInt8) (buf : Bytes) : Bytes :=
  sendInt8 PROTOCOL_LTSM ++ (sendInt8 LtsmProtocolVersion ++ (sendInt8 channel.toNat ++
    (sendIntBE16 buf.length ++ buf)))

/- The assertion is no code in a release. -/
def sendLtsmChannelData (channel : UInt8) (buf : Bytes) : Bytes :=
  if buf ≠ [] then sendLtsmChannelAwait channel buf else []

/- The next message, which is one of a channel. -/
def recvChannel : Reader (UInt8 × Bytes) :=
  recvInt8 >>= fun msgType => if msgType = PROTOCOL_LTSM then recvLtsmProto else fail

/- A receiver that is in step takes the data as it was sent, frame by frame. -/
def InStep (sent : List (UInt8 × Bytes)) : Prop :=
  Reads (recvMany recvChannel (sent.filter fun data => data.2 ≠ []).length)
    (sent.flatMap fun data => sendLtsmChannelData data.1 data.2) (sent.filter fun data => data.2 ≠ [])

/- The data up to the size that is in the frame. -/
def received (buf : Bytes) : Bytes := buf.take (buf.length % 65536)

theorem receivedLength (buf : Bytes) : (received buf).length = buf.length % 65536 := by
  rw [received,List.length_take]
  omega

theorem receivedWhole (buf : Bytes) : received buf = buf ↔ buf.length ≤ 65535 := by
  rw [received,List.take_eq_self_iff]
  omega

/- The receiver takes so much of a frame, and goes on with the rest of it. -/
theorem readsAwait (channel : UInt8) (buf : Bytes) : ∃ first,
    sendLtsmChannelAwait channel buf = first ++ buf.drop (buf.length % 65536) ∧
      Reads recvChannel first (channel,received buf) := by
  refine ⟨sendInt8 PROTOCOL_LTSM ++ (sendInt8 LtsmProtocolVersion ++ (sendInt8 channel.toNat ++
    (sendIntBE16 buf.length ++ received buf))),?_,?_⟩
  · simp only [sendLtsmChannelAwait,received,List.append_assoc,List.take_append_drop]
  · have length := readsIntBE16 buf.length
    rw [← receivedLength buf] at length
    exact readsBind (readsInt8 PROTOCOL_LTSM) (readsBind (readsInt8 LtsmProtocolVersion) (readsBind (readsUInt8 channel)
      (readsBind length (readsMap (readsTake (received buf)) fun buf => (channel,buf)))))

/- A frame, and those behind it. -/
theorem readsFramesIff (channel : UInt8) (buf bytes : Bytes) (count : Nat) (later : List (UInt8 × Bytes)) :
    Reads (recvMany recvChannel (count + 1)) (sendLtsmChannelAwait channel buf ++ bytes) ((channel,buf) :: later) ↔
      buf.length ≤ 65535 ∧ Reads (recvMany recvChannel count) bytes later := by
  obtain ⟨first,split,reads⟩ := readsAwait channel buf
  rw [split,List.append_assoc,recvMany,readsBindIff reads,← receivedWhole]
  by_cases whole : received buf = buf
  · have fits := (receivedWhole buf).mp whole
    have none : buf.drop (buf.length % 65536) = [] := List.drop_eq_nil_iff.mpr (by omega)
    rw [whole,none,List.nil_append,readsMapIff (f := ((channel,buf) :: ·)) (by simp)]
    exact (and_iff_right rfl).symm
  · refine iff_of_false (fun all => ?_) fun both => whole both.1
    have ran := all []
    rw [StateT.run_bind] at ran
    obtain ⟨⟨rest,left⟩,_,last⟩ := Option.bind_eq_some_iff.mp ran
    have same := congrArg Prod.fst (Option.some.inj last)
    exact whole (Prod.mk.inj (List.cons.inj same).1).2

theorem inStepIff (sent : List (UInt8 × Bytes)) : InStep sent ↔ ∀ data ∈ sent, data.2.length ≤ 65535 := by
  induction sent with
  | nil => exact iff_of_true (readsPure []) (by simp)
  | cons data sent ih =>
    obtain ⟨channel,buf⟩ := data
    rw [List.forall_mem_cons,← ih]
    by_cases any : buf = []
    · subst any
      simp [InStep,sendLtsmChannelData]
    · rw [InStep,List.filter_cons_of_pos (by simpa using any),List.length_cons,List.flatMap_cons,sendLtsmChannelData,
        if_pos any,readsFramesIff]
      exact Iff.rfl

end Ltsm.ChannelFrames
