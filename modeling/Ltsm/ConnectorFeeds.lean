import Ltsm.FuseCommands
import Ltsm.FuseReplies
import Ltsm.AudioCommands
import Ltsm.PcscCommands
import Ltsm.Pkcs11Commands

/-! The command stream of a connector's channel, and the frames it is cut into. -/
namespace Ltsm.ConnectorFeeds
open Library StreamBufs

section
variable {S C : Type} (format : Format S C) (execute : S → C → Option S)

/- Commands as they are written, and some frames with their bytes. -/
structure Framed (cmds : List C) (frames : List Bytes) : Prop where
  valid : ∀ c ∈ cmds, format.Valid c
  cut : frames.flatten = (format.coding execute).stream cmds

/- After each frame the commands that have arrived were executed, once and in order, and what
there is of the next one is in `last`. -/
def TakenOnce (s : S) (cmds : List C) (frames : List Bytes) : Prop := (format.coding execute).Exact s cmds frames

/- What each frame finds, and adds: commands that are taken as they are and executed, and behind
them nothing or as much of the next one as begins it and asks for more. -/
def CleanFrames (s : S) (cmds : List C) (frames : List Bytes) : Prop :=
  Meets (format.feeder execute).push ((format.coding execute).Proper cmds) (some ⟨s,[],[]⟩) frames

variable {format} {execute} {s : S} {cmds : List C} {frames : List Bytes}

theorem takenOnceIff (framed : Framed format execute cmds frames) :
    TakenOnce format execute s cmds frames ↔ CleanFrames format execute s cmds frames :=
  Coding.exactIff framed.valid framed.cut

/- A tail that does not begin a command, behind one that was begun. -/
theorem tailNotTaken {c next : C} {later : List Bytes} (tail : Bytes) (any : tail ≠ [])
    (few : tail.length < format.header)
    (framed : Framed format execute (c :: next :: cmds) (((format.coding execute).encode c ++ tail) :: later)) :
    ¬ TakenOnce format execute s (c :: next :: cmds) (((format.coding execute).encode c ++ tail) :: later) := by
  rw [takenOnceIff framed]
  rintro ⟨first,_⟩
  have clean := first _ rfl
  simp only [List.nil_append,List.length_nil,List.drop_zero] at clean
  rw [Coding.Clean,if_pos (by simp),List.drop_left] at clean
  obtain ⟨_,_,_,rest⟩ := clean
  have short : tail.length < ((format.coding execute).encode next).length :=
    Nat.lt_of_lt_of_le few ((format.coding execute).filled (framed.valid next (by simp)))
  have header : ¬ (format.feeder execute).header ≤ tail.length := not_le.mpr few
  rw [Coding.Clean,if_neg (not_le.mpr short),if_neg header] at rest
  simp [any] at rest

end

theorem connectorsTakeOnce (owner : FuseClient.Owner) (kernels : Nat → FuseClient.Kernel) {Audio Pcsc Pkcs11 : Type}
    (audio : Audio → AudioCommands.Command → Option Audio) (pcsc : Pcsc → PcscCommands.Command → Option Pcsc)
    (pkcs11 : Pkcs11 → Pkcs11Commands.Command → Option Pkcs11) :
    (∀ s cmds frames, Framed FuseCommands.format (FuseCommands.execute owner kernels) cmds frames →
      (TakenOnce FuseCommands.format (FuseCommands.execute owner kernels) s cmds frames ↔
        CleanFrames FuseCommands.format (FuseCommands.execute owner kernels) s cmds frames)) ∧
    (∀ s cmds frames, Framed (AudioCommands.format Audio) audio cmds frames →
      (TakenOnce (AudioCommands.format Audio) audio s cmds frames ↔
        CleanFrames (AudioCommands.format Audio) audio s cmds frames)) ∧
    (∀ s cmds frames, Framed (PcscCommands.format Pcsc) pcsc cmds frames →
      (TakenOnce (PcscCommands.format Pcsc) pcsc s cmds frames ↔
        CleanFrames (PcscCommands.format Pcsc) pcsc s cmds frames)) ∧
    (∀ s cmds frames, Framed (Pkcs11Commands.format Pkcs11) pkcs11 cmds frames →
      (TakenOnce (Pkcs11Commands.format Pkcs11) pkcs11 s cmds frames ↔
        CleanFrames (Pkcs11Commands.format Pkcs11) pkcs11 s cmds frames)) :=
  ⟨fun _ _ _ => takenOnceIff,fun _ _ _ => takenOnceIff,fun _ _ _ => takenOnceIff,fun _ _ _ => takenOnceIff⟩

/- A system that shares nothing. -/
def noShares : FuseClient.Owner := ⟨[],fun _ => ⟨[],[]⟩⟩

def oneSystem (_ : Nat) : FuseClient.Kernel := FuseReplies.oneFile []

section
variable {S C : Type} {format : Format S C} {execute : S → C → Option S} {s next : S} {c last : C} {more : Bytes}

/- Two frames, the first with one command and a part of the other. -/
theorem twoFrames (frame : Bytes)
    (framed : Framed format execute [c,last] [(format.coding execute).encode c ++ frame,more])
    (few : frame.length < ((format.coding execute).encode last).length) (begun : format.header ≤ frame.length)
    (whole : format.Closed s c frame) (ran : execute s c = some next) (part : format.Splits next last (frame.length - 2))
    (closed : format.Closed next last []) (runs : (execute next last).isSome = true) :
    CleanFrames format execute s [c,last] [(format.coding execute).encode c ++ frame,more] := by
  obtain ⟨valid,cut⟩ := framed
  have split : frame ++ more = (format.coding execute).encode last := by
    simpa [Coding.stream] using cut
  have front : ((format.coding execute).encode last).take frame.length = frame := by rw [← split,List.take_left]
  have there : (format.feeder execute).header ≤ ((format.coding execute).encode c ++ frame).length := by
    rw [List.length_append]
    exact le_add_left begun
  have parsed := ((format.coding execute).whole (s := s) (valid c (by simp))).mpr ⟨rfl,whole⟩
  have asks := ((format.coding execute).part (s := next) (valid last (by simp)) begun few).mpr part
  rw [front] at asks
  have push : (format.feeder execute).push (some ⟨s,[],[]⟩) ((format.coding execute).encode c ++ frame) =
      some ⟨next,frame,[c]⟩ := by
    have loops : (format.feeder execute).loop s none [] ((format.coding execute).encode c ++ frame) =
        some ⟨next,frame,[c]⟩ := by
      rw [Feeder.loopTaken there parsed]
      have ran : (format.feeder execute).execute s c = some next := ran
      rw [ran,Option.bind_some]
      exact Feeder.loopUnderflow begun asks
    exact loops
  obtain ⟨done,finished⟩ := Option.isSome_iff_exists.mp runs
  have header : (format.feeder execute).header ≤ frame.length := begun
  refine ⟨?_,?_,trivial⟩
  · rintro _ ⟨⟩
    simp only [List.nil_append,List.length_nil,List.drop_zero]
    rw [Coding.Clean,if_pos (by simp),List.drop_left]
    refine ⟨whole,next,ran,?_⟩
    rw [Coding.Clean,if_neg (not_le.mpr few),if_pos header]
    exact part
  · rw [push]
    rintro _ ⟨⟩
    simp only [List.length_singleton,List.drop_succ_cons,List.drop_zero,split]
    rw [Coding.Clean,if_pos le_rfl,List.drop_length]
    exact ⟨closed,done,finished,trivial⟩

end

/- Two frames for two commands of each connector, cut inside the second one. -/
theorem connectorsTakeTwo :
    TakenOnce FuseCommands.format (FuseCommands.execute noShares oneSystem) {} [.init [47],.init [47]]
      [[1,0xFF,2,0,1,0,47,1,0xFF,2],[0,1,0,47]] ∧
    TakenOnce (AudioCommands.format Unit) (fun _ _ => some ()) () [.silent 7,.data [1,2]]
      [[3,0xFE,7,0,0,0,2,0xFE,2],[0,0,0,1,2]] ∧
    TakenOnce (PcscCommands.format Unit) (fun _ _ => some ()) () [.init,.establishContext 2]
      [[1,0xFD,2,0,2,0xFD,1,0],[2,0,0,0]] ∧
    TakenOnce (Pkcs11Commands.format Unit) (fun _ _ => some ()) () [.init,.getSlotMechanisms 1]
      [[1,0xFC,1,0,3,0xFC,1],[0,0,0,0,0,0,0]] := by
  obtain ⟨fuse,audio,pcsc,pkcs11⟩ := @connectorsTakeOnce noShares oneSystem Unit Unit Unit (fun _ _ => some ())
    (fun _ _ => some ()) (fun _ _ => some ())
  have fuseFramed : Framed FuseCommands.format (FuseCommands.execute noShares oneSystem) [.init [47],.init [47]]
      [[1,0xFF,2,0,1,0,47,1,0xFF,2],[0,1,0,47]] :=
    ⟨by simp [FuseCommands.format,FuseCommands.Valid,FuseCommands.path],by decide⟩
  have audioFramed : Framed (AudioCommands.format Unit) (fun _ _ => some ()) [.silent 7,.data [1,2]]
      [[3,0xFE,7,0,0,0,2,0xFE,2],[0,0,0,1,2]] := ⟨by simp [AudioCommands.format,AudioCommands.Valid],by decide⟩
  have pcscFramed : Framed (PcscCommands.format Unit) (fun _ _ => some ()) [.init,.establishContext 2]
      [[1,0xFD,2,0,2,0xFD,1,0],[2,0,0,0]] :=
    ⟨by simp [PcscCommands.format,PcscCommands.Valid,PcscCommands.data,PcscCommands.states],by decide⟩
  have pkcs11Framed : Framed (Pkcs11Commands.format Unit) (fun _ _ => some ()) [.init,.getSlotMechanisms 1]
      [[1,0xFC,1,0,3,0xFC,1],[0,0,0,0,0,0,0]] :=
    ⟨by simp [Pkcs11Commands.format,Pkcs11Commands.Valid,Pkcs11Commands.keyUse],by decide⟩
  refine ⟨(fuse _ _ _ fuseFramed).mpr ?_,(audio _ _ _ audioFramed).mpr ?_,(pcsc _ _ _ pcscFramed).mpr ?_,
    (pkcs11 _ _ _ pkcs11Framed).mpr ?_⟩
  · exact twoFrames [1,0xFF,2] fuseFramed (by decide) (by decide)
      (by simp [FuseCommands.format,FuseCommands.Closed,FuseCommands.Admitted,FuseCommands.isInit,FuseCommands.path]) rfl
      (.inr rfl) (by simp [FuseCommands.format,FuseCommands.Closed,FuseCommands.Admitted,FuseCommands.isInit]) rfl
  · exact twoFrames [2,0xFE,2] audioFramed (by decide) (by decide) trivial rfl trivial trivial rfl
  · exact twoFrames [2,0xFD,1,0] pcscFramed (by decide) (by decide) (fun _ => by simp_all [PcscCommands.data])
      rfl (.inr (by decide)) (fun _ => rfl) rfl
  · exact twoFrames [3,0xFC,1] pkcs11Framed (by decide) (by decide)
      (by simp [Pkcs11Commands.format,Pkcs11Commands.Closed,Pkcs11Commands.keyUse]) rfl
      (by simp [Pkcs11Commands.format,Pkcs11Commands.Splits,Pkcs11Commands.keyUse])
      (by simp [Pkcs11Commands.format,Pkcs11Commands.Closed,Pkcs11Commands.keyUse]) rfl

/- One byte of the second command behind the first one. -/
theorem tailTakesAgain :
    (Framed FuseCommands.format (FuseCommands.execute noShares oneSystem) [.init [47],.init [48]]
        [[1,0xFF,2,0,1,0,47,1],[0xFF,2,0,1,0,48]] ∧
      ¬ TakenOnce FuseCommands.format (FuseCommands.execute noShares oneSystem) {} [.init [47],.init [48]]
        [[1,0xFF,2,0,1,0,47,1],[0xFF,2,0,1,0,48]]) ∧
    (Framed (AudioCommands.format Unit) (fun _ _ => some ()) [.silent 7,.silent 8]
        [[3,0xFE,7,0,0,0,3],[0xFE,8,0,0,0]] ∧
      ¬ TakenOnce (AudioCommands.format Unit) (fun _ _ => some ()) () [.silent 7,.silent 8]
        [[3,0xFE,7,0,0,0,3],[0xFE,8,0,0,0]]) ∧
    (Framed (PcscCommands.format Unit) (fun _ _ => some ()) [.init,.establishContext 2]
        [[1,0xFD,2,0,2],[0xFD,1,0,2,0,0,0]] ∧
      ¬ TakenOnce (PcscCommands.format Unit) (fun _ _ => some ()) () [.init,.establishContext 2]
        [[1,0xFD,2,0,2],[0xFD,1,0,2,0,0,0]]) ∧
    Framed (Pkcs11Commands.format Unit) (fun _ _ => some ()) [.init,.getSlots true]
        [[1,0xFC,1,0,2],[0xFC,1]] ∧
      ¬ TakenOnce (Pkcs11Commands.format Unit) (fun _ _ => some ()) () [.init,.getSlots true]
        [[1,0xFC,1,0,2],[0xFC,1]] := by
  have fuse : Framed FuseCommands.format (FuseCommands.execute noShares oneSystem) [.init [47],.init [48]]
      [[1,0xFF,2,0,1,0,47,1],[0xFF,2,0,1,0,48]] :=
    ⟨by simp [FuseCommands.format,FuseCommands.Valid,FuseCommands.path],by decide⟩
  have audio : Framed (AudioCommands.format Unit) (fun _ _ => some ()) [.silent 7,.silent 8]
      [[3,0xFE,7,0,0,0,3],[0xFE,8,0,0,0]] := ⟨by simp [AudioCommands.format,AudioCommands.Valid],by decide⟩
  have pcsc : Framed (PcscCommands.format Unit) (fun _ _ => some ()) [.init,.establishContext 2]
      [[1,0xFD,2,0,2],[0xFD,1,0,2,0,0,0]] :=
    ⟨by simp [PcscCommands.format,PcscCommands.Valid,PcscCommands.data,PcscCommands.states],by decide⟩
  have pkcs11 : Framed (Pkcs11Commands.format Unit) (fun _ _ => some ()) [.init,.getSlots true]
      [[1,0xFC,1,0,2],[0xFC,1]] :=
    ⟨by simp [Pkcs11Commands.format,Pkcs11Commands.Valid,Pkcs11Commands.keyUse],by decide⟩
  exact ⟨⟨fuse,tailNotTaken [1] (by decide) (by decide) fuse⟩,⟨audio,tailNotTaken [3] (by decide) (by decide) audio⟩,
    ⟨pcsc,tailNotTaken [2] (by decide) (by decide) pcsc⟩,pkcs11,tailNotTaken [2] (by decide) (by decide) pkcs11⟩

end Ltsm.ConnectorFeeds
