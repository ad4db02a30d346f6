import Ltsm.ServerMessages
import Ltsm.Library.EmplaceMap
import Ltsm.Library.Run

/-! The contexts and card handles of the remote side are numbers of 64 bits; a local client is
given a number of 32 bits for each, and the session finds the way back in a map. -/
namespace Ltsm.PcscHandles
open Library ServerMessages

/- The bytes of the number, as they lie in memory. -/
def context32 (remote : UInt64) : UInt32 := crc32b (littleEndian 8 remote.toNat) &&& 0x7FFFFFFF

/- `given` are the numbers that clients have been given and that are still to be found. -/
structure Remote where
  mapContext : List (UInt32 × UInt64) := []
  given : List UInt64 := []

namespace Remote

def makeContext64 (s : Remote) (remote : UInt64) : Remote :=
  {s with mapContext := emplace s.mapContext (context32 remote) remote, given := remote :: s.given}

def findContext32 (s : Remote) (loc : UInt32) : UInt64 := (findKey s.mapContext loc).getD 0

def removeContext32 (s : Remote) (loc : UInt32) : Remote :=
  {s with mapContext := s.mapContext.filter (·.1 ≠ loc), given := s.given.filter (context32 · ≠ loc)}

end Remote

/- A successful reply with a context or with a handle of a card, and the release of a context
by the client that has it. -/
inductive Action
  | established (context64 : UInt64)
  | connected (handle64 : UInt64)
  | released (context : UInt32)
  deriving DecidableEq, Repr

/- proxyReleaseContext takes no zero for a context; a handle is never removed. -/
def step (s : Remote) : Action → Remote
  | .established context64 => s.makeContext64 context64
  | .connected handle64 => s.makeContext64 handle64
  | .released context => if context = 0 then s else s.removeContext32 context

/- Each number that was given has a number of its own for the client, by which it is found. -/
structure Faithful (s : Remote) : Prop where
  valid : ∀ v ∈ s.given, context32 v ≠ 0
  distinct : ∀ v ∈ s.given, ∀ w ∈ s.given, v ≠ w → context32 v ≠ context32 w
  found : ∀ v ∈ s.given, s.findContext32 (context32 v) = v

/- The map has an entry for each number that was given, though not always that number. -/
structure Recorded (s : Remote) : Prop where
  once : (keysOf s.mapContext).Nodup
  keyed : ∀ x ∈ s.mapContext, x.1 = context32 x.2 ∧ x.2 ∈ s.given
  kept : ∀ v ∈ s.given, context32 v ∈ keysOf s.mapContext

def Fresh (s : Remote) (remote : UInt64) : Prop :=
  context32 remote ≠ 0 ∧ ∀ w ∈ s.given, w ≠ remote → context32 w ≠ context32 remote

/- A number from the remote side whose checksum is neither zero nor that of another one. -/
def Distinct (s : Remote) : Action → Prop
  | .established context64 => Fresh s context64
  | .connected handle64 => Fresh s handle64
  | .released _ => True

theorem recordedMake {s : Remote} (recorded : Recorded s) (remote : UInt64) : Recorded (s.makeContext64 remote) where
  once := keysEmplace recorded.once
  keyed x inside := by
    rcases memEmplace.mp inside with old | ⟨rfl,_⟩
    · exact ⟨(recorded.keyed x old).1,List.mem_cons_of_mem _ (recorded.keyed x old).2⟩
    · exact ⟨rfl,List.mem_cons_self⟩
  kept v inside := by
    rcases List.mem_cons.mp inside with rfl | old
    · exact keyEmplaced
    · obtain ⟨x,here,key⟩ := List.mem_map.mp (recorded.kept v old)
      exact List.mem_map.mpr ⟨x,memEmplace.mpr (.inl here),key⟩

theorem recordedRemove {s : Remote} (recorded : Recorded s) (loc : UInt32) : Recorded (s.removeContext32 loc) where
  once := (List.filter_sublist.map Prod.fst).nodup recorded.once
  keyed x inside := by
    obtain ⟨old,other⟩ := List.mem_filter.mp inside
    obtain ⟨key,was⟩ := recorded.keyed x old
    refine ⟨key,List.mem_filter.mpr ⟨was,?_⟩⟩
    rwa [key] at other
  kept v inside := by
    obtain ⟨old,other⟩ := List.mem_filter.mp inside
    obtain ⟨x,here,key⟩ := List.mem_map.mp (recorded.kept v old)
    exact List.mem_map.mpr ⟨x,List.mem_filter.mpr ⟨here,by rwa [key]⟩,key⟩

theorem recordedStep (s : Remote) (a : Action) (recorded : Recorded s) : Recorded (step s a) := by
  cases a with
  | established context64 => exact recordedMake recorded context64
  | connected handle64 => exact recordedMake recorded handle64
  | released context =>
    rw [step]
    split
    · exact recorded
    · exact recordedRemove recorded context

/- What is found by a key, where the map has it. -/
theorem findOf {s : Remote} (recorded : Recorded s) {loc : UInt32} {v : UInt64} (inside : (loc,v) ∈ s.mapContext) :
    s.findContext32 loc = v := by
  rw [Remote.findContext32,(findKeyIff recorded.once).mpr inside]
  rfl

/- Of the numbers with one checksum only the first is found. -/
theorem makeFaithfulIff {s : Remote} (recorded : Recorded s) (faithful : Faithful s) (remote : UInt64) :
    Faithful (s.makeContext64 remote) ↔ Fresh s remote := by
  constructor
  · intro after
    refine ⟨after.valid remote List.mem_cons_self,fun w inside other => ?_⟩
    exact after.distinct w (List.mem_cons_of_mem _ inside) remote List.mem_cons_self other
  · rintro ⟨nonzero,other⟩
    have next := recordedMake recorded remote
    refine ⟨?_,?_,?_⟩
    · intro v inside
      rcases List.mem_cons.mp inside with rfl | old
      · exact nonzero
      · exact faithful.valid v old
    · intro v first w second different
      rcases List.mem_cons.mp first with rfl | here <;> rcases List.mem_cons.mp second with rfl | there
      · exact absurd rfl different
      · exact (other w there different.symm).symm
      · exact other v here different
      · exact faithful.distinct v here w there different
    · intro v inside
      obtain ⟨x,here,key⟩ := List.mem_map.mp (next.kept v inside)
      obtain ⟨own,was⟩ := next.keyed x here
      have same : x.2 = v := by
        by_contra different
        have keys : context32 x.2 = context32 v := own.symm.trans key
        rcases List.mem_cons.mp inside with rfl | old <;> rcases List.mem_cons.mp was with rfl | before
        · exact different rfl
        · exact other x.2 before different keys
        · exact other v old (Ne.symm different) keys.symm
        · exact faithful.distinct x.2 before v old different keys
      have entry : x = (context32 v,v) := Prod.ext key same
      exact findOf next (entry ▸ here)

theorem removeFaithful {s : Remote} (recorded : Recorded s) (faithful : Faithful s) (loc : UInt32) :
    Faithful (s.removeContext32 loc) := by
  have next := recordedRemove recorded loc
  refine ⟨fun v inside => ?_,fun v first w second => ?_,fun v inside => ?_⟩
  · exact faithful.valid v (List.mem_of_mem_filter inside)
  · exact faithful.distinct v (List.mem_of_mem_filter first) w (List.mem_of_mem_filter second)
  · obtain ⟨x,here,key⟩ := List.mem_map.mp (next.kept v inside)
    obtain ⟨own,was⟩ := next.keyed x here
    have same : x.2 = v := by
      by_contra different
      exact faithful.distinct x.2 (List.mem_of_mem_filter was) v (List.mem_of_mem_filter inside) different
        (own.symm.trans key)
    have entry : x = (context32 v,v) := Prod.ext key same
    exact findOf next (entry ▸ here)

theorem stepFaithfulIff (s : Remote) (a : Action) (recorded : Recorded s) (faithful : Faithful s) :
    Faithful (step s a) ↔ Distinct s a := by
  cases a with
  | established context64 => exact makeFaithfulIff recorded faithful context64
  | connected handle64 => exact makeFaithfulIff recorded faithful handle64
  | released context =>
    refine iff_of_true ?_ trivial
    rw [step]
    split
    · exact faithful
    · exact removeFaithful recorded faithful context

theorem startRecorded : Recorded {} := ⟨List.nodup_nil,by simp,by simp⟩

theorem startFaithful : Faithful {} := ⟨by simp,by simp,by simp⟩

/- The numbers stay apart exactly in the runs that bring no checksum twice, and none of zero. -/
theorem handlesFaithful (actions : List Action) : Always step Faithful {} actions ↔ Meets step Distinct {} actions :=
  alwaysIff recordedStep stepFaithfulIff startRecorded startFaithful actions

/- The high bit of the checksum is cut off: two contexts for one number, and a context for none. -/
theorem checksumsMeet : context32 0x1234 = context32 0x2E9BA63F ∧ context32 0x101B2F50 = 0 := by decide +kernel

theorem secondContextLost : ¬Always step Faithful {} [.established 0x1234,.established 0x2E9BA63F] := by
  intro all
  have after : Faithful (run step {} [.established 0x1234,.established 0x2E9BA63F]) := all _ (List.prefix_refl _)
  exact after.distinct 0x1234 (by decide) 0x2E9BA63F (by decide) (by decide) checksumsMeet.1

end Ltsm.PcscHandles
