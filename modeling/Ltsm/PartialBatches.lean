import Ltsm.TransferRequests

/-! The thread that asks for more files than there are free channels, part by part. The size of a
part is a third of the channels that are free when the thread starts; later counts are only
compared with it. Each request is taken to come through. -/
namespace Ltsm.PartialBatches
open Library TransferRequests

/- Two channels are kept for the connectors themselves; too many are an exception. -/
def countFreeChannels (channels channelsPlanned : Nat) : Option Nat :=
  let used := 2 + channels + channelsPlanned
  if 0xFF < used then none else some (0xFF - used)

/- One iteration of the loop: whether the time point is due, and what countFreeChannels returns. -/
structure Round where
  due : Bool
  count : Nat
  deriving DecidableEq, Repr

/- The files from the position to the end, and the requests so far. The time point is made in the
first iteration. -/
structure Thread where
  files : List FileSize
  freeChannels : Nat
  timed : Bool
  batches : List (List FileSize)
  deriving DecidableEq, Repr

def transferFilesPartial (count : Nat) (files : List FileSize) : Thread := ⟨files,count / 3,false,[]⟩

/- An iteration that looks at the channels; at the end there is none. -/
def Thread.Acts (t : Thread) (r : Round) : Prop := t.files ≠ [] ∧ (t.timed = true → r.due = true)

instance decidableActs (t : Thread) (r : Round) : Decidable (t.Acts r) := by
  unfold Thread.Acts; infer_instance

def turn (t : Thread) (r : Round) : Thread :=
  if t.Acts r then
    if r.count < t.freeChannels then {t with timed := true}
    else {t with
      timed := true
      files := t.files.drop t.freeChannels
      batches := t.batches ++ [t.files.take t.freeChannels]}
  else t

/- What one iteration may do: ask for nothing, or for some files that the free channels are enough
for; and where the channels are enough it moves on. -/
structure Proper (t : Thread) (r : Round) : Prop where
  fits : (turn t r).batches = t.batches ∨
    ∃ batch, (turn t r).batches = t.batches ++ [batch] ∧ batch ≠ [] ∧ batch.length ≤ r.count
  advances : t.Acts r → t.freeChannels ≤ r.count → (turn t r).files.length < t.files.length

/- The rounds that find enough free channels. -/
def adequate (chunk : Nat) (rounds : List Round) : Nat := rounds.countP fun r => r.due ∧ chunk ≤ r.count

structure Batched (count : Nat) (files : List FileSize) (rounds : List Round) : Prop where
  covers : Always turn (fun t => t.batches.flatten ++ t.files = files) (transferFilesPartial count files) rounds
  proper : Meets turn Proper (transferFilesPartial count files) rounds
  ends : files.length ≤ count / 3 * adequate (count / 3) rounds →
    (run turn (transferFilesPartial count files) rounds).files = []

section
variable {t : Thread} {r : Round}

theorem turnIdle (idle : ¬ t.Acts r) : turn t r = t := if_neg idle

theorem turnWaits (acts : t.Acts r) (few : r.count < t.freeChannels) : turn t r = {t with timed := true} :=
  (if_pos acts).trans (if_pos few)

theorem turnAsks (acts : t.Acts r) (enough : t.freeChannels ≤ r.count) :
    turn t r = {t with
      timed := true
      files := t.files.drop t.freeChannels
      batches := t.batches ++ [t.files.take t.freeChannels]} :=
  (if_pos acts).trans (if_neg (Nat.not_lt.mpr enough))

/- Everything that an iteration can do. -/
theorem turnCases (t : Thread) (r : Round) :
    turn t r = t ∧ ¬ t.Acts r ∨ turn t r = {t with timed := true} ∧ r.count < t.freeChannels ∨
      t.Acts r ∧ t.freeChannels ≤ r.count ∧ turn t r = {t with
        timed := true
        files := t.files.drop t.freeChannels
        batches := t.batches ++ [t.files.take t.freeChannels]} := by
  by_cases acts : t.Acts r
  · rcases Nat.lt_or_ge r.count t.freeChannels with few | enough
    · exact .inr (.inl ⟨turnWaits acts few,few⟩)
    · exact .inr (.inr ⟨acts,enough,turnAsks acts enough⟩)
  · exact .inl ⟨turnIdle acts,acts⟩

theorem turnKeepsSize (t : Thread) (r : Round) : (turn t r).freeChannels = t.freeChannels := by
  obtain ⟨same,_⟩ | ⟨same,_⟩ | ⟨_,_,same⟩ := turnCases t r <;> rw [same]

theorem turnCovers (t : Thread) (r : Round) :
    (turn t r).batches.flatten ++ (turn t r).files = t.batches.flatten ++ t.files := by
  obtain ⟨same,_⟩ | ⟨same,_⟩ | ⟨_,_,same⟩ := turnCases t r
  · rw [same]
  · rw [same]
  · rw [same]
    simp [List.append_assoc]

/- With parts of at least one file every iteration is proper; with empty ones none is. -/
theorem turnProper (sized : 0 < t.freeChannels) (r : Round) : Proper t r := by
  obtain ⟨same,idle⟩ | ⟨same,few⟩ | ⟨acts,enough,same⟩ := turnCases t r
  · exact ⟨.inl (by rw [same]),fun acts => absurd acts idle⟩
  · exact ⟨.inl (by rw [same]),fun _ enough => absurd few (Nat.not_lt.mpr enough)⟩
  · have some : 0 < t.files.length := List.length_pos_iff.mpr acts.1
    refine ⟨.inr ⟨t.files.take t.freeChannels,by rw [same],?_,?_⟩,fun _ _ => ?_⟩
    · rw [← List.length_pos_iff,List.length_take]
      exact Nat.lt_min.mpr ⟨sized,some⟩
    · rw [List.length_take]
      exact (Nat.min_le_left _ _).trans enough
    · rw [same,List.length_drop]
      exact Nat.sub_lt some sized

theorem turnDone (done : t.files = []) : turn t r = t := turnIdle fun acts => acts.1 done

theorem properDone (done : t.files = []) (r : Round) : Proper t r where
  fits := .inl (by rw [turnDone done])
  advances := fun acts => absurd done acts.1

theorem turnStuck (acts : t.Acts r) (empty : t.freeChannels = 0) : ¬ Proper t r := by
  intro proper
  have enough : t.freeChannels ≤ r.count := empty ▸ Nat.zero_le _
  have moved := proper.advances acts enough
  rw [turnAsks acts enough,empty,List.drop_zero] at moved
  exact Nat.lt_irrefl _ moved

/- What is left after rounds, against those that found enough channels. -/
theorem turnShrinks (t : Thread) (r : Round) :
    (turn t r).files.length ≤ t.files.length - t.freeChannels * adequate t.freeChannels [r] := by
  by_cases good : r.due = true ∧ t.freeChannels ≤ r.count
  · have one : adequate t.freeChannels [r] = 1 := by simp [adequate,good]
    rw [one,Nat.mul_one]
    by_cases done : t.files = []
    · rw [turnDone done,done]
      exact Nat.zero_le _
    · rw [turnAsks ⟨done,fun _ => good.1⟩ good.2,List.length_drop]
  · have none : adequate t.freeChannels [r] = 0 := by
      simp only [adequate,List.countP_cons,List.countP_nil,decide_eq_true_eq,if_neg good]
    rw [none,Nat.mul_zero,Nat.sub_zero]
    obtain ⟨same,_⟩ | ⟨same,_⟩ | ⟨_,_,same⟩ := turnCases t r
    · rw [same]
    · rw [same]
    · rw [same,List.length_drop]
      exact Nat.sub_le _ _

end

theorem runShrinks (t : Thread) (rounds : List Round) :
    (run turn t rounds).files.length ≤ t.files.length - t.freeChannels * adequate t.freeChannels rounds := by
  induction rounds generalizing t with
  | nil => exact Nat.le_refl _
  | cons r rest ih =>
    have first := turnShrinks t r
    have later := ih (turn t r)
    have split : adequate t.freeChannels (r :: rest) = adequate t.freeChannels [r] + adequate t.freeChannels rest :=
      @List.countP_append _ _ [r] rest
    rw [turnKeepsSize] at later
    rw [runCons,split,Nat.mul_add]
    omega

theorem thirdPositive {count : Nat} : 0 < count / 3 ↔ 3 ≤ count := Nat.div_pos_iff.trans (by simp)

/- The parts cover the files, fit the channels and are all asked for in the end exactly when three
channels are free at the start; with one or two a part has no files, and the thread asks for it
for ever. -/
theorem batchesIff (count : Nat) (files : List FileSize) (rounds : List Round) :
    Batched count files rounds ↔ rounds = [] ∨ files = [] ∨ 3 ≤ count := by
  constructor
  · intro batched
    by_contra bad
    obtain ⟨begun,filled,few⟩ : rounds ≠ [] ∧ files ≠ [] ∧ ¬ 3 ≤ count := by tauto
    obtain ⟨r,rest,rfl⟩ := List.exists_cons_of_ne_nil begun
    have empty : count / 3 = 0 := Nat.eq_zero_of_not_pos fun sized => few (thirdPositive.mp sized)
    exact turnStuck ⟨filled,fun timed => absurd timed Bool.false_ne_true⟩ empty batched.proper.1
  · intro good
    have covered : ∀ actions, (run turn (transferFilesPartial count files) actions).batches.flatten ++
        (run turn (transferFilesPartial count files) actions).files = files :=
      runInvariant (P := fun t => t.batches.flatten ++ t.files = files) (fun t r h => (turnCovers t r).trans h) rfl
    refine ⟨fun first _ => covered first,?_,fun enough => ?_⟩
    · rcases good with rfl | rfl | three
      · trivial
      · exact meetsAll (P := fun t => t.files = []) (fun t r done => by rwa [turnDone done])
          (fun t r done => properDone done r) rfl rounds
      · exact meetsAll (P := fun t => 0 < t.freeChannels) (fun t r sized => by rwa [turnKeepsSize])
          (fun t r sized => turnProper sized r) (thirdPositive.mpr three) rounds
    · have left := runShrinks (transferFilesPartial count files) rounds
      have none : files.length - count / 3 * adequate (count / 3) rounds = 0 := Nat.sub_eq_zero_of_le enough
      exact List.length_eq_zero_iff.mp (Nat.le_zero.mp (left.trans none.le))

/- Three files, and two free channels: more files than channels, so the thread is started. -/
theorem twoFreeStuck : countFreeChannels 251 0 = some 2 ∧
    (systemTransferFiles ⟨true,some [some ("a",1),some ("b",1),some ("c",1)],false,0,2,none⟩ start).partials =
      [⟨[⟨"a",1⟩,⟨"b",1⟩,⟨"c",1⟩],none⟩] ∧
    ¬ Batched 2 [⟨"a",1⟩,⟨"b",1⟩,⟨"c",1⟩] [⟨true,2⟩] := by
  refine ⟨rfl,by decide,fun batched => ?_⟩
  exact turnStuck ⟨List.cons_ne_nil _ _,fun _ => rfl⟩ rfl batched.proper.1

section
variable {t : Thread} {s : Transfers} {r : Round} {index : Nat}

/-! The thread among the others. -/
theorem startAgrees {files : List FileSize} (held : s.partials[index]? = some ⟨files,none⟩) (count : Nat) :
    (partialStart index count s).partials[index]? = some ⟨files,some (transferFilesPartial count files).freeChannels⟩ := by
  obtain ⟨here,_⟩ := List.getElem?_eq_some_iff.mp held
  simp [partialStart,held,transferFilesPartial,List.getElem?_set_self here]

theorem turnAgrees (held : s.partials[index]? = some ⟨t.files,some t.freeChannels⟩) (acts : t.Acts r) (a : Admission) :
    (partialTurn index r.count (some a) s).partials[index]? = some ⟨(turn t r).files,some t.freeChannels⟩ ∧
    (partialTurn index r.count (some a) s).requests = s.requests ++
      if busTransferFilesRequest a then (turn t r).batches.drop t.batches.length else [] := by
  obtain ⟨here,_⟩ := List.getElem?_eq_some_iff.mp held
  rcases Nat.lt_or_ge r.count t.freeChannels with few | enough
  · rw [turnWaits acts few]
    simp [partialTurn,held,acts.1,few]
  · have asks : partialTurn index r.count (some a) s =
        {s with partials := s.partials.set index ⟨t.files.drop t.freeChannels,some t.freeChannels⟩}.request (some a)
          (t.files.take t.freeChannels) := by
      simp [partialTurn,held,acts.1,Nat.not_lt.mpr enough]
    rw [turnAsks acts enough,asks,Transfers.request]
    by_cases admitted : busTransferFilesRequest a = true
    · simp [admitted,List.getElem?_set_self here]
    · simp [admitted,List.getElem?_set_self here]

end
end Ltsm.PartialBatches
