import Ltsm.Library.Population
import Ltsm.Library.Run

/-! The mutex of the coroutines. Whoever counts himself in first holds it; the others wait on a timer
that never expires, and who leaves it to others takes one of them off the timer. Each action is one
atomic step of one coroutine, so a list of actions is an interleaving. -/
namespace Ltsm.AsyncMutex
open Library

/- Where a coroutine is: outside, past the first look at `cancelled`, counted in, in the timer's
queue, taken off it, inside, counted out while others are in, and trying to take one off. -/
inductive Phase
  | idle
  | ready
  | entering
  | waiting
  | woken
  | holding
  | leaving
  | releasing
  deriving DecidableEq, Repr

namespace Phase

def holds : Phase → Bool
  | .holding => true
  | _ => false

def waits : Phase → Bool
  | .entering | .waiting | .woken => true
  | _ => false

/- Counted by the mutex. -/
def inside (p : Phase) : Bool := p.holds || p.waits

/- On the way to wake one. -/
def wakes : Phase → Bool
  | .leaving | .releasing => true
  | _ => false

/- Has the mutex, has just been given it, or is to give it. -/
def token : Phase → Bool
  | .holding | .woken | .leaving | .releasing => true
  | _ => false

end Phase

/- The last two count the releases that left others waiting, and the waiters taken off. -/
structure Mutex (ι : Type) where
  queue : UInt32
  cancelled : Bool
  timer : List ι
  phase : ι → Phase
  releases : Nat
  wakes : Nat

def start {ι : Type} : Mutex ι := ⟨0,false,[],fun _ => .idle,0,0⟩

inductive Action (ι : Type)
  | advance (c : ι)
  | cancelStore
  | cancelTimer
  | cancelQueue
  deriving DecidableEq, Repr

def Action.Calm {ι : Type} : Action ι → Prop
  | .advance _ => True
  | _ => False

theorem wakerApart {ι : Type} {s : Mutex ι} {c w : ι} (wakes : (s.phase c).wakes = true)
    (waits : s.phase w = .entering ∨ s.phase w = .waiting) : c ≠ w := by
  rintro rfl
  rcases waits with there | there <;> simp [there,Phase.wakes] at wakes

section
variable {ι : Type} [DecidableEq ι]

def Mutex.move (s : Mutex ι) (c : ι) (p : Phase) : Mutex ι := {s with phase := Function.update s.phase c p}

/- The next atomic step of a coroutine. Whoever waits does nothing by himself. -/
def advance (s : Mutex ι) (c : ι) : Mutex ι :=
  match s.phase c with
  | .idle => if s.cancelled then s else s.move c .ready
  | .ready =>
    let t := {s with queue := s.queue + 1}
    if 0 < s.queue then t.move c .entering else t.move c .holding
  | .entering => {s with timer := s.timer ++ [c]}.move c .waiting
  | .waiting => s
  | .woken => if s.cancelled then s.move c .idle else s.move c .holding
  | .holding =>
    let t := {s with queue := s.queue - 1}
    if 1 < s.queue then {t with releases := s.releases + 1}.move c .leaving else t.move c .idle
  | .leaving => if s.cancelled then s.move c .idle else s.move c .releasing
  | .releasing =>
    match s.timer with
    | [] => s
    | first :: rest => ({s with timer := rest, wakes := s.wakes + 1}.move first .woken).move c .idle

def step (s : Mutex ι) : Action ι → Mutex ι
  | .advance c => advance s c
  | .cancelStore => {s with cancelled := true}
  | .cancelTimer => {s with timer := [], phase := fun c => if c ∈ s.timer then .woken else s.phase c}
  | .cancelQueue => {s with queue := 0}

/- A phase that is neither left for the timer nor entered from it. -/
theorem timedElsewhere {s : Mutex ι} (timed : ∀ c, c ∈ s.timer ↔ s.phase c = .waiting) {c : ι} {before : Phase}
    (here : s.phase c = before) (after : Phase) (apart : before ≠ .waiting ∧ after ≠ .waiting) (d : ι) :
    d ∈ s.timer ↔ Function.update s.phase c after d = .waiting := by
  by_cases same : d = c
  · subst same
    rw [Function.update_self,timed,here]
    exact iff_of_false apart.1 apart.2
  · rw [Function.update_of_ne same,timed]

/- A step of a coroutine that is not trying to wake one. -/
theorem advanceOwn {s : Mutex ι} (calm : s.cancelled = false) {d : ι} (steady : s.phase d ≠ .releasing) :
    (advance s d).wakes = s.wakes ∧ ∃ p, (advance s d).phase = Function.update s.phase d p ∧
      (s.phase d = .entering → p = .waiting) ∧ (s.phase d = .waiting → p = .waiting) ∧
      (s.phase d = .leaving → p = .releasing) := by
  have open' : ¬ s.cancelled = true := by simp [calm]
  unfold advance
  split
  · rename_i here
    rw [if_neg open']
    exact ⟨rfl,.ready,rfl,by simp [here]⟩
  · rename_i here
    dsimp only
    split
    · exact ⟨rfl,.entering,rfl,by simp [here]⟩
    · exact ⟨rfl,.holding,rfl,by simp [here]⟩
  · rename_i here
    exact ⟨rfl,.waiting,rfl,by simp [here]⟩
  · rename_i here
    exact ⟨rfl,.waiting,(Function.update_eq_self_iff.mpr here.symm).symm,by simp [here]⟩
  · rename_i here
    rw [if_neg open']
    exact ⟨rfl,.holding,rfl,by simp [here]⟩
  · rename_i here
    dsimp only
    split
    · exact ⟨rfl,.leaving,rfl,by simp [here]⟩
    · exact ⟨rfl,.idle,rfl,by simp [here]⟩
  · rename_i here
    rw [if_neg open']
    exact ⟨rfl,.releasing,rfl,by simp [here]⟩
  · rename_i here
    exact absurd here steady

theorem wakesGrow {s : Mutex ι} (calm : s.cancelled = false) (d : ι) : s.wakes ≤ (advance s d).wakes := by
  by_cases steady : s.phase d = .releasing
  · rw [advance,steady]
    dsimp only
    split
    · exact Nat.le_refl _
    · exact Nat.le_succ _
  · exact (advanceOwn calm steady).1.ge

end

section
variable {ι : Type} [Fintype ι]

/- What holds where nothing is cancelled. There is one token while anybody is counted. -/
structure Sound (s : Mutex ι) : Prop where
  calm : s.cancelled = false
  timed : ∀ c, c ∈ s.timer ↔ s.phase c = .waiting
  once : s.timer.Nodup
  counted : s.queue.toNat = population Phase.inside s.phase
  free : population Phase.inside s.phase = 0 → population Phase.token s.phase = 0
  taken : 0 < population Phase.inside s.phase → population Phase.token s.phase = 1
  released : s.releases = s.wakes + population Phase.wakes s.phase

theorem startSound : Sound (start : Mutex ι) := by
  have none : ∀ kind : Phase → Bool, kind .idle = false → population kind (start : Mutex ι).phase = 0 :=
    fun kind outside => populationZero.mpr fun _ => outside
  have quiet : (start : Mutex ι).releases = (start : Mutex ι).wakes + population Phase.wakes (start : Mutex ι).phase :=
    ((Nat.zero_add _).trans (none Phase.wakes rfl)).symm
  exact ⟨rfl,by simp [start],List.nodup_nil,(none _ rfl).symm,fun _ => none _ rfl,
    fun some => absurd (none Phase.inside rfl) (Nat.ne_of_gt some),quiet⟩

/- What is promised in every state: one holder; the counter counts holders and waiters, so that who
leaves sees whether somebody waits; somebody has or gives the mutex while one waits; and each release
that left waiters has woken one or is on the way to, which is then the only one. -/
structure Safe (s : Mutex ι) : Prop where
  exclusive : ∀ c d, s.phase c = .holding → s.phase d = .holding → c = d
  counted : s.queue.toNat = population Phase.holds s.phase + population Phase.waits s.phase
  seen : ∀ c, s.phase c = .holding → (1 < s.queue ↔ ∃ d, (s.phase d).waits = true)
  served : (∃ d, (s.phase d).waits = true) → ∃ c, (s.phase c).token = true
  released : s.releases = s.wakes + population Phase.wakes s.phase
  pending : ∀ c, (s.phase c).wakes = true → population Phase.wakes s.phase = 1 ∧
    (∃ d, s.phase d = .entering ∨ s.phase d = .waiting) ∧ ∀ d, s.phase d ≠ .woken ∧ s.phase d ≠ .holding

theorem tokenFew {s : Mutex ι} (sound : Sound s) : population Phase.token s.phase ≤ 1 := by
  rcases Nat.eq_zero_or_pos (population Phase.inside s.phase) with none | some
  · exact (sound.free none).trans_le (Nat.zero_le 1)
  · exact (sound.taken some).le

theorem tokenOne {s : Mutex ι} (sound : Sound s) {c d : ι} (first : (s.phase c).token = true)
    (second : (s.phase d).token = true) : c = d := populationSingle (tokenFew sound) first second

theorem insideParts (place : ι → Phase) :
    population Phase.inside place = population Phase.holds place + population Phase.waits place :=
  populationOr (fun p => by cases p <;> simp [Phase.holds,Phase.waits]) place

theorem holdsToken (p : Phase) (holds : p.holds = true) : p.token = true := by cases p <;> first | rfl | cases holds

theorem wakesToken (p : Phase) (wakes : p.wakes = true) : p.token = true := by cases p <;> first | rfl | cases wakes

theorem soundSafe {s : Mutex ι} (sound : Sound s) : Safe s where
  exclusive := fun c d first second => tokenOne sound (by rw [first]; rfl) (by rw [second]; rfl)
  counted := sound.counted.trans (insideParts s.phase)
  seen := by
    intro c here
    have holder : 0 < population Phase.holds s.phase := populationPos.mpr ⟨c,by rw [here]; rfl⟩
    have most := (populationMono holdsToken s.phase).trans (tokenFew sound)
    have counted := sound.counted.trans (insideParts s.phase)
    rw [← populationPos,UInt32.lt_iff_toNat_lt,counted]
    change 1 < _ ↔ _
    omega
  served := by
    rintro ⟨d,waits⟩
    have some : 0 < population Phase.inside s.phase := populationPos.mpr ⟨d,by rw [Phase.inside,waits,Bool.or_true]⟩
    exact populationPos.mp ((sound.taken some).symm ▸ Nat.one_pos)
  released := sound.released
  pending := by
    intro c wakes
    have token := wakesToken _ wakes
    have none : ∀ d, s.phase d ≠ .woken ∧ s.phase d ≠ .holding := by
      intro d
      constructor <;> intro other
      · have same := tokenOne sound token (d := d) (by rw [other]; rfl)
        rw [same,other] at wakes
        cases wakes
      · have same := tokenOne sound token (d := d) (by rw [other]; rfl)
        rw [same,other] at wakes
        cases wakes
    have waker : 0 < population Phase.wakes s.phase := populationPos.mpr ⟨c,wakes⟩
    have most := (populationMono wakesToken s.phase).trans (tokenFew sound)
    have some : 0 < population Phase.inside s.phase := by
      refine Nat.pos_of_ne_zero fun empty => ?_
      have given := sound.free empty
      rw [populationZero.mp given c] at token
      cases token
    obtain ⟨d,inside⟩ := populationPos.mp some
    refine ⟨Nat.le_antisymm most waker,⟨d,?_⟩,none⟩
    have apart := none d
    cases there : s.phase d with
    | entering => exact .inl rfl
    | waiting => exact .inr rfl
    | woken => exact absurd there apart.1
    | holding => exact absurd there apart.2
    | idle | ready | leaving | releasing =>
      rw [there] at inside
      cases inside

variable [DecidableEq ι]

/- How the counts change when one coroutine goes from one phase to another. -/
theorem moved (place : ι → Phase) (c : ι) {before : Phase} (here : place c = before) (after : Phase) :
    population Phase.inside (Function.update place c after) + before.inside.toNat =
      population Phase.inside place + after.inside.toNat ∧
    population Phase.token (Function.update place c after) + before.token.toNat =
      population Phase.token place + after.token.toNat ∧
    population Phase.wakes (Function.update place c after) + before.wakes.toNat =
      population Phase.wakes place + after.wakes.toNat :=
  here ▸ ⟨populationMoves _ place c after,populationMoves _ place c after,populationMoves _ place c after⟩

/- A step that no count notices. -/
theorem sameSound {s : Mutex ι} (sound : Sound s) {c : ι} {before : Phase} (here : s.phase c = before)
    (after : Phase) (same : after.inside = before.inside ∧ after.token = before.token ∧ after.wakes = before.wakes) {timer : List ι}
    (timed : ∀ d, d ∈ timer ↔ Function.update s.phase c after d = .waiting) (once : timer.Nodup) :
    Sound ({s with timer := timer}.move c after) := by
  obtain ⟨inside,token,wakes⟩ := moved s.phase c here after
  rw [same.1,Nat.add_right_cancel_iff] at inside
  rw [same.2.1,Nat.add_right_cancel_iff] at token
  rw [same.2.2,Nat.add_right_cancel_iff] at wakes
  exact ⟨sound.calm,timed,once,sound.counted.trans inside.symm,fun none => token.trans (sound.free (inside ▸ none)),
    fun some => token.trans (sound.taken (inside ▸ some)),sound.released.trans (congrArg _ wakes.symm)⟩

theorem queueUp {q : UInt32} (room : q.toNat + 1 < 2 ^ 32) : (q + 1).toNat = q.toNat + 1 := by
  rw [UInt32.toNat_add]
  exact Nat.mod_eq_of_lt room

theorem queueDown {q : UInt32} (some : 0 < q.toNat) : (q - 1).toNat = q.toNat - 1 := by
  have one : (1 : UInt32) ≤ q := UInt32.le_iff_toNat_le.mpr some
  exact UInt32.toNat_sub_of_le _ _ one

/- Counting in: the first one holds the mutex, the others are to wait. -/
theorem readySound {s : Mutex ι} (few : Fintype.card ι < 2 ^ 32) (sound : Sound s) {c : ι} (here : s.phase c = .ready) :
    Sound (if 0 < s.queue then {s with queue := s.queue + 1}.move c .entering
      else {s with queue := s.queue + 1}.move c .holding) := by
  obtain ⟨calm,timed,once,counted,free,taken,released⟩ := sound
  split
  · rename_i some
    have filled : 0 < s.queue.toNat := UInt32.lt_iff_toNat_lt.mp some
    obtain ⟨inside,token,wakes⟩ := moved s.phase c here .entering
    have room := populationLe Phase.inside (Function.update s.phase c .entering)
    simp only [Phase.inside,Phase.holds,Phase.waits,Phase.token,Phase.wakes,Bool.toNat_false,Bool.toNat_true,Bool.or_false,
      Bool.or_true] at inside token wakes
    have added := queueUp (q := s.queue) (by omega)
    refine ⟨calm,timedElsewhere timed here _ (by decide),once,?_,?_,?_,?_⟩ <;> simp only [Mutex.move] <;> omega
  · rename_i none
    have empty : s.queue.toNat = 0 := Nat.eq_zero_of_not_pos fun some => none (UInt32.lt_iff_toNat_lt.mpr some)
    obtain ⟨inside,token,wakes⟩ := moved s.phase c here .holding
    have room := populationLe Phase.inside (Function.update s.phase c .holding)
    simp only [Phase.inside,Phase.holds,Phase.waits,Phase.token,Phase.wakes,Bool.toNat_false,Bool.toNat_true,Bool.or_false] at inside token wakes
    have added := queueUp (q := s.queue) (by omega)
    refine ⟨calm,timedElsewhere timed here _ (by decide),once,?_,?_,?_,?_⟩ <;> simp only [Mutex.move] <;> omega

/- Counting out: whoever leaves others inside is on the way to wake one. -/
theorem holdingSound {s : Mutex ι} (sound : Sound s) {c : ι} (here : s.phase c = .holding) :
    Sound (if 1 < s.queue then {s with queue := s.queue - 1, releases := s.releases + 1}.move c .leaving
      else {s with queue := s.queue - 1}.move c .idle) := by
  obtain ⟨calm,timed,once,counted,free,taken,released⟩ := sound
  have one : 0 < population Phase.inside s.phase := populationPos.mpr ⟨c,by simp [here,Phase.inside,Phase.holds]⟩
  have less := queueDown (q := s.queue) (by omega)
  split
  · rename_i others
    have more : 1 < s.queue.toNat := UInt32.lt_iff_toNat_lt.mp others
    obtain ⟨inside,token,wakes⟩ := moved s.phase c here .leaving
    simp only [Phase.inside,Phase.holds,Phase.waits,Phase.token,Phase.wakes,Bool.toNat_false,Bool.toNat_true,Bool.or_false] at inside token wakes
    refine ⟨calm,timedElsewhere timed here _ (by decide),once,?_,?_,?_,?_⟩ <;> simp only [Mutex.move] <;> omega
  · rename_i alone
    have last : ¬ 1 < s.queue.toNat := fun more => alone (UInt32.lt_iff_toNat_lt.mpr more)
    obtain ⟨inside,token,wakes⟩ := moved s.phase c here .idle
    simp only [Phase.inside,Phase.holds,Phase.waits,Phase.token,Phase.wakes,Bool.toNat_false,Bool.toNat_true,Bool.or_false] at inside token wakes
    refine ⟨calm,timedElsewhere timed here _ (by decide),once,?_,?_,?_,?_⟩ <;> simp only [Mutex.move] <;> omega

/- Taking the first one off the timer ends the release. -/
theorem releasingSound {s : Mutex ι} (sound : Sound s) {c first : ι} {rest : List ι} (here : s.phase c = .releasing)
    (queued : s.timer = first :: rest) :
    Sound (({s with timer := rest, wakes := s.wakes + 1}.move first .woken).move c .idle) := by
  obtain ⟨calm,timed,once,counted,free,taken,released⟩ := sound
  have there : s.phase first = .waiting := (timed first).mp (queued ▸ List.mem_cons_self)
  have apart : c ≠ first := by
    rintro rfl
    rw [here] at there
    cases there
  have still : Function.update s.phase first .woken c = .releasing := by rw [Function.update_of_ne apart,here]
  obtain ⟨inside,token,wakes⟩ := moved s.phase first there .woken
  obtain ⟨inside',token',wakes'⟩ := moved _ c still .idle
  simp only [Phase.inside,Phase.holds,Phase.waits,Phase.token,Phase.wakes,Bool.toNat_false,Bool.toNat_true,Bool.or_false,
    Bool.false_or] at inside token wakes inside' token' wakes'
  rw [queued] at once
  obtain ⟨gone,later⟩ := List.nodup_cons.mp once
  refine ⟨calm,fun d => ?_,later,?_,?_,?_,?_⟩
  · have mem := timed d
    rw [queued,List.mem_cons] at mem
    change d ∈ rest ↔ Function.update (Function.update s.phase first .woken) c .idle d = .waiting
    by_cases isC : d = c
    · subst isC
      rw [Function.update_self]
      exact iff_of_false (fun among => by simp [mem.mp (.inr among)] at here) (by decide)
    · rw [Function.update_of_ne isC]
      by_cases isFirst : d = first
      · subst isFirst
        rw [Function.update_self]
        exact iff_of_false gone (by decide)
      · rw [Function.update_of_ne isFirst,← mem,or_iff_right isFirst]
  all_goals
    simp only [Mutex.move]
    omega

theorem enteringTimed {s : Mutex ι} (sound : Sound s) {c : ι} (here : s.phase c = .entering) :
    (∀ d, d ∈ s.timer ++ [c] ↔ Function.update s.phase c .waiting d = .waiting) ∧ (s.timer ++ [c]).Nodup := by
  have absent : c ∉ s.timer := by
    rw [sound.timed,here]
    decide
  refine ⟨fun d => ?_,?_⟩
  · rw [List.mem_append,List.mem_singleton,sound.timed]
    by_cases same : d = c
    · subst same
      simp
    · rw [Function.update_of_ne same,or_iff_left same]
  · rw [List.nodup_append]
    exact ⟨sound.once,by simp,fun a among b same => by
      rw [List.mem_singleton.mp same]
      exact fun equal => absent (equal ▸ among)⟩

theorem advanceSound {s : Mutex ι} (few : Fintype.card ι < 2 ^ 32) (sound : Sound s) (c : ι) : Sound (advance s c) := by
  unfold advance
  split
  · rename_i here
    rw [if_neg (by simp [sound.calm])]
    exact sameSound sound here .ready ⟨rfl,rfl,rfl⟩ (timedElsewhere sound.timed here _ (by decide)) sound.once
  · rename_i here
    exact readySound few sound here
  · rename_i here
    obtain ⟨timed,once⟩ := enteringTimed sound here
    exact sameSound sound here .waiting ⟨rfl,rfl,rfl⟩ timed once
  · exact sound
  · rename_i here
    rw [if_neg (by simp [sound.calm])]
    exact sameSound sound here .holding ⟨rfl,rfl,rfl⟩ (timedElsewhere sound.timed here _ (by decide)) sound.once
  · rename_i here
    exact holdingSound sound here
  · rename_i here
    rw [if_neg (by simp [sound.calm])]
    exact sameSound sound here .releasing ⟨rfl,rfl,rfl⟩ (timedElsewhere sound.timed here _ (by decide)) sound.once
  · rename_i here
    split
    · exact sound
    · rename_i queued
      exact releasingSound sound here queued

/- Trying to wake one: it does nothing only where none waits in the timer. -/
theorem releasingStep {s : Mutex ι} (sound : Sound s) {c : ι} (releasing : s.phase c = .releasing) :
    s.wakes < (advance s c).wakes ∨ advance s c = s ∧ ∀ w, s.phase w ≠ .waiting := by
  rw [advance,releasing]
  cases queued : s.timer with
  | nil =>
    refine .inr ⟨rfl,fun w waiting => ?_⟩
    have among := (sound.timed w).mpr waiting
    rw [queued] at among
    cases among
  | cons first rest => exact .inl (Nat.lt_succ_self _)

/- A waker and a waiter: nothing but the waking itself moves them, apart from their own steps. -/
theorem pendingStep {s : Mutex ι} (sound : Sound s) {c w : ι} (wakes : (s.phase c).wakes = true)
    (waits : s.phase w = .entering ∨ s.phase w = .waiting) (d : ι) :
    s.wakes < (advance s d).wakes ∨ (advance s d).wakes = s.wakes ∧ ((advance s d).phase c).wakes = true ∧
      (s.phase c = .releasing ∨ d = c → (advance s d).phase c = .releasing) ∧
      ((advance s d).phase w = .entering ∨ (advance s d).phase w = .waiting) ∧
      (s.phase w = .waiting ∨ d = w → (advance s d).phase w = .waiting) ∧
      ¬ (d = c ∧ s.phase c = .releasing ∧ s.phase w = .waiting) := by
  have apart := wakerApart wakes waits
  by_cases steady : s.phase d = .releasing
  · have same : c = d := tokenOne sound (wakesToken _ wakes) (by rw [steady]; rfl)
    subst same
    rcases releasingStep sound steady with woken | ⟨same,none⟩
    · exact .inl woken
    · rw [same]
      exact .inr ⟨rfl,wakes,fun _ => steady,waits,fun either => either.resolve_right apart,fun all => none w all.2.2⟩
  · obtain ⟨kept,p,phase,enters,stays,leaves⟩ := advanceOwn sound.calm steady
    right
    rw [phase]
    by_cases isC : d = c
    · subst isC
      have leaving : s.phase d = .leaving := by
        cases there : s.phase d with
        | leaving => rfl
        | releasing => exact absurd there steady
        | _ =>
          rw [there] at wakes
          cases wakes
      rw [Function.update_self,Function.update_of_ne (Ne.symm apart),leaves leaving]
      exact ⟨kept,rfl,fun _ => rfl,waits,fun either => either.resolve_right apart,fun all => steady all.2.1⟩
    · rw [Function.update_of_ne (Ne.symm isC)]
      refine ⟨kept,wakes,fun either => either.resolve_right isC,?_,?_,fun all => isC all.1⟩
      · by_cases isW : d = w
        · subst isW
          rw [Function.update_self]
          exact .inr (waits.elim enters stays)
        · rw [Function.update_of_ne (Ne.symm isW)]
          exact waits
      · by_cases isW : d = w
        · subst isW
          rw [Function.update_self]
          exact fun _ => waits.elim enters stays
        · rw [Function.update_of_ne (Ne.symm isW)]
          exact fun either => either.resolve_right isW

/- Until one is woken: the release is under way, its waiter is on or before the timer, and these are
the steps that are still wanted. -/
def Wanted (n : Nat) (c w : ι) (wanted : List (Action ι)) (s : Mutex ι) : Prop :=
  Sound s ∧ (n < s.wakes ∨ s.wakes = n ∧ (s.phase c).wakes = true ∧
    (wanted = [.advance w,.advance c,.advance c] ∧ (s.phase w = .entering ∨ s.phase w = .waiting) ∨
      wanted = [.advance c,.advance c] ∧ s.phase w = .waiting ∨
      wanted = [.advance c] ∧ s.phase c = .releasing ∧ s.phase w = .waiting))

theorem wantedKept (few : Fintype.card ι < 2 ^ 32) {n : Nat} {c w : ι} {wanted : List (Action ι)} {s : Mutex ι} (d : ι)
    (here : Wanted n c w wanted s) : Wanted n c w wanted (advance s d) := by
  obtain ⟨sound,woken | ⟨rfl,wakes,script⟩⟩ := here
  · exact ⟨advanceSound few sound d,.inl (woken.trans_le (wakesGrow sound.calm d))⟩
  · have waits : s.phase w = .entering ∨ s.phase w = .waiting :=
      script.elim And.right fun later => .inr (later.elim And.right fun last => last.2.2)
    refine ⟨advanceSound few sound d,(pendingStep sound wakes waits d).imp_right ?_⟩
    rintro ⟨count,still,releases,queues,waiting,_⟩
    refine ⟨count,still,?_⟩
    rcases script with ⟨left,_⟩ | ⟨left,there⟩ | ⟨left,releasing,there⟩
    · exact .inl ⟨left,queues⟩
    · exact .inr (.inl ⟨left,waiting (.inl there)⟩)
    · exact .inr (.inr ⟨left,releases (.inl releasing),waiting (.inl there)⟩)

theorem wantedMoves (few : Fintype.card ι < 2 ^ 32) {n : Nat} {c w : ι} {wanted : List (Action ι)} {s : Mutex ι} (d : ι)
    (here : Wanted n c w (.advance d :: wanted) s) : Wanted n c w wanted (advance s d) := by
  obtain ⟨sound,woken | ⟨rfl,wakes,script⟩⟩ := here
  · exact ⟨advanceSound few sound d,.inl (woken.trans_le (wakesGrow sound.calm d))⟩
  · have waits : s.phase w = .entering ∨ s.phase w = .waiting :=
      script.elim And.right fun later => .inr (later.elim And.right fun last => last.2.2)
    refine ⟨advanceSound few sound d,?_⟩
    obtain woke | ⟨count,still,releases,queues,waiting,idle⟩ := pendingStep sound wakes waits d
    · exact .inl woke
    rcases script with ⟨left,_⟩ | ⟨left,there⟩ | ⟨left,releasing,there⟩
    · cases left
      exact .inr ⟨count,still,.inr (.inl ⟨rfl,waiting (.inr rfl)⟩)⟩
    · cases left
      exact .inr ⟨count,still,.inr (.inr ⟨rfl,releases (.inr rfl),waiting (.inl there)⟩)⟩
    · cases left
      exact absurd ⟨rfl,releasing,there⟩ idle

theorem stepSound (few : Fintype.card ι < 2 ^ 32) {s : Mutex ι} {a : Action ι} (calm : a.Calm) (sound : Sound s) :
    Sound (step s a) := by
  cases a with
  | advance c => exact advanceSound few sound c
  | cancelStore | cancelTimer | cancelQueue => exact calm.elim

theorem runSound (few : Fintype.card ι < 2 ^ 32) {actions : List (Action ι)} (calm : ∀ a ∈ actions, a.Calm) {s : Mutex ι}
    (sound : Sound s) : Sound (run step s actions) := by
  induction actions generalizing s with
  | nil => exact sound
  | cons a rest ih =>
    obtain ⟨now,later⟩ := List.forall_mem_cons.mp calm
    exact ih later (stepSound few now sound)

/- One of the waiters is woken as soon as it has entered the timer and the release has tried twice. -/
theorem wokenOnce (few : Fintype.card ι < 2 ^ 32) {s : Mutex ι} (sound : Sound s) {c w : ι}
    (wakes : (s.phase c).wakes = true) (waits : s.phase w = .entering ∨ s.phase w = .waiting) {more : List (Action ι)}
    (calm : ∀ a ∈ more, a.Calm) (within : [.advance w,.advance c,.advance c].Sublist more) :
    s.wakes < (run step s more).wakes := by
  have begun : Wanted s.wakes c w [.advance w,.advance c,.advance c] s := ⟨sound,.inr ⟨rfl,wakes,.inl ⟨rfl,waits⟩⟩⟩
  have ended : Wanted s.wakes c w [] (run step s more) := by
    refine stagesRun ?_ ?_ within calm begun
    · rintro wanted s (d | _) now here
      · exact wantedKept few d here
      all_goals exact now.elim
    · rintro wanted s (d | _) now here
      · exact wantedMoves few d here
      all_goals exact now.elim
  obtain ⟨_,woken | ⟨_,_,script⟩⟩ := ended
  · exact woken
  · simp at script

/- Fewer than 2 ^ 32 coroutines, and nothing cancelled: in every interleaving all that is promised
holds in every state, and a release that left waiters does wake one. -/
theorem mutexSafe (few : Fintype.card ι < 2 ^ 32) (actions : List (Action ι)) (calm : ∀ a ∈ actions, a.Calm) :
    Always step Safe start actions ∧ ∀ first more, actions = first ++ more → ∀ c w,
      ((run step start first).phase c).wakes = true →
      ((run step start first).phase w = .entering ∨ (run step start first).phase w = .waiting) →
      [.advance w,.advance c,.advance c].Sublist more → (run step start first).wakes < (run step start actions).wakes := by
  constructor
  · rintro first ⟨more,rfl⟩
    exact soundSafe (runSound few (fun a inside => calm a (List.mem_append_left _ inside)) startSound)
  · rintro first more rfl c w wakes waits within
    have sound := runSound few (fun a inside => calm a (List.mem_append_left _ inside)) (startSound (ι := ι))
    rw [runAppend]
    exact wokenOnce few sound wakes waits (fun a inside => calm a (List.mem_append_right _ inside)) within

end

/- The first one holds it, the second one waits, and the first one leaves. -/
theorem mutexSafeTwo :
    Always step Safe start ([.advance 0,.advance 0,.advance 1,.advance 1,.advance 0,.advance 1,.advance 0,.advance 0] : List (Action (Fin 2))) ∧
    (run step start ([.advance 0,.advance 0,.advance 1,.advance 1,.advance 0] : List (Action (Fin 2)))).wakes <
      (run step start ([.advance 0,.advance 0,.advance 1,.advance 1,.advance 0,.advance 1,.advance 0,.advance 0] :
        List (Action (Fin 2)))).wakes := by
  have calm : ∀ actions : List (Fin 2), ∀ a ∈ actions.map Action.advance, a.Calm := by
    intro actions a inside
    obtain ⟨c,_,rfl⟩ := List.mem_map.mp inside
    trivial
  have safe := mutexSafe (ι := Fin 2) (by decide) _ (calm [0,0,1,1,0,1,0,0])
  exact ⟨safe.1,safe.2 [.advance 0,.advance 0,.advance 1,.advance 1,.advance 0] [.advance 1,.advance 0,.advance 0] rfl 0 1
    (by decide) (.inl (by decide)) (List.Sublist.refl _)⟩

/- Each of the first `k` coroutines counts himself in. -/
def crowd : Nat → List (Action Nat)
  | 0 => []
  | k + 1 => crowd k ++ [.advance k,.advance k]

theorem crowdCalm (k : Nat) : ∀ a ∈ crowd k, a.Calm := by
  induction k with
  | zero => simp [crowd]
  | succ k ih =>
    intro a inside
    rw [crowd,List.mem_append] at inside
    rcases inside with before | here
    · exact ih a before
    · simp only [List.mem_cons,List.not_mem_nil,or_false,or_self] at here
      rw [here]
      trivial

/- A coroutine that comes from outside to an open mutex. -/
theorem comes {s : Mutex Nat} {c : Nat} (open' : s.cancelled = false) (outside : s.phase c = .idle) :
    run step s [.advance c,.advance c] =
      if 0 < s.queue then {s with queue := s.queue + 1, phase := Function.update s.phase c .entering}
      else {s with queue := s.queue + 1, phase := Function.update s.phase c .holding} := by
  have looked : advance s c = s.move c .ready := by
    rw [advance,outside]
    simp [open']
  change advance (advance s c) c = _
  rw [looked,advance]
  simp [Mutex.move]

theorem crowded (k : Nat) (few : k ≤ 2 ^ 32) :
    (run step start (crowd k)).cancelled = false ∧ (run step start (crowd k)).queue = UInt32.ofNat k ∧
      (∀ c, k ≤ c → (run step start (crowd k)).phase c = .idle) ∧
      (0 < k → (run step start (crowd k)).phase 0 = .holding) := by
  induction k with
  | zero => exact ⟨rfl,rfl,fun _ _ => rfl,fun none => absurd none (Nat.lt_irrefl 0)⟩
  | succ k ih =>
    obtain ⟨open',counted,outside,first⟩ := ih (Nat.le_of_succ_le few)
    rw [crowd,runAppend,comes open' (outside k (Nat.le_refl k)),counted]
    have more : UInt32.ofNat k + 1 = UInt32.ofNat (k + 1) := by rw [UInt32.ofNat_add]; rfl
    have seen : 0 < UInt32.ofNat k ↔ 0 < k := by
      rw [UInt32.lt_iff_toNat_lt,UInt32.toNat_ofNat',Nat.mod_eq_of_lt few]
      rfl
    have later : ∀ p c, k + 1 ≤ c → Function.update (run step start (crowd k)).phase k p c = .idle := fun p c above => by
      rw [Function.update_of_ne (by omega),outside c (Nat.le_of_succ_le above)]
    split
    · rename_i some
      have there := seen.mp some
      refine ⟨open',more,later _,fun _ => ?_⟩
      exact (Function.update_of_ne (Nat.ne_of_lt there) ..).trans (first there)
    · rename_i none
      have zero : k = 0 := Nat.eq_zero_of_not_pos fun some => none (seen.mpr some)
      refine ⟨open',more,later _,fun _ => ?_⟩
      subst zero
      dsimp only
      exact Function.update_self ..

/- The counter wraps: who comes when 2 ^ 32 are counted finds 0 and holds the mutex too. -/
theorem overrun {k : Nat} (full : k = 2 ^ 32) :
    (run step start (crowd (k + 1))).phase 0 = .holding ∧ (run step start (crowd (k + 1))).phase k = .holding := by
  obtain ⟨open',counted,outside,first⟩ := crowded k full.le
  have zero : UInt32.ofNat k = 0 := by rw [full]; rfl
  have apart : 0 ≠ k := by omega
  rw [crowd,runAppend,comes open' (outside k (Nat.le_refl k)),counted,zero,if_neg (by decide)]
  exact ⟨(Function.update_of_ne apart ..).trans (first (Nat.pos_of_ne_zero apart.symm)),Function.update_self k _ _⟩

theorem wrapsAround : ¬ ∀ actions : List (Action Nat), (∀ a ∈ actions, a.Calm) → ∀ c d,
    (run step start actions).phase c = .holding → (run step start actions).phase d = .holding → c = d := by
  intro exclusive
  obtain ⟨k,full⟩ : ∃ k : Nat, k = 2 ^ 32 := ⟨_,rfl⟩
  obtain ⟨first,last⟩ := overrun full
  have same := exclusive _ (crowdCalm (k + 1)) 0 k first last
  omega

end Ltsm.AsyncMutex
