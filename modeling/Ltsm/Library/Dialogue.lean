import Mathlib.Logic.Relation
import Mathlib.Data.List.Basic

/-! Two parties over two streams. A party tells something, waits for so many symbols of what the
other one has said, or has ended. How fast either goes and how long a stream keeps what is said is
left open; since neither sees more than the symbols, it decides nothing. -/
namespace Ltsm.Library
universe u v
variable {α : Type u} {β γ : Type v}

inductive Party (α : Type u) (β : Type v) : Type (max u v)
  | ended (result : β)
  | tells (message : List α) (next : Party α β)
  | hears (count : Nat) (next : List α → Party α β)

namespace Party

def bind : Party α β → (β → Party α γ) → Party α γ
  | .ended result, f => f result
  | .tells message next, f => .tells message (next.bind f)
  | .hears count next, f => .hears count fun heard => (next heard).bind f

instance partyMonad : Monad (Party α) where
  pure := .ended
  bind := .bind

def say (message : List α) : Party α PUnit := .tells message (.ended ⟨⟩)
def hear (count : Nat) : Party α (List α) := .hears count .ended

@[simp] theorem pureEnded (result : β) : (pure result : Party α β) = .ended result := rfl

@[simp] theorem endedBind (result : β) (f : β → Party α γ) : (.ended result >>= f) = f result := rfl

@[simp] theorem tellsBind (message : List α) (next : Party α β) (f : β → Party α γ) :
    (.tells message next >>= f) = .tells message (next >>= f) := rfl

@[simp] theorem hearsBind (count : Nat) (next : List α → Party α β) (f : β → Party α γ) :
    (.hears count next >>= f) = .hears count fun heard => next heard >>= f := rfl

theorem bindAssoc {δ : Type v} (p : Party α β) (f : β → Party α γ) (g : γ → Party α δ) :
    ((p >>= f) >>= g) = (p >>= fun b => f b >>= g) := by
  induction p with
  | ended result => rfl
  | tells message next ih => exact congrArg (Party.tells message) ih
  | hears count next ih => exact congrArg (Party.hears count) (funext ih)

/- One step of a party: what it goes on as, what is left of the symbols it has got, and what it tells. -/
def turn : Party α β → List α → Option (Party α β × List α × List α)
  | .ended _, _ => none
  | .tells message next, got => some (next,got,message)
  | .hears count next, got =>
    if count ≤ got.length then some (next (got.take count),got.drop count,[]) else none

/- What a party does next it does in the same way with more symbols. -/
theorem turnMore {p q : Party α β} {got rest said : List α} (goes : p.turn got = some (q,rest,said))
    (more : List α) : p.turn (got ++ more) = some (q,rest ++ more,said) := by
  cases p with
  | ended result => cases goes
  | tells message next =>
    cases Option.some.inj goes
    rfl
  | hears count next =>
    simp only [turn] at goes ⊢
    split at goes
    · rename_i enough
      cases Option.some.inj goes
      rw [if_pos (by rw [List.length_append]; omega),List.take_append_of_le_length enough,
        List.drop_append_of_le_length enough]
    · cases goes

/- A party comes out of another in one step. -/
inductive Follows : Party α β → Party α β → Prop
  | said (message : List α) (next : Party α β) : Follows next (.tells message next)
  | heard (count : Nat) (next : List α → Party α β) (got : List α) : Follows (next got) (.hears count next)

theorem followsEnds : WellFounded (Follows (α := α) (β := β)) := by
  refine ⟨fun p => ?_⟩
  induction p with
  | ended result => exact ⟨_,fun q before => nomatch before⟩
  | tells message next ih =>
    refine ⟨_,fun q before => ?_⟩
    cases before
    exact ih
  | hears count next ih =>
    refine ⟨_,fun q before => ?_⟩
    cases before with
    | heard _ _ got => exact ih got

theorem turnFollows {p q : Party α β} {got rest said : List α} (goes : p.turn got = some (q,rest,said)) :
    Follows q p := by
  cases p with
  | ended result => cases goes
  | tells message next =>
    cases Option.some.inj goes
    exact .said said q
  | hears count next =>
    simp only [turn] at goes
    split at goes
    · cases Option.some.inj goes
      exact .heard count next _
    · cases goes

end Party

/- The streams hold what was said to the one side and is not heard yet. -/
structure Dialogue (α : Type u) (β γ : Type v) where
  left : Party α β
  right : Party α γ
  toLeft : List α
  toRight : List α

inductive Speaker
  | left | right
  deriving DecidableEq, Repr

namespace Dialogue

def goes (d : Dialogue α β γ) : Speaker → Option (Dialogue α β γ)
  | .left => (d.left.turn d.toLeft).map fun (party,rest,said) => ⟨party,d.right,rest,d.toRight ++ said⟩
  | .right => (d.right.turn d.toRight).map fun (party,rest,said) => ⟨d.left,party,d.toLeft ++ said,rest⟩

def Moves (d e : Dialogue α β γ) : Prop := ∃ side, d.goes side = some e

/- Some order of the turns leads there. -/
def Leads : Dialogue α β γ → Dialogue α β γ → Prop := Relation.ReflTransGen Moves

/- Neither side has anything left to do, or enough to go on with. -/
def Rests (d : Dialogue α β γ) : Prop := ∀ side, d.goes side = none

theorem goesLeft {d e : Dialogue α β γ} : d.goes .left = some e ↔
    ∃ party rest said, d.left.turn d.toLeft = some (party,rest,said) ∧ e = ⟨party,d.right,rest,d.toRight ++ said⟩ := by
  simp only [goes,Option.map_eq_some_iff,Prod.exists,@eq_comm _ e]

theorem goesRight {d e : Dialogue α β γ} : d.goes .right = some e ↔
    ∃ party rest said, d.right.turn d.toRight = some (party,rest,said) ∧ e = ⟨d.left,party,d.toLeft ++ said,rest⟩ := by
  simp only [goes,Option.map_eq_some_iff,Prod.exists,@eq_comm _ e]

/- Neither side takes its turn from the other. -/
theorem turnsCommute {d a b : Dialogue α β γ} (one : d.goes .left = some a) (two : d.goes .right = some b) :
    ∃ c, a.goes .right = some c ∧ b.goes .left = some c := by
  obtain ⟨p,rest,said,turned,rfl⟩ := goesLeft.mp one
  obtain ⟨q,other,told,answered,rfl⟩ := goesRight.mp two
  exact ⟨⟨p,q,rest ++ told,other ++ said⟩,
    goesRight.mpr ⟨_,_,_,Party.turnMore answered said,rfl⟩,
    goesLeft.mpr ⟨_,_,_,Party.turnMore turned told,rfl⟩⟩

theorem movesJoin {d a b : Dialogue α β γ} (one : Moves d a) (two : Moves d b) :
    ∃ c, Relation.ReflGen Moves a c ∧ Relation.ReflTransGen Moves b c := by
  rcases one with ⟨side,one⟩
  rcases two with ⟨other,two⟩
  cases side <;> cases other
  · cases Option.some.inj (one.symm.trans two)
    exact ⟨_,.refl,.refl⟩
  · obtain ⟨c,left,right⟩ := turnsCommute one two
    exact ⟨c,.single ⟨_,left⟩,.single ⟨_,right⟩⟩
  · obtain ⟨c,left,right⟩ := turnsCommute two one
    exact ⟨c,.single ⟨_,right⟩,.single ⟨_,left⟩⟩
  · cases Option.some.inj (one.symm.trans two)
    exact ⟨_,.refl,.refl⟩

theorem leadsConfluent {d a b : Dialogue α β γ} (one : Leads d a) (two : Leads d b) :
    ∃ c, Leads a c ∧ Leads b c :=
  Relation.church_rosser (fun _ _ _ => movesJoin) one two

theorem restsStill {d e : Dialogue α β γ} (rests : Rests d) (leads : Leads d e) : e = d := by
  cases leads.cases_head with
  | inl same => exact same.symm
  | inr moved =>
    obtain ⟨f,⟨side,goes⟩,_⟩ := moved
    rw [rests side] at goes
    cases goes

/- Where one order of turns comes to rest, every other order does, however far it has gone. -/
theorem restReached {d e f : Dialogue α β γ} (leads : Leads d e) (rests : Rests e) (so : Leads d f) : Leads f e := by
  obtain ⟨c,one,two⟩ := leadsConfluent leads so
  rwa [restsStill rests one] at two

theorem restUnique {d e f : Dialogue α β γ} (leads : Leads d e) (rests : Rests e) (so : Leads d f)
    (still : Rests f) : f = e :=
  (restsStill still (restReached leads rests so)).symm

/- What has ended stays so. -/
theorem endedLeft {d e : Dialogue α β γ} {result : β} (leads : Leads d e) (ends : d.left = .ended result) :
    e.left = .ended result := by
  induction leads with
  | refl => exact ends
  | tail _ move ih =>
    obtain ⟨side,goes⟩ := move
    cases side with
    | left =>
      obtain ⟨p,rest,said,turned,rfl⟩ := goesLeft.mp goes
      rw [ih] at turned
      cases turned
    | right =>
      obtain ⟨q,rest,said,turned,rfl⟩ := goesRight.mp goes
      exact ih

theorem endedRight {d e : Dialogue α β γ} {result : γ} (leads : Leads d e) (ends : d.right = .ended result) :
    e.right = .ended result := by
  induction leads with
  | refl => exact ends
  | tail _ move ih =>
    obtain ⟨side,goes⟩ := move
    cases side with
    | left =>
      obtain ⟨p,rest,said,turned,rfl⟩ := goesLeft.mp goes
      exact ih
    | right =>
      obtain ⟨q,rest,said,turned,rfl⟩ := goesRight.mp goes
      rw [ih] at turned
      cases turned

/- No order of turns goes on forever. -/
theorem movesEnd : WellFounded fun e d : Dialogue α β γ => Moves d e := by
  have parties : WellFounded (Prod.Lex (Party.Follows (α := α) (β := β)) (Party.Follows (α := α) (β := γ))) :=
    (Prod.lex ⟨_,Party.followsEnds⟩ ⟨_,Party.followsEnds⟩).wf
  refine Subrelation.wf ?_ (InvImage.wf (fun d : Dialogue α β γ => (d.left,d.right)) parties)
  rintro e d ⟨side,goes⟩
  cases side with
  | left =>
    obtain ⟨p,rest,said,turned,rfl⟩ := goesLeft.mp goes
    exact .left _ _ (Party.turnFollows turned)
  | right =>
    obtain ⟨q,rest,said,turned,rfl⟩ := goesRight.mp goes
    exact .right _ (Party.turnFollows turned)

theorem settles (d : Dialogue α β γ) : ∃ e, Leads d e ∧ Rests e := by
  induction d using movesEnd.induction with
  | _ d ih =>
    by_cases rests : Rests d
    · exact ⟨d,.refl,rests⟩
    · simp only [Rests,not_forall,Option.eq_none_iff_forall_ne_some,not_not] at rests
      obtain ⟨side,f,goes⟩ := rests
      obtain ⟨e,leads,still⟩ := ih f ⟨side,goes⟩
      exact ⟨e,.head ⟨side,goes⟩ leads,still⟩

/-! The turns of a dialogue that is written out. -/

section
variable {left : Party α β} {right : Party α γ} {toLeft toRight : List α} {e : Dialogue α β γ}

theorem leadsTellsLeft {message : List α} (later : Leads ⟨left,right,toLeft,toRight ++ message⟩ e) :
    Leads ⟨.tells message left,right,toLeft,toRight⟩ e :=
  .head ⟨.left,rfl⟩ later

theorem leadsTellsRight {message : List α} (later : Leads ⟨left,right,toLeft ++ message,toRight⟩ e) :
    Leads ⟨left,.tells message right,toLeft,toRight⟩ e :=
  .head ⟨.right,rfl⟩ later

theorem leadsHearsLeft {count : Nat} {next : List α → Party α β} (message rest : List α)
    (length : message.length = count) (later : Leads ⟨next message,right,rest,toRight⟩ e) :
    Leads ⟨.hears count next,right,message ++ rest,toRight⟩ e := by
  refine .head ⟨.left,goesLeft.mpr ⟨next message,rest,[],?_,by rw [List.append_nil]⟩⟩ later
  rw [Party.turn,if_pos (by rw [List.length_append]; omega),List.take_left' length,List.drop_left' length]

theorem leadsHearsRight {count : Nat} {next : List α → Party α γ} (message rest : List α)
    (length : message.length = count) (later : Leads ⟨left,next message,toLeft,rest⟩ e) :
    Leads ⟨left,.hears count next,toLeft,message ++ rest⟩ e := by
  refine .head ⟨.right,goesRight.mpr ⟨next message,rest,[],?_,by rw [List.append_nil]⟩⟩ later
  rw [Party.turn,if_pos (by rw [List.length_append]; omega),List.take_left' length,List.drop_left' length]

theorem leadsHearsAllLeft {count : Nat} {next : List α → Party α β} (length : toLeft.length = count)
    (later : Leads ⟨next toLeft,right,[],toRight⟩ e) : Leads ⟨.hears count next,right,toLeft,toRight⟩ e := by
  have heard := leadsHearsLeft toLeft [] length later
  rwa [List.append_nil] at heard

theorem leadsHearsAllRight {count : Nat} {next : List α → Party α γ} (length : toRight.length = count)
    (later : Leads ⟨left,next toRight,toLeft,[]⟩ e) : Leads ⟨left,.hears count next,toLeft,toRight⟩ e := by
  have heard := leadsHearsRight toRight [] length later
  rwa [List.append_nil] at heard

end

/- A side that rests has ended, or waits for more than there is. -/
def Waits {β : Type v} : Party α β → List α → Prop
  | .ended _, _ => True
  | .tells _ _, _ => False
  | .hears count _, got => got.length < count

theorem waitsIff {party : Party α β} {got : List α} : party.turn got = none ↔ Waits party got := by
  cases party <;> simp [Party.turn,Waits]

theorem restsIff (d : Dialogue α β γ) : Rests d ↔ Waits d.left d.toLeft ∧ Waits d.right d.toRight := by
  rw [← waitsIff,← waitsIff]
  constructor
  · intro rests
    exact ⟨Option.map_eq_none_iff.mp (rests .left),Option.map_eq_none_iff.mp (rests .right)⟩
  · rintro ⟨left,right⟩ side
    cases side
    · exact Option.map_eq_none_iff.mpr left
    · exact Option.map_eq_none_iff.mpr right

end Dialogue
end Ltsm.Library
