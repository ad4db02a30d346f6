import Mathlib.Data.List.Forall2
import Ltsm.JsonScalars

/-! Two texts that differ in their blanks and in the escapes of their strings. The tokenizer takes
the same steps on both, and the reader makes the same of their tokens. -/
namespace Ltsm.JsonLayouts
open Library JsonTokens JsonContent JsonStreams JsonTexts JsonParses JsonScalars

/- What the reader sees of a token of the one text and of one of the other. -/
structure Twin (content other : Bytes) (t u : Token) : Prop where
  type : u.type = t.type
  size : u.size = t.size
  unclosed : u.unclosed = t.unclosed
  word : t.type = .primitive → stringToken other u = stringToken content t
  string : t.type = .string → unescaped (stringToken other u) = unescaped (stringToken content t)

theorem selfTwins (content : Bytes) (l : List Token) : List.Forall₂ (Twin content content) l l :=
  List.forall₂_same.mpr fun _ _ => ⟨rfl,rfl,rfl,fun _ => rfl,fun _ => rfl⟩

/- Token by token. -/
structure Twins (content other : Bytes) (p q : Parser) : Prop where
  tokens : List.Forall₂ (Twin content other) p.tokens q.tokens
  above : q.toksuper = p.toksuper

section
variable {R : Token → Token → Prop} {l m : List Token}

theorem splitTwins {front back m : List Token} (twins : List.Forall₂ R (front ++ back) m) :
    ∃ first rest, m = first ++ rest ∧ List.Forall₂ R front first ∧ List.Forall₂ R back rest := by
  induction front generalizing m with
  | nil => exact ⟨[],m,rfl,.nil,twins⟩
  | cons t front ih =>
    obtain ⟨u,_,here,behind,rfl⟩ := List.forall₂_cons_left_iff.mp twins
    obtain ⟨first,rest,rfl,before,after⟩ := ih behind
    exact ⟨u :: first,rest,rfl,.cons here before,after⟩

theorem modifyTwins {change : Token → Token} (keeps : ∀ t u, R t u → R (change t) (change u))
    (twins : List.Forall₂ R l m) (i : Nat) : List.Forall₂ R (l.modify i change) (m.modify i change) := by
  induction twins generalizing i with
  | nil => simp
  | cons here rest ih =>
    cases i with
    | zero => exact .cons (keeps _ _ here) rest
    | succ i => exact .cons here (ih i)

/- Where a search finds its token, if it finds one. -/
theorem lastWhereTwins {test : Token → Bool} (same : ∀ t u, R t u → test u = test t) (twins : List.Forall₂ R l m) :
    lastWhere test l = none ∧ lastWhere test m = none ∨
    ∃ base t inner base' u inner', l = base ++ t :: inner ∧ m = base' ++ u :: inner' ∧ List.Forall₂ R base base' ∧ R t u ∧
      List.Forall₂ R inner inner' ∧ lastWhere test l = some (base.length,t) ∧ lastWhere test m = some (base.length,u) := by
  induction twins with
  | nil => exact .inl ⟨rfl,rfl⟩
  | @cons t u l m here rest ih =>
    obtain ⟨none,none'⟩ | ⟨base,t',inner,base',u',inner',left,right,before,mid,behind,found,found'⟩ := ih
    · simp only [lastWhere,none,none',same t u here]
      cases test t with
      | false => exact .inl ⟨rfl,rfl⟩
      | true => exact .inr ⟨[],t,l,[],u,m,rfl,rfl,.nil,here,rest,rfl,rfl⟩
    · right
      refine ⟨t :: base,t',inner,u :: base',u',inner',?_,?_,.cons here before,mid,behind,?_,?_⟩
      · rw [left,List.cons_append]
      · rw [right,List.cons_append]
      · simp only [lastWhere,found,List.length_cons]
      · simp only [lastWhere,found',List.length_cons]

theorem lastPlaceTwins {test : Token → Bool} (same : ∀ t u, R t u → test u = test t) (twins : List.Forall₂ R l m) :
    (lastWhere test m).map Prod.fst = (lastWhere test l).map Prod.fst := by
  obtain ⟨none,none'⟩ | ⟨_,_,_,_,_,_,_,_,_,_,_,found,found'⟩ := lastWhereTwins same twins
  · rw [none,none']
  · rw [found,found']
    rfl

theorem anyTwins {test : Token → Bool} (same : ∀ t u, R t u → test u = test t) (twins : List.Forall₂ R l m) :
    m.any test = l.any test := by
  induction twins with
  | nil => rfl
  | cons here _ ih => rw [List.any_cons,List.any_cons,same _ _ here,ih]

theorem placeTwins (twins : List.Forall₂ R l m) (i : Nat) :
    l[i]? = none ∧ m[i]? = none ∨ ∃ t u, l[i]? = some t ∧ m[i]? = some u ∧ R t u := by
  have size := twins.length_eq
  by_cases inside : i < l.length
  · exact .inr ⟨_,_,List.getElem?_eq_getElem inside,List.getElem?_eq_getElem (size ▸ inside),twins.get inside (size ▸ inside)⟩
  · exact .inl ⟨List.getElem?_eq_none (by omega),List.getElem?_eq_none (by omega)⟩

end

section
variable {content other : Bytes} {p q : Parser}

theorem Twin.container {t u : Token} (twin : Twin content other t u) : u.container = t.container := by
  simp only [Token.container,twin.type]

/- Tokens that are no texts. -/
theorem twinContainer {type : TokenType} (container : type = .array ∨ type = .object) (pos place size : Nat)
    {stop stop' : Option Nat} (same : stop'.isNone = stop.isNone) :
    Twin content other ⟨type,pos,stop,size⟩ ⟨type,place,stop',size⟩ where
  type := rfl
  size := rfl
  unclosed := same
  word := by rcases container with rfl | rfl <;> simp
  string := by rcases container with rfl | rfl <;> simp

theorem Twins.count (twins : Twins content other p q) : List.Forall₂ (Twin content other) p.countMember q.countMember := by
  unfold Parser.countMember
  rw [twins.above]
  split
  · exact twins.tokens
  · refine modifyTwins ?_ twins.tokens _
    intro t u twin
    exact ⟨twin.type,congrArg (· + 1) twin.size,twin.unclosed,twin.word,twin.string⟩

theorem Twins.fill (twins : Twins content other p q) {type : TokenType} {pos stop place stop' : Nat}
    (here : Twin content other ⟨type,pos,some stop,0⟩ ⟨type,place,some stop',0⟩) :
    Twins content other (p.fillToken type pos stop) (q.fillToken type place stop') where
  tokens := List.rel_append twins.count (.cons here .nil)
  above := twins.above

theorem Twins.open (twins : Twins content other p q) {type : TokenType} (container : type = .array ∨ type = .object)
    (pos place : Nat) : Twins content other (p.openContainer type pos) (q.openContainer type place) where
  tokens := List.rel_append twins.count (.cons (twinContainer container pos place 0 rfl) .nil)
  above := congrArg some twins.tokens.length_eq.symm

theorem Twins.close (twins : Twins content other p q) {type : TokenType} (container : type = .array ∨ type = .object)
    {pos : Nat} (place : Nat) {r : Parser} (closed : p.closeContainer type pos = .ok r) :
    ∃ s, q.closeContainer type place = .ok s ∧ Twins content other r s := by
  obtain ⟨none,_⟩ | ⟨base,t,inner,base',u,inner',left,right,before,mid,behind,found,found'⟩ :=
    lastWhereTwins (fun t u (twin : Twin content other t u) => twin.unclosed) twins.tokens
  · rw [Parser.closeContainer,none] at closed
    cases closed
  · have size := before.length_eq
    have last := lastPlaceTwins (fun t u (twin : Twin content other t u) => twin.unclosed) before
    simp only [Parser.closeContainer,found] at closed
    split at closed
    · cases closed
    · rename_i kind
      rw [not_not] at kind
      have kind' : u.type = type := mid.type.trans kind
      cases closed
      simp only [Parser.closeContainer,found',if_neg (not_not.mpr kind')]
      refine ⟨_,rfl,?_,?_⟩
      · rw [left,right,modifyAt,size,modifyAt]
        obtain ⟨_,_,_,_⟩ := t
        obtain ⟨_,_,_,_⟩ := u
        cases kind
        cases kind'
        cases mid.size
        exact List.rel_append before (.cons (twinContainer container _ _ _ rfl) behind)
      · rw [left,right,size,List.take_left' rfl,← size,List.take_left' rfl]
        exact last

theorem Twins.next (twins : Twins content other p q) : Twins content other p.nextMember q.nextMember := by
  have open' : ∀ t u, Twin content other t u → (u.container && u.unclosed) = (t.container && t.unclosed) :=
    fun t u twin => congr (congrArg and twin.container) twin.unclosed
  unfold Parser.nextMember
  rw [twins.above]
  cases above : p.toksuper with
  | none => exact twins
  | some i =>
    simp only [Option.bind_some]
    obtain ⟨none,none'⟩ | ⟨t,u,here,here',twin⟩ := placeTwins twins.tokens i
    · rw [none,none']
      exact twins
    · rw [here,here']
      dsimp only
      rw [twin.container]
      split
      · exact twins
      · obtain ⟨none,none'⟩ | ⟨base,_,_,_,_,_,_,_,_,_,_,found,found'⟩ := lastWhereTwins open' twins.tokens
        · rw [none,none']
          exact twins
        · rw [found,found']
          exact ⟨twins.tokens,rfl⟩

theorem Twins.finish (twins : Twins content other p q) {r : Parser} (finished : p.finish = .ok r) :
    ∃ s, q.finish = .ok s ∧ Twins content other r s := by
  have same := anyTwins (fun t u (twin : Twin content other t u) => twin.unclosed) twins.tokens
  unfold Parser.finish at finished ⊢
  rw [same]
  split at finished
  · cases finished
  · rename_i all
    cases finished
    exact ⟨q,if_neg all,twins⟩

end

/- What is left of the two texts is parsed alike. -/
def Alike (content other js ks : Bytes) : Prop :=
  ∀ pos place p q, content.drop pos = js → other.drop place = ks → Twins content other p q →
    ∀ r, parseFrom pos p js = .ok r → ∃ s, parseFrom place q ks = .ok s ∧ Twins content other r s

section
variable {content other js ks : Bytes}

theorem alikeEnd : Alike content other [] [] := by
  intro pos place p q _ _ twins r parsed
  rw [parseEnd] at parsed ⊢
  exact twins.finish parsed

/- One step on each side. -/
theorem alikeStep (rest : Alike content other js ks) (front back : Bytes) {f g : Nat → Parser → Parser}
    (left : ∀ pos p, parseFrom pos p (front ++ js) = parseFrom (pos + front.length) (f pos p) js)
    (right : ∀ pos p, parseFrom pos p (back ++ ks) = parseFrom (pos + back.length) (g pos p) ks)
    (keeps : ∀ pos place p q, content.drop pos = front ++ js → other.drop place = back ++ ks → Twins content other p q →
      Twins content other (f pos p) (g place q)) : Alike content other (front ++ js) (back ++ ks) := by
  intro pos place p q here there twins r parsed
  rw [left] at parsed
  rw [right]
  exact rest _ _ _ _ (dropBehind content here) (dropBehind other there) (keeps pos place p q here there twins) r parsed

theorem alikeLeftBracket (rest : Alike content other js ks) : Alike content other (leftBracket :: js) (leftBracket :: ks) :=
  alikeStep rest [leftBracket] [leftBracket] (fun pos p => parseLeftBracket pos p js) (fun pos p => parseLeftBracket pos p ks)
    fun pos place _ _ _ _ twins => twins.open (.inl rfl) pos place

theorem alikeLeftBrace (rest : Alike content other js ks) : Alike content other (leftBrace :: js) (leftBrace :: ks) :=
  alikeStep rest [leftBrace] [leftBrace] (fun pos p => parseLeftBrace pos p js) (fun pos p => parseLeftBrace pos p ks)
    fun pos place _ _ _ _ twins => twins.open (.inr rfl) pos place

theorem alikeComma (rest : Alike content other js ks) : Alike content other (comma :: js) (comma :: ks) :=
  alikeStep rest [comma] [comma] (fun pos p => parseComma pos p js) (fun pos p => parseComma pos p ks)
    fun _ _ _ _ _ _ twins => twins.next

theorem alikeColon (rest : Alike content other js ks) : Alike content other (colon :: js) (colon :: ks) := by
  refine alikeStep rest [colon] [colon] (fun pos p => parseColon pos p js) (fun pos p => parseColon pos p ks) ?_
  intro _ _ p q _ _ twins
  have size := twins.tokens.length_eq
  have empty : p.tokens = [] ↔ q.tokens = [] := by rw [← List.length_eq_zero_iff,size,List.length_eq_zero_iff]
  refine ⟨twins.tokens,?_⟩
  simp only [empty,size]

def blank : UInt8 := 0x20

theorem alikeBlank (rest : Alike content other js ks) : Alike content other js (blank :: ks) := by
  refine alikeStep rest [] [blank] (f := fun _ p => p) (g := fun _ p => p) (fun _ _ => rfl) ?_ fun _ _ _ _ _ _ twins => twins
  intro pos p
  rw [List.singleton_append,parseFrom]
  simp [leftBracket,leftBrace,rightBracket,rightBrace,quote,spaces,blank]

/- A container is closed in the other text if it is in this one. -/
theorem alikeClose {bracket : UInt8} {type : TokenType} (container : type = .array ∨ type = .object)
    (parses : ∀ pos p rest, parseFrom pos p (bracket :: rest) =
      (p.closeContainer type pos).bind fun p => parseFrom (pos + 1) p rest)
    (rest : Alike content other js ks) : Alike content other (bracket :: js) (bracket :: ks) := by
  intro pos place p q here there twins r parsed
  rw [parses] at parsed ⊢
  obtain ⟨next,closed,parsed⟩ := (okBind _ _ _).mp parsed
  obtain ⟨s,closed',twins⟩ := twins.close container place closed
  rw [closed']
  have behind := dropBehind content (show content.drop pos = [bracket] ++ js from here)
  have behind' := dropBehind other (show other.drop place = [bracket] ++ ks from there)
  exact rest _ _ _ _ behind behind' twins r parsed

theorem alikeRightBracket (rest : Alike content other js ks) : Alike content other (rightBracket :: js) (rightBracket :: ks) := by
  refine alikeClose (.inl rfl) (fun pos p rest => ?_) rest
  rw [parseFrom]
  simp [leftBracket,leftBrace,rightBracket,rightBrace,bind]

theorem alikeRightBrace (rest : Alike content other js ks) : Alike content other (rightBrace :: js) (rightBrace :: ks) := by
  refine alikeClose (.inr rfl) (fun pos p rest => ?_) rest
  rw [parseFrom]
  simp [leftBracket,leftBrace,rightBrace,bind]

theorem alikeWord (rest : Alike content other js ks) {word : Bytes} (proper : word ≠ []) (chars : ∀ c ∈ word, WordChar c)
    (ends : primitiveLength js = .ok 0) (ends' : primitiveLength ks = .ok 0) :
    Alike content other (word ++ js) (word ++ ks) := by
  refine alikeStep rest word word (fun pos p => parseWord pos p word js proper chars ends)
    (fun pos p => parseWord pos p word ks proper chars ends') ?_
  intro pos place p q here there twins
  refine twins.fill ⟨rfl,rfl,rfl,fun _ => ?_,fun wrong => by cases wrong⟩
  have this := primitiveTokenText content pos word js here
  have that := primitiveTokenText other place word ks there
  exact that.trans this.symm

/- The same string, however it is written. -/
theorem alikeString (rest : Alike content other js ks) {write write' : UInt8 → Bytes} (writes : Escapes write)
    (writes' : Escapes write') {val : Bytes} (proper : 0 ∉ val) :
    Alike content other (quote :: (val.flatMap write ++ [quote]) ++ js) (quote :: (val.flatMap write' ++ [quote]) ++ ks) := by
  have shape : ∀ inner post : Bytes, quote :: (inner ++ [quote]) ++ post = quote :: (inner ++ quote :: post) := by simp
  have size : ∀ inner : Bytes, (quote :: (inner ++ [quote])).length = inner.length + 2 := by simp
  refine alikeStep rest _ _ (f := fun pos p => p.fillToken .string (pos + 1) (pos + 1 + (val.flatMap write).length))
    (g := fun pos p => p.fillToken .string (pos + 1) (pos + 1 + (val.flatMap write').length)) ?_ ?_ ?_
  · intro pos p
    rw [shape,size]
    exact parseString writes pos p val js proper
  · intro pos p
    rw [shape,size]
    exact parseString writes' pos p val ks proper
  · intro pos place p q here there twins
    rw [shape] at here there
    refine twins.fill ⟨rfl,rfl,rfl,fun wrong => (by cases wrong),fun _ => ?_⟩
    rw [stringTokenText content here,stringTokenText other there,unescapedWritten writes val proper,
      unescapedWritten writes' val proper]

end

end Ltsm.JsonLayouts
