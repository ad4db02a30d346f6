import Ltsm.JsonContent
import Ltsm.Library.EmplaceMap

/-! One JSON object joined to another: the entries of the second are gone through, in whatever order
its map has them, and go by the type of the value. -/
namespace Ltsm.JsonJoin
open Library JsonContent

/- The map of an object: no key comes twice. -/
structure JsonObject (F : Type) where
  content : List (Bytes × JsonValue F)
  once : (keysOf content).Nodup

section
variable {F : Type}

/- One turn of the loop. There is no result where an array is taken for an object. -/
def joinEntry (content : List (Bytes × JsonValue F)) (entry : Bytes × JsonValue F) : Option (List (Bytes × JsonValue F)) :=
  let (key,val) := entry
  match val with
  | .array _ =>
    match findKey content key with
    | some (.array old) => some (assign content key (.array (old ++ [val])))
    | _ => some (emplace content key val)
  | .object _ =>
    match findKey content key with
    | some (.array _) => none
    | _ => some (emplace content key val)
  | _ =>
    match findKey content key with
    | some _ => some (assign content key val)
    | none => some (emplace content key val)

/- What becomes of the value of a key, or `none` for the confusion. -/
def joinedValue : Option (JsonValue F) → JsonValue F → Option (JsonValue F)
  | some (.array old),.array elems => some (.array (old ++ [.array elems]))
  | some (.array _),.object _ => none
  | some old,.array _ => some old
  | some old,.object _ => some old
  | _,val => some val

theorem entryJoined (content : List (Bytes × JsonValue F)) (once : (keysOf content).Nodup) (key : Bytes) (val : JsonValue F) :
    match joinedValue (findKey content key) val with
    | none => joinEntry content (key,val) = none
    | some v => ∃ next, joinEntry content (key,val) = some next ∧ (keysOf next).Nodup ∧
        ∀ k, findKey next k = if k = key then some v else findKey content k := by
  have kept : ∀ old, findKey content key = some old →
      ∀ k, findKey (emplace content key val) k = if k = key then some old else findKey content k := by
    intro old there k
    rw [findKeyEmplace,there]
    rfl
  have added : findKey content key = none →
      ∀ k, findKey (emplace content key val) k = if k = key then some val else findKey content k := by
    intro absent k
    rw [findKeyEmplace,absent]
    rfl
  have replaced : ∀ old v, findKey content key = some old →
      ∀ k, findKey (assign content key v) k = if k = key then some v else findKey content k := by
    intro old v there k
    rw [findKeyAssign,there]
    rfl
  have fresh : (keysOf (emplace content key val)).Nodup := keysEmplace once
  have stays : ∀ v, (keysOf (assign content key v)).Nodup := by
    intro v
    rwa [keysAssign]
  cases there : findKey content key with
  | none =>
    have out : joinedValue none val = some val := by cases val <;> rfl
    rw [out]
    refine ⟨emplace content key val,?_,fresh,added there⟩
    cases val <;> simp only [joinEntry,there]
  | some old =>
    cases val with
    | array elems =>
      cases old with
      | array items => exact ⟨_,by simp only [joinEntry,there],stays _,replaced _ _ there⟩
      | _ => exact ⟨_,by simp only [joinEntry,there],fresh,kept _ there⟩
    | object entries =>
      cases old with
      | array items => simp only [joinedValue,joinEntry,there]
      | _ => exact ⟨_,by simp only [joinEntry,there],fresh,kept _ there⟩
    | _ =>
      cases old <;> exact ⟨_,by simp only [joinEntry,there],stays _,replaced _ _ there⟩

def joinContent (content : List (Bytes × JsonValue F)) (entries : List (Bytes × JsonValue F)) :
    Option (List (Bytes × JsonValue F)) := entries.foldlM joinEntry content

/- The whole loop: each key by its two values. -/
theorem contentJoined {content entries : List (Bytes × JsonValue F)} (once : (keysOf content).Nodup)
    (each : (keysOf entries).Nodup) :
    match joinContent content entries with
    | none => ∃ key val, findKey entries key = some val ∧ joinedValue (findKey content key) val = none
    | some next => (keysOf next).Nodup ∧ ∀ key, findKey next key =
        match findKey entries key with
        | none => findKey content key
        | some val => joinedValue (findKey content key) val := by
  induction entries generalizing content with
  | nil => exact ⟨once,fun key => rfl⟩
  | cons entry rest ih =>
    obtain ⟨key,val⟩ := entry
    obtain ⟨apart,later⟩ := List.nodup_cons.mp each
    have first := entryJoined content once key val
    have unroll : joinContent content ((key,val) :: rest) = (joinEntry content (key,val)).bind (joinContent · rest) := by
      rw [joinContent,List.foldlM_cons]
      rfl
    cases out : joinedValue (findKey content key) val with
    | none =>
      rw [out] at first
      rw [unroll,first]
      exact ⟨key,val,by rw [findKeyCons,if_pos rfl],out⟩
    | some v =>
      rw [out] at first
      obtain ⟨next,made,nextOnce,values⟩ := first
      have others := ih nextOnce later
      have passed : ∀ k w, findKey rest k = some w → k ≠ key := by
        rintro k w there rfl
        rw [findKeyNone.mpr apart] at there
        cases there
      rw [unroll,made,Option.bind_some]
      cases result : joinContent next rest with
      | none =>
        rw [result] at others
        obtain ⟨k,w,there,confused⟩ := others
        refine ⟨k,w,?_,?_⟩
        · rw [findKeyCons,if_neg (Ne.symm (passed k w there)),there]
        · rwa [values k,if_neg (passed k w there)] at confused
      | some final =>
        rw [result] at others
        refine ⟨others.1,fun k => ?_⟩
        rw [others.2 k,findKeyCons,values k]
        by_cases same : k = key
        · subst same
          rw [findKeyNone.mpr apart,if_pos rfl,if_pos rfl]
          exact out.symm
        · rw [if_neg same,if_neg (Ne.symm same)]

theorem joinOnce {content entries next : List (Bytes × JsonValue F)} (once : (keysOf content).Nodup)
    (each : (keysOf entries).Nodup) (made : next ∈ joinContent content entries) : (keysOf next).Nodup := by
  have joined := contentJoined once each
  rw [Option.mem_def.mp made] at joined
  exact joined.1

def join (a b : JsonObject F) : Option (JsonObject F) :=
  (joinContent a.content b.content).pmap JsonObject.mk fun _ made => joinOnce a.once b.once made

mutual
def merged : JsonValue F → JsonValue F → JsonValue F
  | .object old,.object more => .object (mergedEntries old more ++ more.filter fun entry => (findKey old entry.1).isNone)
  | .array old,.array more => .array (old ++ more)
  | _,val => val

def mergedEntries : List (Bytes × JsonValue F) → List (Bytes × JsonValue F) → List (Bytes × JsonValue F)
  | [],_ => []
  | (key,val) :: rest,more =>
    (key,match findKey more key with
      | some new => merged val new
      | none => val) :: mergedEntries rest more
end

/- What the value of a key is to become. -/
def mergedKey : Option (JsonValue F) → Option (JsonValue F) → Option (JsonValue F)
  | some old,some new => some (merged old new)
  | some old,none => some old
  | none,new => new

/- The law: no value is taken for another type, the keys are those of both, and each value is the
one that it should become. -/
structure Joined (a b : JsonObject F) (result : Option (JsonObject F)) : Prop where
  typed : result ≠ none
  keys : ∀ r, result = some r → ∀ key, key ∈ keysOf r.content ↔ key ∈ keysOf a.content ∨ key ∈ keysOf b.content
  values : ∀ r, result = some r → ∀ key, findKey r.content key = mergedKey (findKey a.content key) (findKey b.content key)

theorem mergedNone {old new : Option (JsonValue F)} : mergedKey old new = none ↔ old = none ∧ new = none := by
  cases old <;> cases new <;> simp [mergedKey]

/- A value that is joined the way it should be: one that is no container, or an object that brings
nothing new to an object. -/
def Kept : JsonValue F → JsonValue F → Prop
  | .object old,.object more => (∀ entry ∈ more, (findKey old entry.1).isSome = true) ∧
      ∀ entry ∈ old, ∀ new, findKey more entry.1 = some new → merged entry.2 new = entry.2
  | _,.object _ => False
  | _,.array _ => False
  | _,_ => True

theorem findMerged (old more : List (Bytes × JsonValue F)) (key : Bytes) :
    findKey (mergedEntries old more) key = (findKey old key).map fun val =>
      match findKey more key with
      | some new => merged val new
      | none => val := by
  induction old with
  | nil => rfl
  | cons entry rest ih =>
    obtain ⟨k,val⟩ := entry
    rw [mergedEntries,findKeyCons,findKeyCons,ih]
    by_cases same : k = key
    · subst same
      simp
    · simp [same]

theorem findFresh (old more : List (Bytes × JsonValue F)) (key : Bytes) :
    findKey (more.filter fun entry => (findKey old entry.1).isNone) key =
      if (findKey old key).isNone then findKey more key else none := by
  induction more with
  | nil =>
    have nothing : findKey ([] : List (Bytes × JsonValue F)) key = none := rfl
    rw [List.filter_nil,nothing,ite_self]
  | cons entry rest ih =>
    rw [List.filter_cons,findKeyCons]
    by_cases same : entry.1 = key
    · subst same
      split
      · rw [findKeyCons,if_pos rfl,if_pos rfl]
      · rename_i there
        rw [ih,if_neg there]
    · rw [if_neg same,← ih]
      split
      · rw [findKeyCons,if_neg same]
      · rfl

/- The same law holds of the objects inside. -/
theorem mergedValues (old more : List (Bytes × JsonValue F)) (key : Bytes) :
    ∃ entries, merged (.object old) (.object more) = .object entries ∧
      findKey entries key = mergedKey (findKey old key) (findKey more key) := by
  refine ⟨_,by rw [merged],?_⟩
  rw [findKeyAppend,findMerged,findFresh]
  cases findKey old key with
  | none => rfl
  | some val => cases findKey more key <;> rfl

theorem mergedLength (old more : List (Bytes × JsonValue F)) : (mergedEntries old more).length = old.length := by
  induction old with
  | nil => rfl
  | cons entry rest ih => rw [mergedEntries,List.length_cons,List.length_cons,ih]

theorem entriesSame (old more : List (Bytes × JsonValue F)) : mergedEntries old more = old ↔
    ∀ entry ∈ old, ∀ new, findKey more entry.1 = some new → merged entry.2 new = entry.2 := by
  induction old with
  | nil => simp [mergedEntries]
  | cons entry rest ih =>
    obtain ⟨key,val⟩ := entry
    rw [mergedEntries,List.cons.injEq,ih,List.forall_mem_cons]
    refine and_congr_left fun _ => ?_
    cases findKey more key with
    | none => simp
    | some new => simp

/- An object that brings nothing new. -/
theorem mergedSame (old more : List (Bytes × JsonValue F)) :
    merged (.object old) (.object more) = .object old ↔ Kept (.object old) (.object more) := by
  have fresh : (more.filter fun entry => (findKey old entry.1).isNone) = [] ↔
      ∀ entry ∈ more, (findKey old entry.1).isSome = true := by
    simp [List.filter_eq_nil_iff,Option.isSome_iff_ne_none]
  rw [merged,JsonValue.object.injEq,Kept,← fresh,← entriesSame]
  constructor
  · intro same
    have parts := List.append_inj (same.trans (List.append_nil old).symm) (mergedLength old more)
    exact ⟨parts.2,parts.1⟩
  · rintro ⟨nothing,same⟩
    rw [nothing,same,List.append_nil]

theorem keptIff (old val : JsonValue F) : joinedValue (some old) val = some (merged old val) ↔ Kept old val := by
  cases val with
  | array elems =>
    cases old with
    | array items =>
      simp only [joinedValue,merged,Kept,iff_false,Option.some.injEq,JsonValue.array.injEq,List.append_cancel_left_eq]
      intro same
      have size := congrArg sizeOf same
      simp at size
      omega
    | _ => simp [joinedValue,merged,Kept]
  | object entries =>
    cases old with
    | object old =>
      rw [← mergedSame]
      simp only [joinedValue,Option.some.injEq,eq_comm]
    | _ => simp [joinedValue,merged,Kept]
  | _ => cases old <;> simp [joinedValue,merged,Kept]

theorem joinedNew (val : JsonValue F) : joinedValue none val = some val := by cases val <;> rfl

/- What one key is to become, and what it becomes. -/
theorem keyKept (old val : Option (JsonValue F)) :
    (match val with
      | none => old
      | some val => joinedValue old val) = mergedKey old val ↔ ∀ v w, old = some v → val = some w → Kept v w := by
  cases val with
  | none => cases old <;> simp [mergedKey]
  | some val =>
    cases old with
    | none => simp [joinedNew,mergedKey]
    | some old =>
      rw [mergedKey]
      dsimp only
      rw [keptIff]
      exact ⟨fun kept v w here there => Option.some.inj here ▸ Option.some.inj there ▸ kept,fun kept => kept _ _ rfl rfl⟩

theorem confusedNot {old : Option (JsonValue F)} {val : JsonValue F} (confused : joinedValue old val = none) :
    ∃ v, old = some v ∧ ¬ Kept v val := by
  cases old with
  | none =>
    rw [joinedNew] at confused
    cases confused
  | some v =>
    refine ⟨v,rfl,fun kept => ?_⟩
    rw [(keptIff v val).mpr kept] at confused
    cases confused

/- Two objects are joined by the law exactly when under every key of both the second one has a value
that is no container, or two objects meet and the second one brings nothing new. -/
theorem joinedIff (a b : JsonObject F) : Joined a b (join a b) ↔
    ∀ key old new, findKey a.content key = some old → findKey b.content key = some new → Kept old new := by
  have joined := contentJoined a.once b.once
  cases made : joinContent a.content b.content with
  | none =>
    rw [made] at joined
    obtain ⟨key,val,there,confused⟩ := joined
    obtain ⟨v,here,bad⟩ := confusedNot confused
    have nothing : join a b = none := by simp [join,made]
    rw [nothing]
    exact ⟨fun law => absurd rfl law.typed,fun kept => absurd (kept key v val here there) bad⟩
  | some next =>
    rw [made] at joined
    obtain ⟨once,values⟩ := joined
    have result : join a b = some ⟨next,once⟩ := by simp [join,made]
    have pointwise : Joined a b (join a b) ↔
        ∀ key, findKey next key = mergedKey (findKey a.content key) (findKey b.content key) := by
      rw [result]
      constructor
      · exact fun law => law.values _ rfl
      · intro law
        refine ⟨Option.some_ne_none _,?_,fun r same => Option.some.inj same ▸ law⟩
        rintro r same key
        cases Option.some.inj same
        rw [← not_iff_not,not_or,← findKeyNone,← findKeyNone,← findKeyNone,law key,mergedNone]
    rw [pointwise]
    refine forall_congr' fun key => ?_
    rw [values key]
    exact keyKept _ _

/- Two objects under one key: the second one is left aside; an object for an array is taken for one. -/
theorem objectsKept : ¬ Joined (F := Unit) ⟨[([0x6B],.object [([0x78],.integer 1)])],by decide⟩
      ⟨[([0x6B],.object [([0x79],.integer 2)])],by decide⟩
      (join ⟨[([0x6B],.object [([0x78],.integer 1)])],by decide⟩ ⟨[([0x6B],.object [([0x79],.integer 2)])],by decide⟩) ∧
    join (F := Unit) ⟨[([0x6B],.array [.integer 1])],by decide⟩ ⟨[([0x6B],.object [([0x79],.integer 2)])],by decide⟩ = none := by
  refine ⟨fun law => ?_,rfl⟩
  have value := law.values _ rfl [0x6B]
  change some (JsonValue.object [([0x78],.integer 1)]) =
    some (.object [([0x78],.integer 1),([0x79],.integer 2)]) at value
  simp at value

end
end Ltsm.JsonJoin
