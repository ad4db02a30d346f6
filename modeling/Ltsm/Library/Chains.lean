import Ltsm.Library.EmplaceMap
import Mathlib.Data.List.Perm.Basic

/-! Entries kept in chains, each in the chain where its key belongs: pushed at the front of it, searched
for in it, taken out of it. What all the chains hold together is a map in the manner of `emplace`. -/
namespace Ltsm.Library
variable {K V : Type*}

/- No entry stands in the chain of another key. -/
def Placed (place : K → Nat) (chains : List (List (K × V))) : Prop :=
  ∀ i chain, chains[i]? = some chain → ∀ x ∈ chain, place x.1 = i

def pushAt (chains : List (List (K × V))) (i : Nat) (x : K × V) : List (List (K × V)) :=
  chains.modify i (x :: ·)

/- Entries in their order, each pushed into its chain. -/
def spread (place : K → Nat) (chains : List (List (K × V))) (items : List (K × V)) : List (List (K × V)) :=
  items.foldl (fun chains x => pushAt chains (place x.1) x) chains

section
variable {place : K → Nat} {chains : List (List (K × V))} {i : Nat} {x : K × V} {items entries : List (K × V)}

theorem placedEmpty (place : K → Nat) (count : Nat) : Placed place (List.replicate count ([] : List (K × V))) := by
  intro i chain at' x inside
  rw [List.getElem?_replicate] at at'
  split at at'
  · cases at'
    cases inside
  · cases at'

theorem placedModify {f : List (K × V) → List (K × V)} (placed : Placed place chains)
    (kept : ∀ chain, chains[i]? = some chain → ∀ x ∈ f chain, x ∈ chain ∨ place x.1 = i) :
    Placed place (chains.modify i f) := by
  intro j chain found x inside
  rw [List.getElem?_modify] at found
  obtain ⟨old,there,made⟩ := Option.map_eq_some_iff.mp found
  split at made
  · rename_i here
    subst here made
    rcases kept old there x inside with before | new
    · exact placed i old there x before
    · exact new
  · subst made
    exact placed j old there x inside

theorem placedPush (placed : Placed place chains) (here : place x.1 = i) : Placed place (pushAt chains i x) := by
  refine placedModify placed fun chain _ y inside => ?_
  rcases List.mem_cons.mp inside with rfl | before
  · exact .inr here
  · exact .inl before

theorem pushLength : (pushAt chains i x).length = chains.length := List.length_modify ..

theorem pushPerm (inside : i < chains.length) : (pushAt chains i x).flatten.Perm (x :: chains.flatten) := by
  induction chains generalizing i with
  | nil => exact absurd inside (Nat.not_lt_zero i)
  | cons chain chains ih =>
    cases i with
    | zero => exact .refl _
    | succ i =>
      have later := ih (Nat.lt_of_succ_lt_succ inside)
      exact (later.append_left chain).trans List.perm_middle

theorem spreadLength : (spread place chains items).length = chains.length := by
  induction items generalizing chains with
  | nil => rfl
  | cons x items ih => exact ih.trans pushLength

theorem placedSpread (placed : Placed place chains) : Placed place (spread place chains items) := by
  induction items generalizing chains with
  | nil => exact placed
  | cons x items ih => exact ih (placedPush placed rfl)

/- Nothing is lost where every chain is there. -/
theorem spreadPerm (inside : ∀ key, place key < chains.length) :
    (spread place chains items).flatten.Perm (items ++ chains.flatten) := by
  induction items generalizing chains with
  | nil => exact .refl _
  | cons x items ih =>
    have later : ∀ key, place key < (pushAt chains (place x.1) x).length := by
      intro key
      rw [pushLength]
      exact inside key
    refine (ih later).trans ?_
    exact ((pushPerm (inside x.1)).append_left items).trans List.perm_middle

section
variable [DecidableEq K] {key : K} {val : V}

omit [DecidableEq K] in
theorem keysPerm (perm : entries.Perm items) : (keysOf entries).Perm (keysOf items) := perm.map Prod.fst

theorem findKeyPerm (once : (keysOf entries).Nodup) (perm : entries.Perm items) : findKey entries key = findKey items key := by
  have also : (keysOf items).Nodup := (keysPerm perm).nodup once
  ext val
  rw [findKeyIff once,findKeyIff also,perm.mem_iff]

/- A key is looked for in its own chain only. -/
theorem findPlaced (placed : Placed place chains) :
    findKey (chains.getD (place key) []) key = findKey chains.flatten key := by
  have elsewhere : ∀ i chain, chains[i]? = some chain → i ≠ place key → findKey chain key = none := by
    intro i chain there other
    rw [findKeyNone,keysOf,List.mem_map]
    rintro ⟨x,inside,rfl⟩
    exact other (placed i chain there x inside).symm
  clear placed
  generalize place key = n at elsewhere ⊢
  induction chains generalizing n with
  | nil => simp
  | cons chain chains ih =>
    rw [List.flatten_cons,findKeyAppend]
    cases n with
    | zero =>
      have rest : findKey chains.flatten key = none := by
        rw [findKeyNone,keysOf,List.mem_map]
        rintro ⟨x,inside,rfl⟩
        obtain ⟨later,among,holds⟩ := List.mem_flatten.mp inside
        obtain ⟨i,there⟩ := List.mem_iff_getElem?.mp among
        exact findKeyNone.mp (elsewhere (i + 1) later there (Nat.succ_ne_zero i)) (memKeysOf holds)
      rw [rest,Option.or_none]
      rfl
    | succ n =>
      rw [elsewhere 0 chain rfl (Nat.succ_ne_zero n).symm,Option.none_or]
      exact ih n fun i later there other => elsewhere (i + 1) later there (by simpa using other)

omit [DecidableEq K] in
theorem keysFlatten (once : (keysOf chains.flatten).Nodup) {chain : List (K × V)} (there : chains[i]? = some chain) :
    (keysOf chain).Nodup := by
  have whole : chain.Sublist chains.flatten := List.sublist_flatten_of_mem (List.mem_of_getElem? there)
  exact (whole.map Prod.fst).nodup once

/- Without the first entry of the key. -/
def eraseKey (entries : List (K × V)) (key : K) : List (K × V) := entries.eraseP (·.1 = key)

theorem eraseKeyFilter (once : (keysOf entries).Nodup) : eraseKey entries key = entries.filter (·.1 ≠ key) := by
  induction entries with
  | nil => rfl
  | cons x entries ih =>
    obtain ⟨fresh,once⟩ := List.nodup_cons.mp once
    by_cases here : x.1 = key
    · rw [eraseKey,List.eraseP_cons_of_pos (by simpa using here),List.filter_cons_of_neg (by simpa using here)]
      symm
      rw [List.filter_eq_self]
      intro y inside
      have other : y.1 ≠ key := by
        rintro rfl
        exact fresh (here ▸ memKeysOf inside)
      simpa using other
    · rw [eraseKey,List.eraseP_cons_of_neg (by simpa using here),List.filter_cons_of_pos (by simpa using here)]
      exact congrArg (x :: ·) (ih once)

theorem placedErase (placed : Placed place chains) : Placed place (chains.modify i (eraseKey · key)) :=
  placedModify placed fun _ _ _ inside => .inl (List.mem_of_mem_eraseP inside)

omit [DecidableEq K] in
/- What changes nothing in the other chains can be done in one of them. -/
theorem modifyFlatten {f : List (K × V) → List (K × V)} (append : ∀ one two, f (one ++ two) = f one ++ f two)
    (elsewhere : ∀ j chain, chains[j]? = some chain → j ≠ i → f chain = chain) :
    (chains.modify i f).flatten = f chains.flatten := by
  have none : f [] = [] := List.append_right_eq_self.mp (append [] []).symm
  induction chains generalizing i with
  | nil => simp [none]
  | cons chain chains ih =>
    rw [List.flatten_cons,append]
    cases i with
    | zero =>
      have rest : ∀ later ∈ chains, f later = later := by
        intro later among
        obtain ⟨j,there⟩ := List.mem_iff_getElem?.mp among
        exact elsewhere (j + 1) later there (Nat.succ_ne_zero j)
      have same : f chains.flatten = chains.flatten := by
        clear ih elsewhere
        induction chains with
        | nil => exact none
        | cons later chains ih =>
          rw [List.flatten_cons,append,rest later List.mem_cons_self,
            ih fun other among => rest other (List.mem_cons_of_mem later among)]
      rw [same]
      rfl
    | succ i =>
      rw [elsewhere 0 chain rfl (Nat.succ_ne_zero i).symm]
      exact congrArg (chain ++ ·) (ih fun j later there other => elsewhere (j + 1) later there (by simpa using other))

omit [DecidableEq K] in
/- Another chain has no entry of the key. -/
theorem otherKeys (placed : Placed place chains) {chain : List (K × V)} (there : chains[i]? = some chain)
    (other : i ≠ place key) : ∀ x ∈ chain, x.1 ≠ key := by
  intro x inside same
  exact other (placed i chain there x inside ▸ congrArg place same)

/- Out of its own chain a key goes out of all of them. -/
theorem eraseFlatten (placed : Placed place chains) (once : (keysOf chains.flatten).Nodup) :
    (chains.modify (place key) (eraseKey · key)).flatten = chains.flatten.filter (·.1 ≠ key) := by
  have filtered : chains.modify (place key) (eraseKey · key) = chains.modify (place key) (List.filter (·.1 ≠ key)) := by
    apply List.ext_getElem?
    intro i
    rw [List.getElem?_modify,List.getElem?_modify]
    cases there : chains[i]? with
    | none => rfl
    | some chain =>
      split
      · exact congrArg some (eraseKeyFilter (keysFlatten once there))
      · rfl
  rw [filtered,modifyFlatten (fun _ _ => List.filter_append ..)]
  intro i chain there other
  rw [List.filter_eq_self]
  intro x inside
  simpa using otherKeys placed there other x inside

theorem placedAssign (placed : Placed place chains) :
    Placed place (chains.modify (place key) fun entries => assign entries key val) := by
  refine placedModify placed fun chain _ x inside => ?_
  obtain ⟨y,before,made⟩ := List.mem_map.mp inside
  split at made
  · subst made
    exact .inr rfl
  · subst made
    exact .inl before

theorem assignFlatten (placed : Placed place chains) :
    (chains.modify (place key) fun entries => assign entries key val).flatten = assign chains.flatten key val := by
  refine @modifyFlatten K V chains (place key) (fun entries => assign entries key val) (fun _ _ => List.map_append ..) ?_
  intro i chain there other
  refine (List.map_congr_left fun x inside => ?_).trans (List.map_id chain)
  exact if_neg (otherKeys placed there other x inside)

theorem emplacePerm (perm : entries.Perm items) : (emplace entries key val).Perm (emplace items key val) := by
  have same : key ∈ keysOf entries ↔ key ∈ keysOf items := (keysPerm perm).mem_iff
  rw [emplace,emplace]
  by_cases there : key ∈ keysOf items
  · rw [if_pos there,if_pos (same.mpr there)]
    exact perm
  · rw [if_neg there,if_neg fun also => there (same.mp also)]
    exact perm.append_right _

end
end
end Ltsm.Library
