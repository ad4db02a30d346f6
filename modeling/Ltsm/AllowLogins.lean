import Ltsm.Library.SortedList
import Mathlib.Data.String.Basic

/-! The access lists of the service. The passwd and group databases are inputs,
read in the order getpwent returns them; a forward_list is filled from its front.
`none` is a step the C++ library leaves undefined. -/
namespace Ltsm.AllowLogins
open Library

structure Passwd where
  user : String
  uid : UInt32
  deriving DecidableEq, Repr

structure SystemDb where
  passwd : List Passwd
  group : String → Option (List String)

/- `access:uid:min`, `access:uid:max`, `access:users` and `access:groups`. An
absent list reads like an empty one. -/
structure AccessConfig where
  uidMin : Option Int
  uidMax : Option Int
  users : List String
  groups : List String
  deriving DecidableEq, Repr

def AccessConfig.minUidRange (c : AccessConfig) : Int := c.uidMin.getD 0
def AccessConfig.maxUidRange (c : AccessConfig) : Int := c.uidMax.getD 2147483647

def getSystemUsers (db : SystemDb) (uidMin uidMax : UInt32) : List String :=
  let range := if uidMin > uidMax then (uidMax,uidMin) else (uidMin,uidMax)
  db.passwd.foldl
    (fun logins st => if range.1 ≤ st.uid ∧ st.uid ≤ range.2 then st.user :: logins else logins) []

def systemUsers (c : AccessConfig) (db : SystemDb) : List String :=
  getSystemUsers db (UInt32.ofInt c.minUidRange) (UInt32.ofInt c.maxUidRange)

/- `splice_after(begin(), members)`. An empty list has no element to splice
after, so there only an empty splice goes through. -/
def spliceAfterBegin : List String → List String → Option (List String)
  | first :: rest, members => some (first :: (members ++ rest))
  | [], [] => some []
  | [], _ :: _ => none

/- A group that is not found throws and is skipped. -/
def appendGroup (db : SystemDb) (names : List String) (group : String) : Option (List String) :=
  match db.group group with
  | none => some names
  | some members => spliceAfterBegin names members.reverse

def appendGroups (db : SystemDb) : List String → List String → Option (List String)
  | names, [] => some names
  | names, group :: rest => do
    let names ← appendGroup db names group
    appendGroups db names rest

def getAllowLogins (c : AccessConfig) (db : SystemDb) : Option (List String) := do
  let accessUidNames := systemUsers c db
  let accessUsersNames ← appendGroups db c.users.reverse c.groups.reverse
  if accessUsersNames = [] then some accessUidNames
  else
    let accessUsersNames := sortUnique accessUsersNames
    if accessUidNames = [] then some accessUsersNames
    else some (setIntersection accessUsersNames (sortUnique accessUidNames)).reverse

/- The tests on the list that open pamAuthenticate, with the text each one fails with. -/
def accessRefusal (users : List String) (login : String) : Option String :=
  if users = [] then some "login disabled"
  else if login ∉ users then some "login not found"
  else none

theorem accessAdmitted {users login} (h : accessRefusal users login = none) : login ∈ users := by
  unfold accessRefusal at h
  split at h <;> try contradiction
  split at h <;> try contradiction
  rename_i listed
  exact not_not.mp listed

/-! What the lists are for, in terms of the configuration and the databases. -/

/- The configured interval, whichever of its ends is the larger one. -/
def InUidRange (c : AccessConfig) (uid : UInt32) : Prop :=
  min c.minUidRange c.maxUidRange ≤ uid.toNat ∧ (uid.toNat : Int) ≤ max c.minUidRange c.maxUidRange
instance (c uid) : Decidable (InUidRange c uid) := by unfold InUidRange; infer_instance

def RangeUser (c : AccessConfig) (db : SystemDb) (user : String) : Prop :=
  ∃ st ∈ db.passwd, st.user = user ∧ InUidRange c st.uid
instance (c db user) : Decidable (RangeUser c db user) := by unfold RangeUser; infer_instance

def groupMembers (db : SystemDb) (group : String) : List String := (db.group group).getD []

def Listed (c : AccessConfig) (db : SystemDb) (user : String) : Prop :=
  user ∈ c.users ∨ ∃ group ∈ c.groups, user ∈ groupMembers db group
instance (c db user) : Decidable (Listed c db user) := by unfold Listed; infer_instance

def Allowed (c : AccessConfig) (db : SystemDb) (user : String) : Prop :=
  RangeUser c db user ∧ (c.users ≠ [] ∨ c.groups ≠ [] → Listed c db user)
instance (c db user) : Decidable (Allowed c db user) := by unfold Allowed; infer_instance

/- The bounds after their conversion to uid_t, again in either order. -/
def InConvertedRange (c : AccessConfig) (uid : UInt32) : Prop :=
  min (UInt32.ofInt c.minUidRange).toNat (UInt32.ofInt c.maxUidRange).toNat ≤ uid.toNat ∧
    uid.toNat ≤ max (UInt32.ofInt c.minUidRange).toNat (UInt32.ofInt c.maxUidRange).toNat
instance (c uid) : Decidable (InConvertedRange c uid) := by unfold InConvertedRange; infer_instance

def ConvertedUser (c : AccessConfig) (db : SystemDb) (user : String) : Prop :=
  ∃ st ∈ db.passwd, st.user = user ∧ InConvertedRange c st.uid
instance (c db user) : Decidable (ConvertedUser c db user) := by unfold ConvertedUser; infer_instance

/-- The list is computed, names exactly the allowed users, and so lets in no other one. -/
def AllowsExactly (c : AccessConfig) (db : SystemDb) : Prop :=
  ∃ names, getAllowLogins c db = some names ∧ (∀ user, user ∈ names ↔ Allowed c db user) ∧
    ∀ login, accessRefusal names login = none → Allowed c db login

/-! The range scan. -/

theorem memFoldl {range : UInt32 × UInt32} {user : String} (entries : List Passwd) (logins : List String) :
    user ∈ entries.foldl
        (fun logins st => if range.1 ≤ st.uid ∧ st.uid ≤ range.2 then st.user :: logins else logins) logins ↔
      user ∈ logins ∨ ∃ st ∈ entries, st.user = user ∧ range.1 ≤ st.uid ∧ st.uid ≤ range.2 := by
  induction entries generalizing logins with
  | nil => simp
  | cons st rest ih =>
    rw [List.foldl_cons,ih]
    by_cases inside : range.1 ≤ st.uid ∧ st.uid ≤ range.2
    · simp only [if_pos inside,List.mem_cons,exists_eq_or_imp]
      constructor
      · rintro ((rfl | old) | later)
        · exact .inr (.inl ⟨rfl,inside⟩)
        · exact .inl old
        · exact .inr (.inr later)
      · rintro (old | ⟨rfl,_⟩ | later)
        · exact .inl (.inr old)
        · exact .inl (.inl rfl)
        · exact .inr later
    · simp only [if_neg inside,List.mem_cons,exists_eq_or_imp]
      constructor
      · rintro (old | later)
        · exact .inl old
        · exact .inr (.inr later)
      · rintro (old | ⟨_,bad⟩ | later)
        · exact .inl old
        · exact absurd bad inside
        · exact .inr later

theorem systemUsersConverted {c : AccessConfig} {db : SystemDb} {user : String} :
    user ∈ systemUsers c db ↔ ConvertedUser c db user := by
  unfold systemUsers getSystemUsers ConvertedUser InConvertedRange
  rw [memFoldl]
  simp only [List.not_mem_nil,false_or]
  refine exists_congr fun st => and_congr_right fun _ => and_congr_right fun _ => ?_
  split
  · rename_i swapped
    simp only [gt_iff_lt,UInt32.lt_iff_toNat_lt,UInt32.le_iff_toNat_le] at swapped ⊢
    omega
  · rename_i ordered
    simp only [gt_iff_lt,UInt32.lt_iff_toNat_lt,UInt32.le_iff_toNat_le] at ordered ⊢
    omega

theorem noSystemUsers {c : AccessConfig} {db : SystemDb} :
    systemUsers c db = [] ↔ ∀ user, ¬ConvertedUser c db user := by
  rw [List.eq_nil_iff_forall_not_mem]
  exact forall_congr' fun _ => not_congr systemUsersConverted

/- Bounds that fit uid_t select the configured interval. -/
theorem convertedExact {c : AccessConfig} (db : SystemDb)
    (low : 0 ≤ c.minUidRange ∧ c.minUidRange < 4294967296)
    (high : 0 ≤ c.maxUidRange ∧ c.maxUidRange < 4294967296) (user : String) :
    ConvertedUser c db user ↔ RangeUser c db user := by
  have exact (i : Int) (fits : 0 ≤ i ∧ i < 4294967296) : ((UInt32.ofInt i).toNat : Int) = i := by
    rw [UInt32.ofInt,UInt32.toNat_ofNat']
    omega
  have lowNat := exact _ low
  have highNat := exact _ high
  unfold ConvertedUser RangeUser InConvertedRange InUidRange
  refine exists_congr fun st => and_congr_right fun _ => and_congr_right fun _ => ?_
  omega

/-! The splices. -/

theorem appendGroupMembers {db : SystemDb} (names : List String) (group : String) :
    appendGroup db names group = spliceAfterBegin names (groupMembers db group).reverse := by
  unfold appendGroup groupMembers
  cases db.group group with
  | some members => rfl
  | none => cases names <;> simp [spliceAfterBegin]

theorem appendGroupsNonempty (db : SystemDb) (groups : List String) :
    ∀ names, names ≠ [] → ∃ result, appendGroups db names groups = some result ∧ result ≠ [] ∧
      ∀ user, user ∈ result ↔ user ∈ names ∨ ∃ group ∈ groups, user ∈ groupMembers db group := by
  induction groups with
  | nil => exact fun names filled => ⟨names,rfl,filled,by simp⟩
  | cons group rest ih =>
    intro names filled
    obtain ⟨first,tail,rfl⟩ := List.exists_cons_of_ne_nil filled
    obtain ⟨result,runs,nonempty,members⟩ :=
      ih (first :: ((groupMembers db group).reverse ++ tail)) (List.cons_ne_nil _ _)
    refine ⟨result,?_,nonempty,?_⟩
    · rw [appendGroups,appendGroupMembers]
      exact runs
    · intro user
      rw [members user]
      simp only [List.mem_cons,List.mem_append,List.mem_reverse,exists_eq_or_imp]
      tauto

/- From an empty list only empty groups can be spliced. -/
theorem appendGroupsEmpty {db : SystemDb} (groups : List String) :
    appendGroups db [] groups =
      if ∀ group ∈ groups, groupMembers db group = [] then some [] else none := by
  induction groups with
  | nil => simp [appendGroups]
  | cons group rest ih =>
    rw [appendGroups,appendGroupMembers]
    cases h : groupMembers db group with
    | nil => simpa [spliceAfterBegin,h] using ih
    | cons member others =>
      obtain ⟨first,tail,reversed⟩ := List.exists_cons_of_ne_nil
        (l := (member :: others).reverse) (by simp)
      simp [reversed,spliceAfterBegin,h]

theorem loginsWithoutUsers {c : AccessConfig} (db : SystemDb) (empty : c.users = []) :
    getAllowLogins c db =
      if ∀ group ∈ c.groups, groupMembers db group = [] then some (systemUsers c db) else none := by
  unfold getAllowLogins
  rw [empty,List.reverse_nil,appendGroupsEmpty]
  simp only [List.mem_reverse]
  split <;> rfl

/- With `access:users` set the range is only looked at when it selects somebody. -/
theorem loginsWithUsers {c : AccessConfig} (db : SystemDb) (filled : c.users ≠ []) :
    ∃ names, getAllowLogins c db = some names ∧
      ∀ user, user ∈ names ↔ Listed c db user ∧ (systemUsers c db = [] ∨ ConvertedUser c db user) := by
  obtain ⟨result,runs,nonempty,members⟩ := appendGroupsNonempty db c.groups.reverse
    c.users.reverse (by simpa using filled)
  have listed (user : String) : user ∈ result ↔ Listed c db user := by
    simpa [Listed] using members user
  unfold getAllowLogins
  simp only [runs,Option.bind_eq_bind,Option.bind_some,if_neg nonempty]
  by_cases nobody : systemUsers c db = []
  · rw [if_pos nobody]
    exact ⟨_,rfl,fun user => by simp [listed,nobody]⟩
  · rw [if_neg nobody]
    refine ⟨_,rfl,fun user => ?_⟩
    rw [List.mem_reverse,memSetIntersection (sortUniqueStrict _) (sortUniqueStrict _)]
    simp [listed,nobody,systemUsersConverted]

/- What the configuration and the databases have to satisfy for the list to be exact. -/
structure ExactWhen (c : AccessConfig) (db : SystemDb) : Prop where
  -- Groups alone are never spliced in, and the whole range is returned.
  groupsOnly : c.users = [] → c.groups ≠ [] →
    (∀ group ∈ c.groups, groupMembers db group = []) ∧ ∀ user, ¬ConvertedUser c db user
  rangeOnly : c.users = [] → c.groups = [] →
    ∀ user, ConvertedUser c db user ↔ RangeUser c db user
  emptyRange : c.users ≠ [] → (∀ user, ¬ConvertedUser c db user) →
    ∀ user, Listed c db user → RangeUser c db user
  bothLists : c.users ≠ [] → (∃ user, ConvertedUser c db user) →
    ∀ user, Listed c db user → (ConvertedUser c db user ↔ RangeUser c db user)

section
variable {c : AccessConfig} {db : SystemDb} {names : List String}

/- Once the list is there, admission adds nothing to its exactness. -/
theorem exactlyNames (returns : getAllowLogins c db = some names) :
    AllowsExactly c db ↔ ∀ user, user ∈ names ↔ Allowed c db user := by
  constructor
  · rintro ⟨other,same,exact,_⟩
    rw [returns] at same
    cases Option.some.inj same
    exact exact
  · intro exact
    exact ⟨names,returns,exact,fun login admitted => (exact login).mp (accessAdmitted admitted)⟩

theorem notExactly (crashes : getAllowLogins c db = none) : ¬AllowsExactly c db := by
  rintro ⟨names,returns,_⟩
  rw [crashes] at returns
  contradiction

theorem exactRangeOnly (noUsers : c.users = []) (noGroups : c.groups = []) :
    AllowsExactly c db ↔ ∀ user, ConvertedUser c db user ↔ RangeUser c db user := by
  have returns : getAllowLogins c db = some (systemUsers c db) := by
    rw [loginsWithoutUsers db noUsers]
    simp [noGroups]
  rw [exactlyNames returns]
  refine forall_congr' fun user => ?_
  rw [systemUsersConverted]
  simp [Allowed,noUsers,noGroups]

theorem exactGroupsOnly (noUsers : c.users = []) (groups : c.groups ≠ []) :
    AllowsExactly c db ↔ (∀ group ∈ c.groups, groupMembers db group = []) ∧
      ∀ user, ¬ConvertedUser c db user := by
  have returns := loginsWithoutUsers db noUsers
  by_cases empty : ∀ group ∈ c.groups, groupMembers db group = []
  · rw [if_pos empty] at returns
    have nobody (user : String) : ¬Allowed c db user := by
      rintro ⟨_,listed⟩
      rcases listed (.inr groups) with inUsers | ⟨group,hg,inGroup⟩
      · simp [noUsers] at inUsers
      · simp [empty group hg] at inGroup
    rw [exactlyNames returns,and_iff_right empty]
    simp [nobody,systemUsersConverted]
  · rw [if_neg empty] at returns
    simp [notExactly returns,empty]

theorem exactUsers (filled : c.users ≠ []) :
    AllowsExactly c db ↔ ∀ user, Listed c db user →
      (systemUsers c db = [] ∨ ConvertedUser c db user ↔ RangeUser c db user) := by
  obtain ⟨names,returns,members⟩ := loginsWithUsers db filled
  rw [exactlyNames returns]
  refine forall_congr' fun user => ?_
  rw [members]
  simp only [Allowed,filled,ne_eq,not_false_eq_true,true_or,forall_const]
  tauto

end

/- Logins for the members of `ts-users` only, a group this host does not have. -/
def groupOnlyConfig : AccessConfig := ⟨some 1000,none,[],["ts-users"]⟩
def groupOnlyHost : SystemDb := ⟨[⟨"alice",1000⟩],fun _ => none⟩

end Ltsm.AllowLogins
