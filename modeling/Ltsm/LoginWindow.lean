import Ltsm.CredentialBinding

/-! Between the test of the connection policy and the report of the connector. The
policy is tested once, when an attempt has passed PAM; a connector hears of it through
a signal, asks for the session, and reports when it shows it. -/
namespace Ltsm.LoginWindow
open Library XvfbSessions DBusAdaptor SessionMoves LoginMoves ConnectorLogin CredentialBinding

/- The display a connector has been given and has not reported for. -/
def target (k : Connector) : Option Int :=
  match k.phase with
  | .started _ newDisplay => some newDisplay
  | .shown _ => some k.displayNum
  | _ => none

/- The user of the first LoginSuccess for the display. -/
def firstLogin (display : Int) : List Signal → Option String
  | [] => none
  | .loginSuccess d user _ :: rest => if d = display then some user else firstLogin display rest
  | _ :: rest => firstLogin display rest

/- The user a connector is logging in, from the signal to the report. -/
def window (signals : List Signal) (k : Connector) : Option String :=
  match k.phase with
  | .listening | .connected => firstLogin k.displayNum (signals.drop k.received)
  | .loginSuccess user | .started user _ | .shown user => some user
  | .failed | .ended => none

def policyAllows (pool : XvfbPool) (user : String) : Bool :=
  (busySession pool user).all fun userSess => userSess.policy ≠ .authLock

/- The login that a task lets through the test of the policy. -/
def letsPass (c : Config) (env : Environment) (s : Service) (index : Nat) : Option (XvfbSessionPtr × String) :=
  match s.tasks[index]? with
  | some (.pamAuthenticate p user _ true) =>
    if admitted c env user s && policyAllows s.pool user then some (p,user) else none
  | some (.pamAccount p user) =>
    if env.validAccount && policyAllows s.pool user then some (p,user) else none
  | _ => none

section
variable {display : Int} {user : String} {signals before after : List Signal} {k : Connector}

theorem firstAppend : firstLogin display (before ++ after) =
    (firstLogin display before).or (firstLogin display after) := by
  induction before with
  | nil => rfl
  | cons signal rest ih =>
    cases signal with
    | loginSuccess d user uid =>
      rw [List.cons_append,firstLogin,firstLogin]
      split
      · rfl
      · exact ih
    | _ => exact ih

theorem firstMember (first : firstLogin display signals = some user) :
    ∃ uid, .loginSuccess display user uid ∈ signals := by
  induction signals with
  | nil => simp [firstLogin] at first
  | cons signal rest ih =>
    cases signal with
    | loginSuccess d name uid =>
      rw [firstLogin] at first
      split at first
      · rename_i same
        cases Option.some.inj first
        exact ⟨uid,same ▸ List.mem_cons_self⟩
      · obtain ⟨uid,inside⟩ := ih first
        exact ⟨uid,List.mem_cons_of_mem _ inside⟩
    | _ =>
      obtain ⟨uid,inside⟩ := ih first
      exact ⟨uid,List.mem_cons_of_mem _ inside⟩

/- What is sent later only counts for a connector that has heard of no login so far. -/
theorem windowSent {sent : List Signal} (opened : window (signals ++ sent) k = some user) :
    window signals k = some user ∨ window signals k = none ∧ (k.phase = .listening ∨ k.phase = .connected) ∧
      ∃ uid, .loginSuccess k.displayNum user uid ∈ sent := by
  unfold window at opened ⊢
  cases phase : k.phase with
  | listening | connected =>
    simp only [phase] at opened
    rw [List.drop_append,firstAppend] at opened
    cases early : firstLogin k.displayNum (signals.drop k.received) with
    | some other =>
      rw [early] at opened
      exact .inl opened
    | none =>
      rw [early] at opened
      obtain ⟨uid,inside⟩ := firstMember opened
      exact .inr ⟨rfl,by simp,uid,List.mem_of_mem_drop inside⟩
  | _ =>
    simp only [phase] at opened
    exact .inl opened

/- A connector that has been given a display is logging someone in. -/
theorem windowTarget (given : target k = some display) (signals : List Signal) :
    ∃ user, window signals k = some user := by
  unfold target at given
  unfold window
  cases phase : k.phase with
  | started user | shown user => exact ⟨user,rfl⟩
  | _ => simp [phase] at given

end

/-! What a step of the service sends. -/

section
variable {s t u : Service} {p q : XvfbSessionPtr} {x : XvfbSession} {c : Config} {env : Environment}
  {user : String} {display : Int}

/- The signals of a step, with what holds of each login among them. -/
def Sends (Allowed : Int → String → Prop) (s t : Service) : Prop :=
  ∃ sent, t.signals = s.signals ++ sent ∧
    ∀ display user uid, .loginSuccess display user uid ∈ sent → Allowed display user

variable {Allowed : Int → String → Prop}

theorem Sends.refl (s : Service) : Sends Allowed s s := ⟨[],(List.append_nil _).symm,by simp⟩

theorem Sends.trans (first : Sends Allowed s t) (second : Sends Allowed t u) : Sends Allowed s u := by
  obtain ⟨before,sent,all⟩ := first
  obtain ⟨after,sentToo,allToo⟩ := second
  refine ⟨before ++ after,by rw [sentToo,sent,List.append_assoc],?_⟩
  intro display user uid inside
  rcases List.mem_append.mp inside with early | late
  · exact all display user uid early
  · exact allToo display user uid late

theorem sendsQuiet (same : Quiet s t) : Sends Allowed s t := by
  obtain ⟨sent,grown,none⟩ := same.signals
  refine ⟨sent,grown,?_⟩
  intro display user uid inside
  have other := none _ inside
  contradiction

theorem sendsNothing (signals : t.signals = s.signals) : Sends Allowed s t :=
  ⟨[],by rw [signals,List.append_nil],by simp⟩

theorem sendsSuccess (allowed : Allowed x.displayNum user) : Sends Allowed s (loginSuccess env p x user s) := by
  refine ⟨[.loginSuccess x.displayNum user (getUserUid env.db user)],rfl,?_⟩
  intro display user uid inside
  cases List.mem_singleton.mp inside
  exact allowed

/- The pool looks the same to a search for a session of a user. -/
theorem unmovedEntries (same : Unmoved s t) :
    t.pool.entries.map (Prod.map id view) = s.pool.entries.map (Prod.map id view) := by
  unfold SharedPool.entries
  rw [List.map_filterMap,List.map_filterMap,same.slots]
  apply List.filterMap_congr
  intro slot _
  cases slot with
  | none => rfl
  | some p =>
    have here := same.sessions p
    rw [Option.bind_some,Option.bind_some,Option.map_map,Option.map_map]
    have pair (o : Option XvfbSession) : o.map (Prod.map id view ∘ (p,·)) = (o.map view).map (p,·) := by
      cases o <;> rfl
    rw [pair,pair,here]

theorem unmovedBusy (same : Unmoved s t) :
    (busySession t.pool user).map view = (busySession s.pool user).map view := by
  have search (pool : XvfbPool) : (findUserSession pool user).map (Prod.map id view) =
      (pool.entries.map (Prod.map id view)).find? fun e =>
        (e.2.mode = .started ∨ e.2.mode = .connected ∨ e.2.mode = .disconnected) ∧ user = e.2.user := by
    rw [List.find?_map]
    rfl
  have found : (findUserSession t.pool user).map (Prod.map id view) =
      (findUserSession s.pool user).map (Prod.map id view) := by
    rw [search,search,unmovedEntries same]
  unfold busySession
  cases left : findUserSession t.pool user with
  | none =>
    cases right : findUserSession s.pool user with
    | none => rfl
    | some b => simp [left,right] at found
  | some a =>
    cases right : findUserSession s.pool user with
    | none => simp [left,right] at found
    | some b =>
      obtain ⟨p,x⟩ := a
      obtain ⟨q,y⟩ := b
      have equal : view x = view y := by
        rw [left,right] at found
        exact congrArg Prod.snd (Option.some.inj found)
      dsimp only
      rw [viewDisplay equal,viewMode equal]
      split
      · exact congrArg some equal
      · rfl

theorem unmovedAllows (same : Unmoved s t) : policyAllows t.pool user = policyAllows s.pool user := by
  have folded (o : Option XvfbSession) : (o.all fun y => y.policy ≠ .authLock) =
      (o.map view).all fun v => v.policy ≠ .authLock := by cases o <;> rfl
  unfold policyAllows
  rw [folded,folded,unmovedBusy same]

theorem busySource (busy : busySession s.pool user = some x) :
    ∃ p, s.pool.get p = some x ∧ x.user = user := by
  unfold busySession at busy
  split at busy
  · rename_i p y found
    split at busy
    · cases Option.some.inj busy
      obtain ⟨inside,_,same⟩ := userSource found
      exact ⟨p,SharedPool.entriesGet inside,same⟩
    · contradiction
  · contradiction

/-! The tasks of a service that holds its users to AuthLock. -/

def UsersLocked (s : Service) : Prop :=
  ∀ p x, s.pool.get p = some x → x.user ≠ ltsmUserConn → x.policy = .authLock

/- No login waits for another connector to go. -/
def NoneWaits (s : Service) : Prop := ∀ p user, .pamWait p user ∉ s.tasks

theorem quietWaits (same : Quiet s t) (h : NoneWaits s) : NoneWaits t := by
  intro p user inside
  exact h p user (same.tasks _ inside rfl)

theorem waitsPost {task : Task} (other : ∀ p user, task ≠ .pamWait p user) (h : NoneWaits s) :
    NoneWaits (s.post task) := by
  intro p user inside
  rcases List.mem_append.mp inside with old | new
  · exact h p user old
  · exact other p user (List.mem_singleton.mp new).symm

theorem authSuccessSends (c : Config) (env : Environment) (locked : UsersLocked s) (waits : NoneWaits s)
    (account : policyAllows s.pool user = true → user ≠ ltsmUserConn) :
    Sends (fun d name => d = x.displayNum ∧ name = user ∧ policyAllows s.pool user = true) s
      (authSuccess c env p x user s) ∧ NoneWaits (authSuccess c env p x user s) := by
  obtain ⟨reset,taken⟩ : ∃ reset, reset = if 0 < c.loginFailuresConf then s.modify p resetFailures else s := ⟨_,rfl⟩
  obtain ⟨same,signals,tasks⟩ : Unmoved s reset ∧ reset.signals = s.signals ∧ reset.tasks = s.tasks := by
    rw [taken]
    split
    · exact ⟨unmovedModify (by intro; rfl) s,rfl,rfl⟩
    · exact ⟨.refl s,rfl,rfl⟩
  have logged : Unmoved s (reset.log (.passed p user)) := same.trans (unmovedLog rfl _)
  have allows : policyAllows (reset.log (.passed p user)).pool user = policyAllows s.pool user :=
    unmovedAllows logged
  have waiting : NoneWaits (reset.log (.passed p user)) := by
    intro q name inside
    rw [Service.logTasks,tasks] at inside
    exact waits q name inside
  have nothing {A : Int → String → Prop} : Sends A s (reset.log (.passed p user)) := sendsNothing signals
  unfold authSuccess
  rw [← taken]
  dsimp only
  cases busy : busySession (reset.log (.passed p user)).pool user with
  | none =>
    have allowed : policyAllows s.pool user = true := by
      rw [← allows,policyAllows,busy]
      rfl
    exact ⟨nothing.trans (sendsSuccess ⟨rfl,rfl,allowed⟩),waiting⟩
  | some userSess =>
    have held (free : userSess.policy ≠ .authLock) : False := by
      have allowed : policyAllows s.pool user = true := by
        rw [← allows,policyAllows,busy]
        simpa using free
      obtain ⟨q,found,owner⟩ := busySource busy
      obtain ⟨old,before,equal⟩ := logged.source found
      rw [viewUser equal] at owner
      rw [viewPolicy equal] at free
      exact free (locked q old before (owner ▸ account allowed))
    dsimp only
    cases policy : userSess.policy with
    | authLock => exact ⟨nothing.trans (sendsQuiet (quietEmit rfl _)),waiting⟩
    | authTake => exact absurd (by simp [policy]) held
    | authShare => exact absurd (by simp [policy]) held

section
variable {Allowed : Int → String → Prop} {password : String}

/- A handler sends what the success of its login sends, and a task that waits for no connector. -/
theorem pamAuthenticateSends {token : Bool} (waits : NoneWaits s)
    (success : token = true → admitted c env user s = true →
      Sends Allowed s (authSuccess c env p x user s) ∧ NoneWaits (authSuccess c env p x user s)) :
    Sends Allowed s (pamAuthenticate c env p x user password token s) ∧
      NoneWaits (pamAuthenticate c env p x user password token s) := by
  unfold pamAuthenticate
  split
  · exact ⟨.refl s,waits⟩
  rename_i users allowed
  split
  · exact ⟨sendsQuiet (quietEmit rfl _),quietWaits (quietEmit rfl _) waits⟩
  rename_i admits
  split
  · rename_i held
    have opened : admitted c env user s = true := by
      unfold admitted
      rw [allowed]
      exact decide_eq_true admits
    exact success held opened
  · exact ⟨sendsNothing rfl,waitsPost (by simp) waits⟩

theorem pamVerdictSends (waits : NoneWaits s) : Sends Allowed s (pamVerdict c env p x user password s) ∧
    NoneWaits (pamVerdict c env p x user password s) := by
  unfold pamVerdict
  split
  · exact ⟨sendsNothing rfl,waitsPost (by simp) waits⟩
  -- the failure itself is on record, but is neither sent as a success nor queued
  have counted : Quiet s (s.emit (.loginFailure x.displayNum env.pamError)) := quietEmit rfl _
  have failed : Sends Allowed s (((s.emit (.loginFailure x.displayNum env.pamError)).modify p countFailure).log
      (.failed p user)) := (sendsQuiet counted).trans (sendsNothing rfl)
  have after := quietWaits counted waits
  dsimp only
  split
  · exact ⟨failed.trans (sendsQuiet ((quietEmit rfl _).trans (quietPost rfl _))),waitsPost (by simp) after⟩
  · exact ⟨failed,after⟩

theorem pamAccountSends (waits : NoneWaits s)
    (success : env.validAccount = true →
      Sends Allowed s (authSuccess c env p x user s) ∧ NoneWaits (authSuccess c env p x user s)) :
    Sends Allowed s (pamAccount c env p x user s) ∧ NoneWaits (pamAccount c env p x user s) := by
  unfold pamAccount
  split
  · rename_i valid
    exact success valid
  · have shut : Quiet s ((findUserSessions s.pool user).foldl
        (fun s sess => busShutdownDisplay sess.2.displayNum s) s) :=
      quietFold (fun s _ => shutdownDisplayQuiet _ s) _ _
    exact ⟨sendsQuiet shut,quietWaits shut waits⟩

end

/- A task sends a success only if the policy lets the login pass. -/
theorem execSends (locked : UsersLocked s) (waits : NoneWaits s) (index : Nat) (env : Environment)
    (account : ∀ p user x, letsPass c env s index = some (p,user) → s.pool.get p = some x → user ≠ ltsmUserConn) :
    Sends (fun d user => ∃ p x, letsPass c env s index = some (p,user) ∧ s.pool.get p = some x ∧
      x.displayNum = d) s (exec c index env s) ∧ NoneWaits (exec c index env s) := by
  unfold exec
  cases queued : s.tasks[index]? with
  | none => exact ⟨.refl s,waits⟩
  | some task =>
    have taken : Quiet s {s with tasks := s.tasks.eraseIdx index} := quietErase index s
    have still := quietWaits taken waits
    have quiet {t : Service} (same : Quiet s t) {A : Int → String → Prop} : Sends A s t ∧ NoneWaits t :=
      ⟨sendsQuiet same,quietWaits same waits⟩
    have handled {t : Service} {A : Int → String → Prop}
        (sends : Sends A {s with tasks := s.tasks.eraseIdx index} t ∧ NoneWaits t) : Sends A s t ∧ NoneWaits t :=
      ⟨(sendsQuiet taken).trans sends.1,sends.2⟩
    have succeed {p : XvfbSessionPtr} {user : String} {x : XvfbSession} (found : s.pool.get p = some x)
        (passes : policyAllows s.pool user = true → letsPass c env s index = some (p,user)) :
        Sends (fun d user => ∃ p x, letsPass c env s index = some (p,user) ∧ s.pool.get p = some x ∧
          x.displayNum = d) {s with tasks := s.tasks.eraseIdx index}
          (authSuccess c env p x user {s with tasks := s.tasks.eraseIdx index}) ∧
        NoneWaits (authSuccess c env p x user {s with tasks := s.tasks.eraseIdx index}) := by
      obtain ⟨⟨sent,grown,all⟩,after⟩ := authSuccessSends c env (p := p) (x := x)
        (s := {s with tasks := s.tasks.eraseIdx index}) locked still
        fun allowed => account p user x (passes allowed) found
      refine ⟨⟨sent,grown,?_⟩,after⟩
      intro d name uid inside
      obtain ⟨rfl,rfl,allowed⟩ := all d name uid inside
      exact ⟨p,x,passes allowed,found,rfl⟩
    cases task with
    | pamAuthenticate p user password token =>
      simp only [runTask]
      split
      · exact quiet taken
      rename_i x found
      refine handled (pamAuthenticateSends still fun held opened => succeed found fun policy => ?_)
      have admits : admitted c env user s = true := opened
      unfold letsPass
      rw [queued,held]
      simp [admits,policy]
    | pamVerdict p user password =>
      simp only [runTask]
      split
      · exact quiet taken
      · exact handled (pamVerdictSends still)
    | pamAccount p user =>
      simp only [runTask]
      split
      · exact quiet taken
      rename_i x found
      refine handled (pamAccountSends still fun valid => succeed found fun policy => ?_)
      unfold letsPass
      rw [queued]
      simp [valid,policy]
    | pamWait p user => exact absurd (List.mem_of_getElem? queued) (waits p user)
    | _ => exact quiet (taken.trans (runTaskQuiet _ rfl _))

end
end Ltsm.LoginWindow
