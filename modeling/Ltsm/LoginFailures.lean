import Ltsm.LoginMoves

/-! The limit of failed logins on a display. The counter is kept with the session and
read only when a verdict of PAM is in, so attempts that wait behind the verdict that
exceeds the limit are not held up by it. -/
namespace Ltsm.LoginFailures
open Library XvfbSessions AllowLogins DBusAdaptor LoginMoves

/- Failed attempts since the last one that passed. The newest event is in front. -/
def failRow (p : XvfbSessionPtr) : List Event → Nat
  | [] => 0
  | .failed q _ :: earlier => if q = p then failRow p earlier + 1 else failRow p earlier
  | .passed q _ :: earlier => if q = p then 0 else failRow p earlier
  | _ :: earlier => failRow p earlier

def limitReached (n : Nat) (p : XvfbSessionPtr) : List Event → Bool
  | [] => false
  | event :: earlier => limitReached n p earlier || decide (n < failRow p (event :: earlier))

def succeeds (p : XvfbSessionPtr) : Event → Bool
  | .passed q _ | .succeeded q _ => q = p
  | _ => false

/- At no time more than `n + 1` failures in a row, and no success after that many. -/
def LimitKept (n : Nat) (p : XvfbSessionPtr) : List Event → Prop
  | [] => True
  | event :: earlier => LimitKept n p earlier ∧ failRow p (event :: earlier) ≤ n + 1 ∧
      (succeeds p event = true → limitReached n p earlier = false)

instance decidableKept (n p) : (history : List Event) → Decidable (LimitKept n p history)
  | [] => isTrue trivial
  | _ :: earlier =>
    have := decidableKept n p earlier
    inferInstanceAs (Decidable (LimitKept n p earlier ∧ _ ∧ _))

def failures (s : Service) (p : XvfbSessionPtr) : Nat :=
  ((s.pool.get p).map XvfbSession.loginFailures).getD 0

/- An attempt on the session that has been handed to PAM and is not finished. -/
def inPam (p : XvfbSessionPtr) : Task → Bool
  | .pamVerdict q _ _ | .pamAccount q _ | .pamWait q _ => q = p
  | _ => false

/- No attempt gets past the access tests of a session that is over the limit, and the
verdict that goes over the limit leaves no other attempt of the session in PAM. -/
def InTime (c : Config) (s : Service) : Action → Prop
  | .exec index env =>
    match s.tasks[index]? with
    | some (.pamAuthenticate p login _ _) =>
      admitted c env login s = true → failures s p ≤ c.loginFailuresConf
    | some (.pamVerdict p _ _) =>
      env.authenticated = false → failures s p = c.loginFailuresConf →
        ∀ task ∈ s.tasks.eraseIdx index, inPam p task = false
    | _ => True
  | _ => True
instance (c s a) : Decidable (InTime c s a) := by
  unfold InTime
  split
  · split <;> infer_instance
  · infer_instance

structure Counted (c : Config) (s : Service) : Prop where
  row : ∀ p, failRow p s.history ≤ failures s p
  reached : ∀ p, limitReached c.loginFailuresConf p s.history = true →
    c.loginFailuresConf < failures s p
  closed : ∀ p, c.loginFailuresConf < failures s p → ∀ task ∈ s.tasks, inPam p task = false
  kept : ∀ p, LimitKept c.loginFailuresConf p s.history

/- Steps that count nothing and hand nothing to PAM. -/
def counts : Event → Bool
  | .failed .. | .passed .. | .succeeded .. => true
  | _ => false

structure Uncounted (s t : Service) : Prop where
  sessions : ∀ p, failures t p = failures s p
  tasks : ∀ p, ∀ task ∈ t.tasks, inPam p task = true → task ∈ s.tasks
  history : t.history.filter counts = s.history.filter counts

section
variable {s t u : Service} {p q : XvfbSessionPtr} {x : XvfbSession} {c : Config} {env : Environment}
  {n : Nat} {event : Event} {history : List Event}

theorem rowQuiet (quiet : counts event = false) : failRow p (event :: history) = failRow p history := by
  cases event <;> first | rfl | contradiction

theorem rowFilter (history : List Event) : failRow p (history.filter counts) = failRow p history := by
  induction history with
  | nil => rfl
  | cons event earlier ih =>
    cases event <;> simp [List.filter_cons,counts,failRow,ih]

theorem reachedRow (above : n < failRow p history) : limitReached n p history = true := by
  cases history with
  | nil => simp [failRow] at above
  | cons event earlier => simp [limitReached,above]

theorem reachedQuiet (quiet : counts event = false) :
    limitReached n p (event :: history) = limitReached n p history := by
  rw [limitReached,rowQuiet quiet]
  cases above : decide (n < failRow p history) with
  | false => rw [Bool.or_false]
  | true =>
    rw [reachedRow (by simpa using above)]
    rfl

theorem rowCounted (counted : counts event = true) (history : List Event) :
    failRow p (event :: history.filter counts) = failRow p (event :: history) := by
  have whole := rowFilter (p := p) (event :: history)
  rw [List.filter_cons_of_pos counted] at whole
  exact whole

theorem reachedFilter (history : List Event) :
    limitReached n p (history.filter counts) = limitReached n p history := by
  induction history with
  | nil => rfl
  | cons event earlier ih =>
    cases counted : counts event with
    | false => rw [List.filter_cons_of_neg (by simp [counted]),reachedQuiet counted,ih]
    | true => rw [List.filter_cons_of_pos counted,limitReached,limitReached,ih,rowCounted counted]

theorem keptRow (kept : LimitKept n p history) : failRow p history ≤ n + 1 := by
  cases history with
  | nil => simp [failRow]
  | cons event earlier => exact kept.2.1

theorem keptQuiet (quiet : counts event = false) : LimitKept n p (event :: history) ↔ LimitKept n p history := by
  constructor
  · exact fun kept => kept.1
  · intro kept
    refine ⟨kept,?_,?_⟩
    · rw [rowQuiet quiet]
      exact keptRow kept
    · cases event <;> first | contradiction | simp [succeeds]

theorem keptFilter (history : List Event) :
    LimitKept n p (history.filter counts) ↔ LimitKept n p history := by
  induction history with
  | nil => rfl
  | cons event earlier ih =>
    cases counted : counts event with
    | false => rw [List.filter_cons_of_neg (by simp [counted]),keptQuiet counted,ih]
    | true => rw [List.filter_cons_of_pos counted,LimitKept,LimitKept,ih,reachedFilter,rowCounted counted]

/-! Steps that count nothing. -/

theorem Uncounted.refl (s : Service) : Uncounted s s := ⟨fun _ => rfl,fun _ _ h _ => h,rfl⟩

theorem Uncounted.trans (first : Uncounted s t) (second : Uncounted t u) : Uncounted s u :=
  ⟨fun p => (second.sessions p).trans (first.sessions p),
    fun p task inside pam => first.tasks p task (second.tasks p task inside pam) pam,
    second.history.trans first.history⟩

theorem Counted.uncounted (same : Uncounted s t) (h : Counted c s) : Counted c t := by
  refine ⟨?_,?_,?_,?_⟩
  · intro p
    rw [same.sessions p,← rowFilter,same.history,rowFilter]
    exact h.row p
  · intro p reached
    rw [← reachedFilter,same.history,reachedFilter] at reached
    rw [same.sessions p]
    exact h.reached p reached
  · intro p above task inside
    rw [same.sessions p] at above
    cases pam : inPam p task with
    | false => rfl
    | true =>
      have before := h.closed p above task (same.tasks p task inside pam)
      rw [before] at pam
      contradiction
  · intro p
    rw [← keptFilter,same.history,keptFilter]
    exact h.kept p

theorem uncountedPost {task : Task} (quiet : ∀ p, inPam p task = false) (s : Service) :
    Uncounted s (s.post task) := by
  refine ⟨fun _ => rfl,?_,rfl⟩
  intro p other inside pam
  rcases List.mem_append.mp inside with old | new
  · exact old
  · cases List.mem_singleton.mp new
    rw [quiet p] at pam
    contradiction

theorem uncountedEmit (signal : Signal) (s : Service) : Uncounted s (s.emit signal) :=
  ⟨fun _ => rfl,fun _ _ h _ => h,rfl⟩

theorem uncountedLog {e : Event} (quiet : counts e = false) (s : Service) : Uncounted s (s.log e) := by
  refine ⟨fun _ => rfl,fun _ _ h _ => h,?_⟩
  rw [Service.logHistory,List.filter_cons_of_neg (by simp [quiet])]

theorem uncountedModify {f : XvfbSession → XvfbSession}
    (keeps : ∀ x, (f x).loginFailures = x.loginFailures) (s : Service) : Uncounted s (s.modify p f) := by
  refine ⟨?_,fun _ _ h _ => h,rfl⟩
  intro q
  unfold failures
  rw [Service.modifyPool,SharedPool.getModify]
  split
  · cases s.pool.get q <;> simp [keeps]
  · rfl

theorem uncountedLaunch (zero : x.loginFailures = 0) (s : Service) : Uncounted s (s.launch x) := by
  refine ⟨?_,fun _ _ h _ => h,rfl⟩
  intro q
  unfold failures
  rw [Service.launchPool,SharedPool.getInsert]
  split
  · rename_i new
    have absent : s.pool.get q = none := by
      rw [new]
      exact List.getElem?_eq_none le_rfl
    simp [absent,zero]
  · rfl

theorem uncountedQuiet (same : Quiet s t) : Uncounted s t := by
  refine ⟨?_,?_,?_⟩
  · intro p
    have view := congrArg (Option.map LoginView.loginFailures) (same.sessions p)
    rw [Option.map_map,Option.map_map] at view
    exact congrArg (Option.getD · 0) view
  · intro p task inside pam
    apply same.tasks task inside
    cases task <;> first | rfl | contradiction
  · have refines (history : List Event) : history.filter counts = (history.filter isLogin).filter counts := by
      rw [List.filter_filter]
      congr 1
      funext event
      cases event <;> rfl
    rw [refines,same.history,← refines]

/-! The parts of an attempt. -/

theorem failuresFound (found : s.pool.get p = some x) : failures s p = x.loginFailures := by
  simp [failures,found]

theorem failuresModify {f : XvfbSession → XvfbSession} (other : p ≠ q) :
    failures (s.modify p f) q = failures s q := by
  unfold failures
  rw [Service.modifyPool,SharedPool.getModify,if_neg other]

theorem countedPost (h : Counted c s) {task : Task}
    (below : ∀ q, inPam q task = true → failures s q ≤ c.loginFailuresConf) : Counted c (s.post task) := by
  refine ⟨h.row,h.reached,?_,h.kept⟩
  intro q above other inside
  rcases List.mem_append.mp inside with old | new
  · exact h.closed q above other old
  · cases List.mem_singleton.mp new
    cases pam : inPam q task with
    | false => rfl
    | true =>
      have := below q pam
      exact absurd above (by change ¬c.loginFailuresConf < failures s q; omega)

/- What a step has to keep when it adds one event about one session. -/
theorem countedEvent (h : Counted c s) (tasks : t.tasks = s.tasks) (history : t.history = event :: s.history)
    (others : ∀ q, p ≠ q → failures t q = failures s q ∧
      failRow q (event :: s.history) = failRow q s.history ∧ succeeds q event = false)
    (here : failRow p (event :: s.history) ≤ failures t p)
    (bound : failRow p (event :: s.history) ≤ c.loginFailuresConf + 1)
    (reached : c.loginFailuresConf < failures s p → c.loginFailuresConf < failures t p)
    (success : succeeds p event = true → failures s p ≤ c.loginFailuresConf)
    (closed : c.loginFailuresConf < failures t p → ∀ task ∈ s.tasks, inPam p task = false) :
    Counted c t := by
  refine ⟨?_,?_,?_,?_⟩
  · intro q
    rw [history]
    by_cases other : p = q
    · exact other ▸ here
    · obtain ⟨same,row,_⟩ := others q other
      rw [same,row]
      exact h.row q
  · intro q beyond
    rw [history,limitReached,Bool.or_eq_true,decide_eq_true_eq] at beyond
    by_cases other : p = q
    · subst other
      rcases beyond with before | now
      · exact reached (h.reached p before)
      · exact now.trans_le here
    · obtain ⟨same,row,_⟩ := others q other
      rw [same]
      rcases beyond with before | now
      · exact h.reached q before
      · rw [row] at now
        exact now.trans_le (h.row q)
  · intro q above
    rw [tasks]
    by_cases other : p = q
    · subst other
      exact closed above
    · rw [(others q other).1] at above
      exact h.closed q above
  · intro q
    rw [history]
    refine ⟨h.kept q,?_,?_⟩
    · by_cases other : p = q
      · exact other ▸ bound
      · rw [(others q other).2.1]
        exact keptRow (h.kept q)
    · intro succeeded
      by_cases other : p = q
      · subst other
        have below := success succeeded
        cases beyond : limitReached c.loginFailuresConf p s.history with
        | false => rfl
        | true =>
          have above := h.reached p beyond
          omega
      · rw [(others q other).2.2] at succeeded
        contradiction

theorem countedSucceeded (h : Counted c s) (below : failures s p ≤ c.loginFailuresConf) (login : String) :
    Counted c (s.log (.succeeded p login)) := by
  have row := h.row p
  apply countedEvent (p := p) (t := s.log (.succeeded p login)) h rfl rfl
  · intro q other
    exact ⟨rfl,rfl,by simpa [succeeds] using other⟩
  · exact row
  · exact (row.trans below).trans (Nat.le_succ _)
  · exact id
  · exact fun _ => below
  · exact h.closed p

/- A success within the limit ends the row of failures. -/
theorem countedPassed (h : Counted c s) (found : s.pool.get p = some x)
    (below : failures s p ≤ c.loginFailuresConf) (login : String) :
    Counted c ((if 0 < c.loginFailuresConf then s.modify p resetFailures else s).log
        (.passed p login)) ∧
      failures (if 0 < c.loginFailuresConf then s.modify p resetFailures else s) p ≤
        c.loginFailuresConf := by
  have ended : failRow p (.passed p login :: s.history) = 0 := by
    rw [failRow,if_pos rfl]
  split
  · have zero : failures (s.modify p resetFailures) p = 0 :=
      failuresFound (x := resetFailures x) (SharedPool.getModifySelf found)
    refine ⟨?_,zero.trans_le (Nat.zero_le _)⟩
    apply countedEvent (p := p) (t := (s.modify p resetFailures).log (.passed p login)) h rfl rfl
    · intro q other
      exact ⟨failuresModify other,by rw [failRow,if_neg other],by simpa [succeeds] using other⟩
    · exact ended.trans_le (Nat.zero_le _)
    · exact ended.trans_le (Nat.zero_le _)
    · intro above
      omega
    · exact fun _ => below
    · intro above
      change c.loginFailuresConf < failures (s.modify p resetFailures) p at above
      omega
  · refine ⟨?_,below⟩
    apply countedEvent (p := p) (t := s.log (.passed p login)) h rfl rfl
    · intro q other
      exact ⟨rfl,by rw [failRow,if_neg other],by simpa [succeeds] using other⟩
    · exact ended.trans_le (Nat.zero_le _)
    · exact ended.trans_le (Nat.zero_le _)
    · exact id
    · exact fun _ => below
    · exact h.closed p

theorem countedFailed (h : Counted c s) (found : s.pool.get p = some x)
    (below : failures s p ≤ c.loginFailuresConf)
    (alone : failures s p = c.loginFailuresConf → ∀ task ∈ s.tasks, inPam p task = false) (login : String) :
    Counted c ((s.modify p countFailure).log (.failed p login)) := by
  have more : failures (s.modify p countFailure) p = failures s p + 1 := by
    rw [failuresFound found]
    exact failuresFound (x := countFailure x) (SharedPool.getModifySelf found)
  have row : failRow p (.failed p login :: s.history) = failRow p s.history + 1 := by
    rw [failRow,if_pos rfl]
  have before := h.row p
  apply countedEvent (p := p) (t := (s.modify p countFailure).log (.failed p login)) h rfl rfl
  · intro q other
    exact ⟨failuresModify other,by rw [failRow,if_neg other],rfl⟩
  · change _ ≤ failures (s.modify p countFailure) p
    omega
  · omega
  · intro above
    omega
  · intro success
    contradiction
  · intro above
    change _ < failures (s.modify p countFailure) p at above
    exact alone (by omega)

theorem loginSuccessCounted (h : Counted c s) (below : failures s p ≤ c.loginFailuresConf) (login : String) :
    Counted c (loginSuccess env p x login s) :=
  countedSucceeded (h.uncounted (uncountedEmit (.loginSuccess x.displayNum login (getUserUid env.db login)) s))
    below login

theorem authSuccessCounted (h : Counted c s) (found : s.pool.get p = some x)
    (below : failures s p ≤ c.loginFailuresConf) (login : String) :
    Counted c (authSuccess c env p x login s) := by
  obtain ⟨passed,after⟩ := countedPassed h found below login
  unfold authSuccess
  dsimp only
  split
  · exact loginSuccessCounted passed after login
  · rename_i userSess busy
    split
    · exact passed.uncounted (uncountedEmit _ _)
    · apply countedPost (passed.uncounted (uncountedEmit (.shutdownConnector userSess.displayNum) _))
      intro q pam
      have pointer : p = q := by simpa [inPam] using pam
      subst pointer
      exact after
    · exact loginSuccessCounted passed after login

theorem pamAuthenticateCounted (h : Counted c s) (found : s.pool.get p = some x) (login password : String)
    (token : Bool) (below : admitted c env login s = true → failures s p ≤ c.loginFailuresConf) :
    Counted c (pamAuthenticate c env p x login password token s) := by
  unfold pamAuthenticate
  cases allowed : getAllowLogins c.access env.db with
  | none => exact h
  | some users =>
    dsimp only
    cases refusal : loginRefusal env users login s with
    | some error => exact h.uncounted (uncountedEmit _ s)
    | none =>
      have admits : admitted c env login s = true := by simp [admitted,allowed,refusal]
      have within := below admits
      dsimp only
      split
      · exact authSuccessCounted h found within login
      · apply countedPost h
        intro q pam
        have pointer : p = q := by simpa [inPam] using pam
        subst pointer
        exact within

theorem pamVerdictCounted (h : Counted c s) (found : s.pool.get p = some x) (login password : String)
    (below : failures s p ≤ c.loginFailuresConf)
    (alone : env.authenticated = false → failures s p = c.loginFailuresConf →
      ∀ task ∈ s.tasks, inPam p task = false) :
    Counted c (pamVerdict c env p x login password s) := by
  unfold pamVerdict
  split
  · have kept := (uncountedModify (p := p) (f := fun x => {x with password}) (by intro; rfl) s).trans
      (uncountedLog (e := .accepted p login password) rfl _)
    apply countedPost (h.uncounted kept)
    intro q pam
    have pointer : p = q := by simpa [inPam] using pam
    subst pointer
    rw [kept.sessions]
    exact below
  · rename_i rejected
    have emitted := h.uncounted (uncountedEmit (.loginFailure x.displayNum env.pamError) s)
    have counted := countedFailed emitted found below (alone (by simpa using rejected)) login
    dsimp only
    split
    · exact counted.uncounted ((uncountedEmit _ _).trans (uncountedQuiet (quietPost rfl _)))
    · exact counted

theorem pamAccountCounted (h : Counted c s) (found : s.pool.get p = some x) (login : String)
    (below : failures s p ≤ c.loginFailuresConf) : Counted c (pamAccount c env p x login s) := by
  unfold pamAccount
  split
  · exact authSuccessCounted h found below login
  · exact h.uncounted (uncountedQuiet (quietFold (fun s _ => shutdownDisplayQuiet _ s) _ s))

theorem execCounted (h : Counted c s) (index : Nat) (env : Environment)
    (intime : InTime c s (.exec index env)) : Counted c (exec c index env s) := by
  unfold exec
  unfold InTime at intime
  dsimp only at intime
  cases queued : s.tasks[index]? with
  | none => exact h
  | some task =>
    rw [queued] at intime
    have inside : task ∈ s.tasks := List.mem_of_getElem? queued
    -- what is in PAM already belongs to a session within the limit
    have within (p : XvfbSessionPtr) (pam : inPam p task = true) : failures s p ≤ c.loginFailuresConf := by
      have open_ := h.closed p
      by_contra above
      rw [open_ (by omega) task inside] at pam
      contradiction
    have taken := h.uncounted (uncountedQuiet (quietErase index s))
    cases task with
    | pamAuthenticate p login password token =>
      simp only [runTask]
      split
      · exact taken
      · rename_i x found
        exact pamAuthenticateCounted taken found login password token intime
    | pamVerdict p login password =>
      simp only [runTask]
      split
      · exact taken
      · rename_i x found
        exact pamVerdictCounted taken found login password (within p (by simp [inPam])) intime
    | pamAccount p login =>
      simp only [runTask]
      split
      · exact taken
      · rename_i x found
        exact pamAccountCounted taken found login (within p (by simp [inPam]))
    | pamWait p login =>
      simp only [runTask]
      split
      · exact taken
      · exact loginSuccessCounted taken (within p (by simp [inPam])) login
    | _ => exact taken.uncounted (uncountedQuiet (runTaskQuiet _ rfl _))

theorem loginSessionUncounted (launch : Launch) (connectorId : Int) (remoteAddr connType : String)
    (s : Service) : Uncounted s (busStartLoginSession c launch connectorId remoteAddr connType s).2 := by
  obtain ⟨display,_,same⟩ | ⟨x,launched,same⟩ :=
    SessionMoves.loginSessionSource (c := c) launch connectorId remoteAddr connType s
  · rw [same]
    exact ⟨fun _ => rfl,fun _ _ inside _ => inside,rfl⟩
  · rw [same]
    exact (uncountedLaunch (x := {x with remoteAddr,conntype := connType,connectorId})
      launched.loginFailures s).trans (uncountedLog rfl _)

theorem userSessionUncounted (launch : Launch) (socket : Bool) (oldScreen connectorId : Int)
    (userName remoteAddr connType : String) (s : Service) :
    Uncounted s (busStartUserSession c launch socket oldScreen connectorId userName remoteAddr connType s).2 := by
  obtain ⟨display,_,same⟩ | ⟨login,loginSess,_,⟨old,oldSess,_,_,_,same⟩ | ⟨_,x,launched,same⟩⟩ :=
    SessionMoves.userSessionSource (c := c) launch socket oldScreen connectorId userName remoteAddr connType s
  · rw [same]
    exact ⟨fun _ => rfl,fun _ _ inside _ => inside,rfl⟩
  · rw [same]
    exact (uncountedModify (f := continueScreen loginSess connectorId remoteAddr connType) (fun _ => rfl) s).trans
      ((uncountedModify (f := moveEncryption) (fun _ => rfl) _).trans
        ((uncountedEmit _ _).trans (uncountedLog rfl _)))
  · rw [same]
    exact (uncountedLaunch (x := updateScreen c loginSess connectorId remoteAddr connType x)
      launched.loginFailures s).trans
        ((uncountedModify (f := moveEncryption) (fun _ => rfl) _).trans (uncountedLog rfl _))

theorem stepCounted (s : Service) (a : Action) (intime : InTime c s a) (h : Counted c s) :
    Counted c (step c s a) := by
  cases other : quietAction a with
  | true => exact h.uncounted (uncountedQuiet (stepQuiet a other s))
  | false =>
    have posted (display : Int) (login password : String) (token : Bool) :
        Uncounted s (onSession display (fun p => .post (.pamAuthenticate p login password token)) s) := by
      obtain same | ⟨p,_,_,same⟩ := sessionSource display _ s
      · rw [same]
        exact .refl s
      · rw [same]
        exact uncountedPost (fun _ => rfl) s
    cases a with
    | exec index env => exact execCounted h index env intime
    | startLoginSession launch connectorId remoteAddr connType =>
      exact h.uncounted (loginSessionUncounted launch connectorId.id remoteAddr connType s)
    | startUserSession launch socket oldScreen connectorId userName remoteAddr connType =>
      exact h.uncounted
        (userSessionUncounted launch socket oldScreen connectorId.id userName remoteAddr connType s)
    | setAuthenticateToken display login => exact h.uncounted (posted display login "******" true)
    | setAuthenticateLoginPass display login password => exact h.uncounted (posted display login password false)
    | _ => contradiction

end

theorem startCounted (c : Config) : Counted c start := by
  refine ⟨?_,?_,?_,?_⟩
  · intro p
    exact Nat.zero_le _
  · intro p reached
    contradiction
  · intro p _ task inside
    simp [start] at inside
  · intro p
    trivial

def attempt (password : String) : Action := .setAuthenticateLoginPass 101 "alice" password

def afterRun (actions : List Action) : Service := run (step (hostConfig "authtake")) start actions

/- The first failure shuts the display down, and the next attempt finds no session. -/
def singleRun : List Action :=
  [.startLoginSession hostLaunch (hostPid 501) "10.0.0.1" "ltsm",attempt "first",
    .exec 0 (hostAnswer false),.exec 0 (hostAnswer false),.exec 0 (hostAnswer false),
    .exec 0 (hostAnswer false),attempt "second",.exec 0 (hostAnswer true)]

/- The second attempt is queued before the first verdict, and its own comes after it. -/
def queuedRun (authenticated : Bool) : List Action :=
  [.startLoginSession hostLaunch (hostPid 501) "10.0.0.1" "ltsm",attempt "first",attempt "second",
    .exec 0 (hostAnswer false),.exec 1 (hostAnswer false),.exec 0 (hostAnswer false),
    .exec 1 (hostAnswer authenticated),.exec 1 (hostAnswer authenticated)]

end Ltsm.LoginFailures
