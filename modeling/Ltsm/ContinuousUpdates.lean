import Ltsm.DamageLoop

/-! The region that updates are clipped to. A client that has enabled continuous updates has told it;
otherwise each request tells it. The server announces continuous updates with the same flag. -/
namespace Ltsm.ContinuousUpdates
open Library Regions DamageLoop

/- The server, and the region of the client's last EnableContinuousUpdates while it stands. -/
structure Watched where
  server : X11Server
  enabled : Option Region
  deriving DecidableEq, Repr

def watchStart (size : Size) : Watched := ⟨start size,none⟩

def enabledAfter (w : Watched) : Event → Option Region
  | .recvSetContinuousUpdates enable reg =>
    if blocked w.server (.recvSetContinuousUpdates enable reg) then w.enabled
    else if enable then some reg else none
  | _ => w.enabled

def watch (w : Watched) (e : Event) : Watched := ⟨step w.server e,enabledAfter w e⟩

/- A region that holds something, and is in force. -/
def Continuous (w : Watched) (reg : Region) : Prop := w.enabled = some reg ∧ reg.isEmpty = false

def Clipped (w : Watched) : Prop := ∀ reg, Continuous w reg → w.server.clientRegion = reg

/- The mode without continuous updates. -/
def plain (s : X11Server) : X11Server := {s with continueUpdatesProcessed := false}

/- An incremental request is nothing to a continuous client, and tells the region to another one. -/
def Skipped (w : Watched) (e : Event) : Prop :=
  ∀ region, e = .recvFBUpdate true region →
    ((∃ reg, Continuous w reg) → step w.server e = w.server) ∧
    (w.enabled = none → (step w.server e).clientRegion = (step (plain w.server) e).clientRegion)

def AlwaysClipped (size : Size) (events : List Event) : Prop :=
  Always watch Clipped (watchStart size) events ∧ Meets watch Skipped (watchStart size) events

/- A continuous client asks for its own region only, and incrementally not at all unless it has no
effect; another one does not ask incrementally while continuous updates are announced. -/
def Asks (w : Watched) (e : Event) : Prop :=
  ∀ incremental region, e = .recvFBUpdate incremental region → blocked w.server e = false →
    (∀ reg, Continuous w reg →
      if w.server.xcbAllowMessages then
        region = reg ∧ (incremental = true → w.server.continueUpdatesProcessed = false)
      else incremental = true → w.server.fullscreenUpdateReq = true) ∧
    (w.enabled = none → incremental = true → w.server.xcbAllowMessages = true →
      w.server.continueUpdatesProcessed = true → region = .reset)

section
variable {w : Watched} {e : Event} {s : X11Server} {region reg : Region} {incremental : Bool}

/- Two kinds of events touch the region. -/
theorem handleRegion (other : ∀ incremental region, e ≠ .recvFBUpdate incremental region)
    (unset : ∀ enable reg, e ≠ .recvSetContinuousUpdates enable reg) :
    (handle s e).clientRegion = s.clientRegion := by
  cases e with
  | recvFBUpdate incremental region => exact absurd rfl (other incremental region)
  | recvSetContinuousUpdates enable reg => exact absurd rfl (unset enable reg)
  | damageNotify rt =>
    simp only [handle,X11Server.pollDamage]
    split <;> rfl
  | crtcChange cc wsz =>
    simp only [handle,X11Server.pollCrtcChange]
    split <;> rfl
  | recvDesktopSize screens =>
    simp only [handle,X11Server.serverRecvDesktopSizeEvent]
    split_ifs <;> rfl
  | frame ffmpeg early =>
    simp only [handle,X11Server.frame]
    split_ifs <;> rfl
  | checkUpdate =>
    simp only [handle,X11Server.checkUpdate]
    split_ifs <;> rfl
  | readRegion =>
    simp only [handle]
    split <;> rfl
  | pickDamage =>
    simp only [handle]
    split <;> rfl
  | finishUpdate update cursorThrows =>
    simp only [handle,X11Server.finishUpdate]
    split_ifs <;> rfl
  | setScreenSize | cursorChanged | screenUpdate | screenUpdateRegion | sendContinuousUpdates | resizeAnswered
    | resizeFailed | disableMessages | messagesShutdown => rfl

theorem stepRegion (other : ∀ incremental region, e ≠ .recvFBUpdate incremental region)
    (unset : ∀ enable reg, e ≠ .recvSetContinuousUpdates enable reg) :
    (step s e).clientRegion = s.clientRegion := by
  unfold step
  split
  · rfl
  · exact handleRegion other unset

/- What a request does that is not held up. -/
theorem requestStep (free : blocked s (.recvFBUpdate incremental region) = false) :
    step s (.recvFBUpdate incremental region) = s.serverRecvFBUpdateEvent incremental region := by
  rw [step,if_neg (by simp [free])]
  rfl

theorem plainBlocked : blocked (plain s) (.recvFBUpdate incremental region) =
    blocked s (.recvFBUpdate incremental region) := rfl

theorem emptyReset (some : reg.isEmpty = false) : Region.reset ≠ reg := by
  rintro rfl
  exact Bool.noConfusion some

/- The region of a request, in the mode that the server is in. -/
theorem requestRegion (allowed : s.xcbAllowMessages = true) :
    (s.serverRecvFBUpdateEvent incremental region).clientRegion =
      if incremental && s.continueUpdatesProcessed then .reset else region := by
  unfold X11Server.serverRecvFBUpdateEvent
  cases incremental <;> cases flag : s.continueUpdatesProcessed <;> simp [allowed]

theorem requestRefused (refused : s.xcbAllowMessages = false) :
    s.serverRecvFBUpdateEvent incremental region = {s with fullscreenUpdateReq := true} := by
  simp [X11Server.serverRecvFBUpdateEvent,refused]

theorem requestTaken (allowed : s.xcbAllowMessages = true) (flag : s.continueUpdatesProcessed = false) :
    s.serverRecvFBUpdateEvent true region = {s with clientRegion := region} := by
  rw [X11Server.serverRecvFBUpdateEvent,if_neg (by simp [allowed]),if_neg (by simp),if_neg (by simp [flag])]

/- A request of a continuous client. -/
theorem continuousAsks (clipped : Clipped w) (continuous : Continuous w reg)
    (free : blocked w.server (.recvFBUpdate incremental region) = false) :
    ((step w.server (.recvFBUpdate incremental region)).clientRegion = reg ∧
      (incremental = true → step w.server (.recvFBUpdate incremental region) = w.server)) ↔
    (if w.server.xcbAllowMessages then
        region = reg ∧ (incremental = true → w.server.continueUpdatesProcessed = false)
      else incremental = true → w.server.fullscreenUpdateReq = true) := by
  have told := clipped reg continuous
  have apart := emptyReset continuous.2
  rw [requestStep free]
  cases allowed : w.server.xcbAllowMessages with
  | true =>
    rw [requestRegion allowed,if_pos rfl]
    cases incremental with
    | false => simp
    | true =>
      cases flag : w.server.continueUpdatesProcessed with
      | true => simp [apart]
      | false =>
        simp only [Bool.and_false,Bool.false_eq_true,if_false,forall_true_left,and_true]
        refine and_iff_left_of_imp ?_
        rintro rfl
        rw [requestTaken allowed flag,← told]
  | false =>
    rw [requestRefused allowed,if_neg (by simp)]
    refine (and_iff_right told).trans (imp_congr_right fun _ => ⟨fun same => ?_,fun full => ?_⟩)
    · exact (congrArg X11Server.fullscreenUpdateReq same).symm
    · rw [← full]

/- A request of another client. -/
theorem plainAsks (free : blocked w.server (.recvFBUpdate true region) = false) :
    (step w.server (.recvFBUpdate true region)).clientRegion =
        (step (plain w.server) (.recvFBUpdate true region)).clientRegion ↔
      (w.server.xcbAllowMessages = true → w.server.continueUpdatesProcessed = true → region = .reset) := by
  rw [requestStep free,requestStep (plainBlocked.trans free)]
  cases allowed : w.server.xcbAllowMessages with
  | true =>
    rw [requestRegion allowed,requestRegion (s := plain w.server) allowed]
    cases w.server.continueUpdatesProcessed with
    | true => simp [plain,eq_comm]
    | false => simp [plain]
  | false =>
    rw [requestRefused allowed,requestRefused (s := plain w.server) allowed]
    exact iff_of_true rfl fun yes => Bool.noConfusion yes

/- The message that tells the region. -/
theorem setClipped (clipped : Clipped w) (enable : Bool) (reg : Region) :
    Clipped (watch w (.recvSetContinuousUpdates enable reg)) := by
  unfold watch enabledAfter step
  dsimp only
  split
  · exact clipped
  · rintro other ⟨enabled,_⟩
    dsimp only at enabled
    split at enabled
    · exact Option.some.inj enabled
    · contradiction

theorem asksIff (clipped : Clipped w) : (Clipped (watch w e) ∧ Skipped w e) ↔ Asks w e := by
  by_cases request : ∃ incremental region, e = .recvFBUpdate incremental region
  · obtain ⟨incremental,region,rfl⟩ := request
    cases free : blocked w.server (.recvFBUpdate incremental region) with
    | true =>
      have waits : step w.server (.recvFBUpdate incremental region) = w.server := by rw [step,if_pos free]
      refine iff_of_true ⟨?_,?_⟩ ?_
      · intro reg continuous
        exact (congrArg X11Server.clientRegion waits).trans (clipped reg continuous)
      · rintro other ⟨⟩
        refine ⟨fun _ => waits,fun _ => ?_⟩
        rw [waits,step,if_pos (plainBlocked.trans free)]
        rfl
      · rintro _ _ ⟨⟩ taken
        exact Bool.noConfusion (free.symm.trans taken)
    | false =>
      constructor
      · rintro ⟨clips,skips⟩ _ _ ⟨⟩ _
        refine ⟨fun reg continuous => ?_,fun none increments allowed flag => ?_⟩
        · refine (continuousAsks clipped continuous free).mp ⟨clips reg continuous,?_⟩
          rintro rfl
          exact (skips region rfl).1 ⟨reg,continuous⟩
        · subst increments
          exact (plainAsks free).mp ((skips region rfl).2 none) allowed flag
      · intro asks
        obtain ⟨continues,plains⟩ := asks incremental region rfl free
        refine ⟨fun reg continuous => ((continuousAsks clipped continuous free).mpr (continues reg continuous)).1,?_⟩
        rintro _ ⟨⟩
        refine ⟨?_,fun none => (plainAsks free).mpr (plains none rfl)⟩
        rintro ⟨reg,continuous⟩
        exact ((continuousAsks clipped continuous free).mpr (continues reg continuous)).2 rfl
  · have other : ∀ incremental region, e ≠ .recvFBUpdate incremental region :=
      fun incremental region same => request ⟨incremental,region,same⟩
    refine iff_of_true ⟨?_,fun region same => absurd same (other true region)⟩
      fun incremental region same => absurd same (other incremental region)
    by_cases set : ∃ enable reg, e = .recvSetContinuousUpdates enable reg
    · obtain ⟨enable,reg,rfl⟩ := set
      exact setClipped clipped enable reg
    · have unset : ∀ enable reg, e ≠ .recvSetContinuousUpdates enable reg :=
        fun enable reg same => set ⟨enable,reg,same⟩
      have stays : enabledAfter w e = w.enabled := by
        unfold enabledAfter
        split
        · exact absurd rfl (unset _ _)
        · rfl
      intro reg continuous
      exact (stepRegion other unset).trans (clipped reg ⟨stays ▸ continuous.1,continuous.2⟩)

end

theorem continuousIff (size : Size) (events : List Event) :
    AlwaysClipped size events ↔ Meets watch Asks (watchStart size) events := by
  have clippedStart : Clipped (watchStart size) := fun reg continuous => by cases continuous.1
  have clips : Always watch Clipped (watchStart size) events ↔
      Meets watch (fun w e => Clipped (watch w e)) (watchStart size) events :=
    alwaysIff (I := fun _ => True) (fun _ _ _ => trivial) (fun _ _ _ _ => Iff.rfl) trivial clippedStart events
  rw [AlwaysClipped,clips,← meetsAnd]
  exact meetsCongr (P := Clipped) (fun w e asks clipped => ((asksIff clipped).mpr asks).1)
    (fun w e clipped => asksIff clipped) clippedStart

/- The screen is enabled, and then asked for. -/
theorem requestEmpties : ¬ ∀ size events, AlwaysClipped size events := by
  intro all
  have clipped := (all ⟨800,600⟩ [.recvSetContinuousUpdates true ⟨0,0,800,600⟩,.recvFBUpdate true ⟨0,0,800,600⟩]).1
    _ (List.prefix_refl _) ⟨0,0,800,600⟩ ⟨by decide +kernel,rfl⟩
  exact absurd clipped (by decide +kernel)

end Ltsm.ContinuousUpdates
