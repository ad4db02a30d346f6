import Ltsm.DamagedRegions
import Ltsm.Library.Run

/-! The main loop of the X11 server and the threads beside it. The loop sends damageRegion
while it holds serverLock; the thread of the X events and the thread of the client's
messages join to it and wait for the lock, but set the flags without it. -/
namespace Ltsm.DamageLoop
open Library Regions

/- Where a pass of the loop is: before it, past the delay, past the waiting condition, with
the region of the screen read, with the lock and the damage to be sent, or out of the loop. -/
inductive MainLoop where
  | top
  | ready
  | allowed
  | taken (serverRegion : Region)
  | sending
  | ended
  deriving DecidableEq, Repr

structure X11Server where
  size : Size
  clientRegion : Region
  damageRegion : Region
  displayResizeNegotiation : Bool
  displayResizeProcessed : Bool
  clientUpdateCursor : Bool
  fullscreenUpdateReq : Bool
  continueUpdatesProcessed : Bool
  xcbDisable : Bool
  rfbMessages : Bool
  mainLoop : MainLoop
  deriving DecidableEq, Repr

namespace X11Server

def region (s : X11Server) : Region := ⟨0,0,s.size.width,s.size.height⟩

def xcbAllowMessages (s : X11Server) : Bool := !s.xcbDisable

def xcbDamageNotifyEvent (rt : Region) (s : X11Server) : X11Server :=
  {s with damageRegion := s.damageRegion.join rt}

/- What pollEvent does with the rectangle of a damage event. -/
def discards (s : X11Server) (rt : Region) : Bool :=
  rt.x + rt.width > s.size.width || rt.y + rt.height > s.size.height

def pollDamage (rt : Region) (s : X11Server) : X11Server :=
  if s.discards rt then s else s.xcbDamageNotifyEvent rt

/- A mode change of the size the screen has been found to have. -/
def pollCrtcChange (cc wsz : Size) (s : X11Server) : X11Server :=
  if 0 < cc.width ∧ 0 < cc.height then
    {s with
      size := wsz
      displayResizeProcessed := if cc = wsz then false else s.displayResizeProcessed}
  else s

def serverScreenUpdateRequest (s : X11Server) : X11Server := {s with fullscreenUpdateReq := true}

def serverScreenUpdateRegion (reg : Region) (s : X11Server) : X11Server :=
  {s with damageRegion := s.damageRegion.join reg}

def serverRecvFBUpdateEvent (incremental : Bool) (region : Region) (s : X11Server) : X11Server :=
  if !s.xcbAllowMessages then {s with fullscreenUpdateReq := true}
  else if !incremental then
    {s with
      clientRegion := region
      fullscreenUpdateReq := true}
  else if s.continueUpdatesProcessed then {s with clientRegion := .reset}
  else {s with clientRegion := region}

def recvSetContinuousUpdates (enable : Bool) (reg : Region) (s : X11Server) : X11Server :=
  {s with
    continueUpdatesProcessed := enable
    clientRegion := reg
    damageRegion := if enable then s.damageRegion.join reg else s.damageRegion}

def serverRecvDesktopSizeEvent (screens : List Region) (s : X11Server) : X11Server :=
  let desktop := screens.foldl Region.join ⟨0,0,0,0⟩
  if desktop.x ≠ 0 ∧ desktop.y ≠ 0 then s
  else if !s.xcbAllowMessages then s
  else if s.size = desktop.toSize then s
  else {s with displayResizeNegotiation := true}

/-! One pass of the loop. -/

/- The delay of a frame; a pass that is early goes back to the top. -/
def frame (ffmpeg early : Bool) (s : X11Server) : X11Server :=
  if s.rfbMessages then
    {s with
      fullscreenUpdateReq := s.fullscreenUpdateReq || ffmpeg
      mainLoop := if early then .top else .ready}
  else {s with mainLoop := .ended}

def checkUpdate (s : X11Server) : X11Server :=
  if s.fullscreenUpdateReq || !s.damageRegion.isEmpty then
    if !s.xcbAllowMessages || s.displayResizeProcessed || s.displayResizeNegotiation || s.clientRegion.isEmpty then
      {s with mainLoop := .top}
    else {s with mainLoop := .allowed}
  else {s with mainLoop := .top}

/- The whole screen, or what of the damage is on it. -/
def screenDamage (serverRegion : Region) (s : X11Server) : Region :=
  if s.fullscreenUpdateReq then serverRegion else serverRegion.intersected (s.damageRegion.align 4)

def pickDamage (serverRegion : Region) (s : X11Server) : X11Server :=
  {s with
    fullscreenUpdateReq := false
    damageRegion := if s.clientRegion ≠ serverRegion then s.clientRegion.intersected (s.screenDamage serverRegion)
      else s.screenDamage serverRegion
    mainLoop := .sending}

end X11Server

/- How an update ends: all of it sent, the X server busy with its image, or an exception. -/
inductive Update where
  | sent
  | busy
  | failed
  deriving DecidableEq, Repr

def sendUpdateSafe : Update → Bool
  | .sent => true
  | .busy => true
  | .failed => false

/- What is done with the lock, once the update has ended; the cursor may throw. -/
def X11Server.finishUpdate (update : Update) (cursorThrows : Bool) (s : X11Server) : X11Server :=
  if sendUpdateSafe update then
    if s.clientUpdateCursor && cursorThrows then {s with mainLoop := .ended}
    else
      {s with
        clientUpdateCursor := false
        damageRegion := .reset
        mainLoop := .top}
  else
    {s with
      rfbMessages := false
      mainLoop := .top}

inductive Event where
  | damageNotify (rt : Region)
  | crtcChange (cc wsz : Size)
  | setScreenSize
  | cursorChanged (supported : Bool)
  | screenUpdate
  | screenUpdateRegion (reg : Region)
  | recvFBUpdate (incremental : Bool) (region : Region)
  | recvSetContinuousUpdates (enable : Bool) (reg : Region)
  | sendContinuousUpdates (enable : Bool)
  | recvDesktopSize (screens : List Region)
  | resizeAnswered
  | resizeFailed
  | disableMessages (disable : Bool)
  | messagesShutdown
  | frame (ffmpeg early : Bool)
  | checkUpdate
  | readRegion
  | pickDamage
  | finishUpdate (update : Update) (cursorThrows : Bool)
  deriving DecidableEq, Repr

/- An event that takes serverLock waits while the loop has it. -/
def blocked (s : X11Server) (e : Event) : Bool :=
  s.mainLoop = .sending && match e with
    | .damageNotify rt => !s.discards rt
    | .recvFBUpdate _ _ => s.xcbAllowMessages
    | .screenUpdateRegion _ => true
    | .recvSetContinuousUpdates _ _ => true
    | _ => false

def handle (s : X11Server) : Event → X11Server
  | .damageNotify rt => s.pollDamage rt
  | .crtcChange cc wsz => s.pollCrtcChange cc wsz
  | .setScreenSize => {s with displayResizeProcessed := true}
  | .cursorChanged supported => {s with clientUpdateCursor := supported}
  | .screenUpdate => s.serverScreenUpdateRequest
  | .screenUpdateRegion reg => s.serverScreenUpdateRegion reg
  | .recvFBUpdate incremental region => s.serverRecvFBUpdateEvent incremental region
  | .recvSetContinuousUpdates enable reg => s.recvSetContinuousUpdates enable reg
  | .sendContinuousUpdates enable => {s with continueUpdatesProcessed := enable}
  | .recvDesktopSize screens => s.serverRecvDesktopSizeEvent screens
  | .resizeAnswered => {s with displayResizeNegotiation := false}
  | .resizeFailed => {s with displayResizeNegotiation := false,displayResizeProcessed := false}
  | .disableMessages disable => {s with xcbDisable := disable}
  | .messagesShutdown => {s with rfbMessages := false}
  | .frame ffmpeg early => if s.mainLoop = .top then s.frame ffmpeg early else s
  | .checkUpdate => if s.mainLoop = .ready then s.checkUpdate else s
  | .readRegion => if s.mainLoop = .allowed then {s with mainLoop := .taken s.region} else s
  | .pickDamage =>
    match s.mainLoop with
    | .taken serverRegion => s.pickDamage serverRegion
    | _ => s
  | .finishUpdate update cursorThrows => if s.mainLoop = .sending then s.finishUpdate update cursorThrows else s

def step (s : X11Server) (e : Event) : X11Server := if blocked s e then s else handle s e

/- As the loop starts. -/
def start (size : Size) : X11Server :=
  ⟨size,.reset,.reset,false,false,false,false,false,false,true,.top⟩

/-! The pixels damaged after the last update that carried them. -/

structure Watched where
  server : X11Server
  stale : Set Point

def staleAfter (s : X11Server) (stale : Set Point) : Event → Set Point
  | .damageNotify rt => stale ∪ (rt.cells ∩ s.region.cells)
  | .screenUpdateRegion reg => stale ∪ (reg.cells ∩ s.region.cells)
  | .crtcChange cc wsz => stale ∩ (s.pollCrtcChange cc wsz).region.cells
  | .finishUpdate .sent _ => if s.mainLoop = .sending then stale \ s.damageRegion.cells else stale
  | _ => stale

def watch (w : Watched) (e : Event) : Watched where
  server := step w.server e
  stale := if blocked w.server e then w.stale else staleAfter w.server w.stale e

/- No pixel is left out of damageRegion but for a full update to come. -/
def Covers (w : Watched) : Prop :=
  ∀ p ∈ w.stale, w.server.fullscreenUpdateReq = true ∨ w.server.damageRegion.Has p

/- Rectangles are joined, and screens measured, within sixteen bits. -/
def Properly : Event → Prop
  | .damageNotify rt => rt.Proper
  | .screenUpdateRegion reg => reg.Proper
  | .recvFBUpdate _ reg => reg.Cornered
  | .recvSetContinuousUpdates enable reg => reg.Cornered ∧ (enable = true → reg.Proper)
  | .crtcChange _ wsz => wsz.width ≤ 65532 ∧ wsz.height ≤ 65532
  | _ => True
instance (e) : Decidable (Properly e) := by
  cases e <;> unfold Properly <;> infer_instance

/- A discarded rectangle has nothing of the screen in it that is not to be sent anyway;
what is cut off damageRegion is not stale; and a busy server finds nothing stale. -/
def Kept (w : Watched) : Event → Prop
  | .damageNotify rt => w.server.discards rt = true → w.server.fullscreenUpdateReq = true ∨
      ∀ p, rt.Has p → w.server.region.Has p → w.server.damageRegion.Has p
  | .pickDamage => ∀ serverRegion, w.server.mainLoop = .taken serverRegion → ∀ p ∈ w.stale,
      serverRegion.Has p ∧ (w.server.clientRegion ≠ serverRegion → w.server.clientRegion.Has p)
  | .finishUpdate .busy cursorThrows => w.server.mainLoop = .sending →
      (w.server.clientUpdateCursor && cursorThrows) = false → w.server.fullscreenUpdateReq = true ∨ w.stale = ∅
  | _ => True

section
variable {s : X11Server} {w : Watched} {p : Point} {e : Event} {reg : Region}

/- The regions that are joined and cut. -/
structure Sound (s : X11Server) : Prop where
  damage : s.damageRegion.Proper
  screen : s.region.Proper
  taken : ∀ serverRegion, s.mainLoop = .taken serverRegion → serverRegion.Proper ∧ serverRegion.Cornered
  client : s.clientRegion.Cornered

theorem resetCornered : Region.Cornered .reset := by decide

theorem regionCornered (s : X11Server) : s.region.Cornered := by
  simp [Region.Cornered,X11Server.region]

/- A step that leaves the damage and the screen alone, and withdraws no request. -/
structure Leaves (s t : X11Server) : Prop where
  damage : t.damageRegion = s.damageRegion
  size : t.size = s.size
  request : s.fullscreenUpdateReq = true → t.fullscreenUpdateReq = true
  taken : ∀ serverRegion, t.mainLoop = .taken serverRegion →
    s.mainLoop = .taken serverRegion ∨ serverRegion = s.region
  client : s.clientRegion.Cornered → t.clientRegion.Cornered

theorem Leaves.refl (s : X11Server) : Leaves s s := ⟨rfl,rfl,id,fun _ => .inl,id⟩

def leaves : Event → Bool
  | .damageNotify _ | .crtcChange _ _ | .screenUpdateRegion _ | .recvSetContinuousUpdates _ _ => false
  | .pickDamage | .finishUpdate _ _ => false
  | _ => true

theorem handleLeaves (proper : Properly e) (quiet : leaves e = true) : Leaves s (handle s e) := by
  have same := Leaves.refl s
  have moved (loop : MainLoop) (untaken : ∀ serverRegion, loop ≠ .taken serverRegion) :
      Leaves s {s with mainLoop := loop} := ⟨rfl,rfl,id,fun r there => absurd there (untaken r),id⟩
  cases e with
  | damageNotify | crtcChange | screenUpdateRegion | recvSetContinuousUpdates => contradiction
  | pickDamage | finishUpdate => contradiction
  | setScreenSize | cursorChanged | sendContinuousUpdates | resizeAnswered | resizeFailed | disableMessages
    | messagesShutdown => exact ⟨rfl,rfl,id,fun _ => .inl,id⟩
  | screenUpdate => exact ⟨rfl,rfl,fun _ => rfl,fun _ => .inl,id⟩
  | recvFBUpdate incremental region =>
    simp only [handle,X11Server.serverRecvFBUpdateEvent]
    split
    · exact ⟨rfl,rfl,fun _ => rfl,fun _ => .inl,id⟩
    · split
      · exact ⟨rfl,rfl,fun _ => rfl,fun _ => .inl,fun _ => proper⟩
      · split
        · exact ⟨rfl,rfl,id,fun _ => .inl,fun _ => resetCornered⟩
        · exact ⟨rfl,rfl,id,fun _ => .inl,fun _ => proper⟩
  | recvDesktopSize screens =>
    simp only [handle,X11Server.serverRecvDesktopSizeEvent]
    split
    · exact same
    · split
      · exact same
      · split
        · exact same
        · exact ⟨rfl,rfl,id,fun _ => .inl,id⟩
  | frame ffmpeg early =>
    simp only [handle,X11Server.frame]
    split
    · split
      · refine ⟨rfl,rfl,fun request => by simp [request],fun r there => ?_,id⟩
        cases early <;> cases there
      · exact moved .ended fun _ => MainLoop.noConfusion
    · exact same
  | checkUpdate =>
    simp only [handle,X11Server.checkUpdate]
    split
    · split
      · split
        · exact moved .top fun _ => MainLoop.noConfusion
        · exact moved .allowed fun _ => MainLoop.noConfusion
      · exact moved .top fun _ => MainLoop.noConfusion
    · exact same
  | readRegion =>
    simp only [handle]
    split
    · exact ⟨rfl,rfl,id,fun r there => .inr (MainLoop.taken.inj there).symm,id⟩
    · exact same

theorem Leaves.sound {t : X11Server} (h : Leaves s t) (sound : Sound s) : Sound t := by
  have screen : t.region = s.region := by rw [X11Server.region,X11Server.region,h.size]
  refine ⟨h.damage ▸ sound.damage,screen ▸ sound.screen,fun r there => ?_,h.client sound.client⟩
  obtain before | rfl := h.taken r there
  · exact sound.taken r before
  · exact ⟨sound.screen,regionCornered s⟩

theorem Leaves.covers {t : X11Server} (h : Leaves w.server t) (covers : Covers w) : Covers ⟨t,w.stale⟩ :=
  fun p listed => (covers p listed).imp h.request fun inside => h.damage ▸ inside

/- A step that joins a region to the damage. -/
structure Joins (s t : X11Server) (reg : Region) : Prop where
  damage : t.damageRegion = s.damageRegion.join reg
  size : t.size = s.size
  request : t.fullscreenUpdateReq = s.fullscreenUpdateReq
  taken : t.mainLoop = s.mainLoop
  client : s.clientRegion.Cornered → t.clientRegion.Cornered

theorem Joins.sound {t : X11Server} (h : Joins s t reg) (proper : reg.Proper) (sound : Sound s) : Sound t := by
  have screen : t.region = s.region := by rw [X11Server.region,X11Server.region,h.size]
  refine ⟨?_,screen ▸ sound.screen,fun r there => sound.taken r (h.taken ▸ there),h.client sound.client⟩
  rw [h.damage]
  exact Region.joinProper sound.damage proper

/- The damage goes on covering what it has, and covers what is joined. -/
theorem Joins.covers {t : X11Server} (h : Joins w.server t reg) (proper : reg.Proper) (sound : Sound w.server)
    (covers : Covers w) {marked : Set Point} (inside : marked ⊆ reg.cells) : Covers ⟨t,w.stale ∪ marked⟩ := by
  intro p listed
  have within : w.server.fullscreenUpdateReq = true ∨ w.server.damageRegion.Has p ∨ reg.Has p := by
    obtain old | new := listed
    · exact (covers p old).imp id .inl
    · exact .inr (.inr (inside new))
  simp only [h.request,h.damage]
  exact within.imp id (Region.joinHas sound.damage proper)

theorem screenDamageProper {serverRegion : Region} (server : serverRegion.Proper ∧ serverRegion.Cornered) :
    (s.screenDamage serverRegion).Proper ∧ (s.screenDamage serverRegion).Cornered := by
  have aligned : (s.damageRegion.align 4).Cornered := Region.toInt16Cornered _ _ _ _
  unfold X11Server.screenDamage
  split
  · exact server
  · exact ⟨Region.intersectedProper (.inl server.1) server.2 aligned,Region.intersectedCornered server.2 aligned⟩

theorem screenDamageHas (sound : Sound s) {serverRegion : Region} (server : serverRegion.Proper)
    (covered : s.fullscreenUpdateReq = true ∨ s.damageRegion.Has p) :
    (s.screenDamage serverRegion).Has p ↔ serverRegion.Has p := by
  unfold X11Server.screenDamage
  by_cases request : s.fullscreenUpdateReq = true
  · rw [if_pos request]
  · have has := covered.resolve_left request
    have aligned := Region.alignHas (sound.damage.placed has) has
    rw [if_neg request,Region.intersectedHas (.inl server)]
    exact and_iff_left aligned

theorem pickSound (sound : Sound s) {serverRegion : Region} (server : serverRegion.Proper ∧ serverRegion.Cornered) :
    Sound (s.pickDamage serverRegion) := by
  obtain ⟨proper,corner⟩ := screenDamageProper (s := s) server
  refine ⟨?_,sound.screen,fun _ there => MainLoop.noConfusion there,sound.client⟩
  simp only [X11Server.pickDamage]
  split
  · exact Region.intersectedProper (.inr proper) sound.client corner
  · exact proper

/- What is picked of the points that were covered. -/
theorem pickHas (sound : Sound s) {serverRegion : Region} (server : serverRegion.Proper ∧ serverRegion.Cornered)
    (covered : s.fullscreenUpdateReq = true ∨ s.damageRegion.Has p) :
    (s.pickDamage serverRegion).damageRegion.Has p ↔
      serverRegion.Has p ∧ (s.clientRegion ≠ serverRegion → s.clientRegion.Has p) := by
  simp only [X11Server.pickDamage]
  split
  · rename_i differs
    rw [Region.intersectedHas (.inr (screenDamageProper server).1),screenDamageHas sound server.1 covered]
    exact ⟨fun both => ⟨both.2,fun _ => both.1⟩,fun both => ⟨both.2 differs,both.1⟩⟩
  · rename_i same
    rw [screenDamageHas sound server.1 covered]
    exact (and_iff_left fun differs => absurd differs same).symm

theorem finishSound (sound : Sound s) (update : Update) (cursorThrows : Bool) :
    Sound (s.finishUpdate update cursorThrows) := by
  unfold X11Server.finishUpdate
  split
  · split
    · exact ⟨sound.damage,sound.screen,fun _ there => MainLoop.noConfusion there,sound.client⟩
    · exact ⟨.inl rfl,sound.screen,fun _ there => MainLoop.noConfusion there,sound.client⟩
  · exact ⟨sound.damage,sound.screen,fun _ there => MainLoop.noConfusion there,sound.client⟩

theorem handleSound (sound : Sound s) (proper : Properly e) : Sound (handle s e) := by
  cases quiet : leaves e with
  | true => exact (handleLeaves proper quiet).sound sound
  | false =>
    cases e with
    | damageNotify rt =>
      simp only [handle,X11Server.pollDamage]
      split
      · exact sound
      · exact Joins.sound ⟨rfl,rfl,rfl,rfl,id⟩ proper sound
    | crtcChange cc wsz =>
      simp only [handle,X11Server.pollCrtcChange]
      split
      · refine ⟨sound.damage,.inr ⟨Int.le_refl 0,Int.le_refl 0,?_,?_,regionCornered _⟩,sound.taken,sound.client⟩ <;>
          simp only [X11Server.region] <;> have both := proper <;> unfold Properly at both <;> omega
      · exact sound
    | screenUpdateRegion reg => exact Joins.sound ⟨rfl,rfl,rfl,rfl,id⟩ proper sound
    | recvSetContinuousUpdates enable reg =>
      cases enable with
      | true => exact Joins.sound ⟨rfl,rfl,rfl,rfl,fun _ => proper.1⟩ (proper.2 rfl) sound
      | false => exact ⟨sound.damage,sound.screen,sound.taken,proper.1⟩
    | pickDamage =>
      simp only [handle]
      split
      · rename_i taken
        exact pickSound sound (sound.taken _ taken)
      · exact sound
    | finishUpdate update cursorThrows =>
      simp only [handle]
      split
      · exact finishSound sound update cursorThrows
      · exact sound
    | _ => contradiction

/-! What a step keeps covered. -/

theorem discardCovers (covers : Covers w) (rt : Region) :
    Covers ⟨w.server,w.stale ∪ (rt.cells ∩ w.server.region.cells)⟩ ↔ w.server.fullscreenUpdateReq = true ∨
      ∀ p, rt.Has p → w.server.region.Has p → w.server.damageRegion.Has p := by
  constructor
  · intro after
    by_cases request : w.server.fullscreenUpdateReq = true
    · exact .inl request
    · exact .inr fun p has shown => (after p (.inr ⟨has,shown⟩)).resolve_left request
  · rintro kept p (old | ⟨has,shown⟩)
    · exact covers p old
    · exact kept.imp id fun inside => inside p has shown

theorem pickCovers (sound : Sound w.server) (covers : Covers w) {serverRegion : Region}
    (server : serverRegion.Proper ∧ serverRegion.Cornered) : Covers ⟨w.server.pickDamage serverRegion,w.stale⟩ ↔
      ∀ p ∈ w.stale, serverRegion.Has p ∧
        (w.server.clientRegion ≠ serverRegion → w.server.clientRegion.Has p) := by
  refine forall₂_congr fun p listed => ?_
  have request : (w.server.pickDamage serverRegion).fullscreenUpdateReq = false := rfl
  rw [← pickHas sound server (covers p listed)]
  simp [request]

/- What the update has carried is not stale, and the rest was waiting for a full one. -/
theorem sentCovers (covers : Covers w) (cursorThrows : Bool) :
    Covers ⟨w.server.finishUpdate .sent cursorThrows,w.stale \ w.server.damageRegion.cells⟩ := by
  rintro p ⟨old,uncarried⟩
  have request := (covers p old).resolve_right uncarried
  refine .inl ?_
  simp only [X11Server.finishUpdate,sendUpdateSafe,if_true]
  split <;> exact request

theorem busyCovers (covers : Covers w) (cursorThrows : Bool) :
    Covers ⟨w.server.finishUpdate .busy cursorThrows,w.stale⟩ ↔
      ((w.server.clientUpdateCursor && cursorThrows) = false →
        w.server.fullscreenUpdateReq = true ∨ w.stale = ∅) := by
  simp only [X11Server.finishUpdate,sendUpdateSafe,if_true]
  split
  · rename_i throws
    have kept : Covers ⟨{w.server with mainLoop := .ended},w.stale⟩ := covers
    exact iff_of_true kept fun returns => absurd returns (by simp [throws])
  · rename_i returns
    constructor
    · intro after _
      by_cases request : w.server.fullscreenUpdateReq = true
      · exact .inl request
      · refine .inr (Set.eq_empty_iff_forall_notMem.mpr fun p listed => ?_)
        exact Region.nobodyHas rfl ((after p listed).resolve_left request)
    · intro kept p listed
      obtain request | none := kept (by simpa using returns)
      · exact .inl request
      · exact absurd listed (none ▸ Set.notMem_empty p)

theorem failedCovers (covers : Covers w) (cursorThrows : Bool) :
    Covers ⟨w.server.finishUpdate .failed cursorThrows,w.stale⟩ := covers

theorem handleCovers (sound : Sound w.server) (covers : Covers w) (proper : Properly e)
    (awake : blocked w.server e = false) :
    Covers ⟨handle w.server e,staleAfter w.server w.stale e⟩ ↔ Kept w e := by
  cases e with
  | damageNotify rt =>
    simp only [handle,staleAfter,Kept,X11Server.pollDamage]
    split
    · rename_i discards
      rw [discardCovers covers]
      exact ⟨fun kept _ => kept,fun kept => kept discards⟩
    · rename_i taken
      have joins : Joins w.server (w.server.xcbDamageNotifyEvent rt) rt := ⟨rfl,rfl,rfl,rfl,id⟩
      exact iff_of_true (joins.covers proper sound covers Set.inter_subset_left)
        fun discards => absurd discards taken
  | screenUpdateRegion reg =>
    have joins : Joins w.server (w.server.serverScreenUpdateRegion reg) reg := ⟨rfl,rfl,rfl,rfl,id⟩
    exact iff_of_true (joins.covers proper sound covers Set.inter_subset_left) trivial
  | crtcChange cc wsz =>
    have request : (w.server.pollCrtcChange cc wsz).fullscreenUpdateReq = w.server.fullscreenUpdateReq := by
      unfold X11Server.pollCrtcChange
      split <;> rfl
    have damage : (w.server.pollCrtcChange cc wsz).damageRegion = w.server.damageRegion := by
      unfold X11Server.pollCrtcChange
      split <;> rfl
    refine iff_of_true (fun p listed => ?_) trivial
    simp only [handle,request,damage]
    exact covers p listed.1
  | recvSetContinuousUpdates enable reg =>
    refine iff_of_true (fun p listed => ?_) trivial
    cases enable with
    | false => exact covers p listed
    | true =>
      have joins : Joins w.server (w.server.recvSetContinuousUpdates true reg) reg := ⟨rfl,rfl,rfl,rfl,fun _ => proper.1⟩
      exact joins.covers (proper.2 rfl) sound covers (Set.empty_subset _) p (.inl listed)
  | pickDamage =>
    simp only [handle,staleAfter,Kept]
    split
    · rename_i serverRegion taken
      rw [pickCovers sound covers (sound.taken _ taken)]
      simp only [taken,MainLoop.taken.injEq,forall_eq']
    · rename_i untaken
      exact iff_of_true covers fun serverRegion taken => absurd taken (untaken serverRegion)
  | finishUpdate update cursorThrows =>
    simp only [handle,staleAfter]
    by_cases sending : w.server.mainLoop = .sending
    · cases update with
      | sent =>
        simp only [sending,if_true]
        exact iff_of_true (sentCovers covers cursorThrows) trivial
      | busy =>
        simp only [sending,if_true,Kept,true_implies]
        exact busyCovers covers cursorThrows
      | failed =>
        simp only [sending,if_true]
        exact iff_of_true (failedCovers covers cursorThrows) trivial
    · cases update with
      | busy =>
        simp only [if_neg sending,Kept]
        exact iff_of_true covers fun there => absurd there sending
      | sent | failed =>
        simp only [if_neg sending]
        exact iff_of_true covers trivial
  | _ => exact iff_of_true ((handleLeaves proper rfl).covers covers) trivial

/- An event that waits for the lock is not one that loses damage. -/
theorem blockedKept (waits : blocked w.server e = true) : Kept w e := by
  cases e with
  | damageNotify rt =>
    intro discards
    simp [blocked,discards] at waits
  | pickDamage => simp [blocked] at waits
  | finishUpdate update cursorThrows => simp [blocked] at waits
  | _ => trivial

theorem stepSound (sound : Sound s) (proper : Properly e) : Sound (step s e) := by
  unfold step
  split
  · exact sound
  · exact handleSound sound proper

theorem watchCovers (sound : Sound w.server) (covers : Covers w) (proper : Properly e) :
    Covers (watch w e) ↔ Kept w e := by
  obtain waits | awake := Bool.eq_false_or_eq_true (blocked w.server e)
  · simp only [watch,step,waits,if_true]
    exact iff_of_true covers (blockedKept waits)
  · simp only [watch,step,awake,Bool.false_eq_true,if_false]
    exact handleCovers sound covers proper awake

end

/- Nothing has been damaged yet. -/
def watchStart (size : Size) : Watched := ⟨start size,∅⟩

theorem startSound {size : Size} (small : size.width ≤ 65532 ∧ size.height ≤ 65532) : Sound (start size) := by
  refine ⟨.inl rfl,.inr ⟨Int.le_refl 0,Int.le_refl 0,?_,?_,regionCornered _⟩,
    fun _ there => MainLoop.noConfusion there,resetCornered⟩ <;>
    simp only [X11Server.region,start] <;> omega

theorem startCovers (size : Size) : Covers (watchStart size) := fun p listed => absurd listed (Set.notMem_empty p)

/- Damage is kept in every state of a run exactly when no step of it loses any. -/
theorem damageKeptIff {size : Size} (small : size.width ≤ 65532 ∧ size.height ≤ 65532) {events : List Event}
    (proper : Meets watch (fun _ e => Properly e) (watchStart size) events) :
    Meets watch (fun w e => Covers (watch w e)) (watchStart size) events ↔
      Meets watch Kept (watchStart size) events := by
  have exchanged : Meets watch (fun w e => Covers (watch w e) ∧ Properly e) (watchStart size) events ↔
      Meets watch (fun w e => Kept w e ∧ Properly e) (watchStart size) events :=
    meetsCongr (P := fun w => Sound w.server ∧ Covers w)
      (fun w e kept h => ⟨stepSound h.1 kept.2,(watchCovers h.1 h.2 kept.2).mpr kept.1⟩)
      (fun w e h => and_congr_left fun proper => watchCovers h.1 h.2 proper) ⟨startSound small,startCovers size⟩
  simp only [meetsAnd,proper,and_true] at exchanged
  exact exchanged

/- A damaged rectangle of a screen of 800 by 600, and the update that is to carry it. -/
def updateRun (update : Update) : List Event :=
  [.recvFBUpdate true ⟨0,0,800,600⟩,.damageNotify ⟨10,10,4,4⟩,.frame false false,.checkUpdate,.readRegion,
    .pickDamage,.finishUpdate update false]

theorem sentKeepsDamage : (run watch (watchStart ⟨800,600⟩) (updateRun .sent)).server.damageRegion = .reset ∧
    Meets watch (fun w e => Covers (watch w e)) (watchStart ⟨800,600⟩) (updateRun .sent) := by
  refine ⟨by decide +kernel,(damageKeptIff (by decide) (by decide)).mpr ?_⟩
  refine ⟨trivial,?_,trivial,trivial,trivial,?_,trivial,trivial⟩
  · intro discards
    exact absurd discards (by decide +kernel)
  · intro serverRegion taken p listed
    cases taken
    obtain none | ⟨_,shown⟩ := listed
    · exact absurd none (Set.notMem_empty p)
    · exact ⟨shown,fun differs => absurd rfl differs⟩

/- The X server was busy: nothing has been sent, and nothing is left of the damage. -/
theorem busyDropsDamage :
    (run watch (watchStart ⟨800,600⟩) (updateRun .busy)).server.damageRegion = .reset ∧
    (run watch (watchStart ⟨800,600⟩) (updateRun .busy)).server.fullscreenUpdateReq = false ∧
    ⟨10,10⟩ ∈ (run watch (watchStart ⟨800,600⟩) (updateRun .busy)).stale ∧
    ¬Meets watch (fun w e => Covers (watch w e)) (watchStart ⟨800,600⟩) (updateRun .busy) := by
  have damage : (run watch (watchStart ⟨800,600⟩) (updateRun .busy)).server.damageRegion = .reset := by decide +kernel
  have request : (run watch (watchStart ⟨800,600⟩) (updateRun .busy)).server.fullscreenUpdateReq = false := by
    decide +kernel
  have stale : (⟨10,10⟩ : Point) ∈ (run watch (watchStart ⟨800,600⟩) (updateRun .busy)).stale := by
    have marked : (run watch (watchStart ⟨800,600⟩) (updateRun .busy)).stale =
        ∅ ∪ ((Region.mk 10 10 4 4).cells ∩ (Region.mk 0 0 800 600).cells) := rfl
    have inside : (Region.mk 10 10 4 4).Has ⟨10,10⟩ ∧ (Region.mk 0 0 800 600).Has ⟨10,10⟩ := by decide
    rw [marked]
    exact .inr inside
  refine ⟨damage,request,stale,fun kept => ?_⟩
  have covers : Covers (run watch (watchStart ⟨800,600⟩) (updateRun .busy)) :=
    meetsInvariant (C := fun w e => Covers (watch w e)) (fun _ _ after _ => after) (startCovers ⟨800,600⟩) kept
  obtain full | inside := covers ⟨10,10⟩ stale
  · rw [request] at full
    cases full
  · rw [damage] at inside
    exact Region.nobodyHas rfl inside

end Ltsm.DamageLoop
