import Ltsm.DamageLoop
import Ltsm.UpdateCodecs

/-! The screen and the client's picture of it, with all there is between them: what has been drawn and not
yet been notified, the damage of the main loop, an update under way and the updates in the stream. -/
namespace Ltsm.ScreenMirror
open Library Regions PixelStreams UpdateMessages FrameBuffers UpdateCodecs DamageLoop

/- What is on the screen is `content`; `owed` has been drawn and its damage not been notified, and `image`
is the copy that an update under way has made. -/
structure Mirror {link : Link} (c : Codec link) where
  watched : Watched
  content : Screen
  owed : Set Point
  image : Option Screen
  encoder : c.Server
  stream : Bytes
  client : c.Client

/- The X clients draw, the update makes its copy of the screen, something happens at the main loop, and the
client reads an update. -/
inductive Move where
  | draw (reg : Region) (image : Screen)
  | copyRootImageRegion
  | loop (e : Event)
  | receive

section
variable {link : Link} {c : Codec link}

def Mirror.server (m : Mirror c) : X11Server := m.watched.server

/- Nothing is sent by an encoder that throws. -/
def sendFrameBufferUpdate (c : Codec link) (encoder : c.Server) (image : Screen) (reg : Region) :
    Option (c.Server × Bytes) :=
  if fits : reg.Fits then
    (c.encode encoder (link.frame image reg fits)).map fun sent => (sent.1,Update.bytes [(sent.2.length,sent.2)])
  else none

/- A notification says what has been drawn, once it is taken. -/
def owedAfter (s : X11Server) (owed : Set Point) : Event → Set Point
  | .damageNotify rt => if blocked s (.damageNotify rt) then owed else owed \ rt.cells
  | _ => owed

/- The copy is dropped as the lock is given back. -/
def Mirror.watch (m : Mirror c) (e : Event) : Mirror c :=
  let watched := DamageLoop.watch m.watched e
  {m with
    watched := watched
    owed := owedAfter m.server m.owed e
    image := if watched.server.mainLoop = .sending then m.image else none}

/- An update has been sent when its copy has been made and encoded. -/
def Mirror.sent (m : Mirror c) (cursorThrows : Bool) : Mirror c :=
  match m.image.bind fun image => sendFrameBufferUpdate c m.encoder image m.server.damageRegion with
  | none => m
  | some (encoder,bytes) => {m.watch (.finishUpdate .sent cursorThrows) with
      encoder := encoder
      stream := m.stream ++ bytes}

def turn (m : Mirror c) : Move → Mirror c
  | .draw reg image => {m with
      content := fun p => if reg.Has p then image p else m.content p
      owed := m.owed ∪ reg.cells}
  | .copyRootImageRegion =>
    if m.server.mainLoop = .sending ∧ m.image = none then {m with image := some m.content} else m
  | .loop (.finishUpdate .sent cursorThrows) => if m.server.mainLoop = .sending then m.sent cursorThrows else m
  | .loop e => m.watch e
  | .receive =>
    match (recvFBUpdate c.decode m.client).run m.stream with
    | none => m
    | some (client,rest) => {m with
        client := client
        stream := rest}

/- The screen keeps its size, damage is notified of what is on it, and no step of the loop loses any. -/
def Steady (m : Mirror c) : Move → Prop
  | .loop e => Properly e ∧ Kept m.watched e ∧
      match e with
      | .crtcChange _ wsz => wsz = m.server.size
      | .damageNotify rt => m.server.discards rt = false
      | _ => True
  | _ => True

/- As the loop starts all of the screen is notified as damage. -/
def startMirror (c : Codec link) (size : Size) (content : Screen) (encoder : c.Server) (client : c.Client) : Mirror c :=
  ⟨watchStart size,content,(start size).region.cells,none,encoder,[],client⟩

/- The client comes through what is in the stream, update by update. -/
inductive Drains (c : Codec link) : c.Client → Bytes → c.Client → Prop
  | nil (client : c.Client) : Drains c client [] client
  | cons {client next last : c.Client} {first rest : Bytes} : Reads (recvFBUpdate c.decode client) first next →
      Drains c next rest last → Drains c client (first ++ rest) last

/-! The stream. -/

theorem drainsSnoc {client last next : c.Client} {stream bytes : Bytes} (drains : Drains c client stream last)
    (reads : Reads (recvFBUpdate c.decode last) bytes next) : Drains c client (stream ++ bytes) next := by
  induction drains with
  | nil client =>
    have one := Drains.cons reads (Drains.nil next)
    rwa [List.append_nil] at one
  | cons first _ ih =>
    rw [List.append_assoc]
    exact Drains.cons first (ih reads)

theorem updateBytes {client next : c.Client} {bytes : Bytes} (reads : Reads (recvFBUpdate c.decode client) bytes next) :
    bytes ≠ [] := by
  rintro rfl
  cases (show (none : Option (c.Client × Bytes)) = some (next,[]) from reads [])

theorem drainsNil {client last : c.Client} (drains : Drains c client [] last) : last = client := by
  generalize empty : ([] : Bytes) = stream at drains
  cases drains with
  | nil => rfl
  | cons reads _ => exact absurd (List.append_eq_nil_iff.mp empty.symm).1 (updateBytes reads)

/- An update of a frame that fits is read, and shows the image in its region. -/
theorem updateReads {s : c.Server} {d : c.Client} (step : c.InStep s d) (image : Screen) {reg : Region}
    (fits : reg.Fits) (few : FewBlocks c.side reg.toSize) :
    ∃ s' bytes d', sendFrameBufferUpdate c s image reg = some (s',bytes) ∧ Reads (recvFBUpdate c.decode d) bytes d' ∧
      c.InStep s' d' ∧ c.view d' = paint (fun p => c.kept (image p)) reg.cells (c.view d) := by
  obtain ⟨s',rects,encodes,short,d',reads,after,shows⟩ := c.shows image reg fits s d few step
  have bytes : Update.bytes [(rects.length,rects)] = sendInt8 0 ++ (sendInt8 0 ++
      (sendIntBE16 rects.length ++ rects.flatMap Rect.bytes)) := by
    simp [Update.bytes]
  refine ⟨s',_,d',by rw [sendFrameBufferUpdate,dif_pos fits,encodes]; rfl,?_,after,shows⟩
  rw [bytes]
  exact readsBind (readsInt8 0) (readsBind (readsInt8 0) (readsBind (readsSmall16 short) reads))

/-! The loop. -/

/- A part of a screen of this size. -/
structure Inside (sz : Size) (reg : Region) : Prop where
  left : 0 ≤ reg.x
  top : 0 ≤ reg.y
  right : reg.x + reg.width ≤ sz.width
  bottom : reg.y + reg.height ≤ sz.height

theorem Inside.fits {sz : Size} {reg : Region} (h : Inside sz reg) (small : sz.width ≤ 32768 ∧ sz.height ≤ 32768) :
    reg.Fits :=
  ⟨h.left,h.top,h.right.trans (by exact_mod_cast small.1),h.bottom.trans (by exact_mod_cast small.2)⟩

theorem Inside.few {sz : Size} {reg : Region} (h : Inside sz reg) {side : Nat} (few : FewBlocks side sz) :
    FewBlocks side reg.toSize := by
  obtain ⟨left,top,right,bottom⟩ := h
  have wide : reg.toSize.width ≤ sz.width := by
    simp only [Region.toSize]
    omega
  have high : reg.toSize.height ≤ sz.height := by
    simp only [Region.toSize]
    omega
  exact fewSmaller wide high few

theorem intersectedInside {sz : Size} {r reg : Region} (either : Inside sz r ∨ Inside sz reg) :
    r.intersected reg = .reset ∨ Inside sz (r.intersected reg) := by
  by_cases meet : r.intersects reg = true
  · obtain ⟨x,y,right,bottom⟩ := Region.intersectedCommon meet
    obtain ⟨west,north,east,south⟩ | ⟨west,north,east,south⟩ := either
    · exact .inr ⟨by omega,by omega,by omega,by omega⟩
    · exact .inr ⟨by omega,by omega,by omega,by omega⟩
  · exact .inl (if_neg meet)

theorem intersectedReset (r : Region) : r.intersected .reset = .reset := by
  have apart : r.intersects .reset = false := by simp [Region.intersects,Region.isEmpty,Region.reset]
  exact if_neg (by simp [apart])

/- Nothing is picked that is not on the screen. -/
theorem pickInside (s : X11Server) : (s.pickDamage s.region).damageRegion = .reset ∨
    Inside s.size (s.pickDamage s.region).damageRegion := by
  have region : Inside s.size s.region := ⟨Int.le_refl 0,Int.le_refl 0,(Int.zero_add _).le,(Int.zero_add _).le⟩
  have damage : s.screenDamage s.region = .reset ∨ Inside s.size (s.screenDamage s.region) := by
    unfold X11Server.screenDamage
    split
    · exact .inr region
    · exact intersectedInside (.inl region)
  simp only [X11Server.pickDamage]
  split
  · obtain none | damage := damage
    · rw [none]
      exact .inl (intersectedReset _)
    · exact intersectedInside (.inr damage)
  · exact damage

/- What a step of the loop makes of the region that is to be sent. -/
structure Passes (s t : X11Server) : Prop where
  size : t.size = s.size
  taken : ∀ serverRegion, t.mainLoop = .taken serverRegion → s.mainLoop = .taken serverRegion ∨ serverRegion = s.region
  sending : t.mainLoop = .sending → (s.mainLoop = .sending ∧ t.damageRegion = s.damageRegion) ∨
    ∃ serverRegion, s.mainLoop = .taken serverRegion ∧ t.damageRegion = (s.pickDamage serverRegion).damageRegion

/- The events that change the damage wait while it is sent. -/
theorem stepPasses {s : X11Server} {e : Event} (steady : ∀ cc wsz, e = .crtcChange cc wsz → wsz = s.size) :
    Passes s (step s e) := by
  have same : Passes s s := ⟨rfl,fun _ => .inl,fun there => .inl ⟨there,rfl⟩⟩
  unfold step
  split
  · exact same
  · rename_i awake
    have moved (t : X11Server) (size : t.size = s.size) (untaken : ∀ serverRegion, t.mainLoop ≠ .taken serverRegion)
        (idle : t.mainLoop ≠ .sending) : Passes s t :=
      ⟨size,fun r there => absurd there (untaken r),fun there => absurd there idle⟩
    cases e with
    | setScreenSize | cursorChanged | screenUpdate | sendContinuousUpdates | resizeAnswered | resizeFailed
      | disableMessages | messagesShutdown => exact ⟨rfl,fun _ => .inl,fun there => .inl ⟨there,rfl⟩⟩
    | damageNotify rt =>
      simp only [handle,X11Server.pollDamage]
      split
      · exact same
      · rename_i taken
        exact ⟨rfl,fun _ => .inl,fun there => absurd (show blocked s (.damageNotify rt) = true by
          simp [blocked,show s.mainLoop = .sending from there,taken]) awake⟩
    | screenUpdateRegion reg =>
      exact ⟨rfl,fun _ => .inl,fun there => absurd (show blocked s (.screenUpdateRegion reg) = true by
        simp [blocked,show s.mainLoop = .sending from there]) awake⟩
    | recvSetContinuousUpdates enable reg =>
      exact ⟨rfl,fun _ => .inl,fun there => absurd (show blocked s (.recvSetContinuousUpdates enable reg) = true by
        simp [blocked,show s.mainLoop = .sending from there]) awake⟩
    | crtcChange cc wsz =>
      simp only [handle,X11Server.pollCrtcChange]
      split
      · exact ⟨steady cc wsz rfl,fun _ => .inl,fun there => .inl ⟨there,rfl⟩⟩
      · exact same
    | recvFBUpdate incremental region =>
      simp only [handle,X11Server.serverRecvFBUpdateEvent]
      split
      · exact ⟨rfl,fun _ => .inl,fun there => .inl ⟨there,rfl⟩⟩
      · split
        · exact ⟨rfl,fun _ => .inl,fun there => .inl ⟨there,rfl⟩⟩
        · split <;> exact ⟨rfl,fun _ => .inl,fun there => .inl ⟨there,rfl⟩⟩
    | recvDesktopSize screens =>
      simp only [handle,X11Server.serverRecvDesktopSizeEvent]
      split
      · exact same
      · split
        · exact same
        · split
          · exact same
          · exact ⟨rfl,fun _ => .inl,fun there => .inl ⟨there,rfl⟩⟩
    | frame ffmpeg early =>
      simp only [handle,X11Server.frame]
      split
      · split
        · cases early <;> exact moved _ rfl (fun _ => MainLoop.noConfusion) MainLoop.noConfusion
        · exact moved _ rfl (fun _ => MainLoop.noConfusion) MainLoop.noConfusion
      · exact same
    | checkUpdate =>
      simp only [handle,X11Server.checkUpdate]
      split
      · split
        · split <;> exact moved _ rfl (fun _ => MainLoop.noConfusion) MainLoop.noConfusion
        · exact moved _ rfl (fun _ => MainLoop.noConfusion) MainLoop.noConfusion
      · exact same
    | readRegion =>
      simp only [handle]
      split
      · exact ⟨rfl,fun r there => .inr (MainLoop.taken.inj there).symm,fun there => MainLoop.noConfusion there⟩
      · exact same
    | pickDamage =>
      simp only [handle]
      split
      · rename_i serverRegion taken
        exact ⟨rfl,fun _ there => MainLoop.noConfusion there,fun _ => .inr ⟨serverRegion,taken,rfl⟩⟩
      · exact same
    | finishUpdate update cursorThrows =>
      simp only [handle,X11Server.finishUpdate]
      split
      · split
        · split <;> exact moved _ rfl (fun _ => MainLoop.noConfusion) MainLoop.noConfusion
        · exact moved _ rfl (fun _ => MainLoop.noConfusion) MainLoop.noConfusion
      · exact same

/-! What holds in every state. -/

/- The loop is in order, and an image is what is on the screen but for what is owed. -/
structure Orderly (sz : Size) (m : Mirror c) : Prop where
  sound : Sound m.server
  covers : Covers m.watched
  size : m.server.size = sz
  taken : ∀ serverRegion, m.server.mainLoop = .taken serverRegion → serverRegion = m.server.region
  inside : m.server.mainLoop = .sending → m.server.damageRegion = .reset ∨ Inside sz m.server.damageRegion
  stale : ∀ p ∈ m.watched.stale, m.server.region.Has p
  held : ∀ image, m.image = some image →
    m.server.mainLoop = .sending ∧ ∀ p, image p = m.content p ∨ p ∈ m.owed

/- What the client shows once it has read the stream, but for what is known to be missing. -/
def Arrives (m : Mirror c) : Prop :=
  ∃ d, Drains c m.client m.stream d ∧ c.InStep m.encoder d ∧ ∀ p, m.server.region.Has p →
    c.view d p = c.kept (m.content p) ∨ p ∈ m.watched.stale ∨ p ∈ m.owed

variable {sz : Size} {m : Mirror c}

theorem sizeSteady {e : Event} (steady : Steady m (.loop e)) : ∀ cc wsz, e = .crtcChange cc wsz → wsz = m.server.size := by
  rintro cc wsz rfl
  exact steady.2.2

theorem regionSame {s t : X11Server} (size : t.size = s.size) : t.region = s.region := by
  rw [X11Server.region,X11Server.region,size]

theorem staleShown (e : Event) (stale : ∀ p ∈ m.watched.stale, m.server.region.Has p) :
    ∀ p ∈ (DamageLoop.watch m.watched e).stale, m.server.region.Has p := by
  have same : ∀ p ∈ staleAfter m.server m.watched.stale e, m.server.region.Has p := by
    intro p listed
    cases e with
    | damageNotify rt | screenUpdateRegion reg => exact listed.elim (stale p) And.right
    | crtcChange cc wsz => exact stale p listed.1
    | finishUpdate update cursorThrows =>
      cases update with
      | sent =>
        simp only [staleAfter] at listed
        split at listed
        · exact stale p listed.1
        · exact stale p listed
      | busy | failed => exact stale p listed
    | _ => exact stale p listed
  intro p listed
  simp only [DamageLoop.watch] at listed
  split at listed
  · exact stale p listed
  · exact same p listed

theorem watchOrderly {e : Event} (h : Orderly sz m) (steady : Steady m (.loop e)) : Orderly sz (m.watch e) := by
  have passes : Passes m.server (step m.server e) := stepPasses (sizeSteady steady)
  have region : (m.watch e).server.region = m.server.region := regionSame passes.size
  obtain ⟨proper,kept,on⟩ := steady
  refine ⟨stepSound h.sound proper,(watchCovers h.sound h.covers proper).mpr kept,passes.size.trans h.size,?_,?_,?_,?_⟩
  · intro serverRegion there
    rw [region]
    exact (passes.taken serverRegion there).elim (h.taken serverRegion) id
  · intro there
    change (step m.server e).damageRegion = .reset ∨ Inside sz (step m.server e).damageRegion
    obtain ⟨before,damage⟩ | ⟨serverRegion,taken,damage⟩ := passes.sending there
    · rw [damage]
      exact h.inside before
    · rw [damage,h.taken serverRegion taken,← h.size]
      exact pickInside m.server
  · rw [region]
    exact staleShown e h.stale
  · intro image copied
    have sending : (DamageLoop.watch m.watched e).server.mainLoop = .sending := by
      by_contra idle
      simp [Mirror.watch,idle] at copied
    simp only [Mirror.watch,sending,if_true] at copied
    obtain ⟨before,same⟩ := h.held image copied
    refine ⟨sending,fun p => (same p).imp id fun listed => ?_⟩
    cases e with
    | damageNotify rt =>
      have waits : blocked m.server (.damageNotify rt) = true := by simp [blocked,before,on]
      simp only [Mirror.watch,owedAfter,waits,if_true]
      exact listed
    | _ => exact listed

/- What is missing stays known to be, but for what an update has carried. -/
theorem missingKept {e : Event} (unsent : ∀ cursorThrows, e ≠ .finishUpdate .sent cursorThrows)
    (size : ∀ cc wsz, e = .crtcChange cc wsz → wsz = m.server.size) {p : Point} (has : m.server.region.Has p)
    (missing : p ∈ m.watched.stale ∨ p ∈ m.owed) : p ∈ (m.watch e).watched.stale ∨ p ∈ (m.watch e).owed := by
  obtain waits | awake := Bool.eq_false_or_eq_true (blocked m.server e)
  · have owed : owedAfter m.server m.owed e = m.owed := by
      cases e with
      | damageNotify rt => exact if_pos waits
      | _ => rfl
    have stale : (DamageLoop.watch m.watched e).stale = m.watched.stale := if_pos waits
    simp only [Mirror.watch,stale,owed]
    exact missing
  · have stale : (DamageLoop.watch m.watched e).stale = staleAfter m.server m.watched.stale e :=
      if_neg (by simp only [Mirror.server] at awake; simp [awake])
    simp only [Mirror.watch,stale]
    cases e with
    | damageNotify rt =>
      have owed : owedAfter m.server m.owed (.damageNotify rt) = m.owed \ rt.cells := if_neg (by simp [awake])
      rw [owed]
      by_cases told : rt.Has p
      · exact .inl (.inr ⟨told,has⟩)
      · exact missing.imp .inl fun listed => ⟨listed,told⟩
    | screenUpdateRegion reg => exact missing.imp .inl id
    | crtcChange cc wsz =>
      have region : (m.server.pollCrtcChange cc wsz).region = m.server.region := by
        unfold X11Server.pollCrtcChange
        split
        · exact regionSame (size cc wsz rfl)
        · rfl
      exact missing.imp (fun listed => ⟨listed,region ▸ has⟩) id
    | finishUpdate update cursorThrows =>
      cases update with
      | sent => exact absurd rfl (unsent cursorThrows)
      | busy | failed => exact missing
    | _ => exact missing

theorem watchArrives {e : Event} (h : Arrives m) (steady : Steady m (.loop e))
    (unsent : ∀ cursorThrows, e ≠ .finishUpdate .sent cursorThrows) : Arrives (m.watch e) := by
  obtain ⟨d,drains,step,shows⟩ := h
  have passes : Passes m.server (DamageLoop.step m.server e) := stepPasses (sizeSteady steady)
  refine ⟨d,drains,step,fun p has => ?_⟩
  have region : (m.watch e).server.region = m.server.region := regionSame passes.size
  rw [region] at has
  exact (shows p has).imp id (missingKept unsent (sizeSteady steady) has)

/- An update of an image that was copied: what it shows is on the screen, or owed. -/
theorem sentArrives (h : Orderly sz m) (arrives : Arrives m) (small : sz.width ≤ 32768 ∧ sz.height ≤ 32768)
    (few : FewBlocks c.side sz) (there : m.server.mainLoop = .sending) {image : Screen} (copied : m.image = some image)
    {encoder : c.Server} {bytes : Bytes}
    (sends : sendFrameBufferUpdate c m.encoder image m.server.damageRegion = some (encoder,bytes))
    (cursorThrows : Bool) :
    Arrives {m.watch (.finishUpdate .sent cursorThrows) with encoder := encoder, stream := m.stream ++ bytes} := by
  obtain ⟨d,drains,step,shows⟩ := arrives
  have placed : Inside sz m.server.damageRegion := by
    refine (h.inside there).resolve_left fun none => ?_
    rw [none] at sends
    cases sends
  obtain ⟨s',sent,d',sends',reads,after,view⟩ := updateReads step image (placed.fits small) (placed.few few)
  obtain ⟨rfl,rfl⟩ := Prod.mk.inj (Option.some.inj (sends'.symm.trans sends))
  have passes : Passes m.server (DamageLoop.step m.server (.finishUpdate .sent cursorThrows)) :=
    stepPasses fun _ _ other => by cases other
  have stale : (DamageLoop.watch m.watched (.finishUpdate .sent cursorThrows)).stale =
      m.watched.stale \ m.server.damageRegion.cells := by
    have taken : (DamageLoop.watch m.watched (.finishUpdate .sent cursorThrows)).stale =
        staleAfter m.server m.watched.stale (.finishUpdate .sent cursorThrows) := if_neg (by simp [blocked])
    exact taken.trans (if_pos there)
  refine ⟨d',drainsSnoc drains reads,after,fun p has => ?_⟩
  change (m.watch (.finishUpdate .sent cursorThrows)).server.region.Has p at has
  rw [regionSame (t := (m.watch (.finishUpdate .sent cursorThrows)).server) passes.size] at has
  rw [view]
  simp only [Mirror.watch,stale,owedAfter]
  by_cases carried : m.server.damageRegion.Has p
  · rw [paintInside (show p ∈ m.server.damageRegion.cells from carried)]
    exact ((h.held image copied).2 p).imp (congrArg c.kept) .inr
  · rw [paintOutside (show p ∉ m.server.damageRegion.cells from carried)]
    exact (shows p has).imp id fun missing => missing.imp (fun listed => ⟨listed,carried⟩) id

theorem receiveArrives (h : Arrives m) : Arrives (turn m .receive) := by
  obtain ⟨d,drains,step,shows⟩ := h
  simp only [turn]
  split
  · exact ⟨d,drains,step,shows⟩
  · rename_i client rest reads
    refine ⟨d,?_,step,shows⟩
    generalize m.stream = stream at drains reads
    cases drains with
    | nil => cases reads
    | cons first later =>
      obtain ⟨rfl,rfl⟩ := Prod.mk.inj (Option.some.inj ((first _).symm.trans reads))
      exact later

theorem turnKeeps (small : sz.width ≤ 32768 ∧ sz.height ≤ 32768) (few : FewBlocks c.side sz) (move : Move)
    (h : Orderly sz m ∧ Arrives m) (steady : Steady m move) : Orderly sz (turn m move) ∧ Arrives (turn m move) := by
  obtain ⟨orderly,arrives⟩ := h
  cases move with
  | draw reg image =>
    refine ⟨⟨orderly.sound,orderly.covers,orderly.size,orderly.taken,orderly.inside,orderly.stale,fun copy copied => ?_⟩,?_⟩
    · obtain ⟨there,same⟩ := orderly.held copy copied
      refine ⟨there,fun p => ?_⟩
      by_cases drawn : reg.Has p
      · exact .inr (.inr drawn)
      · simp only [turn,if_neg drawn]
        exact (same p).imp id .inl
    · obtain ⟨d,drains,step,shows⟩ := arrives
      refine ⟨d,drains,step,fun p has => ?_⟩
      by_cases drawn : reg.Has p
      · exact .inr (.inr (.inr drawn))
      · simp only [turn,if_neg drawn]
        exact (shows p has).imp id (Or.imp id .inl)
  | copyRootImageRegion =>
    simp only [turn]
    split
    · rename_i sending
      refine ⟨⟨orderly.sound,orderly.covers,orderly.size,orderly.taken,orderly.inside,orderly.stale,fun copy copied => ?_⟩,arrives⟩
      cases copied
      exact ⟨sending.1,fun _ => .inl rfl⟩
    · exact ⟨orderly,arrives⟩
  | loop e =>
    by_cases sends : ∃ cursorThrows, e = .finishUpdate .sent cursorThrows
    · obtain ⟨cursorThrows,rfl⟩ := sends
      simp only [turn]
      split
      · rename_i there
        unfold Mirror.sent
        split
        · exact ⟨orderly,arrives⟩
        · rename_i encoder bytes made
          obtain ⟨image,copied,sends⟩ := Option.bind_eq_some_iff.mp made
          have watched := watchOrderly orderly steady
          exact ⟨⟨watched.sound,watched.covers,watched.size,watched.taken,watched.inside,watched.stale,watched.held⟩,
            sentArrives orderly arrives small few there copied sends cursorThrows⟩
      · exact ⟨orderly,arrives⟩
    · have unsent : ∀ cursorThrows, e ≠ .finishUpdate .sent cursorThrows := not_exists.mp sends
      have watched : turn m (.loop e) = m.watch e := by
        cases e with
        | finishUpdate update cursorThrows =>
          cases update with
          | sent => exact absurd rfl (unsent cursorThrows)
          | busy | failed => rfl
        | _ => rfl
      rw [watched]
      exact ⟨watchOrderly orderly steady,watchArrives arrives steady unsent⟩
  | receive =>
    refine ⟨?_,receiveArrives arrives⟩
    simp only [turn]
    split
    · exact orderly
    · exact ⟨orderly.sound,orderly.covers,orderly.size,orderly.taken,orderly.inside,orderly.stale,orderly.held⟩

theorem startKeeps (small : sz.width ≤ 32768 ∧ sz.height ≤ 32768) (content : Screen) {s : c.Server} {d : c.Client}
    (step : c.InStep s d) : Orderly sz (startMirror c sz content s d) ∧ Arrives (startMirror c sz content s d) := by
  refine ⟨⟨startSound ?_,startCovers sz,rfl,fun _ there => MainLoop.noConfusion there,
    fun there => MainLoop.noConfusion there,fun _ none => absurd none (Set.notMem_empty _),
    fun _ copied => by cases copied⟩,d,.nil d,step,fun p has => .inr (.inr has)⟩
  omega

theorem runKeeps (small : sz.width ≤ 32768 ∧ sz.height ≤ 32768) (few : FewBlocks c.side sz) (content : Screen)
    {s : c.Server} {d : c.Client} (step : c.InStep s d) {moves : List Move}
    (steady : Meets turn Steady (startMirror c sz content s d) moves) :
    Orderly sz (run turn (startMirror c sz content s d) moves) ∧
      Arrives (run turn (startMirror c sz content s d) moves) :=
  meetsInvariant (C := Steady) (fun _ move steady keeps => turnKeeps small few move keeps steady)
    (startKeeps small content step) steady

/-! A pass of the loop that has nothing against it. -/

/- The loop may send, the client has asked for the whole screen, all that has been drawn is notified, and the
damage is not all off the screen. -/
structure Ready (m : Mirror c) : Prop where
  top : m.server.mainLoop = .top
  running : m.server.rfbMessages = true
  allowed : m.server.xcbDisable = false
  settled : m.server.displayResizeNegotiation = false ∧ m.server.displayResizeProcessed = false
  filled : m.server.region.isEmpty = false
  asked : m.server.clientRegion = m.server.region
  told : ∀ p, m.server.region.Has p → p ∉ m.owed
  damage : m.server.damageRegion.isEmpty = true ∨ ∃ p, m.server.region.Has p ∧ m.server.damageRegion.Has p

def passEvents (ffmpeg : Bool) : List Event := [.frame ffmpeg false,.checkUpdate,.readRegion,.pickDamage]

def pass (ffmpeg : Bool) : List Move :=
  (passEvents ffmpeg).map .loop ++ [.copyRootImageRegion,.loop (.finishUpdate .sent false)]

def asks (ffmpeg : Bool) (s : X11Server) : X11Server :=
  {s with fullscreenUpdateReq := s.fullscreenUpdateReq || ffmpeg}

/- What the loop comes to: back at the top, or with the damage to be sent. -/
theorem passServer (ready : Ready m) (ffmpeg : Bool) :
    run step m.server (passEvents ffmpeg) =
      if (m.server.fullscreenUpdateReq || ffmpeg) || !m.server.damageRegion.isEmpty then
        (asks ffmpeg m.server).pickDamage m.server.region
      else {asks ffmpeg m.server with mainLoop := .top} := by
  obtain ⟨top,running,allowed,⟨negotiated,processed⟩,filled,asked,_,_⟩ := ready
  rw [← asked] at filled
  simp only [passEvents,runCons,runNil]
  have first : step m.server (.frame ffmpeg false) = {asks ffmpeg m.server with mainLoop := .ready} := by
    simp [step,blocked,handle,X11Server.frame,asks,top,running]
  rw [first]
  split
  · rename_i wanted
    have second : step {asks ffmpeg m.server with mainLoop := .ready} .checkUpdate =
        {asks ffmpeg m.server with mainLoop := .allowed} := by
      simp only [step,blocked,handle,X11Server.checkUpdate,asks,X11Server.xcbAllowMessages,wanted]
      simp [negotiated,processed,allowed,filled]
    rw [second]
    rfl
  · rename_i unwanted
    have second : step {asks ffmpeg m.server with mainLoop := .ready} .checkUpdate =
        {asks ffmpeg m.server with mainLoop := .top} := by
      simp only [step,blocked,handle,X11Server.checkUpdate,asks,unwanted]
      simp
    rw [second]
    rfl

def Mirror.turned (m : Mirror c) (s : X11Server) : Mirror c := {m with watched := ⟨s,m.watched.stale⟩}

/- The steps of the loop itself, up to the sending. -/
def passing : Event → Bool
  | .frame _ _ | .checkUpdate | .readRegion | .pickDamage => true
  | _ => false

theorem passingTurned {e : Event} (passes : passing e = true) (idle : m.image = none) :
    turn m (.loop e) = m.turned (step m.server e) := by
  have watched : turn m (.loop e) = m.watch e := by
    cases e with
    | finishUpdate => cases passes
    | _ => rfl
  have stale : (DamageLoop.watch m.watched e).stale = m.watched.stale := by
    simp only [DamageLoop.watch]
    split
    · rfl
    · cases e with
      | frame | checkUpdate | readRegion | pickDamage => rfl
      | _ => cases passes
  have owed : owedAfter m.server m.owed e = m.owed := by
    cases e with
    | damageNotify => cases passes
    | _ => rfl
  rw [watched,Mirror.watch,owed,idle,ite_self]
  simp only [Mirror.turned,DamageLoop.watch] at stale ⊢
  rw [stale]
  cases m
  cases idle
  rfl

theorem eventsTurned {events : List Event} (passes : ∀ e ∈ events, passing e = true) (idle : m.image = none) :
    run turn m (events.map .loop) = m.turned (run step m.server events) := by
  induction events generalizing m with
  | nil => rfl
  | cons e rest ih =>
    obtain ⟨first,later⟩ := List.forall_mem_cons.mp passes
    have ends : run turn (m.turned (step m.server e)) (rest.map .loop) = m.turned (run step (step m.server e) rest) :=
      ih later idle
    rw [List.map_cons,runCons,passingTurned first idle,ends]
    rfl

theorem passesThese (ffmpeg : Bool) : ∀ e ∈ passEvents ffmpeg, passing e = true := by
  simp [passEvents,passing]

theorem readyIdle (h : Orderly sz m) (ready : Ready m) : m.image = none := by
  cases copied : m.image with
  | none => rfl
  | some image =>
    have there := (h.held image copied).1
    rw [ready.top] at there
    cases there

/- What a step before the sending loses is what the client has not asked for. -/
theorem passingSteady {e : Event} (passes : passing e = true) (h : Orderly sz m)
    (asked : m.server.clientRegion = m.server.region) : Steady m (.loop e) := by
  cases e with
  | frame | checkUpdate | readRegion => exact ⟨trivial,trivial,trivial⟩
  | pickDamage =>
    refine ⟨trivial,fun serverRegion taken p listed => ?_,trivial⟩
    rw [h.taken serverRegion taken]
    exact ⟨h.stale p listed,fun differs => absurd asked differs⟩
  | _ => cases passes

theorem passingAsked {s : X11Server} {e : Event} (passes : passing e = true) :
    (step s e).clientRegion = s.clientRegion ∧ (step s e).region = s.region := by
  refine ⟨?_,regionSame (stepPasses fun _ _ other => by rw [other] at passes; cases passes).size⟩
  cases e with
  | frame ffmpeg early =>
    simp only [step,blocked,Bool.and_false,Bool.false_eq_true,if_false,handle,X11Server.frame]
    split
    · split <;> rfl
    · rfl
  | checkUpdate =>
    simp only [step,blocked,Bool.and_false,Bool.false_eq_true,if_false,handle,X11Server.checkUpdate]
    split
    · split
      · split <;> rfl
      · rfl
    · rfl
  | readRegion =>
    simp only [step,blocked,Bool.and_false,Bool.false_eq_true,if_false,handle]
    split <;> rfl
  | pickDamage =>
    simp only [step,blocked,Bool.and_false,Bool.false_eq_true,if_false,handle]
    split <;> rfl
  | _ => cases passes

theorem eventsSteady {events : List Event} (passes : ∀ e ∈ events, passing e = true) (h : Orderly sz m)
    (idle : m.image = none) (asked : m.server.clientRegion = m.server.region) :
    Meets turn Steady m (events.map .loop) := by
  induction events generalizing m with
  | nil => trivial
  | cons e rest ih =>
    obtain ⟨first,later⟩ := List.forall_mem_cons.mp passes
    have steady := passingSteady first h asked
    have turned := passingTurned first idle
    have kept := watchOrderly h steady
    have watched : turn m (.loop e) = m.watch e := by
      cases e with
      | finishUpdate => cases first
      | _ => rfl
    rw [← watched,turned] at kept
    obtain ⟨client,region⟩ := @passingAsked m.server e first
    refine ⟨steady,?_⟩
    rw [turned]
    exact ih later kept idle (client.trans (asked.trans region.symm))

theorem passSteady (h : Orderly sz m) (ready : Ready m) (ffmpeg : Bool) : Meets turn Steady m (pass ffmpeg) :=
  meetsAppend.mpr ⟨eventsSteady (passesThese ffmpeg) h (readyIdle h ready) ready.asked,trivial,
    ⟨trivial,trivial,trivial⟩,trivial⟩

/- After the pass nothing is left to be sent. -/
structure Passed (m m' : Mirror c) : Prop where
  content : m'.content = m.content
  owed : m'.owed = m.owed
  region : m'.server.region = m.server.region
  request : m'.server.fullscreenUpdateReq = false
  damage : m'.server.damageRegion.isEmpty = true

theorem pickedInside (h : Orderly sz m) (ready : Ready m) {ffmpeg : Bool}
    (wanted : ((m.server.fullscreenUpdateReq || ffmpeg) || !m.server.damageRegion.isEmpty) = true) :
    Inside sz ((asks ffmpeg m.server).pickDamage m.server.region).damageRegion := by
  have sound : Sound (asks ffmpeg m.server) := ⟨h.sound.damage,h.sound.screen,h.sound.taken,h.sound.client⟩
  have covered : ∃ p, m.server.region.Has p ∧
      ((asks ffmpeg m.server).fullscreenUpdateReq = true ∨ (asks ffmpeg m.server).damageRegion.Has p) := by
    by_cases request : (m.server.fullscreenUpdateReq || ffmpeg) = true
    · obtain ⟨wide,high⟩ := Bool.or_eq_false_iff.mp ready.filled
      have wide : m.server.size.width ≠ 0 := of_decide_eq_false wide
      have high : m.server.size.height ≠ 0 := of_decide_eq_false high
      refine ⟨⟨0,0⟩,?_,.inl request⟩
      simp only [Region.Has,X11Server.region]
      omega
    · have some : m.server.damageRegion.isEmpty = false := by simpa [request] using wanted
      obtain ⟨p,shown,has⟩ := ready.damage.resolve_left (by simp [some])
      exact ⟨p,shown,.inr has⟩
  obtain ⟨p,shown,covers⟩ := covered
  have has : ((asks ffmpeg m.server).pickDamage m.server.region).damageRegion.Has p :=
    (pickHas sound ⟨h.sound.screen,regionCornered m.server⟩ covers).mpr
      ⟨shown,fun differs => absurd ready.asked differs⟩
  have placed := (pickInside (asks ffmpeg m.server)).resolve_left fun none => by
    change ((asks ffmpeg m.server).pickDamage m.server.region).damageRegion = .reset at none
    rw [none] at has
    exact Region.nobodyHas rfl has
  rw [← h.size]
  exact placed

theorem finishServer {s : X11Server} (there : s.mainLoop = .sending) : step s (.finishUpdate .sent false) =
    {s with clientUpdateCursor := false, damageRegion := .reset, mainLoop := .top} := by
  simp [step,blocked,handle,X11Server.finishUpdate,sendUpdateSafe,there]

theorem sentTurn {image : Screen} {encoder : c.Server} {bytes : Bytes} (there : m.server.mainLoop = .sending)
    (copied : m.image = some image)
    (sends : sendFrameBufferUpdate c m.encoder image m.server.damageRegion = some (encoder,bytes)) (cursorThrows : Bool) :
    turn m (.loop (.finishUpdate .sent cursorThrows)) =
      {m.watch (.finishUpdate .sent cursorThrows) with encoder := encoder, stream := m.stream ++ bytes} := by
  have made : m.image.bind (fun image => sendFrameBufferUpdate c m.encoder image m.server.damageRegion) =
      some (encoder,bytes) := by
    rw [copied]
    exact sends
  simp only [turn,if_pos there,Mirror.sent,made]

theorem passPasses (small : sz.width ≤ 32768 ∧ sz.height ≤ 32768) (few : FewBlocks c.side sz)
    (h : Orderly sz m) (arrives : Arrives m) (ready : Ready m) (ffmpeg : Bool) :
    Passed m (run turn m (pass ffmpeg)) := by
  have idle := readyIdle h ready
  have server := passServer ready ffmpeg
  have turned := eventsTurned (passesThese ffmpeg) idle
  rw [pass,runAppend,turned,server]
  split
  · rename_i wanted
    obtain ⟨d,_,step,_⟩ := arrives
    have placed := pickedInside h ready wanted
    obtain ⟨s',bytes,_,sends,_⟩ := updateReads step m.content (placed.fits small) (placed.few few)
    have copied : turn (m.turned ((asks ffmpeg m.server).pickDamage m.server.region)) .copyRootImageRegion =
        {m.turned ((asks ffmpeg m.server).pickDamage m.server.region) with image := some m.content} := if_pos ⟨rfl,idle⟩
    rw [runCons,runCons,runNil,copied,sentTurn rfl rfl sends]
    have finished := @finishServer ((asks ffmpeg m.server).pickDamage m.server.region) rfl
    have region := congrArg X11Server.region finished
    have request := congrArg X11Server.fullscreenUpdateReq finished
    have damage := congrArg X11Server.damageRegion finished
    exact ⟨rfl,rfl,region,request,(congrArg Region.isEmpty damage :)⟩
  · rename_i unwanted
    rw [Bool.not_eq_true,Bool.or_eq_false_iff,Bool.not_eq_false'] at unwanted
    exact ⟨rfl,rfl,rfl,unwanted.1,unwanted.2⟩

/- The client reads on to the end of the stream. -/
theorem receives {d : c.Client} (drains : Drains c m.client m.stream d) :
    ∃ count, run turn m (List.replicate count .receive) = {m with client := d, stream := []} := by
  generalize now : m.client = client at drains
  generalize sent : m.stream = stream at drains
  induction drains generalizing m with
  | nil client =>
    refine ⟨0,?_⟩
    cases m
    cases now
    cases sent
    rfl
  | @cons client next last first rest reads _ ih =>
    have turned : turn m .receive = {m with client := next, stream := rest} := by
      have read : (recvFBUpdate c.decode m.client).run m.stream = some (next,rest) := by
        rw [now,sent]
        exact reads rest
      simp only [turn,read]
    obtain ⟨count,ends⟩ := @ih {m with client := next, stream := rest} rfl rfl
    refine ⟨count + 1,?_⟩
    rw [List.replicate_succ,runCons,turned,ends]

theorem plainBits : serverBGRX32.bitsPixel = 32 := rfl

/- A screen of 64 by 48, drawn on after the first notification, in RRE. -/
def plainLink : Link := ⟨serverBGRX32,plainBits,false⟩

def drawnMoves : List Move :=
  [.loop (.damageNotify ⟨0,0,64,48⟩),.draw ⟨2,2,3,3⟩ fun _ => 7]

/- The client asks for the screen that has been drawn on, and is told so. -/
def askedMoves : List Move :=
  [.draw ⟨2,2,3,3⟩ fun _ => 7,.loop (.recvFBUpdate false ⟨0,0,64,48⟩),.loop (.damageNotify ⟨0,0,64,48⟩)]

end

end Ltsm.ScreenMirror
