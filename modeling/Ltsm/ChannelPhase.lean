import Ltsm.ChannelPlanned

/-! The phase of a channel. The server plans it in the flags of a job, the client
repeats flags in its reply, and the connector keeps the repeated ones. -/
namespace Ltsm.ChannelPhase
open Channel ChannelClient ChannelPlanned Library

/- Data came in while the connector was in the phase its job was planned for. -/
def RelaysInPhase (s : State) : Prop :=
  ∀ relay ∈ s.relayed, ∃ job ∈ s.jobs, relay.connector.job = some job ∧
    relay.userSession = !job.chOpts.allowsLogin
instance (s : State) : Decidable (RelaysInPhase s) := by unfold RelaysInPhase; infer_instance

/- A reply that takes a job up and gets its resource opened repeats the phase bit
the job was sent with. -/
def RepeatsPhase (ep : Endpoint) (s : State) : ServerAction → Prop
  | .receive os channel buf => channel = 0 → ∀ id error flags,
      ep.parse buf = .channelConnected id error flags → ∀ origin, TakesUp s id error origin →
        (plannedResource ep os origin).isSome = true →
          Opts.allowsLogin {origin.chOpts with flags} = origin.chOpts.allowsLogin
  | _ => True

/- The connector acts on the phase bit of a job from the log. -/
def ActsOn (jobs : List Planned) (c : Connector) : Prop :=
  ∃ job ∈ jobs, c.job = some job ∧ decide (c.flags &&& allowLoginSession ≠ 0) = job.chOpts.allowsLogin

structure PhaseInvariant (s : State) : Prop where
  planned : ∀ job ∈ s.channelsPlanned, job ∈ s.jobs
  acts : ∀ c ∈ s.channels, ActsOn s.jobs c
  relays : RelaysInPhase s

section
variable {ep : Endpoint} {s : State}

theorem actsGrows {jobs : List Planned} {c : Connector} (job : Planned) (h : ActsOn jobs c) :
    ActsOn (jobs ++ [job]) c := by
  obtain ⟨own,inside,rest⟩ := h
  exact ⟨own,List.mem_append_left _ inside,rest⟩

/- Changes of a connector that keep its job and its flags keep the invariant. -/
theorem updateInvariant {p : Connector → Bool} {f : Connector → Connector}
    (job : ∀ c, (f c).job = c.job) (flags : ∀ c, (f c).flags = c.flags) (h : PhaseInvariant s) :
    PhaseInvariant {s with channels := updateFirst p f s.channels} := by
  refine ⟨h.planned,?_,h.relays⟩
  intro c inside
  rcases memUpdateFirst inside with old | ⟨a,ha,_,rfl⟩
  · exact h.acts c old
  · obtain ⟨own,logged,same,bit⟩ := h.acts a ha
    exact ⟨own,logged,(job a).trans same,by rw [flags a]; exact bit⟩

theorem planJobPhase (job : Planned) (h : PhaseInvariant s) : PhaseInvariant (planJob job s) := by
  unfold planJob
  cases freeChannel s with
  | none => exact h
  | some channel =>
    refine ⟨?_,fun c inside => actsGrows _ (h.acts c inside),?_⟩
    · intro other inside
      rcases List.mem_append.mp inside with old | new
      · exact List.mem_append_left _ (h.planned other old)
      · exact List.mem_append_right _ new
    · intro relay inside
      obtain ⟨own,logged,rest⟩ := h.relays relay inside
      exact ⟨own,List.mem_append_left _ logged,rest⟩

theorem unplanPhase {p : Planned → Bool} (h : PhaseInvariant s) :
    PhaseInvariant {s with channelsPlanned := s.channelsPlanned.eraseP p} :=
  ⟨fun job inside => h.planned job (List.mem_of_mem_eraseP inside),h.acts,h.relays⟩

theorem takenPhase (os : Os) (id : Int) (flags : UInt32) {origin : Planned} {error : Bool}
    (h : PhaseInvariant s) (takes : TakesUp s id error origin)
    (repeats : (plannedResource ep os origin).isSome = true →
      Opts.allowsLogin {origin.chOpts with flags} = origin.chOpts.allowsLogin) :
    PhaseInvariant (taken ep os s id flags origin) := by
  have logged : origin ∈ s.jobs := h.planned origin (List.mem_of_find?_eq_some takes.found)
  have rest := unplanPhase (p := plannedFor id) h
  unfold taken
  cases resource : plannedResource ep os origin with
  | none => exact rest
  | some r =>
    unfold addConnector
    dsimp only
    split
    · exact ⟨rest.planned,rest.acts,rest.relays⟩
    · refine ⟨rest.planned,?_,rest.relays⟩
      intro c inside
      rcases List.mem_append.mp inside with old | new
      · exact h.acts c old
      · cases List.mem_singleton.mp new
        exact ⟨origin,logged,rfl,repeats (by rw [resource]; rfl)⟩

theorem connectedPhase (os : Os) (id : Int) (error : Bool) (flags : UInt32) (h : PhaseInvariant s)
    (repeats : ∀ origin, TakesUp s id error origin → (plannedResource ep os origin).isSome = true →
      Opts.allowsLogin {origin.chOpts with flags} = origin.chOpts.allowsLogin) :
    PhaseInvariant (systemChannelConnected ep os id error flags s) := by
  have marks (t : State) (kept : PhaseInvariant t) : PhaseInvariant (t.setRemoteConnected id) :=
    updateInvariant (fun _ => rfl) (fun _ => rfl) kept
  rcases connectedSource ep os s id error flags with ⟨_,same⟩ | ⟨origin,_,closed | ⟨takes,result⟩⟩
  · rw [same]
    exact marks s h
  · rw [closed]
    have rest := unplanPhase (p := plannedFor id) h
    unfold closeServerFd
    split <;> exact ⟨rest.planned,rest.acts,rest.relays⟩
  · have kept := takenPhase os id flags h takes (repeats origin takes)
    rcases result with same | same
    · rw [same]
      exact kept
    · rw [same]
      exact marks _ kept

/- Data that passes the test of the stored bit is in the phase of that bit. -/
theorem passedPhase {c : Connector} (server : ep.client = false) (passed : phaseRefused ep s c = false) :
    s.userSession = !decide (c.flags &&& allowLoginSession ≠ 0) := by
  unfold phaseRefused Connector.isAllowSessionFor at passed
  cases user : s.userSession <;> by_cases bit : c.flags &&& allowLoginSession = 0 <;>
    simp [server,user,bit] at passed ⊢

theorem recvDataPhase (server : ep.client = false) (channel : UInt8) (buf : List UInt8)
    (h : PhaseInvariant s) : PhaseInvariant (recvChannelData ep channel buf s) := by
  unfold recvChannelData
  cases found : s.findChannel channel with
  | none => exact h
  | some c =>
    dsimp only
    split
    · exact h
    rename_i passed
    split
    · exact h
    split
    · exact h
    split
    · exact h
    obtain ⟨job,logged,own,bit⟩ := h.acts c (List.mem_of_find?_eq_some found)
    have phase := passedPhase server (by simpa using passed)
    have queued := updateInvariant (p := (·.channel = channel))
      (f := fun c => {c with queue := c.queue ++ [buf]}) (fun _ => rfl) (fun _ => rfl) h
    refine ⟨queued.planned,queued.acts,?_⟩
    intro relay inside
    rcases List.mem_append.mp inside with old | new
    · exact h.relays relay old
    · cases List.mem_singleton.mp new
      exact ⟨job,logged,own,by rw [← bit]; exact phase⟩

theorem stepPhase (server : ep.client = false) (s : State) (a : ServerAction)
    (repeats : RepeatsPhase ep s a) (h : PhaseInvariant s) : PhaseInvariant (serverStep ep s a) := by
  cases a with
  | createChannel clientOpts serverOpts chOpts =>
    change PhaseInvariant (ChannelClient.createChannel clientOpts serverOpts chOpts s)
    unfold ChannelClient.createChannel
    split
    · exact h
    split
    · exact h
    · exact planJobPhase _ h
  | accept clientOpts sock serverOpts chOpts =>
    change PhaseInvariant (createChannelAcceptFd clientOpts sock serverOpts chOpts s)
    unfold createChannelAcceptFd
    split
    · exact ⟨h.planned,h.acts,h.relays⟩
    · exact planJobPhase _ h
  | receive os channel buf =>
    change PhaseInvariant (recvLtsmEvent ep os channel buf s)
    unfold recvLtsmEvent
    split
    · exact h
    split
    · rename_i system
      cases message : ep.parse buf with
      | channelConnected id error flags =>
        exact connectedPhase os id error flags h (repeats system id error flags message)
      | channelClose id => exact ⟨h.planned,h.acts,h.relays⟩
      | _ => exact h
    · exact recvDataPhase server channel buf h
  | destroyThread index =>
    change PhaseInvariant (ChannelClient.destroyThread index s)
    unfold ChannelClient.destroyThread
    split
    · exact h
    · exact ⟨h.planned,fun c inside => h.acts c (List.mem_of_mem_eraseP inside),h.relays⟩
  | destroyChannel channel => exact ⟨h.planned,h.acts,h.relays⟩
  | stopped channel => exact updateInvariant (fun _ => rfl) (fun _ => rfl) h
  | loginSuccess => exact ⟨h.planned,h.acts,h.relays⟩

end

def idleOs : Os := ⟨fun _ => false,fun _ => false,fun _ _ => false,fun _ => "",fun _ => false,
  fun _ _ _ => false,fun _ => false,fun _ => false,fun _ => "",fun _ _ => false⟩

def pkcs11Job : Planned :=
  ⟨.ofParts .unix "/run/pkcs11/sock" .readWrite,.ofParts .pkcs11 "" .readWrite,⟨.slow,allowLoginSession⟩,5,1⟩

def pkcs11Run : List ServerAction :=
  [.accept pkcs11Job.clientOpts 5 pkcs11Job.serverOpts pkcs11Job.chOpts,.receive idleOs 0 [],
    .receive idleOs 1 [7],.loginSuccess,.receive idleOs 1 [8]]

def replyEnd (flags : UInt32) : Endpoint :=
  serverEnd (fun _ _ _ => false) fun _ => .channelConnected 1 false flags

end Ltsm.ChannelPhase
