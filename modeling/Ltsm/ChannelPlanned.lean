import Ltsm.ChannelClient
import Ltsm.Library.Run
import Mathlib.Data.List.Forall2
import Mathlib.Data.List.Perm.Subperm

/-! The server's end. Its jobs come from its own calls and listeners, and a
client only decides when one of them is taken up. -/
namespace Ltsm.ChannelPlanned
open Channel ChannelClient Library

inductive ServerAction
  | createChannel (clientOpts serverOpts : UrlMode) (chOpts : Opts)
  | accept (clientOpts : UrlMode) (sock : Int) (serverOpts : UrlMode) (chOpts : Opts)
  | receive (os : Os) (channel : UInt8) (buf : List UInt8)
  | destroyChannel (channel : UInt8)
  | destroyThread (index : Nat)
  | stopped (channel : UInt8)
  | loginSuccess

/- The handlers of the remaining commands do not touch the channels. -/
def recvChannelSystemEvent (ep : Endpoint) (os : Os) (msg : SystemMessage) (s : State) : State :=
  match msg with
  | .channelClose id => systemChannelClose id s
  | .channelConnected id error flags => systemChannelConnected ep os id error flags s
  | .clientVariables | .keyboardChange | .cursorFailed | .transferFiles | .channelError
  | .loginSuccess | .channelOpen _ | .channelListen | .broken => s

def recvLtsmEvent (ep : Endpoint) (os : Os) (channel : UInt8) (buf : List UInt8) (s : State) : State :=
  if channel = 255 then s
  else if channel = 0 then recvChannelSystemEvent ep os (ep.parse buf) s
  else recvChannelData ep channel buf s

def serverStep (ep : Endpoint) (s : State) : ServerAction → State
  | .createChannel clientOpts serverOpts chOpts => ChannelClient.createChannel clientOpts serverOpts chOpts s
  | .accept clientOpts sock serverOpts chOpts => createChannelAcceptFd clientOpts sock serverOpts chOpts s
  | .receive os channel buf => recvLtsmEvent ep os channel buf s
  | .destroyChannel channel => {s with destroying := s.destroying ++ [channel]}
  | .destroyThread index => ChannelClient.destroyThread index s
  | .stopped channel => channelStopped channel s
  | .loginSuccess => {s with userSession := true}

def serverEnd (allow : ConnectorType → String → ConnectorMode → Bool)
    (parse : List UInt8 → SystemMessage) : Endpoint := ⟨false,true,allow,parse⟩

def serverStart : State := {userSession := false}

/- The resource a job stands for: its own descriptor, or what its server url names. -/
def Names (job : Planned) : Resource → Prop
  | .unixFd sock mode => 0 ≤ job.serverFd ∧ job.serverOpts.type = .unix ∧ sock = job.serverFd ∧
      mode = job.serverOpts.mode
  | .socketFd sock mode => 0 ≤ job.serverFd ∧ job.serverOpts.type = .socket ∧ sock = job.serverFd ∧
      mode = job.serverOpts.mode
  | .unix path mode => job.serverFd < 0 ∧ job.serverOpts.type = .unix ∧
      path = job.serverOpts.content ∧ mode = job.serverOpts.mode
  | .file path mode => job.serverFd < 0 ∧ job.serverOpts.type = .file ∧
      path = job.serverOpts.content ∧ mode = job.serverOpts.mode
  | .command runcmd mode => job.serverFd < 0 ∧ job.serverOpts.type = .command ∧
      runcmd = job.serverOpts.content ∧ mode = job.serverOpts.mode
  | .socket ipaddr port mode => job.serverFd < 0 ∧ job.serverOpts.type = .socket ∧
      (∃ resolvHostname, (ipaddr,port) = parseAddrPort resolvHostname job.serverOpts.content) ∧
      isLoopback ipaddr = true ∧ mode = job.serverOpts.mode
  | _ => False

/- The job a call of createChannel or an accepted connection asks for. -/
def Plans (job : Planned) : ServerAction → Prop
  | .createChannel clientOpts serverOpts chOpts => job.clientOpts = clientOpts ∧
      job.serverOpts = serverOpts ∧ job.chOpts = chOpts ∧ job.serverFd = -1
  | .accept clientOpts sock serverOpts chOpts => job.clientOpts = clientOpts ∧
      job.serverOpts = serverOpts ∧ job.chOpts = chOpts ∧ job.serverFd = sock
  | _ => False

/- Each opened resource is named by a job of its own among all that were planned,
and all of those were planned by the server's own actions. -/
def OpensOnlyPlanned (actions : List ServerAction) (s : State) : Prop :=
  (∃ taken, taken.Subperm s.jobs ∧ List.Forall₂ Names taken s.opened) ∧
    ∀ job ∈ s.jobs, ∃ a ∈ actions, Plans job a

section
variable {ep : Endpoint}

/- The resource that is opened when a job is taken up. -/
def plannedResource (ep : Endpoint) (os : Os) (job : Planned) : Option Resource :=
  let opts := job.serverOpts
  if 0 ≤ job.serverFd then
    match opts.type with
    | .unix => createUnixFdConnector job.serverFd opts.mode
    | .socket => createTcpFdConnector job.serverFd opts.mode
    | _ => none
  else if opts.content = "" then none
  else
    match opts.type with
    | .unix =>
      if ep.createChannelAllow .unix opts.content opts.mode then
        createUnixConnector os opts.content opts.mode
      else none
    | .socket =>
      let ipAddrPort := parseAddrPort os.resolvHostname opts.content
      if ep.createChannelAllow .socket ipAddrPort.1 opts.mode = false then none
      else if ep.serverSide = true ∧ isLoopback ipAddrPort.1 = false then none
      else if ipAddrPort.2 < 0 then none
      else createTcpConnector os ipAddrPort.1 ipAddrPort.2 opts.mode
    | .file =>
      if ep.createChannelAllow .file opts.content opts.mode then
        createFileConnector os opts.content opts.mode
      else none
    | .command =>
      if ep.createChannelAllow .command opts.content opts.mode then
        createCommandConnector os opts.content opts.mode
      else none
    | _ => none

theorem plannedCreateSource (ep : Endpoint) (os : Os) (origin job : Planned) (s : State) :
    (channelPlannedCreate ep os origin job s).2 =
      (addConnector (some origin) job.channel job.serverOpts.mode job.chOpts s
        (plannedResource ep os job)).2 := by
  unfold channelPlannedCreate plannedResource
  by_cases fd : 0 ≤ job.serverFd
  · rw [if_pos fd,if_pos fd]
    cases job.serverOpts.type <;> rfl
  · rw [if_neg fd,if_neg fd]
    by_cases content : job.serverOpts.content = ""
    · rw [if_neg (not_not.mpr content),if_pos content]
      rfl
    · rw [if_pos content,if_neg content]
      unfold createChannelUnix createChannelSocket createChannelFile createChannelCommand
      cases job.serverOpts.type with
      | unix | file | command =>
        dsimp only
        split <;> rfl
      | socket =>
        dsimp only
        split
        · rfl
        split
        · rfl
        split <;> rfl
      | _ => rfl

/- What a job opens, by its descriptor and its type. -/
theorem plannedOpens {os : Os} {job : Planned} {r : Resource} (opened : plannedResource ep os job = some r) :
    let opts := job.serverOpts
    let ipAddrPort := parseAddrPort os.resolvHostname opts.content
    (0 ≤ job.serverFd ∧ ((opts.type = .unix ∧ r = .unixFd job.serverFd opts.mode) ∨
        (opts.type = .socket ∧ r = .socketFd job.serverFd opts.mode))) ∨
      (job.serverFd < 0 ∧ ((opts.type = .unix ∧ r = .unix opts.content opts.mode) ∨
        (opts.type = .socket ∧ (ep.serverSide = true → isLoopback ipAddrPort.1 = true) ∧
          r = .socket ipAddrPort.1 ipAddrPort.2 opts.mode) ∨
        (opts.type = .file ∧ r = .file opts.content opts.mode) ∨
        (opts.type = .command ∧ r = .command opts.content opts.mode))) := by
  unfold plannedResource at opened
  dsimp only at opened ⊢
  split at opened
  · rename_i fd
    split at opened <;> try contradiction
    · rename_i type
      exact .inl ⟨fd,.inl ⟨type,unixFdSource opened⟩⟩
    · rename_i type
      exact .inl ⟨fd,.inr ⟨type,tcpFdSource opened⟩⟩
  rename_i fd
  refine .inr ⟨Int.not_le.mp fd,?_⟩
  split at opened <;> try contradiction
  split at opened <;> try contradiction
  · rename_i type
    split at opened <;> try contradiction
    exact .inl ⟨type,unixSource opened⟩
  · rename_i type
    split at opened <;> try contradiction
    split at opened <;> try contradiction
    rename_i allowed
    split at opened <;> try contradiction
    exact .inr (.inl ⟨type,fun server => by simpa [server] using allowed,tcpSource opened⟩)
  · rename_i type
    split at opened <;> try contradiction
    exact .inr (.inr (.inl ⟨type,fileSource opened⟩))
  · rename_i type
    split at opened <;> try contradiction
    exact .inr (.inr (.inr ⟨type,commandSource opened⟩))

theorem plannedResourceNames (server : ep.serverSide = true) {os : Os} {job : Planned} {r : Resource}
    (opened : plannedResource ep os job = some r) : Names job r := by
  rcases plannedOpens opened with ⟨fd,⟨type,rfl⟩ | ⟨type,rfl⟩⟩ |
    ⟨noFd,⟨type,rfl⟩ | ⟨type,loopback,rfl⟩ | ⟨type,rfl⟩ | ⟨type,rfl⟩⟩
  · exact ⟨fd,type,rfl,rfl⟩
  · exact ⟨fd,type,rfl,rfl⟩
  · exact ⟨noFd,type,rfl,rfl⟩
  · exact ⟨noFd,type,⟨os.resolvHostname,rfl⟩,loopback server,rfl⟩
  · exact ⟨noFd,type,rfl,rfl⟩
  · exact ⟨noFd,type,rfl,rfl⟩

/- A reply without an error takes up the job of its id, when its channel is a
proper one and free. -/
structure TakesUp (s : State) (id : Int) (error : Bool) (origin : Planned) : Prop where
  found : s.channelsPlanned.find? (plannedFor id) = some origin
  noError : error = false
  proper : 0 < origin.channel ∧ origin.channel < 255
  free : (s.findChannel origin.channel).isNone = true

/- The state a job leaves: out of the planned list, with a connector if its
resource was opened. -/
def taken (ep : Endpoint) (os : Os) (s : State) (id : Int) (flags : UInt32) (origin : Planned) : State :=
  (addConnector (some origin) origin.channel origin.serverOpts.mode {origin.chOpts with flags}
    {s with channelsPlanned := s.channelsPlanned.eraseP (plannedFor id)}
    (plannedResource ep os origin)).2

theorem connectedSource (ep : Endpoint) (os : Os) (s : State) (id : Int) (error : Bool) (flags : UInt32) :
    (s.channelsPlanned.find? (plannedFor id) = none ∧
        systemChannelConnected ep os id error flags s = s.setRemoteConnected id) ∨
      ∃ origin, s.channelsPlanned.find? (plannedFor id) = some origin ∧
        (systemChannelConnected ep os id error flags s =
            closeServerFd {origin with chOpts := {origin.chOpts with flags}}
              {s with channelsPlanned := s.channelsPlanned.eraseP (plannedFor id)} ∨
          TakesUp s id error origin ∧
            (systemChannelConnected ep os id error flags s = taken ep os s id flags origin ∨
              systemChannelConnected ep os id error flags s =
                (taken ep os s id flags origin).setRemoteConnected id)) := by
  unfold systemChannelConnected
  cases found : s.channelsPlanned.find? (plannedFor id) with
  | none => exact .inl ⟨rfl,rfl⟩
  | some origin =>
    right
    refine ⟨origin,rfl,?_⟩
    dsimp only
    split
    · exact .inl rfl
    rename_i noError
    split
    · exact .inl rfl
    rename_i proper
    split
    · exact .inl rfl
    rename_i busy
    right
    refine ⟨⟨found,by simpa using noError,?_,?_⟩,?_⟩
    · rw [not_or,UInt8.not_le,UInt8.not_le] at proper
      exact proper
    · simpa [State.findChannel] using busy
    have made := plannedCreateSource ep os origin {origin with chOpts := {origin.chOpts with flags}}
      {s with channelsPlanned := s.channelsPlanned.eraseP (plannedFor id)}
    split
    · rename_i created
      right
      rw [created] at made
      exact congrArg (State.setRemoteConnected · id) made
    · rename_i created
      left
      rw [created] at made
      exact made

/- The jobs taken so far and those still planned are different ones of the log. -/
def PlanInvariant (s : State) : Prop :=
  ∃ taken, (taken ++ s.channelsPlanned).Subperm s.jobs ∧ List.Forall₂ Names taken s.opened

theorem planJobInvariant {s : State} (job : Planned) (h : PlanInvariant s) :
    PlanInvariant (planJob job s) := by
  unfold planJob
  cases freeChannel s with
  | none => exact h
  | some channel =>
    obtain ⟨taken,apart,named⟩ := h
    refine ⟨taken,?_,named⟩
    dsimp only
    rw [← List.append_assoc]
    exact (List.subperm_append_right _).mpr apart

theorem takeInvariant {s t : State} {origin : Planned} {p : Planned → Bool}
    (resource : Option Resource) (h : PlanInvariant s) (found : s.channelsPlanned.find? p = some origin)
    (names : ∀ r, resource = some r → Names origin r) (jobs : t.jobs = s.jobs)
    (planned : t.channelsPlanned = s.channelsPlanned.eraseP p)
    (opened : t.opened = s.opened ++ resource.toList) : PlanInvariant t := by
  obtain ⟨taken,apart,named⟩ := h
  have moved : (taken ++ s.channelsPlanned).Perm ((taken ++ [origin]) ++ t.channelsPlanned) := by
    rw [planned,List.append_assoc]
    exact (permErase found).append_left taken
  unfold PlanInvariant
  rw [jobs,opened]
  cases resource with
  | none =>
    refine ⟨taken,List.Subperm.trans ?_ (moved.symm.subperm.trans apart),by simpa using named⟩
    rw [List.append_assoc]
    exact ((List.sublist_append_right _ _).append_left taken).subperm
  | some r =>
    exact ⟨taken ++ [origin],moved.symm.subperm.trans apart,
      List.rel_append named (.cons (names r rfl) .nil)⟩

theorem connectedInvariant (server : ep.serverSide = true) (os : Os) (s : State) (id : Int) (error : Bool)
    (flags : UInt32) (h : PlanInvariant s) : PlanInvariant (systemChannelConnected ep os id error flags s) := by
  rcases connectedSource ep os s id error flags with ⟨_,same⟩ | ⟨origin,found,closed | ⟨_,result⟩⟩
  · rw [same]
    exact h
  · rw [closed]
    refine takeInvariant none h found (by simp) ?_ ?_ ?_ <;>
      (unfold closeServerFd; split <;> simp)
  · have kept : PlanInvariant (taken ep os s id flags origin) := by
      refine takeInvariant (plannedResource ep os origin) h found
        (fun r opened => plannedResourceNames server opened) ?_ ?_ ?_ <;> simp [taken]
    rcases result with same | same <;> (rw [same]; exact kept)

theorem stepPlanInvariant (server : ep.serverSide = true) (s : State) (a : ServerAction)
    (h : PlanInvariant s) : PlanInvariant (serverStep ep s a) := by
  cases a with
  | createChannel clientOpts serverOpts chOpts =>
    change PlanInvariant (ChannelClient.createChannel clientOpts serverOpts chOpts s)
    unfold ChannelClient.createChannel
    split
    · exact h
    split
    · exact h
    · exact planJobInvariant _ h
  | accept clientOpts sock serverOpts chOpts =>
    change PlanInvariant (createChannelAcceptFd clientOpts sock serverOpts chOpts s)
    unfold createChannelAcceptFd
    split
    · exact h
    · exact planJobInvariant _ h
  | receive os channel buf =>
    change PlanInvariant (recvLtsmEvent ep os channel buf s)
    unfold recvLtsmEvent
    split
    · exact h
    split
    · cases message : ep.parse buf with
      | channelConnected id error flags => exact connectedInvariant server os s id error flags h
      | _ => exact h
    · unfold recvChannelData
      split
      · exact h
      · split
        · exact h
        split
        · exact h
        split
        · exact h
        split <;> exact h
  | destroyThread index =>
    change PlanInvariant (ChannelClient.destroyThread index s)
    unfold ChannelClient.destroyThread
    split <;> exact h
  | destroyChannel channel => exact h
  | stopped channel => exact h
  | loginSuccess => exact h

theorem planJobJobs (job : Planned) (s : State) :
    (planJob job s).jobs = s.jobs ∨ ∃ channel, (planJob job s).jobs = s.jobs ++ [{job with channel}] := by
  unfold planJob
  cases freeChannel s with
  | none => exact .inl rfl
  | some channel => exact .inr ⟨channel,rfl⟩

theorem connectedJobs (ep : Endpoint) (os : Os) (s : State) (id : Int) (error : Bool)
    (flags : UInt32) : (systemChannelConnected ep os id error flags s).jobs = s.jobs := by
  rcases connectedSource ep os s id error flags with ⟨_,same⟩ | ⟨origin,_,closed | ⟨_,result⟩⟩
  · rw [same]
    rfl
  · rw [closed]
    unfold closeServerFd
    split <;> rfl
  · have jobs : (taken ep os s id flags origin).jobs = s.jobs := by simp [taken]
    rcases result with same | same <;> (rw [same]; exact jobs)

theorem stepJobs (ep : Endpoint) (s : State) (a : ServerAction) :
    (serverStep ep s a).jobs = s.jobs ∨
      ∃ job, Plans job a ∧ (serverStep ep s a).jobs = s.jobs ++ [job] := by
  cases a with
  | createChannel clientOpts serverOpts chOpts =>
    change (ChannelClient.createChannel clientOpts serverOpts chOpts s).jobs = _ ∨ ∃ job, _ ∧
      (ChannelClient.createChannel clientOpts serverOpts chOpts s).jobs = _
    unfold ChannelClient.createChannel
    split
    · exact .inl rfl
    split
    · exact .inl rfl
    rcases planJobJobs {serverOpts, clientOpts, chOpts} s with same | ⟨channel,grown⟩
    · exact .inl same
    · exact .inr ⟨_,⟨rfl,rfl,rfl,rfl⟩,grown⟩
  | accept clientOpts sock serverOpts chOpts =>
    change (createChannelAcceptFd clientOpts sock serverOpts chOpts s).jobs = _ ∨ ∃ job, _ ∧
      (createChannelAcceptFd clientOpts sock serverOpts chOpts s).jobs = _
    unfold createChannelAcceptFd
    split
    · exact .inl rfl
    rcases planJobJobs {serverOpts, clientOpts, chOpts, serverFd := sock} s with same | ⟨channel,grown⟩
    · exact .inl same
    · exact .inr ⟨_,⟨rfl,rfl,rfl,rfl⟩,grown⟩
  | receive os channel buf =>
    left
    change (recvLtsmEvent ep os channel buf s).jobs = s.jobs
    unfold recvLtsmEvent
    split
    · rfl
    split
    · cases ep.parse buf with
      | channelConnected id error flags => exact connectedJobs ep os s id error flags
      | _ => rfl
    · unfold recvChannelData
      split
      · rfl
      · split <;> try rfl
        split <;> try rfl
        split <;> try rfl
        split <;> rfl
  | destroyThread index =>
    left
    change (ChannelClient.destroyThread index s).jobs = s.jobs
    unfold ChannelClient.destroyThread
    split <;> rfl
  | destroyChannel channel => exact .inl rfl
  | stopped channel => exact .inl rfl
  | loginSuccess => exact .inl rfl

theorem runJobs (ep : Endpoint) (actions : List ServerAction) (s : State) :
    ∀ job ∈ (run (serverStep ep) s actions).jobs, job ∈ s.jobs ∨ ∃ a ∈ actions, Plans job a := by
  induction actions generalizing s with
  | nil => exact fun job old => .inl old
  | cons a rest ih =>
    intro job inside
    rcases ih (serverStep ep s a) job inside with earlier | ⟨b,hb,plans⟩
    · rcases stepJobs ep s a with same | ⟨new,plans,grown⟩
      · exact .inl (same ▸ earlier)
      · rw [grown,List.mem_append,List.mem_singleton] at earlier
        rcases earlier with old | rfl
        · exact .inl old
        · exact .inr ⟨a,List.mem_cons_self,plans⟩
    · exact .inr ⟨b,List.mem_cons_of_mem _ hb,plans⟩

end

theorem runOpensOnlyPlanned (allow : ConnectorType → String → ConnectorMode → Bool)
    (parse : List UInt8 → SystemMessage) (actions : List ServerAction) :
    OpensOnlyPlanned actions (run (serverStep (serverEnd allow parse)) serverStart actions) := by
  have server : (serverEnd allow parse).serverSide = true := rfl
  have start : PlanInvariant serverStart := ⟨[],by simp [serverStart],.nil⟩
  obtain ⟨taken,apart,named⟩ := runInvariant (stepPlanInvariant server) start actions
  refine ⟨⟨taken,(List.sublist_append_left _ _).subperm.trans apart,named⟩,?_⟩
  intro job inside
  rcases runJobs _ actions serverStart job inside with old | planned
  · simp [serverStart] at old
  · exact planned

end Ltsm.ChannelPlanned
