import Ltsm.ChannelTypes
import Ltsm.Library.FirstMatch
import Ltsm.Library.Run
import Mathlib.Data.List.Nodup

/-! The listeners of a connector, from which channels are accepted. A listener is made for a client url
and a server url; no two of them have the same server url, and any number the same client url. -/
namespace Ltsm.ChannelListeners
open Channel Library

structure Listener where
  sopts : UrlMode
  copts : UrlMode
  chopts : Opts
  loopRunning : Bool
  deriving DecidableEq, Repr

def Listener.getClientUrl (l : Listener) : String := l.copts.url

def Listener.getServerUrl (l : Listener) : String := l.sopts.url

/- What the system answers when a listener is made. -/
structure Net where
  serverSide : Bool
  resolvHostname : String → String
  pathExists : String → Bool
  isSocket : String → Bool
  listenUnix : String → Bool
  listenTcp : String → Int → Bool

def createUnixListener (net : Net) (serverOpts clientOpts : UrlMode) (chOpts : Opts) : Option Listener :=
  let path := serverOpts.content
  if net.pathExists path && ! net.isSocket path then none
  else if net.listenUnix path then some ⟨serverOpts,clientOpts,chOpts,true⟩
  else none

def createTcpListener (net : Net) (serverOpts clientOpts : UrlMode) (chOpts : Opts) : Option Listener :=
  let (addr,port) := parseAddrPort net.resolvHostname serverOpts.content
  if port ≤ 0 then none
  else
    let ipaddr := if net.serverSide then "127.0.0.1" else addr
    if net.listenTcp ipaddr port then some ⟨serverOpts,clientOpts,chOpts,true⟩ else none

def emplace (made : Option Listener) (listeners : List Listener) : Bool × List Listener :=
  match made with
  | some l => (true,listeners ++ [l])
  | none => (false,listeners)

def createListener (net : Net) (clientOpts serverOpts : UrlMode) (chOpts : Opts) (listeners : List Listener) :
    Bool × List Listener :=
  if listeners.any fun l => l.getServerUrl = serverOpts.url then (true,listeners)
  else
    match serverOpts.type with
    | .socket => emplace (createTcpListener net serverOpts clientOpts chOpts) listeners
    | .unix => emplace (createUnixListener net serverOpts clientOpts chOpts) listeners
    | _ => (false,listeners)

/- The second url is not looked at. -/
def destroyListener (clientUrl _serverUrl : String) (listeners : List Listener) : List Listener :=
  listeners.eraseP fun l => l.getClientUrl = clientUrl

/- A loop also ends by itself, on an error of its socket. -/
inductive Action
  | createListener (net : Net) (clientOpts serverOpts : UrlMode) (chOpts : Opts)
  | destroyListener (clientUrl serverUrl : String)
  | loopEnded (index : Nat)

def step (listeners : List Listener) : Action → List Listener
  | .createListener net clientOpts serverOpts chOpts => (createListener net clientOpts serverOpts chOpts listeners).2
  | .destroyListener clientUrl serverUrl => destroyListener clientUrl serverUrl listeners
  | .loopEnded index => listeners.modify index fun l => {l with loopRunning := false}

def Listener.Matches (clientUrl serverUrl : String) (l : Listener) : Prop :=
  l.getClientUrl = clientUrl ∧ l.getServerUrl = serverUrl

instance decidableMatches (clientUrl serverUrl : String) (l : Listener) : Decidable (l.Matches clientUrl serverUrl) := by
  unfold Listener.Matches; infer_instance

/- What is asked for goes, and everything else stays as it is. -/
def Exact (listeners : List Listener) : Action → Prop
  | .destroyListener clientUrl serverUrl =>
    step listeners (.destroyListener clientUrl serverUrl) = listeners.filter fun l => ¬ l.Matches clientUrl serverUrl
  | _ => True

/- The first listener for the client is the one for the server. -/
def Aimed (listeners : List Listener) : Action → Prop
  | .destroyListener clientUrl serverUrl =>
    ∀ l, listeners.find? (fun l => l.getClientUrl = clientUrl) = some l → l.getServerUrl = serverUrl
  | _ => True

def Apart (listeners : List Listener) : Prop := (listeners.map Listener.getServerUrl).Nodup

/- What making a listener does to the others: nothing. -/
theorem createCases (net : Net) (clientOpts serverOpts : UrlMode) (chOpts : Opts) (listeners : List Listener) :
    (createListener net clientOpts serverOpts chOpts listeners).2 = listeners ∨
      (∀ l ∈ listeners, l.getServerUrl ≠ serverOpts.url) ∧
        (createListener net clientOpts serverOpts chOpts listeners).2 = listeners ++ [⟨serverOpts,clientOpts,chOpts,true⟩] := by
  have made : ∀ l : Option Listener, (l = none ∨ l = some ⟨serverOpts,clientOpts,chOpts,true⟩) →
      (emplace l listeners).2 = listeners ∨ (emplace l listeners).2 = listeners ++ [⟨serverOpts,clientOpts,chOpts,true⟩] := by
    rintro l (rfl | rfl)
    · exact .inl rfl
    · exact .inr rfl
  have unix : createUnixListener net serverOpts clientOpts chOpts = none ∨
      createUnixListener net serverOpts clientOpts chOpts = some ⟨serverOpts,clientOpts,chOpts,true⟩ := by
    unfold createUnixListener
    dsimp only
    split_ifs <;> simp
  have tcp : createTcpListener net serverOpts clientOpts chOpts = none ∨
      createTcpListener net serverOpts clientOpts chOpts = some ⟨serverOpts,clientOpts,chOpts,true⟩ := by
    unfold createTcpListener
    dsimp only
    split_ifs <;> simp
  unfold createListener
  split_ifs with present
  · exact .inl rfl
  · have fresh : ∀ l ∈ listeners, l.getServerUrl ≠ serverOpts.url := by simpa using present
    split
    · exact (made _ tcp).imp_right (⟨fresh,·⟩)
    · exact (made _ unix).imp_right (⟨fresh,·⟩)
    · exact .inl rfl

theorem stepApart (listeners : List Listener) (action : Action) (apart : Apart listeners) : Apart (step listeners action) := by
  cases action with
  | createListener net clientOpts serverOpts chOpts =>
    obtain same | ⟨fresh,added⟩ := createCases net clientOpts serverOpts chOpts listeners
    · have next : step listeners (.createListener net clientOpts serverOpts chOpts) = listeners := same
      rwa [next]
    · have next : step listeners (.createListener net clientOpts serverOpts chOpts) =
          listeners ++ [⟨serverOpts,clientOpts,chOpts,true⟩] := added
      rw [next,Apart,List.map_append,List.nodup_append]
      refine ⟨apart,by simp,?_⟩
      rintro url old _ (new : _ ∈ [serverOpts.url]) rfl
      obtain ⟨l,inside,rfl⟩ := List.mem_map.mp old
      exact fresh l inside (List.mem_singleton.mp new)
  | destroyListener clientUrl serverUrl => exact apart.sublist (List.eraseP_sublist.map _)
  | loopEnded index =>
    have same : (step listeners (.loopEnded index)).map Listener.getServerUrl = listeners.map Listener.getServerUrl := by
      refine List.ext_getElem? fun i => ?_
      simp only [step,List.getElem?_map,List.getElem?_modify]
      cases listeners[i]? with
      | none => split <;> rfl
      | some l => split <;> rfl
    rw [Apart,same]
    exact apart

theorem foundClient {listeners : List Listener} {clientUrl : String} {l : Listener}
    (found : listeners.find? (fun l => l.getClientUrl = clientUrl) = some l) : l.getClientUrl = clientUrl := by
  simpa using List.find?_some found

/- Of any listeners. -/
theorem destroysExactly (listeners : List Listener) (clientUrl serverUrl : String) :
    Exact listeners (.destroyListener clientUrl serverUrl) ↔
      ∀ l, listeners.find? (fun l => l.getClientUrl = clientUrl) = some l → l.getServerUrl = serverUrl ∧
        listeners.countP (fun l => l.Matches clientUrl serverUrl) = 1 := by
  have narrower : ∀ l : Listener, decide (l.Matches clientUrl serverUrl) = true → decide (l.getClientUrl = clientUrl) = true :=
    fun l both => decide_eq_true (of_decide_eq_true both).1
  have general := eraseAllIff narrower listeners
  simp only [← decide_not] at general
  refine general.trans (forall₂_congr fun l found => and_congr_left fun _ => ?_)
  rw [decide_eq_true_iff,Listener.Matches,and_iff_right (foundClient found)]

/- With the server urls apart, no second listener matches. -/
theorem matchesOnce {listeners : List Listener} (apart : Apart listeners) (clientUrl serverUrl : String) :
    listeners.countP (fun l => l.Matches clientUrl serverUrl) ≤ 1 := by
  have wider : ∀ l ∈ listeners, decide (l.Matches clientUrl serverUrl) = true → (l.getServerUrl == serverUrl) = true :=
    fun l _ both => beq_iff_eq.mpr (of_decide_eq_true both).2
  calc
    listeners.countP (fun l => l.Matches clientUrl serverUrl) ≤ listeners.countP fun l => l.getServerUrl == serverUrl :=
      List.countP_mono_left wider
    _ = (listeners.map Listener.getServerUrl).count serverUrl := by
      rw [List.count,List.countP_map]
      rfl
    _ ≤ 1 := List.nodup_iff_count_le_one.mp apart serverUrl

theorem exactAimed {listeners : List Listener} (apart : Apart listeners) (action : Action) :
    Exact listeners action ↔ Aimed listeners action := by
  cases action with
  | createListener | loopEnded => exact Iff.rfl
  | destroyListener clientUrl serverUrl =>
    rw [destroysExactly]
    refine forall₂_congr fun l found => ⟨And.left,fun server => ⟨server,?_⟩⟩
    have some : 0 < listeners.countP fun l => l.Matches clientUrl serverUrl :=
      List.countP_pos_iff.mpr ⟨l,List.mem_of_find?_eq_some found,decide_eq_true ⟨foundClient found,server⟩⟩
    exact Nat.le_antisymm (matchesOnce apart clientUrl serverUrl) some

/- Of any listeners, those asked for go and no other exactly when the first one for the client is for
the server and the only such; and over any run from none, when the first one is for the server. -/
theorem destroysIff (listeners : List Listener) (clientUrl serverUrl : String) (actions : List Action) :
    (Exact listeners (.destroyListener clientUrl serverUrl) ↔
      ∀ l, listeners.find? (fun l => l.getClientUrl = clientUrl) = some l → l.getServerUrl = serverUrl ∧
        listeners.countP (fun l => l.Matches clientUrl serverUrl) = 1) ∧
    (Meets step Exact [] actions ↔ Meets step Aimed [] actions) := by
  have none : Apart [] := List.nodup_nil
  refine ⟨destroysExactly listeners clientUrl serverUrl,?_⟩
  exact meetsCongr (fun s a _ apart => stepApart s a apart) (fun s a apart => exactAimed apart a) none

/- Two listeners for one client: the first one goes, whichever is asked for. -/
theorem wrongListener : ¬ Meets step Exact []
    [.createListener ⟨false,fun _ => "",fun _ => false,fun _ => false,fun _ => true,fun _ _ => true⟩
      (.ofParts .unix "/client" .readWrite) (.ofParts .unix "/first" .readWrite) {},
     .createListener ⟨false,fun _ => "",fun _ => false,fun _ => false,fun _ => true,fun _ _ => true⟩
      (.ofParts .unix "/client" .readWrite) (.ofParts .unix "/second" .readWrite) {},
     .destroyListener "unix:///client" "unix:///second"] := by
  rintro ⟨_,_,last,_⟩
  have servers := congrArg (List.map Listener.getServerUrl) last
  exact absurd servers (by decide)

end Ltsm.ChannelListeners
