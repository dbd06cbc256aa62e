import Jaco.DockerEngine
import Jaco.ClusterState

namespace Jaco.Lifecycle

open Docker Interleaving Runs

def labelReplicaID : String := "jaco.replica_id"

def labelRaftIndex : String := "jaco.raft_index"

structure Dependency where
  service : String
  condition : String
  required : Bool
  deriving DecidableEq

structure ContainerSpec where
  deployment : String := ""
  replicaID : String
  raftIndex : Nat
  image : String
  labels : List (String × String)
  networks : List String
  networkMode : String := ""
  pullPolicy : String := ""
  dependsOn : List Dependency := []
  deriving DecidableEq

abbrev NetworkModeResolver := String → String → Option String

structure NetworkConfig where
  mode : String
  endpoints : List String

def targetNotReady : String := "network_mode target service has no running replica yet"

def buildConfig (spec : ContainerSpec) (resolver : Option NetworkModeResolver) : Except String NetworkConfig :=
  if spec.networkMode = "" then
    match spec.networks with
    | [] => .ok ⟨"", []⟩
    | net :: _ => .ok ⟨net, [net]⟩
  else if spec.networkMode = "none" then .ok ⟨"none", []⟩
  else if "service:".toList <+: spec.networkMode.toList then
    let target := String.ofList (spec.networkMode.toList.drop 8)
    match (resolver.bind (fun r => r spec.deployment target)).filter (· ≠ "") with
    | none => .error ("network_mode service:" ++ target ++ ": " ++ targetNotReady)
    | some id => .ok ⟨"container:" ++ id, []⟩
  else .error ("network_mode " ++ GoStrings.quote spec.networkMode ++
    ": unsupported form (validator should have rejected)")

def checkIsolationAvailable (gate : Option (State × String)) : Option String :=
  match gate with
  | none => none
  | some (st, selfHostname) =>
    if selfHostname = "" then none
    else match st.nodes.get selfHostname with
      | none => none
      | some n => if n.status = .isolationUnavailable then some "isolation_unavailable" else none

def matchesRaftIndex (c : Container) (want : Nat) : Bool :=
  let got := c.label labelRaftIndex
  got ≠ "" && GoStrings.parseUint got = some want

local instance lawfulBEq_label : LawfulBEq (String × String) := inferInstance

def listed (e : Engine) (replicaID : String) : Option Container :=
  e.containers.find? (fun c => (labelReplicaID, replicaID) ∈ c.labels)

def findContainerByReplicaID (replicaID : String) (s : Session) : Option (Option Container) × Session :=
  match s.call (fun e => e) with
  | (true, t) => (some (listed s.engine replicaID), t)
  | (false, t) => (none, t)

def stopAndRemove (id : Nat) (s : Session) : Bool × Session :=
  ((s.call (fun e => e.setState id "exited")).2).call (fun e => e.remove id)

def pullImage (spec : ContainerSpec) (s : Session) : Bool × Session :=
  if spec.pullPolicy ≠ "never" then s.call (fun e => e) else (true, s)

def containerCreate (spec : ContainerSpec) (net : NetworkConfig) (s : Session) : Option Nat × Session :=
  let name := "jaco_" ++ spec.replicaID
  if s.engine.containers.any (fun c => c.name = name) then (none, ⟨s.engine, s.fates.tail⟩)
  else match s.call (fun e => e.create name spec.image spec.labels net.endpoints) with
    | (true, t) => (some s.engine.nextId, t)
    | (false, t) => (none, t)

def connectAll (id : Nat) : List String → Session → Option String × Session
  | [], s => (none, s)
  | net :: nets, s =>
    match s.call (fun e => e.attach id net) with
    | (true, t) => connectAll id nets t
    | (false, t) => (some net, t)

def attachAndStart (spec : ContainerSpec) (id : Nat) (s : Session) : Except String Nat × Session :=
  match connectAll id (if spec.networkMode = "" then spec.networks.tail else []) s with
  | (some net, t) => (.error ("NetworkConnect " ++ net ++ " -> " ++ toString id), t)
  | (none, t) =>
    match t.call (fun e => e.setState id "running") with
    | (true, u) => (.ok id, u)
    | (false, u) => (.error ("ContainerStart " ++ toString id), u)

def recreate (spec : ContainerSpec) (resolver : Option NetworkModeResolver) (s : Session) :
    Except String Nat × Session :=
  match pullImage spec s with
  | (false, t) => (.error ("ImagePull " ++ spec.image), t)
  | (true, t) =>
    match buildConfig spec resolver with
    | .error err => (.error ("buildConfig: " ++ err), t)
    | .ok net =>
      match containerCreate spec net t with
      | (none, u) => (.error "ContainerCreate", u)
      | (some id, u) => attachAndStart spec id u

/-- `StartWithPullState` once its arguments are checked. Errors carry the text the source puts before docker's own. -/
def bringUp (spec : ContainerSpec) (resolver : Option NetworkModeResolver) (s : Session) :
    Except String Nat × Session :=
  match findContainerByReplicaID spec.replicaID s with
  | (none, t) => (.error "list containers", t)
  | (some none, t) => recreate spec resolver t
  | (some (some existing), t) =>
    if matchesRaftIndex existing spec.raftIndex then
      if existing.state = "running" then (.ok existing.id, t)
      else match t.call (fun e => e.setState existing.id "running") with
        | (true, u) => (.ok existing.id, u)
        | (false, u) =>
          match stopAndRemove existing.id u with
          | (false, v) => (.error "stop+remove stale (after start failure)", v)
          | (true, v) => recreate spec resolver v
    else
      match stopAndRemove existing.id t with
      | (false, u) => (.error ("stop+remove stale " ++ toString existing.id), u)
      | (true, u) => recreate spec resolver u

def refusal (spec : ContainerSpec) (gate : Option (State × String)) : Option String :=
  if spec.replicaID = "" then some "Start: ContainerSpec.ReplicaID is required"
  else if spec.image = "" then some "Start: ContainerSpec.Image is required"
  else checkIsolationAvailable gate

def startWithPullState (spec : ContainerSpec) (gate : Option (State × String))
    (resolver : Option NetworkModeResolver) (s : Session) : Except String Nat × Session :=
  match refusal spec gate with
  | some err => (.error err, s)
  | none => bringUp spec resolver s

inductive Event where
  | start (gate : Option (State × String)) (resolver : Option NetworkModeResolver) (fates : List Fate)
  | exited (id : Nat)

section

variable (spec : ContainerSpec)

def step (e : Engine) : Event → Engine
  | .start gate resolver fates => (startWithPullState spec gate resolver ⟨e, fates⟩).2.engine
  | .exited id => e.setState id "exited"

def UpEverywhere (e : Engine) (id : Nat) : Prop :=
  ∃ c, e.find id = some c ∧ c.state = "running" ∧ ∀ net ∈ spec.networks, net ∈ c.networks

def ReturnsUp (e : Engine) : Event → Prop
  | .start gate resolver fates =>
    ∀ id, (startWithPullState spec gate resolver ⟨e, fates⟩).1 = .ok id →
      UpEverywhere spec (startWithPullState spec gate resolver ⟨e, fates⟩).2.engine id
  | .exited _ => True

def Reuses (e : Engine) (gate : Option (State × String)) (fates : List Fate) (c : Container) : Prop :=
  refusal spec gate = none ∧ fates.headD .acked = .acked ∧ listed e spec.replicaID = some c ∧
    matchesRaftIndex c spec.raftIndex = true ∧ (c.state = "running" ∨ fates.tail.headD .acked = .acked)

def ReusesAttached (e : Engine) : Event → Prop
  | .start gate _ fates => ∀ c, Reuses spec e gate fates c → ∀ net ∈ spec.networks, net ∈ c.networks
  | .exited _ => True

variable {spec}

theorem connectAll_attaches (id : Nat) (nets : List String) (s t : Session) (c : Container)
    (hc : s.engine.find id = some c) (h : connectAll id nets s = (none, t)) :
    ∃ c', t.engine.find id = some c' ∧ c'.networks = c.networks ++ nets := by
  induction nets generalizing s c with
  | nil =>
    cases h
    exact ⟨c, hc, (List.append_nil _).symm⟩
  | cons net nets ih =>
    unfold connectAll at h
    split at h
    · rename_i u hcall
      have hfind : u.engine.find id = some { c with networks := c.networks ++ [net] } := by
        rw [engine_of_call hcall]
        exact Engine.find_modify _ _ _ _ c hc
      obtain ⟨c', hc', hnets⟩ := ih u _ hfind h
      refine ⟨c', hc', ?_⟩
      rw [hnets, List.append_assoc, List.singleton_append]
    · cases h

theorem attachAndStart_up {id id' : Nat} {s t : Session} {c : Container} (hmode : spec.networkMode = "")
    (hc : s.engine.find id = some c) (hnets : ∀ net ∈ spec.networks, net ∈ c.networks ++ spec.networks.tail)
    (h : attachAndStart spec id s = (.ok id', t)) : UpEverywhere spec t.engine id' := by
  unfold attachAndStart at h
  rw [if_pos hmode] at h
  split at h
  · cases h
  · rename_i u hconnect
    obtain ⟨c', hc', hattached⟩ := connectAll_attaches id spec.networks.tail s u c hc hconnect
    split at h
    · rename_i v hstart
      cases h
      refine ⟨{ c' with state := "running" }, ?_, rfl, ?_⟩
      · rw [engine_of_call hstart]
        exact Engine.find_modify _ _ _ _ c' hc'
      · intro net hnet
        rw [hattached]
        exact hnets net hnet
    · cases h

variable (resolver : Option NetworkModeResolver)

theorem buildConfig_endpoints (net : NetworkConfig)
    (hmode : spec.networkMode = "") (h : buildConfig spec resolver = .ok net) :
    ∀ n ∈ spec.networks, n ∈ net.endpoints ++ spec.networks.tail := by
  rw [buildConfig, if_pos hmode] at h
  intro n hn
  cases hnets : spec.networks with
  | nil =>
    rw [hnets] at hn
    cases hn
  | cons first rest =>
    simp only [hnets, Except.ok.injEq] at h
    subst h
    rwa [hnets] at hn

theorem containerCreate_find (net : NetworkConfig) (s t : Session) (id : Nat)
    (h : containerCreate spec net s = (some id, t)) :
    ∃ c, t.engine.find id = some c ∧ c.networks = net.endpoints := by
  unfold containerCreate at h
  dsimp only at h
  split at h
  · cases h
  · split at h
    · rename_i u hcall
      cases h
      rw [engine_of_call hcall]
      exact ⟨_, Engine.find_create _ _ _ _ _, rfl⟩
    · cases h

theorem recreate_up (s t : Session) (hmode : spec.networkMode = "") (id : Nat)
    (h : recreate spec resolver s = (.ok id, t)) : UpEverywhere spec t.engine id := by
  unfold recreate at h
  split at h
  · cases h
  · split at h
    · cases h
    · rename_i net hcfg
      split at h
      · cases h
      · rename_i newId u hcreate
        obtain ⟨c, hc, hnets⟩ := containerCreate_find net _ u newId hcreate
        refine attachAndStart_up hmode hc ?_ h
        rw [hnets]
        exact buildConfig_endpoints resolver net hmode hcfg

theorem listed_find {e : Engine} {replicaID : String} {c : Container} (h : listed e replicaID = some c) :
    e.find c.id = some c :=
  e.find_of_mem c (List.mem_of_find?_eq_some h)

variable (e : Engine) (gate : Option (State × String)) (fates : List Fate)

theorem bringUp_reuses (c : Container) (h : Reuses spec e gate fates c) :
    (startWithPullState spec gate resolver ⟨e, fates⟩).1 = .ok c.id ∧
      (startWithPullState spec gate resolver ⟨e, fates⟩).2.engine.find c.id = some { c with state := "running" } := by
  obtain ⟨hrefusal, hlist, hlisted, hmatch, hup⟩ := h
  have hfind := listed_find hlisted
  simp only [startWithPullState, hrefusal, bringUp, findContainerByReplicaID, Session.call, hlist, hlisted, hmatch,
    if_true]
  by_cases hrunning : c.state = "running"
  · simp only [if_pos hrunning, true_and]
    rw [hfind, ← hrunning]
  · have hstart : fates.tail.headD .acked = .acked := hup.resolve_left hrunning
    simp only [if_neg hrunning, hstart, true_and]
    exact Engine.find_modify _ _ _ _ c hfind

theorem start_up_of_not_reuses (hmode : spec.networkMode = "") (hnot : ∀ c, ¬ Reuses spec e gate fates c) (id : Nat)
    (h : (startWithPullState spec gate resolver ⟨e, fates⟩).1 = .ok id) :
    UpEverywhere spec (startWithPullState spec gate resolver ⟨e, fates⟩).2.engine id := by
  suffices hup : ∀ t, startWithPullState spec gate resolver ⟨e, fates⟩ = (.ok id, t) →
      UpEverywhere spec t.engine id from
    hup _ (Prod.ext h rfl)
  intro t ht
  unfold startWithPullState at ht
  split at ht
  · cases ht
  · rename_i hrefusal
    unfold bringUp at ht
    split at ht
    · cases ht
    · exact recreate_up resolver _ t hmode id ht
    · rename_i existing u hfound
      have hlist : fates.headD .acked = .acked ∧ listed e spec.replicaID = some existing ∧ u = ⟨e, fates.tail⟩ := by
        unfold findContainerByReplicaID at hfound
        split at hfound
        · rename_i v hcall
          obtain ⟨hacked, rfl⟩ := call_eq_true_iff.mp hcall
          obtain ⟨hlisted, hu⟩ := Prod.mk.inj hfound
          exact ⟨hacked, Option.some.inj hlisted, hu.symm⟩
        · cases hfound
      obtain ⟨hacked, hlisted, rfl⟩ := hlist
      split at ht
      · rename_i hmatch
        split at ht
        · rename_i hrunning
          exact absurd ⟨hrefusal, hacked, hlisted, hmatch, Or.inl hrunning⟩ (hnot existing)
        · split at ht
          · rename_i v hstart
            obtain ⟨hacked', -⟩ := call_eq_true_iff.mp hstart
            exact absurd ⟨hrefusal, hacked, hlisted, hmatch, Or.inr hacked'⟩ (hnot existing)
          · split at ht
            · cases ht
            · exact recreate_up resolver _ t hmode id ht
      · split at ht
        · cases ht
        · exact recreate_up resolver _ t hmode id ht

theorem returnsUp_iff (e : Engine) (ev : Event) (hmode : spec.networkMode = "") :
    ReturnsUp spec e ev ↔ ReusesAttached spec e ev := by
  cases ev with
  | exited id => exact Iff.rfl
  | start gate resolver fates =>
    constructor
    · intro h c hc net hnet
      obtain ⟨hok, hfind⟩ := bringUp_reuses resolver e gate fates c hc
      obtain ⟨c', hc', -, hnets⟩ := h c.id hok
      rw [hfind] at hc'
      cases hc'
      exact hnets net hnet
    · intro h id hid
      by_cases hreuse : ∃ c, Reuses spec e gate fates c
      · obtain ⟨c, hc⟩ := hreuse
        obtain ⟨hok, hfind⟩ := bringUp_reuses resolver e gate fates c hc
        rw [hok] at hid
        cases hid
        exact ⟨_, hfind, rfl, h c hc⟩
      · exact start_up_of_not_reuses resolver e gate fates hmode (fun c hc => hreuse ⟨c, hc⟩) id hid

variable (spec) in
theorem started_everywhere_iff (hmode : spec.networkMode = "") (e : Engine) (es : List Event) :
    Along (step spec) (ReturnsUp spec) e es ↔ Along (step spec) (ReusesAttached spec) e es :=
  along_congr (step spec) _ _ (fun e ev => returnsUp_iff e ev hmode) e es

end

namespace Sample

def webSpec : ContainerSpec where
  replicaID := "shop-web-0"
  raftIndex := 7
  image := "nginx:1.27"
  labels := [(labelReplicaID, "shop-web-0"), (labelRaftIndex, "7")]
  networks := ["jaco_shop_front", "jaco_shop_back"]

def webContainer (state : String) (networks : List String) : Container :=
  ⟨0, "jaco_shop-web-0", "nginx:1.27", webSpec.labels, state, networks⟩

def failingConnect : Event := .start none none [.acked, .acked, .acked, .lost]

def clean : Event := .start none none []

end Sample

open Sample in
theorem restart_after_exit : Along (step webSpec) (ReturnsUp webSpec) .empty [clean, .exited 0, clean] := by
  refine (started_everywhere_iff webSpec rfl .empty [clean, .exited 0, clean]).mpr ⟨?_, trivial, ?_, trivial⟩
  · rintro c ⟨-, -, hlisted, -⟩
    cases hlisted
  · rintro c ⟨-, -, hlisted, -⟩
    have hweb : listed (step webSpec (step webSpec .empty clean) (.exited 0)) webSpec.replicaID =
        some (webContainer "exited" webSpec.networks) := by decide +kernel
    rw [hweb] at hlisted
    cases hlisted
    exact fun net hnet => hnet

open Sample in
theorem retry_starts_half_attached : ¬ Along (step webSpec) (ReturnsUp webSpec) .empty [failingConnect, clean] := by
  rintro ⟨-, h, -⟩
  obtain ⟨c, hc, -, hnets⟩ := h 0 (by rfl)
  have hweb : (step webSpec (step webSpec .empty failingConnect) clean).find 0 =
      some (webContainer "running" ["jaco_shop_front"]) := by decide +kernel
  have hsame : webContainer "running" ["jaco_shop_front"] = c := Option.some.inj (hweb.symm.trans hc)
  have hback := hnets "jaco_shop_back" (by decide)
  rw [← hsame] at hback
  revert hback
  decide

end Jaco.Lifecycle
