import Jaco.DnsServiceMaps

namespace Jaco.Dns

open Bridge Store GoStrings

def queryNames (service deployment : String) : List (List Char) :=
  let dotted := service.toList ++ '.' :: deployment.toList
  [service.toList, dotted, service.toList ++ internalSuffix, dotted ++ internalSuffix]

structure Eligible (st : State) (now : Timestamp) (scope : Scope) (service : String) (obs : ReplicaObserved)
    (ip : IP) : Prop where
  observed : st.replicasObserved.get obs.id = some obs
  serving : Serving now obs
  desired : ∃ rep, st.replicasDesired.get obs.id = some rep ∧ rep.deployment = scope.deployment ∧
    rep.service = service
  recorded : recordedIP obs (dockerNetworkName scope.deployment scope.network) = some ip

def refreshed (st : State) (hostname : String) (now : Timestamp) (observed : st.replicasObserved.Listing)
    (forwarder : Option LookupHost) (scope : Scope) : Responder :=
  ⟨scope, serviceMap (collected st hostname now observed.items) (scopeKey scope.deployment scope.network), forwarder⟩

def AnswersFor (st : State) (now : Timestamp) (r : Responder) (σ : Shuffle) (service : String) : Prop :=
  ∀ form ∈ queryNames service r.scope.deployment, ∀ name, toLower name = toLower form →
    (r.addresses σ name ≠ [] ↔ ∃ obs ip, Eligible st now r.scope service obs ip) ∧
      ∀ ip ∈ r.addresses σ name, ∃ obs, Eligible st now r.scope service obs ip

/-- A replica has addresses only on the docker networks its service's containers are attached to. -/
def Recorded (attached : String → String → List String) (st : State) : Prop :=
  ∀ obs rep, st.replicasObserved.get obs.id = some obs → st.replicasDesired.get obs.id = some rep →
    ∀ net ip, recordedIP obs net = some ip → net ∈ attached rep.deployment rep.service

structure Supplies (attached : String → String → List String) (st : State) (key service deployment network : String) :
    Prop where
  listed : network ∈ networksOfService st deployment service
  attaches : dockerNetworkName deployment network ∈ attached deployment service
  key_eq : scopeKey deployment network = key

def Resolves (attached : String → String → List String) (st : State) (scope : Scope) (service : String) : Prop :=
  ∀ form ∈ queryNames service scope.deployment, ∃ read,
    parseInScopeName scope (toLower form) = some read ∧
    (∀ deployment network, Supplies attached st (scopeKey scope.deployment scope.network) read deployment network →
      read = service ∧ deployment = scope.deployment) ∧
    (dockerNetworkName scope.deployment scope.network ∈ attached scope.deployment service →
      read = service ∧ scope.network ∈ networksOfService st scope.deployment service)

section Answers

variable {attached : String → String → List String} {st : State} {scope : Scope} {service : String}

theorem networksOfService_congr {st' : State} (h : st'.deployments = st.deployments) (d s : String) :
    networksOfService st' d s = networksOfService st d s := by
  rw [networksOfService, networksOfService, h]

theorem answersFor_of_resolves (h : Resolves attached st scope service) {st' : State}
    (hdeps : st'.deployments = st.deployments) (hrec : Recorded attached st') (hostname : String) (now : Timestamp)
    (observed : st'.replicasObserved.Listing) (forwarder : Option LookupHost) (σ : Shuffle) :
    AnswersFor st' now (refreshed st' hostname now observed forwarder scope) σ service := by
  intro form hform name hname
  obtain ⟨read, hparse, honly, hlists⟩ := h form hform
  have haddr : (refreshed st' hostname now observed forwarder scope).addresses σ name =
      σ.apply (serviceMap (collected st' hostname now observed.items)
        (scopeKey scope.deployment scope.network) read) := by
    apply addresses_of_inScope
    rw [hname]
    exact hparse
  have hsound : ∀ e ∈ collected st' hostname now observed.items,
      e.key = scopeKey scope.deployment scope.network → e.service = read →
      ∃ obs, Eligible st' now scope service obs e.ip := by
    intro e he hkey hservice
    obtain ⟨obs, hobs, hserving, rep, hrep, network, hnetwork, ip, hip, rfl⟩ := mem_collected.1 he
    have hget := (observed.mem_items obs).1 hobs
    rw [networksOfService_congr hdeps] at hnetwork
    subst hservice
    obtain ⟨hread, hdep⟩ := honly rep.deployment network ⟨hnetwork, hrec obs rep hget hrep _ _ hip, hkey⟩
    have hnet : network = scope.network := by
      rw [← scopeKey_inj scope.deployment, ← hkey, hdep]
    rw [hdep, hnet] at hip
    exact ⟨obs, hget, hserving, ⟨rep, hrep, hdep, hread⟩, hip⟩
  rw [haddr]
  constructor
  · rw [σ.ne_nil_iff, serviceMap_ne_nil_iff]
    constructor
    · rintro ⟨e, he, hkey, hservice⟩
      obtain ⟨obs, hobs⟩ := hsound e he hkey hservice
      exact ⟨obs, e.ip, hobs⟩
    · rintro ⟨obs, ip, helig⟩
      obtain ⟨rep, hrep, hdep, hsvc⟩ := helig.desired
      have hattached := hrec obs rep helig.observed hrep _ _ helig.recorded
      rw [hdep, hsvc] at hattached
      obtain ⟨hread, hlisted⟩ := hlists hattached
      refine ⟨⟨scopeKey scope.deployment scope.network, read, ip, obs.host = hostname⟩, ?_, rfl, rfl⟩
      apply mem_collected.2
      refine ⟨obs, (observed.mem_items obs).2 helig.observed, helig.serving, rep, hrep, scope.network, ?_, ip, ?_, ?_⟩
      · rw [networksOfService_congr hdeps, hdep, hsvc]
        exact hlisted
      · rw [hdep]
        exact helig.recorded
      · rw [hdep, hsvc, hread]
        rfl
  · intro ip hip
    obtain ⟨e, he, hkey, hservice, rfl⟩ := mem_serviceMap ((σ.perm _).mem_iff.1 hip)
    exact hsound e he hkey hservice

end Answers

section Probe

variable (st : State) (deployment service net : String)

def probeDesired : ReplicaDesired :=
  { id := "probe", deployment := deployment, service := service, host := "", image := "" }

def probeObserved : ReplicaObserved where
  id := "probe"
  state := .running
  details := [("ip." ++ net, "10.0.0.1")]
  lastHealthAt := some 0

def probe : State :=
  { st with
    replicasDesired := empty.apply (probeDesired deployment service)
    replicasObserved := empty.apply (probeObserved net) }

theorem recordedIP_probe {net' : String} {ip : IP} (h : recordedIP (probeObserved net) net' = some ip) :
    net' = net := by
  by_contra hne
  have hkey : ("ip." ++ net' == "ip." ++ net) = false := by
    rw [beq_eq_false_iff_ne]
    intro heq
    have := congrArg String.toList heq
    exact hne (by simpa [String.toList_inj] using this)
  have hlookup : recordedIP (probeObserved net) net' = parseIP "" := by
    simp [recordedIP, probeObserved, List.lookup_cons, hkey]
  have hempty : parseIP "" = none := by decide
  rw [hlookup, hempty] at h
  cases h

theorem eq_of_observed_probe {obs : ReplicaObserved}
    (h : (probe st deployment service net).replicasObserved.get obs.id = some obs) : obs = probeObserved net := by
  simp only [probe, get_apply, get_empty] at h
  split at h
  · exact (Option.some.inj h).symm
  · cases h

theorem desired_probe {rep : ReplicaDesired}
    (h : (probe st deployment service net).replicasDesired.get "probe" = some rep) :
    rep = probeDesired deployment service := by
  simp only [probe, get_apply, get_empty] at h
  split at h
  · exact (Option.some.inj h).symm
  · cases h

theorem probe_recorded {attached : String → String → List String} (h : net ∈ attached deployment service) :
    Recorded attached (probe st deployment service net) := by
  intro obs rep hobs hrep net' ip hip
  have hobs := eq_of_observed_probe st deployment service net hobs
  subst hobs
  rw [desired_probe st deployment service net hrep, recordedIP_probe net hip]
  exact h

theorem serving_probe : Serving 0 (probeObserved net) := by
  refine ⟨rfl, 0, rfl, ?_⟩
  decide

theorem eligible_probe {scope : Scope} {asked : String} {now : Timestamp} {obs : ReplicaObserved} {ip : IP}
    (h : Eligible (probe st deployment service net) now scope asked obs ip) :
    deployment = scope.deployment ∧ service = asked := by
  have hobs := eq_of_observed_probe st deployment service net h.observed
  obtain ⟨rep, hrep, hdep, hservice⟩ := h.desired
  subst hobs
  rw [desired_probe st deployment service net hrep] at hdep hservice
  exact ⟨hdep, hservice⟩

theorem collected_probe {hostname : String} {now : Timestamp}
    {observed : (probe st deployment service net).replicasObserved.Listing} {e : Entry}
    (h : e ∈ collected (probe st deployment service net) hostname now observed.items) :
    e.service = service ∧ ∃ network ∈ networksOfService st deployment service, e.key = scopeKey deployment network := by
  obtain ⟨obs, hobs, -, rep, hrep, network, hnetwork, ip, -, rfl⟩ := mem_collected.1 h
  have hobs := eq_of_observed_probe st deployment service net ((observed.mem_items obs).1 hobs)
  subst hobs
  rw [desired_probe st deployment service net hrep] at hnetwork ⊢
  exact ⟨rfl, network, hnetwork, rfl⟩

theorem recordedIP_probe_self : recordedIP (probeObserved net) net = parseIP "10.0.0.1" := by
  simp [recordedIP, probeObserved]

theorem observed_probe (observed : (probe st deployment service net).replicasObserved.Listing) :
    probeObserved net ∈ observed.items := by
  rw [observed.mem_items]
  exact get_apply_self _ _

theorem mem_collected_probe {network : String} (hlisted : network ∈ networksOfService st deployment service)
    (hostname : String)
    (observed : (probe st deployment service (dockerNetworkName deployment network)).replicasObserved.Listing) :
    ∃ e ∈ collected (probe st deployment service (dockerNetworkName deployment network)) hostname 0 observed.items,
      e.key = scopeKey deployment network ∧ e.service = service := by
  obtain ⟨ip, hip⟩ : ∃ ip, parseIP "10.0.0.1" = some ip := Option.isSome_iff_exists.1 (by decide)
  refine ⟨_, mem_collected.2 ⟨_, observed_probe st deployment service _ observed, serving_probe _,
    probeDesired deployment service, get_apply_self _ _, network, hlisted, ip, ?_, rfl⟩, rfl, rfl⟩
  exact (recordedIP_probe_self _).trans hip

theorem eligible_of_probe (scope : Scope) (hdep : deployment = scope.deployment) :
    ∃ obs ip,
      Eligible (probe st deployment service (dockerNetworkName deployment scope.network)) 0 scope service obs ip := by
  obtain ⟨ip, hip⟩ : ∃ ip, parseIP "10.0.0.1" = some ip := Option.isSome_iff_exists.1 (by decide)
  subst hdep
  exact ⟨_, ip, get_apply_self _ _, serving_probe _, ⟨_, get_apply_self _ _, rfl, rfl⟩,
    (recordedIP_probe_self _).trans hip⟩

end Probe

def AnswersAlways (attached : String → String → List String) (st : State) (hostname : String) (scope : Scope)
    (service : String) : Prop :=
  ∀ st' : State, st'.deployments = st.deployments → Recorded attached st' → ∀ now observed forwarder σ,
    AnswersFor st' now (refreshed st' hostname now observed forwarder scope) σ service

section Necessity

variable {attached : String → String → List String} {st : State} {hostname : String} {scope : Scope} {service : String}
  {form : List Char}

theorem inScope_of_always (h : AnswersAlways attached st hostname scope service)
    (hform : form ∈ queryNames service scope.deployment) :
    ∃ read, parseInScopeName scope (toLower form) = some read := by
  by_contra hnone
  have hexternal : parseInScopeName scope (toLower form) = none :=
    Option.eq_none_iff_forall_ne_some.2 (fun read hread => hnone ⟨read, hread⟩)
  -- no replica at all, and an upstream resolver that knows every name
  let vacant : State := { st with replicasDesired := .empty, replicasObserved := .empty }
  have hrec : Recorded attached vacant := by
    intro obs rep hobs
    simp [vacant] at hobs
  let upstream : LookupHost := fun _ => .ok [.v4 0]
  have hup := (h vacant rfl hrec 0 (listing _) (some upstream) .none form hform form rfl).1
  have haddr : (refreshed vacant hostname 0 (listing _) (some upstream) scope).addresses .none form = [0] :=
    addresses_of_external .none hexternal rfl rfl
  rw [haddr] at hup
  obtain ⟨obs, ip, helig⟩ := hup.1 (List.cons_ne_nil _ _)
  have hobs := helig.observed
  simp [vacant] at hobs

variable {read deployment network : String} (hparse : parseInScopeName scope (toLower form) = some read)

include hparse

theorem addresses_probe {supplier : String}
    (observed : (probe st deployment supplier network).replicasObserved.Listing) :
    (refreshed (probe st deployment supplier network) hostname 0 observed none scope).addresses .none form ≠ [] ↔
      ∃ e ∈ collected (probe st deployment supplier network) hostname 0 observed.items,
        e.key = scopeKey scope.deployment scope.network ∧ e.service = read := by
  rw [addresses_of_inScope .none hparse, Shuffle.ne_nil_iff]
  exact serviceMap_ne_nil_iff _ _ _

variable (h : AnswersAlways attached st hostname scope service)
  (hform : form ∈ queryNames service scope.deployment)

include h hform

theorem sole_supplier_of_always
    (hsupplies : Supplies attached st (scopeKey scope.deployment scope.network) read deployment network) :
    read = service ∧ deployment = scope.deployment := by
  have hrec := probe_recorded st deployment read (dockerNetworkName deployment network) hsupplies.attaches
  have hfor := h (probe st deployment read (dockerNetworkName deployment network)) rfl hrec 0 (listing _) none
    .none form hform form rfl
  obtain ⟨e, he, hkey, hread⟩ := mem_collected_probe st deployment read hsupplies.listed hostname (listing _)
  obtain ⟨obs, ip, helig⟩ := hfor.1.1 ((addresses_probe hparse _).2 ⟨e, he, hkey.trans hsupplies.key_eq, hread⟩)
  obtain ⟨hdep, hservice⟩ := eligible_probe st deployment read _ helig
  exact ⟨hservice, hdep⟩

theorem lists_of_always
    (hattached : dockerNetworkName scope.deployment scope.network ∈ attached scope.deployment service) :
    read = service ∧ scope.network ∈ networksOfService st scope.deployment service := by
  have hrec := probe_recorded st scope.deployment service _ hattached
  have hfor := h (probe st scope.deployment service (dockerNetworkName scope.deployment scope.network)) rfl hrec 0
    (listing _) none .none form hform form rfl
  have helig := eligible_of_probe st scope.deployment service scope rfl
  obtain ⟨e, he, hkey, hread⟩ := (addresses_probe hparse _).1 (hfor.1.2 helig)
  obtain ⟨hservice, network, hlisted, hscope⟩ := collected_probe st scope.deployment service _ he
  rw [hkey, scopeKey_inj] at hscope
  rw [hscope]
  exact ⟨hread.symm.trans hservice, hlisted⟩

end Necessity

theorem scope_answers_iff (attached : String → String → List String) (st : State) (hostname : String) (scope : Scope)
    (service : String) :
    AnswersAlways attached st hostname scope service ↔ Resolves attached st scope service := by
  constructor
  · intro h form hform
    obtain ⟨read, hparse⟩ := inScope_of_always h hform
    exact ⟨read, hparse, fun _ _ => sole_supplier_of_always hparse h hform, lists_of_always hparse h hform⟩
  · intro h st' hdeps hrec now observed forwarder σ
    exact answersFor_of_resolves h hdeps hrec hostname now observed forwarder σ

namespace Sample

def spec (name network : String) : ServiceSpec :=
  { name := name, replicas := 1, placement := .spread, networks := [network] }

def rep (service : String) : ReplicaDesired :=
  { id := "shop-0", deployment := "shop", service := service, host := "node-a", image := "nginx" }

def obs (network : String) : ReplicaObserved where
  id := "shop-0"
  state := .running
  details := [("ip." ++ dockerNetworkName "shop" network, "10.244.0.2")]
  host := "node-a"
  lastHealthAt := some 0

def oneReplica (service network : String) : State :=
  { State.new with
    deployments := empty.apply
      { name := "shop", appliedRevision := 1, status := .active, services := [spec service network] }
    subnets := empty.apply
      { deployment := "shop", network := networkNameFromDockerName (Reconciler.networkName "shop" network),
        cidr := "10.244.0.0/24", host := "node-a" }
    replicasDesired := empty.apply (rep service)
    replicasObserved := empty.apply (obs network) }

theorem eligible (service network n : String) (h : implicitDefault n = implicitDefault network) :
    ∃ obs ip, Eligible (oneReplica service network) 0 ⟨"shop", n⟩ service obs ip := by
  obtain ⟨ip, hip⟩ : ∃ ip, parseIP "10.244.0.2" = some ip := Option.isSome_iff_exists.1 (by decide)
  refine ⟨obs network, ip, get_apply_self _ _, ⟨rfl, 0, rfl, by decide⟩,
    ⟨rep service, get_apply_self _ _, rfl, rfl⟩, ?_⟩
  rw [recordedIP, (dockerNetworkName_inj "shop" n network).2 h]
  simpa [obs, List.lookup_cons] using hip

def responder (service network : String) (scope : Scope) : Responder :=
  refreshed (oneReplica service network) "node-a" 0 (listing _) none scope

end Sample

open Sample

theorem running_replica_not_found :
    (oneReplica "web" "default").subnets.list.map (fun sn => (sn.deployment, sn.network)) =
        [("shop", "_default")] ∧
      ¬ AnswersFor (oneReplica "web" "default") 0 (responder "web" "default" ⟨"shop", "_default"⟩) .none
        "web" ∧
      (oneReplica "Web" "front").subnets.list.map (fun sn => (sn.deployment, sn.network)) =
        [("shop", "front")] ∧
      ¬ AnswersFor (oneReplica "Web" "front") 0 (responder "Web" "front" ⟨"shop", "front"⟩) .none "Web" := by
  refine ⟨by decide +kernel, fun h => ?_, by decide +kernel, fun h => ?_⟩
  · have hweb := (h "web".toList List.mem_cons_self "web".toList rfl).1.2
      (eligible "web" "default" "_default" (by decide))
    revert hweb
    decide +kernel
  · have hweb := (h "Web".toList List.mem_cons_self "Web".toList rfl).1.2 (eligible "Web" "front" "front" rfl)
    revert hweb
    decide +kernel

end Jaco.Dns
