import Jaco.CaddyPolicies
import Jaco.DesiredSet
import Jaco.ServiceNetworks

namespace Jaco.Caddy

open TlsPolicies List

structure Listings (st : State) where
  deployments : st.deployments.Listing
  routes : st.routes.Listing
  observed : st.replicasObserved.Listing
  recorded : st.replicasObserved.Listing
  tcpRoutes : st.tcpRoutes.Listing

def deploymentEmail (deployments : List Deployment) (name : String) : String :=
  ((deployments.reverse.find? (fun d => d.name = name)).map (·.acmeEmail)).getD ""

def replicaStateString : ReplicaState → String
  | .running => "running"
  | .degraded => "degraded"
  | .failed => "failed"
  | .pending => "pending"
  | _ => ""

section Observed

variable (st : State)

def replicaIDDeployment (id : String) : String := ((st.replicasDesired.get id).map (·.deployment)).getD ""

def replicaIDService (id : String) : String := ((st.replicasDesired.get id).map (·.service)).getD ""

/-- A report that was never made reads as the epoch. -/
def observedView (o : ReplicaObserved) : ReplicaObservedView where
  id := o.id
  deployment := replicaIDDeployment st o.id
  service := replicaIDService st o.id
  state := replicaStateString o.state
  lastHealthAt := o.lastHealthAt.getD 0

def overlayIP (obs : ReplicaObserved) (deployment network : String) : String :=
  (obs.details.lookup ("ip." ++ Bridge.dockerNetworkName deployment network)).getD ""

def recordIP (obs : ReplicaObserved) (rep : ReplicaDesired) (services : String → Option ServiceMeta)
    (network : String) :
    String → Option ServiceMeta :=
  let ip := overlayIP obs rep.deployment network
  if ip = "" then services
  else
    let key := metaKey rep.deployment rep.service
    let m := (services key).getD ⟨rep.deployment, rep.service, fun _ => none⟩
    Function.update services key (some { m with replicaIPs := Function.update m.replicaIPs obs.id (some ip) })

def recordObserved (services : String → Option ServiceMeta) (obs : ReplicaObserved) : String → Option ServiceMeta :=
  match st.replicasDesired.get obs.id with
  | none => services
  | some rep => (Bridge.serviceNetworks st rep.deployment rep.service).foldl (recordIP obs rep) services

def serviceMetas (observed : List ReplicaObserved) : String → Option ServiceMeta :=
  observed.foldl (recordObserved st) (fun _ => none)

def ingressInputs (l : Listings st) (acme : BuildOpts) (now : Timestamp) : Inputs where
  routes := l.routes.items.map (fun r => ⟨r, deploymentEmail l.deployments.items r.deployment⟩)
  replicas := l.observed.items.map (observedView st)
  services := serviceMetas st l.recorded.items
  tcpRoutes := l.tcpRoutes.items
  opts := acme
  now := now

def ingressBuilder (l : Listings st) (acme : BuildOpts) (now : Timestamp) : Json :=
  buildCaddyConfig (ingressInputs st l acme now)

end Observed

theorem deploymentEmail_eq {st : State} (l : st.deployments.Listing) (name : String) :
    deploymentEmail l.items name = ((st.deployments.get name).map (·.acmeEmail)).getD "" := by
  rw [deploymentEmail, Store.find?_of_perm (l.items.reverse_perm.trans l.perm)]

def address (services : String → Option ServiceMeta) (key id : String) : Option String :=
  (services key).bind (·.replicaIPs id)

theorem dials_eq (now : Timestamp) (replicas : List ReplicaObservedView) (services : String → Option ServiceMeta)
    (key : String)
    (port : Int) :
    dials now replicas services key port = (healthyByService now replicas key).filterMap (fun r =>
      (address services key r.id).map (fun ip => ip ++ ":" ++ toString port)) := by
  unfold dials address
  cases services key with
  | none => exact (filterMap_eq_nil_iff.2 (fun _ _ => rfl)).symm
  | some m => rfl

/-- The address a replica is recorded under: the last of its networks on which one is known. -/
def networkIP (st : State) (obs : ReplicaObserved) (rep : ReplicaDesired) : Option String :=
  (((Bridge.serviceNetworks st rep.deployment rep.service).map (overlayIP obs rep.deployment)).filter (· ≠ "")).getLast?

def recordedIP (st : State) (key id : String) : Option String :=
  (st.replicasObserved.get id).bind (fun obs => (st.replicasDesired.get id).bind (fun rep =>
    if metaKey rep.deployment rep.service = key then networkIP st obs rep else none))

variable (obs : ReplicaObserved) (rep : ReplicaDesired) (services : String → Option ServiceMeta)

theorem address_recordIP (network key id : String) : address (recordIP obs rep services network) key id =
      if overlayIP obs rep.deployment network ≠ "" ∧ metaKey rep.deployment rep.service = key ∧ obs.id = id then
        some (overlayIP obs rep.deployment network)
      else address services key id := by
  unfold recordIP address
  by_cases hip : overlayIP obs rep.deployment network = ""
  · simp [hip]
  · by_cases hkey : metaKey rep.deployment rep.service = key
    · by_cases hid : obs.id = id
      · simp [hip, hkey, hid]
      · have hid' : ¬ id = obs.id := fun h => hid h.symm
        cases hm : services key <;> simp [hip, hkey, hid, hid', hm]
    · have hkey' : ¬ key = metaKey rep.deployment rep.service := fun h => hkey h.symm
      simp [hip, hkey, hkey']

theorem address_networks (networks : List String) (key id : String) :
    address (networks.foldl (recordIP obs rep) services) key id =
      if metaKey rep.deployment rep.service = key ∧ obs.id = id then
        ((networks.map (overlayIP obs rep.deployment)).filter (· ≠ "")).getLast?.or (address services key id)
      else address services key id := by
  induction networks using List.reverseRecOn with
  | nil => simp
  | append_singleton networks n ih =>
    rw [foldl_append, foldl_cons, foldl_nil, address_recordIP, ih]
    by_cases hown : metaKey rep.deployment rep.service = key ∧ obs.id = id
    · by_cases hip : overlayIP obs rep.deployment n = ""
      · simp [hown, hip]
      · simp [hown, hip]
    · rw [if_neg hown, if_neg hown, if_neg (fun h => hown h.2)]

theorem address_recordObserved (st : State) (services : String → Option ServiceMeta) (obs : ReplicaObserved)
    (key id : String) :
    address (recordObserved st services obs) key id =
      if obs.id = id then
        ((st.replicasDesired.get obs.id).bind (fun rep =>
          if metaKey rep.deployment rep.service = key then networkIP st obs rep else none)).or (address services key id)
      else address services key id := by
  unfold recordObserved networkIP
  cases hrep : st.replicasDesired.get obs.id with
  | none => simp
  | some rep =>
    simp only [address_networks, Option.bind_some]
    by_cases hkey : metaKey rep.deployment rep.service = key <;> by_cases hid : obs.id = id <;> simp [hkey, hid]

theorem address_foldl (st : State) (observed : List ReplicaObserved) (hnodup : (observed.map ReplicaObserved.id).Nodup)
    (key id : String) :
    address (serviceMetas st observed) key id = (observed.find? (fun o => o.id = id)).bind (fun obs =>
      (st.replicasDesired.get id).bind (fun rep =>
        if metaKey rep.deployment rep.service = key then networkIP st obs rep else none)) := by
  rw [serviceMetas]
  induction observed using List.reverseRecOn with
  | nil => rfl
  | append_singleton l obs ih =>
    rw [map_append, map_singleton] at hnodup
    have hfresh := nodup_append'.1 hnodup
    rw [foldl_append, foldl_cons, foldl_nil, address_recordObserved, ih hfresh.1, List.find?_append]
    by_cases hid : obs.id = id
    · subst hid
      have hnone : l.find? (fun o => o.id = obs.id) = none := by
        refine List.find?_eq_none.2 (fun o ho hsame => ?_)
        exact hfresh.2.2 (mem_map_of_mem ho) (mem_singleton.2 (of_decide_eq_true hsame))
      simp [hnone]
    · simp [hid]

theorem address_serviceMetas {st : State} (l : st.replicasObserved.Listing) (key id : String) :
    address (serviceMetas st l.items) key id = recordedIP st key id := by
  rw [address_foldl st l.items ((l.perm.map _).nodup_iff.2 (Store.nodup_list _)), Store.find?_of_perm l.perm]
  rfl

end Jaco.Caddy
