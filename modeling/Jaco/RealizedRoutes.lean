import Jaco.RebuildBytes
import Jaco.UpstreamOwners

/-!
The realized view of a domain, against the configuration built from the same state: the order is Caddy's, the count of
ready replicas leaves out whether an address is known.
-/

namespace Jaco.Caddy

open Grouping TlsPolicies List

structure RealizedRoute where
  path : String
  catchAll : Bool
  deployment : String
  service : String
  port : Int
  tlsAuto : Bool
  stripPath : Bool
  readyReplicas : Int
  totalReplicas : Int
  deriving DecidableEq

def evaluatedFirst (a b : Jaco.Route) : Bool :=
  if (a.path = "") ≠ (b.path = "") then a.path ≠ ""
  else if a.path.utf8ByteSize ≠ b.path.utf8ByteSize then b.path.utf8ByteSize < a.path.utf8ByteSize
  else a.path ≤ b.path

structure RouteListings (st : State) where
  routes : st.routes.Listing
  desired : st.replicasDesired.Listing
  observed : st.replicasObserved.Listing

def isUpstreamEligible (now : Timestamp) (obs : ReplicaObserved) : Bool :=
  obs.state = .running && match obs.lastHealthAt with
    | none => false
    | some t => t ≠ zeroTime && now - t < Rollout.healthFreshness

section Readiness

variable (desired : List ReplicaDesired) (observed : List ReplicaObserved) (now : Timestamp) (key : String)

def desiredByID (id : String) : Option ReplicaDesired := desired.reverse.find? (fun rd => rd.id = id)

def underKey (obs : ReplicaObserved) : Bool :=
  (desiredByID desired obs.id).any (fun rd => metaKey rd.deployment rd.service = key)

def readyUpstreams : Int := wrap32 (observed.countP (fun obs => underKey desired key obs && isUpstreamEligible now obs))

def totalUpstreams : Int := wrap32 (observed.countP (underKey desired key))

end Readiness

def realizedRoute {st : State} (l : RouteListings st) (now : Timestamp) (r : Jaco.Route) : RealizedRoute where
  path := r.path
  catchAll := r.path = ""
  deployment := r.deployment
  service := r.service
  port := r.port
  tlsAuto := r.tlsAuto
  stripPath := r.stripPath
  readyReplicas := readyUpstreams l.desired.items l.observed.items now (metaKey r.deployment r.service)
  totalReplicas := totalUpstreams l.desired.items l.observed.items (metaKey r.deployment r.service)

def getRoute (st : State) (l : RouteListings st) (now : Timestamp) (domain : String) :
    Except Status (List RealizedRoute) :=
  if domain = "" then .error ⟨.invalidArgument, "validation_failed", "domain is required"⟩
  else
    let domainRoutes := l.routes.items.filter (fun r => r.domain = domain)
    if domainRoutes = [] then .error ⟨.notFound, "route_not_found", "no routes for domain " ++ domain⟩
    else .ok ((domainRoutes.insertionSort (fun a b => evaluatedFirst a b)).map (realizedRoute l now))

theorem evaluatedFirst_eq (st : State) (a b : Jaco.Route) :
    evaluatedFirst a b = longerFirst (configRoute st a) (configRoute st b) := by
  have hlonger : longerFirst (configRoute st a) (configRoute st b) =
      if a.path.utf8ByteSize ≠ b.path.utf8ByteSize then decide (b.path.utf8ByteSize < a.path.utf8ByteSize)
      else decide (a.path ≤ b.path) := rfl
  rw [evaluatedFirst, hlonger]
  by_cases ha : a.path = ""
  · by_cases hb : b.path = ""
    · simp [ha, hb]
    · have hpos : b.path.utf8ByteSize ≠ 0 := fun h => hb (String.utf8ByteSize_eq_zero_iff.1 h)
      simp [ha, hb, hpos.symm]
  · have hpos : a.path.utf8ByteSize ≠ 0 := fun h => ha (String.utf8ByteSize_eq_zero_iff.1 h)
    by_cases hb : b.path = ""
    · simp [ha, hb, Nat.pos_of_ne_zero hpos]
    · simp [ha, hb]

section Counts

variable (st : State) (now : Timestamp) (key : String)

def addressed (obs : ReplicaObserved) : Bool :=
  (st.replicasDesired.get obs.id).any (fun rep => (networkIP st obs rep).isSome)

def keyed (obs : ReplicaObserved) : Bool :=
  (st.replicasDesired.get obs.id).any (fun rep => metaKey rep.deployment rep.service = key)

def readyAddressed : Nat :=
  st.replicasObserved.list.countP (fun obs => keyed st key obs && isUpstreamEligible now obs && addressed st obs)
def readyUnaddressed : Nat :=
  st.replicasObserved.list.countP (fun obs => keyed st key obs && isUpstreamEligible now obs && !addressed st obs)

def unreportedAddressed : Nat :=
  st.replicasObserved.list.countP (fun obs => keyed st key obs && (obs.state = .running && obs.lastHealthAt.isNone &&
    now < Rollout.healthFreshness) && addressed st obs)

theorem underKey_eq {st : State} (l : st.replicasDesired.Listing) (key : String) :
    underKey l.items key = keyed st key := by
  funext obs
  rw [underKey, desiredByID, Store.find?_of_perm (l.items.reverse_perm.trans l.perm), keyed]

theorem readyUpstreams_eq {st : State} (l : RouteListings st) :
    readyUpstreams l.desired.items l.observed.items now key =
      wrap32 (readyUnaddressed st now key + readyAddressed st now key) := by
  have hsplit := countP_eq_countP_filter_add st.replicasObserved.list
    (fun obs => keyed st key obs && isUpstreamEligible now obs) (addressed st)
  rw [countP_filter, countP_filter] at hsplit
  rw [readyUpstreams, underKey_eq, l.observed.perm.countP_eq, hsplit, Nat.add_comm, Nat.cast_add]
  rfl

theorem isEligible_observedView (obs : ReplicaObserved) :
    isEligible now (observedView st obs) = (isUpstreamEligible now obs ||
      (obs.state = .running && obs.lastHealthAt.isNone && now < Rollout.healthFreshness)) := by
  have hrunning : (replicaStateString obs.state = "running") ↔ obs.state = .running := by
    cases obs.state <;> decide
  rw [isEligible, isUpstreamEligible, observedView]
  simp only [hrunning]
  cases hreport : obs.lastHealthAt with
  | none => by_cases hr : obs.state = .running <;> simp [hr, zeroTime]
  | some t => simp [Bool.and_assoc]

def dialled (obs : ReplicaObserved) : Bool :=
  keyed st key obs && (isUpstreamEligible now obs ||
    (obs.state = .running && obs.lastHealthAt.isNone && now < Rollout.healthFreshness)) && addressed st obs

theorem dialled_eq {st : State} {now : Timestamp} {key : String} {obs : ReplicaObserved}
    (hobs : st.replicasObserved.get obs.id = some obs) :
    ((recordedIP st key obs.id).isSome && (isEligible now (observedView st obs) &&
      metaKey (observedView st obs).deployment (observedView st obs).service = key)) = dialled st now key obs := by
  rw [dialled, recordedIP, keyed, addressed, hobs, ← isEligible_observedView st]
  cases hrep : st.replicasDesired.get obs.id with
  | none => simp
  | some rep =>
    have hdep : (observedView st obs).deployment = rep.deployment := by
      rw [observedView, replicaIDDeployment, hrep]; rfl
    have hsvc : (observedView st obs).service = rep.service := by rw [observedView, replicaIDService, hrep]; rfl
    by_cases hkey : metaKey rep.deployment rep.service = key
    · simp [hdep, hsvc, hkey, Bool.and_comm]
    · simp [hkey]

theorem upstreams_length {st : State} (l : Listings st) (acme : BuildOpts) (r : Route) :
    ((ingressInputs st l acme now).upstreams r).length =
      unreportedAddressed st now (metaKey r.deployment r.service) +
        readyAddressed st now (metaKey r.deployment r.service) := by
  have hcount : ((ingressInputs st l acme now).upstreams r).length = st.replicasObserved.list.countP
      (dialled st now (metaKey r.deployment r.service)) := by
    rw [Inputs.upstreams, buildUpstreams, dials_eq, length_filterMap_eq_countP, healthyByService,
      (perm_insertionSort _ _).countP_eq, countP_filter]
    rw [ingressInputs, countP_map, l.observed.perm.countP_eq]
    refine countP_congr (fun obs hobs => ?_)
    rw [← dialled_eq (Store.mem_list.1 hobs)]
    simp only [Function.comp_apply, Option.isSome_map, address_serviceMetas]
    rfl
  have hsplit := countP_eq_countP_filter_add st.replicasObserved.list (dialled st now (metaKey r.deployment r.service))
    (fun obs => obs.lastHealthAt.isNone)
  rw [countP_filter, countP_filter] at hsplit
  rw [hcount, hsplit]
  refine congrArg₂ (· + ·) (countP_congr (fun obs _ => ?_)) (countP_congr (fun obs _ => ?_))
  · rw [dialled, isUpstreamEligible]
    cases obs.lastHealthAt <;> simp
  · rw [dialled, isUpstreamEligible]
    cases obs.lastHealthAt <;> simp

end Counts

end Jaco.Caddy
