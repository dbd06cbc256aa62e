import Jaco.CertKeys
import Jaco.Grouping
import Jaco.SharedCluster

namespace Jaco.TlsPolicies

open Grouping CertKeys List

structure RouteView where
  domain : String
  tlsAuto : Bool
  acmeEmail : String

structure BuildOpts where
  acmeEmail : String := ""
  acmeCA : String
  acmeEnabled : Bool := true
  acmeStagingCA : String := ""
  stagingDomains : String → Bool := fun _ => false

structure Policy where
  subjects : List String
  ca : String
  email : String

structure PolicyKey where
  staging : Bool
  email : String
  deriving DecidableEq

def PolicyKey.le (k k' : PolicyKey) : Bool :=
  if k.staging ≠ k'.staging then k.staging else k.email ≤ k'.email

def policyKey (opts : BuildOpts) (r : RouteView) : PolicyKey where
  staging := opts.stagingDomains r.domain && opts.acmeStagingCA ≠ ""
  email := if r.acmeEmail = "" then opts.acmeEmail else r.acmeEmail

def buildTLSPolicies (routes : List RouteView) (opts : BuildOpts) : List Policy :=
  if !opts.acmeEnabled then []
  else
    let groups := groupOn (policyKey opts) (·.domain) (firstOn (·.domain) (routes.filter (·.tlsAuto)))
    (groups.insertionSort (fun g g' => g.1.le g'.1)).map (fun g =>
      ⟨g.2.insertionSort (· ≤ ·), if g.1.staging then opts.acmeStagingCA else opts.acmeCA, g.1.email⟩)

def Under (ca domain : String) (policies : List Policy) : Prop := ∃ p ∈ policies, domain ∈ p.subjects ∧ p.ca = ca

instance (ca domain : String) (policies : List Policy) : Decidable (Under ca domain policies) :=
  inferInstanceAs (Decidable (∃ p ∈ policies, domain ∈ p.subjects ∧ p.ca = ca))

theorem under_prod {routes : List RouteView} {opts : BuildOpts} {d : String} (hcas : opts.acmeStagingCA ≠ opts.acmeCA)
    (h : Under opts.acmeCA d (buildTLSPolicies routes opts)) :
    (∃ r ∈ routes, r.tlsAuto = true ∧ r.domain = d) ∧ ¬ (opts.stagingDomains d = true ∧ opts.acmeStagingCA ≠ "") := by
  obtain ⟨p, hp, hd, hca⟩ := h
  rw [buildTLSPolicies] at hp
  split at hp
  · cases hp
  · obtain ⟨⟨k, domains⟩, hg, rfl⟩ := mem_map.1 hp
    rw [(perm_insertionSort _ _).mem_iff] at hg
    rw [(perm_insertionSort _ _).mem_iff] at hd
    obtain ⟨r, hr, rfl, rfl⟩ := (mem_groupOn _ _ _ _ _).1 ⟨domains, hg, hd⟩
    obtain ⟨hr, hauto⟩ := mem_filter.1 (mem_of_mem_firstOn hr)
    refine ⟨⟨r, hr, hauto, rfl⟩, fun hstaging => hcas ?_⟩
    have hkey : (policyKey opts r).staging = true := by
      rw [policyKey, Bool.and_eq_true, decide_eq_true_eq]
      exact hstaging
    rw [if_pos hkey] at hca
    exact hca

section State

variable (w : World)

def tlsAutoDomains : List String :=
  (firstOn Route.domain ((w.listing w.state.routes).filter (·.tlsAuto))).map Route.domain

def stagingDomainsFromState : List String :=
  let blobs := w.listing w.state.certBlobs
  (tlsAutoDomains w).filter (fun d => !prodCertIssued blobs d && (loadStagingChain blobs d).isSome)

def stagingDomainsForBuilder (staging : Finset String) (d : String) : Bool :=
  d ∈ stagingDomainsFromState w || (w.leader && d ∈ staging)

def routeViews : List RouteView :=
  (w.listing w.state.routes).map (fun r =>
    ⟨r.domain, r.tlsAuto, ((w.state.deployments.get r.deployment).map (·.acmeEmail)).getD ""⟩)

theorem mem_tlsAutoDomains (d : String) :
    d ∈ tlsAutoDomains w ↔ ∃ r ∈ routeViews w, r.tlsAuto = true ∧ r.domain = d := by
  rw [tlsAutoDomains, mem_map_firstOn]
  constructor
  · rintro ⟨r, hr, rfl⟩
    obtain ⟨hr, hauto⟩ := mem_filter.1 hr
    exact ⟨_, mem_map_of_mem hr, hauto, rfl⟩
  · rintro ⟨v, hv, hauto, rfl⟩
    obtain ⟨r, hr, rfl⟩ := mem_map.1 hv
    exact ⟨r, mem_filter.2 ⟨hr, hauto⟩, rfl⟩

end State

end Jaco.TlsPolicies
