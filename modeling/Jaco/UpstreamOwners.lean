import Jaco.CaddyPolicies

/-!
Whose replicas a configuration dials. Replicas are found under the joined text of a deployment and a service, and a
compose document admits no slash in the name of a service.
-/

namespace Jaco.Caddy

open Grouping TlsPolicies List

theorem proxies_buildDomainRoute (up : Route → List String) (l : List Route) :
    (buildDomainRoute up l).proxies = (evaluated l).map (fun r => ⟨r, up r⟩) := by
  cases l with
  | nil => rfl
  | cons r rest =>
    cases hpaths : pathRoutes (r :: rest) with
    | nil =>
      simp only [buildDomainRoute, evaluated, hpaths, ↓reduceIte]
      rfl
    | cons p ps =>
      simp only [buildDomainRoute, evaluated, hpaths, cons_ne_nil, ↓reduceIte]
      rfl

def Config.Proxies (c : Config) (p : Proxy) : Prop :=
  ∃ d b, (SiteRoute.site d b ∈ c.https ∨ SiteRoute.site d b ∈ c.http) ∧ p ∈ b.proxies

theorem site_of_mem {i : Inputs} {d : String} {b : Block}
    (h : SiteRoute.site d b ∈ (buildConfig i).https ∨ SiteRoute.site d b ∈ (buildConfig i).http) :
    SiteRoute.site d b = i.site d := by
  rcases h with h | h
  · rcases mem_append.1 h with h | h
    · obtain ⟨d', -, hd'⟩ := mem_map.1 h
      cases hd'
      rfl
    · cases mem_singleton.1 h
  · rcases (mem_http i (x := .site d b) nofun).1 h with h | ⟨d', -, h⟩
    · cases h
    · split at h
      · cases h
      · cases h
        rfl

theorem mem_evaluated {r : Route} {l : List Route} (h : r ∈ evaluated l) : r ∈ l := by
  rw [evaluated] at h
  split at h
  · exact mem_of_mem_take h
  · rcases mem_append.1 h with h | h
    · exact (mem_filter.1 ((perm_insertionSort _ _).mem_iff.1 h)).1
    · exact (mem_filter.1 (mem_of_getLast? (Option.mem_toList.1 h))).1

theorem mem_of_proxies {i : Inputs} {p : Proxy} (h : (buildConfig i).Proxies p) :
    ∃ r ∈ i.routes, p = ⟨r, i.upstreams r⟩ := by
  obtain ⟨d, b, hb, hp⟩ := h
  cases site_of_mem hb
  rw [proxies_buildDomainRoute] at hp
  obtain ⟨r, hr, rfl⟩ := mem_map.1 hp
  exact ⟨r, (mem_filter.1 (mem_evaluated hr)).1, rfl⟩

theorem mem_of_layer4 {up : TCPRoute → List String} {tcpRoutes : List TCPRoute} {s : Layer4Server}
    (h : s ∈ buildLayer4Servers up tcpRoutes) : ∃ tr ∈ tcpRoutes, s = ⟨tr, up tr⟩ := by
  suffices hfold : ∀ (servers : List Layer4Server) (l : List TCPRoute), s ∈ l.foldl (fun servers tr =>
      if up tr = [] then servers else setServer servers ⟨tr, up tr⟩) servers →
      s ∈ servers ∨ ∃ tr ∈ l, s = ⟨tr, up tr⟩ by
    obtain ⟨tr, htr, hs⟩ := (hfold [] _ h).resolve_left not_mem_nil
    exact ⟨tr, (perm_insertionSort _ _).mem_iff.1 htr, hs⟩
  intro servers l
  induction l generalizing servers with
  | nil => exact fun h => .inl h
  | cons x l ih =>
    intro h
    rcases ih _ h with h | ⟨tr, htr, hs⟩
    · dsimp only at h
      split at h
      · exact .inl h
      · rcases mem_append.1 h with h | h
        · exact .inl (mem_filter.1 h).1
        · exact .inr ⟨x, mem_cons_self, mem_singleton.1 h⟩
    · exact .inr ⟨tr, mem_cons_of_mem x htr, hs⟩

theorem metaKey_inj {d s D S : String} (hs : '/' ∉ s.toList) (hS : '/' ∉ S.toList) (h : metaKey d s = metaKey D S) :
    d = D ∧ s = S := by
  have hl : d.toList ++ '/' :: s.toList = D.toList ++ '/' :: S.toList := by
    simpa [metaKey] using congrArg String.toList h
  have hlast := congrArg (GoStrings.beforeLast '/') hl
  rw [GoStrings.beforeLast_append _ _ _ hs, GoStrings.beforeLast_append _ _ _ hS, Option.some.injEq] at hlast
  rw [hlast, append_cancel_left_eq, cons.injEq] at hl
  exact ⟨String.toList_inj.1 hlast, String.toList_inj.1 hl.2⟩

section Owners

variable (i : Inputs) (deployment service : String)

def Inputs.Holds (ip : String) : Prop :=
  ∃ r ∈ i.replicas, r.deployment = deployment ∧ r.service = service ∧ r.state = "running" ∧
    i.now - r.lastHealthAt < Rollout.healthFreshness ∧
      ∃ m ∈ i.services (metaKey deployment service), m.replicaIPs r.id = some ip

/-- What compose-go asks of the keys of a document's services: they hold no slash. -/
structure Inputs.PlainServices : Prop where
  routes : ∀ r ∈ i.routes, '/' ∉ r.service.toList
  tcpRoutes : ∀ tr ∈ i.tcpRoutes, '/' ∉ tr.service.toList
  replicas : ∀ r ∈ i.replicas, '/' ∉ r.service.toList

variable {i deployment service}

theorem dials_held (hplain : i.PlainServices) (hservice : '/' ∉ service.toList) {port : Int} {u : String}
    (hu : u ∈ dials i.now i.replicas i.services (metaKey deployment service) port) :
    ∃ ip, u = ip ++ ":" ++ toString port ∧ i.Holds deployment service ip := by
  rw [dials] at hu
  split at hu
  · cases hu
  · rename_i m hm
    simp only [mem_filterMap, healthyByService, (perm_insertionSort _ _).mem_iff, mem_filter, Bool.and_eq_true,
      decide_eq_true_eq, Option.map_eq_some_iff, isEligible] at hu
    obtain ⟨r, ⟨hr, ⟨⟨hrunning, -⟩, hfresh⟩, hkey⟩, ip, hip, rfl⟩ := hu
    obtain ⟨hd, hs⟩ := metaKey_inj (hplain.replicas r hr) hservice hkey
    exact ⟨ip, rfl, r, hr, hd, hs, hrunning, hfresh, m, hm, hip⟩

end Owners

structure Sound (i : Inputs) (c : Config) : Prop where
  issued : i.opts.acmeEnabled = true → ∀ r ∈ i.routes, r.tlsAuto = true →
    c.policies.countP (fun p => r.domain ∈ p.subjects) = 1 ∧
      ∀ p ∈ c.policies, r.domain ∈ p.subjects → p.subjects.count r.domain = 1 ∧
        p.ca = if i.opts.stagingDomains r.domain = true ∧ i.opts.acmeStagingCA ≠ "" then i.opts.acmeStagingCA
          else (defaultCA i.opts).acmeCA
  redirected : ∀ d, SiteRoute.redirect d ∈ c.http ↔ ∃ p ∈ c.policies, d ∈ p.subjects
  disabled : i.opts.acmeEnabled = false → c.policies = [] ∧ ∀ d, SiteRoute.redirect d ∉ c.http
  http : ∀ p, c.Proxies p → ∀ u ∈ p.upstreams, ∃ ip, u = ip ++ ":" ++ toString p.route.port ∧
    i.Holds p.route.deployment p.route.service ip
  tcp : ∀ s ∈ c.layer4, ∀ u ∈ s.upstreams, ∃ ip, u = ip ++ ":" ++ toString s.route.containerPort ∧
    i.Holds s.route.deployment s.route.service ip

theorem staging_defaultCA (opts : BuildOpts) (v : RouteView) :
    (policyKey (defaultCA opts) v).staging =
      decide (opts.stagingDomains v.domain = true ∧ opts.acmeStagingCA ≠ "") := by
  rw [defaultCA]
  split <;> simp [policyKey]

theorem acmeStagingCA_defaultCA (opts : BuildOpts) : (defaultCA opts).acmeStagingCA = opts.acmeStagingCA := by
  rw [defaultCA]
  split <;> rfl

theorem policies_issued (i : Inputs) (h : i.opts.acmeEnabled = true) {r : Route} (hr : r ∈ i.routes)
    (hauto : r.tlsAuto = true) :
    (buildConfig i).policies.countP (fun p => r.domain ∈ p.subjects) = 1 ∧
      ∀ p ∈ (buildConfig i).policies, r.domain ∈ p.subjects → p.subjects.count r.domain = 1 ∧
        p.ca = if i.opts.stagingDomains r.domain = true ∧ i.opts.acmeStagingCA ≠ "" then i.opts.acmeStagingCA
          else (defaultCA i.opts).acmeCA := by
  have henabled : (defaultCA i.opts).acmeEnabled = true := (acmeEnabled_defaultCA i.opts).trans h
  obtain ⟨v, hv, hd⟩ := mem_map.1 (mem_issued_domains.2 (exists_view.2 ⟨r, hr, hauto, rfl⟩))
  rw [← hd]
  refine ⟨countP_policies henabled hv, fun p hp hsubject => ?_⟩
  rw [policy_of_subject henabled hv hp hsubject]
  refine ⟨count_eq_one_of_mem (nodup_subjects _ _ _) ((subject_iff hv _).2 rfl), ?_⟩
  rw [policyOf, staging_defaultCA, acmeStagingCA_defaultCA]
  simp only [decide_eq_true_eq]

namespace Neighbours

def inputs : Inputs where
  routes := [⟨⟨"shop.example.com", "shop", "web", 80, true, "", false⟩, ""⟩]
  tcpRoutes := []
  replicas := [⟨"shop-web-0", "shop", "web", "running", 95 * 10 ^ 9⟩,
    ⟨"shop/api-web-0", "shop/api", "web", "running", 95 * 10 ^ 9⟩]
  services key := if key = "shop/web" then
      some ⟨"shop", "web", fun id => if id = "shop-web-0" then some "10.244.5.2" else none⟩ else none
  opts := { acmeCA := "" }
  now := 100 * 10 ^ 9

end Neighbours

end Jaco.Caddy
