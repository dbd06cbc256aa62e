import Jaco.CaddyConfig

namespace Jaco.Caddy

open Grouping TlsPolicies List

variable {d : String} {routes : List RouteView} {r : RouteView} {opts : BuildOpts}

theorem mem_domains {routes : List Route} : d ∈ domains routes ↔ ∃ r ∈ routes, r.domain = d := by
  rw [domains, sortNames, (perm_insertionSort _ _).mem_iff]
  exact mem_map_firstOn _ _ _

theorem mem_sortedRoutes {routes : List Route} {r : Route} : r ∈ sortedRoutes routes ↔ r ∈ routes := by
  rw [sortedRoutes, mem_flatMap]
  constructor
  · rintro ⟨d, -, hr⟩
    exact (mem_filter.1 hr).1
  · intro hr
    exact ⟨r.domain, mem_domains.2 ⟨r, hr, rfl⟩, mem_filter.2 ⟨hr, decide_eq_true rfl⟩⟩

def issued (routes : List RouteView) : List RouteView := firstOn (·.domain) (routes.filter (·.tlsAuto))

theorem mem_issued_domains : d ∈ (issued routes).map (·.domain) ↔ ∃ r ∈ routes, r.tlsAuto = true ∧ r.domain = d := by
  rw [issued, mem_map_firstOn]
  simp only [mem_filter, and_assoc]

theorem issued_unique {r' : RouteView} (hr : r ∈ issued routes) (hr' : r' ∈ issued routes)
    (h : r.domain = r'.domain) : r = r' :=
  inj_on_of_nodup_map (nodup_firstOn _ _) hr hr' h

def policyOf (opts : BuildOpts) (routes : List RouteView) (k : PolicyKey) : Policy :=
  ⟨(((issued routes).filter (fun r => policyKey opts r = k)).map (·.domain)).insertionSort (· ≤ ·),
    if k.staging then opts.acmeStagingCA else opts.acmeCA, k.email⟩

def policyKeys (opts : BuildOpts) (routes : List RouteView) : List PolicyKey :=
  (groupOn (policyKey opts) (·.domain) (issued routes)).map Prod.fst

theorem mem_policyKeys {k : PolicyKey} : k ∈ policyKeys opts routes ↔ ∃ r ∈ issued routes, policyKey opts r = k :=
  mem_keys_groupOn _ _ _ _

theorem buildTLSPolicies_eq (routes : List RouteView) (h : opts.acmeEnabled = true) : buildTLSPolicies routes opts =
      ((policyKeys opts routes).insertionSort (fun k k' => k.le k')).map (policyOf opts routes) := by
  have hgroups : groupOn (policyKey opts) (·.domain) (issued routes) = (policyKeys opts routes).map (fun k =>
      (k, ((issued routes).filter (fun r => policyKey opts r = k)).map (·.domain))) := groupOn_eq_map _ _ _
  rw [buildTLSPolicies, h, if_neg (by decide), ← issued, hgroups]
  dsimp only
  rw [← map_insertionSort (fun k k' : PolicyKey => k.le k' = true) _ _ _ (fun a _ b _ => Iff.rfl), map_map]
  rfl

theorem buildTLSPolicies_perm (routes : List RouteView) (h : opts.acmeEnabled = true) :
    (buildTLSPolicies routes opts).Perm ((policyKeys opts routes).map (policyOf opts routes)) := by
  rw [buildTLSPolicies_eq routes h]
  exact (perm_insertionSort _ _).map _

theorem buildTLSPolicies_disabled (routes : List RouteView) (h : opts.acmeEnabled = false) :
    buildTLSPolicies routes opts = [] := by
  rw [buildTLSPolicies, h]
  rfl

theorem mem_subjects {k : PolicyKey} :
    d ∈ (policyOf opts routes k).subjects ↔ ∃ r ∈ issued routes, policyKey opts r = k ∧ r.domain = d := by
  rw [policyOf, (perm_insertionSort _ _).mem_iff]
  simp only [mem_map, mem_filter, decide_eq_true_eq, and_assoc]

theorem nodup_subjects (opts : BuildOpts) (routes : List RouteView) (k : PolicyKey) :
    (policyOf opts routes k).subjects.Nodup := by
  rw [policyOf, (perm_insertionSort _ _).nodup_iff]
  exact (nodup_firstOn (fun r : RouteView => r.domain) (routes.filter (·.tlsAuto))).sublist (filter_sublist.map _)

theorem subject_iff (hr : r ∈ issued routes) (k : PolicyKey) :
    r.domain ∈ (policyOf opts routes k).subjects ↔ k = policyKey opts r := by
  rw [mem_subjects]
  constructor
  · rintro ⟨r', hr', rfl, hd⟩
    rw [issued_unique hr' hr hd]
  · rintro rfl
    exact ⟨r, hr, rfl, rfl⟩

theorem countP_policies (h : opts.acmeEnabled = true)
    (hr : r ∈ issued routes) : (buildTLSPolicies routes opts).countP (fun p => r.domain ∈ p.subjects) = 1 := by
  rw [(buildTLSPolicies_perm routes h).countP_eq, countP_map]
  have hnodup : (policyKeys opts routes).Nodup := nodup_groupOn _ _ _
  rw [← count_eq_one_of_mem hnodup (mem_policyKeys.2 ⟨r, hr, rfl⟩), List.count]
  refine countP_congr (fun k _ => ?_)
  rw [Function.comp_apply, decide_eq_true_eq, subject_iff hr k, beq_iff_eq]

theorem policy_of_subject {p : Policy} (h : opts.acmeEnabled = true)
    (hr : r ∈ issued routes) (hp : p ∈ buildTLSPolicies routes opts) (hd : r.domain ∈ p.subjects) :
    p = policyOf opts routes (policyKey opts r) := by
  rw [(buildTLSPolicies_perm routes h).mem_iff] at hp
  obtain ⟨k, -, rfl⟩ := mem_map.1 hp
  rw [(subject_iff hr k).1 hd]

theorem exists_subject_iff (h : opts.acmeEnabled = true) :
    (∃ p ∈ buildTLSPolicies routes opts, d ∈ p.subjects) ↔ ∃ r ∈ routes, r.tlsAuto = true ∧ r.domain = d := by
  rw [← mem_issued_domains]
  constructor
  · rintro ⟨p, hp, hd⟩
    rw [(buildTLSPolicies_perm routes h).mem_iff] at hp
    obtain ⟨k, -, rfl⟩ := mem_map.1 hp
    obtain ⟨r, hr, -, rfl⟩ := mem_subjects.1 hd
    exact mem_map_of_mem hr
  · intro hd
    obtain ⟨r, hr, rfl⟩ := mem_map.1 hd
    refine ⟨policyOf opts routes (policyKey opts r), ?_, (subject_iff hr _).2 rfl⟩
    rw [(buildTLSPolicies_perm routes h).mem_iff]
    exact mem_map_of_mem (mem_policyKeys.2 ⟨r, hr, rfl⟩)

theorem redirectDomainSet_iff {routes : List Route} : redirectDomainSet (sortedRoutes routes) opts d = true ↔
      opts.acmeEnabled = true ∧ ∃ r ∈ routes, r.tlsAuto = true ∧ r.domain = d := by
  simp only [redirectDomainSet, Bool.and_eq_true, any_eq_true, mem_sortedRoutes, decide_eq_true_eq]

theorem exists_view {routes : List Route} :
    (∃ v ∈ (sortedRoutes routes).map Route.view, v.tlsAuto = true ∧ v.domain = d) ↔
      ∃ r ∈ routes, r.tlsAuto = true ∧ r.domain = d := by
  simp only [mem_map, mem_sortedRoutes, exists_exists_and_eq_and]
  rfl

section Build

variable (i : Inputs)

@[simp] theorem policies_buildConfig :
    (buildConfig i).policies = buildTLSPolicies ((sortedRoutes i.routes).map Route.view) (defaultCA i.opts) := rfl

@[simp] theorem acmeEnabled_defaultCA (opts : BuildOpts) : (defaultCA opts).acmeEnabled = opts.acmeEnabled := by
  rw [defaultCA]
  split <;> rfl

theorem mem_http {x : SiteRoute} (hx : x ≠ .challenge) :
    x ∈ (buildConfig i).http ↔ x = .fallback ∨ ∃ d ∈ domains i.routes,
      x = if redirectDomainSet (sortedRoutes i.routes) (defaultCA i.opts) d then .redirect d else i.site d := by
  have hhttp : x ∈ (buildConfig i).http ↔ x ∈ (domains i.routes).map (fun d =>
      if redirectDomainSet (sortedRoutes i.routes) (defaultCA i.opts) d then .redirect d else i.site d) ++
        [.fallback] := by
    simp only [buildConfig]
    split
    · rfl
    · rw [mem_cons]
      exact ⟨fun h => h.resolve_left hx, .inr⟩
  rw [hhttp, mem_append, mem_singleton, mem_map, or_comm]
  simp only [eq_comm]

theorem redirect_iff {d : String} :
    .redirect d ∈ (buildConfig i).http ↔
      i.opts.acmeEnabled = true ∧ ∃ r ∈ i.routes, r.tlsAuto = true ∧ r.domain = d := by
  rw [mem_http i (x := .redirect d) nofun, ← acmeEnabled_defaultCA, ← redirectDomainSet_iff]
  constructor
  · rintro (h | ⟨d', -, h⟩)
    · cases h
    · split at h
      · cases h
        assumption
      · cases h
  · intro h
    obtain ⟨-, r, hr, -, hd⟩ := redirectDomainSet_iff.1 h
    refine .inr ⟨d, mem_domains.2 ⟨r, hr, hd⟩, ?_⟩
    rw [if_pos h]

theorem redirect_iff_subject {d : String} :
    .redirect d ∈ (buildConfig i).http ↔ ∃ p ∈ (buildConfig i).policies, d ∈ p.subjects := by
  rw [redirect_iff, policies_buildConfig]
  cases h : i.opts.acmeEnabled with
  | false =>
    rw [buildTLSPolicies_disabled _ (by simpa using h)]
    simp
  | true =>
    rw [exists_subject_iff (by simpa using h), exists_view]
    simp

end Build

end Jaco.Caddy
