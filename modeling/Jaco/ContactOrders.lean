import Jaco.ConfigOrders

namespace Jaco.Caddy

open Grouping TlsPolicies List

theorem policyKey_le_iff {k k' : PolicyKey} :
    k.le k' = true ↔ k.staging = true ∧ k'.staging = false ∨ k.staging = k'.staging ∧ k.email ≤ k'.email := by
  rw [PolicyKey.le]
  cases hk : k.staging <;> cases hk' : k'.staging <;> simp

instance : Std.Total (fun k k' : PolicyKey => k.le k' = true) where
  total k k' := by
    rw [policyKey_le_iff, policyKey_le_iff]
    cases k.staging <;> cases k'.staging <;> simp [String.le_total]

instance : IsTrans PolicyKey (fun k k' => k.le k' = true) where
  trans k k' k'' h h' := by
    rw [policyKey_le_iff] at h h' ⊢
    rcases h with ⟨hk, hk'⟩ | ⟨hk, hle⟩
    · rcases h' with ⟨hk1, -⟩ | ⟨hk1, -⟩
      · rw [hk'] at hk1
        cases hk1
      · exact .inl ⟨hk, hk1 ▸ hk'⟩
    · rcases h' with ⟨hk1, hk2⟩ | ⟨hk1, hle'⟩
      · exact .inl ⟨hk.trans hk1, hk2⟩
      · exact .inr ⟨hk.trans hk1, hle.trans hle'⟩

theorem policyKey_antisymm {k k' : PolicyKey} (h : k.le k' = true) (h' : k'.le k = true) : k = k' := by
  rw [policyKey_le_iff] at h h'
  obtain ⟨staging, email⟩ := k
  obtain ⟨staging', email'⟩ := k'
  rcases h with ⟨hk, hk'⟩ | ⟨hk, hle⟩ <;> rcases h' with ⟨hk1, hk2⟩ | ⟨hk1, hle'⟩
  · cases hk.symm.trans hk2
  · cases hk.symm.trans (hk1.symm.trans hk')
  · cases hk1.symm.trans (hk.symm.trans hk2)
  · cases hk
    cases hle.antisymm hle'
    rfl

theorem buildTLSPolicies_congr {opts : BuildOpts} {routes routes' : List RouteView}
    (h : ∀ d k, (∃ r ∈ issued routes, policyKey opts r = k ∧ r.domain = d) ↔
      ∃ r ∈ issued routes', policyKey opts r = k ∧ r.domain = d) :
    buildTLSPolicies routes opts = buildTLSPolicies routes' opts := by
  cases henabled : opts.acmeEnabled with
  | false => rw [buildTLSPolicies_disabled _ henabled, buildTLSPolicies_disabled _ henabled]
  | true =>
    have hkeys : (policyKeys opts routes).Perm (policyKeys opts routes') := by
      refine (perm_ext_iff_of_nodup (nodup_groupOn _ _ _) (nodup_groupOn _ _ _)).2 (fun k => ?_)
      rw [mem_keys_groupOn, mem_keys_groupOn]
      constructor
      · rintro ⟨r, hr, hk⟩
        obtain ⟨r', hr', hk', -⟩ := (h r.domain k).1 ⟨r, hr, hk, rfl⟩
        exact ⟨r', hr', hk'⟩
      · rintro ⟨r, hr, hk⟩
        obtain ⟨r', hr', hk', -⟩ := (h r.domain k).2 ⟨r, hr, hk, rfl⟩
        exact ⟨r', hr', hk'⟩
    have hsubjects (k : PolicyKey) : (policyOf opts routes k).subjects = (policyOf opts routes' k).subjects := by
      have hperm : (policyOf opts routes k).subjects.Perm (policyOf opts routes' k).subjects := by
        refine (perm_ext_iff_of_nodup (nodup_subjects _ _ _) (nodup_subjects _ _ _)).2 (fun d => ?_)
        rw [mem_subjects, mem_subjects]
        exact h d k
      exact hperm.eq_of_sortedLE sortedLE_insertionSort sortedLE_insertionSort
    have hpolicies (k : PolicyKey) : policyOf opts routes k = policyOf opts routes' k :=
      congrArg (fun subjects => (⟨subjects, _, _⟩ : Policy)) (hsubjects k)
    rw [buildTLSPolicies_eq _ henabled, buildTLSPolicies_eq _ henabled,
      insertionSort_perm hkeys (fun a _ b _ => policyKey_antisymm)]
    exact map_congr_left (fun k _ => hpolicies k)

theorem mem_issued {routes : List RouteView} {v : RouteView} :
    v ∈ issued routes ↔ routes.find? (fun x => x.tlsAuto && x.domain = v.domain) = some v := by
  rw [issued, mem_firstOn_iff, List.find?_filter]
  simp only [Bool.decide_and, Bool.decide_eq_true]

theorem findSome?_of_only {α β : Type} {f : α → Option β} {l : List α} {a : α} (honly : ∀ x ∈ l, x ≠ a → f x = none)
    (hout : a ∉ l → f a = none) : l.findSome? f = f a := by
  induction l with
  | nil => exact (hout not_mem_nil).symm
  | cons x rest ih =>
    rw [List.findSome?_cons]
    by_cases hx : x = a
    · subst hx
      cases hf : f x with
      | some b => rfl
      | none =>
        refine List.findSome?_eq_none_iff.2 (fun y hy => ?_)
        by_cases hyx : y = x
        · rw [hyx, hf]
        · exact honly y (mem_cons_of_mem x hy) hyx
    · rw [honly x mem_cons_self hx]
      refine ih (fun y hy => honly y (mem_cons_of_mem x hy)) (fun hrest => hout (fun hmem => ?_))
      exact hrest ((mem_cons.1 hmem).resolve_left (fun h => hx h.symm))

def autoOf (d : String) (r : Route) : Bool := r.tlsAuto && r.domain = d

theorem find_sortedRoutes (routes : List Route) (d : String) :
    (sortedRoutes routes).find? (autoOf d) = routes.find? (autoOf d) := by
  have hdomain : (domainMap routes d).find? (autoOf d) = routes.find? (autoOf d) := by
    rw [domainMap, List.find?_filter]
    congr 1
    funext r
    by_cases h : r.domain = d <;> simp [autoOf, h]
  have hother (d' : String) (hd' : d' ≠ d) : (domainMap routes d').find? (autoOf d) = none := by
    refine List.find?_eq_none.2 (fun r hr hauto => hd' ?_)
    have hsame : r.domain = d' := of_decide_eq_true (mem_filter.1 hr).2
    rw [autoOf, Bool.and_eq_true, decide_eq_true_eq] at hauto
    exact hsame.symm.trans hauto.2
  rw [sortedRoutes, List.find?_flatMap, findSome?_of_only (fun d' _ => hother d') (fun hd => ?_), hdomain]
  refine List.find?_eq_none.2 (fun r hr hauto => hd ?_)
  rw [autoOf, Bool.and_eq_true, decide_eq_true_eq] at hauto
  exact mem_domains.2 ⟨r, (mem_filter.1 hr).1, hauto.2⟩

theorem mem_issued_views {routes : List Route} {v : RouteView} :
    v ∈ issued ((sortedRoutes routes).map Route.view) ↔ ∃ r, routes.find? (autoOf v.domain) = some r ∧ r.view = v := by
  rw [mem_issued, List.find?_map, Option.map_eq_some_iff, ← find_sortedRoutes]
  rfl

structure Reordered (i i' : Inputs) : Prop where
  routes : i.routes.Perm i'.routes
  tcpRoutes : i.tcpRoutes.Perm i'.tcpRoutes
  replicas : i.replicas.Perm i'.replicas
  addresses : ∀ key id, address i.services key id = address i'.services key id
  opts : i.opts = i'.opts
  now : i.now = i'.now

structure Keyed (i : Inputs) : Prop where
  nodup : i.routes.Nodup
  paths : ∀ r ∈ i.routes, ∀ r' ∈ i.routes, r.domain = r'.domain → r.path = r'.path → r = r'
  ports : ∀ r ∈ i.tcpRoutes, ∀ r' ∈ i.tcpRoutes, r.publishedPort = r'.publishedPort → r = r'
  ids : ∀ r ∈ i.replicas, ∀ r' ∈ i.replicas, r.id = r'.id → r = r'

def Agreed (i : Inputs) : Prop :=
  i.opts.acmeEnabled = true → ∀ r ∈ i.routes, ∀ r' ∈ i.routes, r.tlsAuto = true → r'.tlsAuto = true →
    r.domain = r'.domain →
    policyKey (defaultCA i.opts) r.view = policyKey (defaultCA i.opts) r'.view

section Reordering

variable {i i' : Inputs}

theorem dials_reordered (h : Reordered i i') (hkeyed : Keyed i) (key : String) (port : Int) :
    dials i.now i.replicas i.services key port = dials i'.now i'.replicas i'.services key port := by
  rw [dials_eq, dials_eq, healthyByService_perm i.now h.replicas hkeyed.ids, h.now]
  simp only [h.addresses]

theorem site_reordered (h : Reordered i i') (hkeyed : Keyed i) (d : String) : i.site d = i'.site d := by
  have hup : i.upstreams = i'.upstreams := funext (fun r => dials_reordered h hkeyed _ r.port)
  have hperm : (domainMap i.routes d).Perm (domainMap i'.routes d) := h.routes.filter _
  rw [Inputs.site, Inputs.site, hup, buildDomainRoute_perm _ hperm (hkeyed.nodup.filter _) (fun a ha b hb hpath => ?_)]
  obtain ⟨ha, had⟩ := mem_filter.1 ha
  obtain ⟨hb, hbd⟩ := mem_filter.1 hb
  exact hkeyed.paths a ha b hb ((of_decide_eq_true had).trans (of_decide_eq_true hbd).symm) hpath

theorem redirect_reordered (h : Reordered i i') (opts : BuildOpts) (d : String) :
    redirectDomainSet (sortedRoutes i.routes) opts d = redirectDomainSet (sortedRoutes i'.routes) opts d := by
  rw [Bool.eq_iff_iff, redirectDomainSet_iff, redirectDomainSet_iff]
  simp only [h.routes.mem_iff]

theorem issued_reordered {routes routes' : List Route} {opts : BuildOpts} (h : routes.Perm routes')
    (hagreed : ∀ r ∈ routes, ∀ r' ∈ routes, r.tlsAuto = true → r'.tlsAuto = true → r.domain = r'.domain →
      policyKey opts r.view = policyKey opts r'.view) {d : String} {k : PolicyKey}
    (hissued : ∃ v ∈ issued ((sortedRoutes routes).map Route.view), policyKey opts v = k ∧ v.domain = d) :
    ∃ v ∈ issued ((sortedRoutes routes').map Route.view), policyKey opts v = k ∧ v.domain = d := by
  obtain ⟨v, hv, rfl, rfl⟩ := hissued
  obtain ⟨r, hfind, rfl⟩ := mem_issued_views.1 hv
  have hr := mem_of_find?_eq_some hfind
  have hauto := List.find?_some hfind
  obtain ⟨r', hfind'⟩ : ∃ r', routes'.find? (autoOf r.view.domain) = some r' :=
    Option.isSome_iff_exists.1 (List.find?_isSome.2 ⟨r, h.mem_iff.1 hr, hauto⟩)
  have hauto' := List.find?_some hfind'
  simp only [autoOf, Bool.and_eq_true, decide_eq_true_eq] at hauto hauto'
  refine ⟨r'.view, mem_issued_views.2 ⟨r', ?_, rfl⟩, ?_, hauto'.2⟩
  · rw [← hfind']
    exact congrArg (fun d => routes'.find? (autoOf d)) hauto'.2
  · exact (hagreed r hr r' (h.mem_iff.2 (mem_of_find?_eq_some hfind')) hauto.1 hauto'.1 hauto'.2.symm).symm

theorem policies_reordered (h : Reordered i i') (hagreed : Agreed i) :
    (buildConfig i).policies = (buildConfig i').policies := by
  rw [policies_buildConfig, policies_buildConfig, ← h.opts]
  cases henabled : i.opts.acmeEnabled with
  | false =>
    have hoff := (acmeEnabled_defaultCA i.opts).trans henabled
    rw [buildTLSPolicies_disabled _ hoff, buildTLSPolicies_disabled _ hoff]
  | true =>
    have hall := hagreed henabled
    refine buildTLSPolicies_congr (fun d k => ⟨issued_reordered h.routes hall, issued_reordered h.routes.symm ?_⟩)
    intro r hr r' hr'
    exact hall r (h.routes.mem_iff.2 hr) r' (h.routes.mem_iff.2 hr')

theorem buildConfig_reordered (h : Reordered i i') (hkeyed : Keyed i) (hagreed : Agreed i) :
    buildConfig i = buildConfig i' := by
  have hpolicies := policies_reordered h hagreed
  have hsites : i.site = i'.site := funext (site_reordered h hkeyed)
  have htcp : i.tcpUpstreams = i'.tcpUpstreams := funext (fun tr => dials_reordered h hkeyed _ tr.containerPort)
  have hredirect (opts : BuildOpts) : redirectDomainSet (sortedRoutes i.routes) opts =
      redirectDomainSet (sortedRoutes i'.routes) opts :=
    funext (redirect_reordered h opts)
  rw [policies_buildConfig, policies_buildConfig, h.opts] at hpolicies
  simp only [buildConfig, hpolicies, hsites, htcp, domains_perm h.routes, hredirect, h.opts, buildLayer4Servers,
    byPort_perm h.tcpRoutes hkeyed.ports]

end Reordering

end Jaco.Caddy
