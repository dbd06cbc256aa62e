import Jaco.RealizedRoutes

namespace Jaco.Caddy

open Grouping TlsPolicies List Store

section Agreement

variable {st : State}

def served (items : List Jaco.Route) (domain : String) : List Jaco.Route :=
  (items.filter (fun r => r.domain = domain)).insertionSort (fun a b => evaluatedFirst a b)

theorem mem_served (l : st.routes.Listing) {domain : String} {r : Jaco.Route} :
    r ∈ served l.items domain ↔ st.routes.get r.key = some r ∧ r.domain = domain := by
  rw [served, (perm_insertionSort _ _).mem_iff, mem_filter, l.mem_items, decide_eq_true_eq]

variable (l : Listings st) (acme : BuildOpts) (now : Timestamp) (domain : String)

theorem domainMap_ingressInputs : domainMap (ingressInputs st l acme now).routes domain =
      (l.routes.items.filter (fun r => r.domain = domain)).map (configRoute st) := by
  rw [domainMap, routes_ingressInputs, filter_map]
  rfl

theorem proxies_ingressInputs (up : Route → List String) :
    (buildDomainRoute up (domainMap (ingressInputs st l acme now).routes domain)).proxies =
      (served l.routes.items domain).map (fun r => ⟨configRoute st r, up (configRoute st r)⟩) := by
  have hkeyed := keyed_ingressInputs acme now l
  have hevaluated := evaluated_eq_insertionSort (l := domainMap (ingressInputs st l acme now).routes domain)
    (hkeyed.nodup.filter _) (fun a ha b hb hpath => ?_)
  · rw [domainMap_ingressInputs, ← map_insertionSort (fun a b => evaluatedFirst a b = true) _ _ _
      (fun a _ b _ => by rw [evaluatedFirst_eq st])] at hevaluated
    rw [proxies_buildDomainRoute, domainMap_ingressInputs, hevaluated, map_map]
    rfl
  · obtain ⟨ha, had⟩ := mem_filter.1 ha
    obtain ⟨hb, hbd⟩ := mem_filter.1 hb
    exact hkeyed.paths a ha b hb ((of_decide_eq_true had).trans (of_decide_eq_true hbd).symm) hpath

theorem served_perm (l l' : st.routes.Listing) (domain : String) : served l.items domain = served l'.items domain := by
  have : Std.Total (fun a b : Jaco.Route => evaluatedFirst a b = true) :=
    ⟨fun a b => by
      rw [evaluatedFirst_eq st, evaluatedFirst_eq st]
      exact Std.Total.total (r := fun a b => longerFirst a b = true) _ _⟩
  have : IsTrans Jaco.Route (fun a b => evaluatedFirst a b = true) := ⟨fun a b c => by
      rw [evaluatedFirst_eq st, evaluatedFirst_eq st, evaluatedFirst_eq st]
      exact IsTrans.trans (r := fun a b => longerFirst a b = true) _ _ _⟩
  refine insertionSort_perm ((l.perm.trans l'.perm.symm).filter _) (fun a ha b hb hab hba => ?_)
  rw [evaluatedFirst_eq st] at hab hba
  obtain ⟨ha, had⟩ := mem_filter.1 ha
  obtain ⟨hb, hbd⟩ := mem_filter.1 hb
  have hpath : a.path = b.path := path_of_longerFirst hab hba
  have hdomain : a.domain = b.domain := (of_decide_eq_true had).trans (of_decide_eq_true hbd).symm
  exact item_of_key l ha hb (by rw [Route.key, Route.key, hdomain, hpath])

structure Realizes (e : RealizedRoute) (p : Proxy) : Prop where
  path : e.path = p.route.path
  catchAll : e.catchAll = decide (p.route.path = "")
  deployment : e.deployment = p.route.deployment
  service : e.service = p.route.service
  port : e.port = p.route.port
  tlsAuto : e.tlsAuto = p.route.tlsAuto
  stripPath : e.stripPath = p.route.stripPath
  ready : e.readyReplicas = p.upstreams.length

theorem wrap32_add_eq_iff (a b c : Nat) :
    wrap32 ((a : Int) + c) = ((b + c : Nat) : Int) ↔ a % 2 ^ 32 = b % 2 ^ 32 ∧ b + c < 2 ^ 31 := by
  simp only [wrap32, Int.bmod]
  constructor
  · intro h
    split at h <;> omega
  · intro h
    split <;> omega

def CountsAgree (st : State) (now : Timestamp) (key : String) : Prop :=
  readyUnaddressed st now key % 2 ^ 32 = unreportedAddressed st now key % 2 ^ 32 ∧
    unreportedAddressed st now key + readyAddressed st now key < 2 ^ 31

theorem realizes_iff (g : RouteListings st) (l : Listings st) (acme : BuildOpts) (now : Timestamp) (r : Jaco.Route) :
    Realizes (realizedRoute g now r) ⟨configRoute st r, (ingressInputs st l acme now).upstreams (configRoute st r)⟩ ↔
      CountsAgree st now (metaKey r.deployment r.service) := by
  have hready : (realizedRoute g now r).readyReplicas =
      ((ingressInputs st l acme now).upstreams (configRoute st r)).length ↔
      CountsAgree st now (metaKey r.deployment r.service) := by
    have hkey : metaKey (configRoute st r).deployment (configRoute st r).service = metaKey r.deployment r.service := rfl
    rw [realizedRoute, readyUpstreams_eq, upstreams_length, hkey, wrap32_add_eq_iff, CountsAgree]
  rw [← hready]
  exact ⟨Realizes.ready, fun h => ⟨rfl, rfl, rfl, rfl, rfl, rfl, rfl, h⟩⟩

theorem getRoute_ok_iff (g : RouteListings st) (now : Timestamp) (domain : String) {entries : List RealizedRoute} :
    getRoute st g now domain = .ok entries ↔
      domain ≠ "" ∧ served g.routes.items domain ≠ [] ∧
        entries = (served g.routes.items domain).map (realizedRoute g now) := by
  have hnil : served g.routes.items domain = [] ↔ g.routes.items.filter (fun r => r.domain = domain) = [] := by
    rw [served, ← length_eq_zero_iff, length_insertionSort, length_eq_zero_iff]
  rw [getRoute, ne_eq, ne_eq, hnil]
  dsimp only
  split
  · simp [*]
  · split
    · simp [*]
    · rw [Except.ok.injEq, eq_comm]
      exact ⟨fun h => ⟨‹_›, ‹_›, h⟩, fun h => h.2.2⟩

theorem forall₂_map_same {α β γ : Type} {R : β → γ → Prop} {f : α → β} {h : α → γ} {l : List α} :
    List.Forall₂ R (l.map f) (l.map h) ↔ ∀ x ∈ l, R (f x) (h x) := by
  rw [forall₂_map_left_iff, forall₂_map_right_iff, forall₂_same]

theorem realized_routes_iff (st : State) (g : RouteListings st) (l : Listings st) (acme : BuildOpts) (now : Timestamp)
    (domain : String) (hroutes : ∃ r : Jaco.Route, st.routes.get r.key = some r ∧ r.domain = domain) :
    (∃ entries b, getRoute st g now domain = .ok entries ∧
      SiteRoute.site domain b ∈ (buildConfig (ingressInputs st l acme now)).https ∧
      List.Forall₂ Realizes entries b.proxies) ↔
    domain ≠ "" ∧ ∀ r : Jaco.Route, st.routes.get r.key = some r → r.domain = domain →
      CountsAgree st now (metaKey r.deployment r.service) := by
  have hserved : served l.routes.items domain = served g.routes.items domain := served_perm l.routes g.routes domain
  have hsite : SiteRoute.site domain (buildDomainRoute (ingressInputs st l acme now).upstreams
      (domainMap (ingressInputs st l acme now).routes domain)) ∈ (buildConfig (ingressInputs st l acme now)).https := by
    obtain ⟨r, hr, hd⟩ := hroutes
    refine mem_append_left _ (mem_map.2 ⟨domain, mem_domains.2 ⟨configRoute st r, ?_, hd⟩, rfl⟩)
    exact (mem_ingressRoutes acme now).2 ⟨r, (l.routes.mem_items r).2 hr, rfl⟩
  constructor
  · rintro ⟨entries, b, hget, hb, hall⟩
    obtain ⟨hdomain, -, rfl⟩ := (getRoute_ok_iff g now domain).1 hget
    cases site_of_mem (.inl hb)
    rw [proxies_ingressInputs, hserved, forall₂_map_same] at hall
    refine ⟨hdomain, fun r hr hd => ?_⟩
    exact (realizes_iff g l acme now r).1 (hall r ((mem_served g.routes).2 ⟨hr, hd⟩))
  · rintro ⟨hdomain, hcounts⟩
    refine ⟨_, _, (getRoute_ok_iff g now domain).2 ⟨hdomain, ?_, rfl⟩, hsite, ?_⟩
    · obtain ⟨r, hr, hd⟩ := hroutes
      exact ne_nil_of_mem ((mem_served g.routes).2 ⟨hr, hd⟩)
    · rw [proxies_ingressInputs, hserved, forall₂_map_same]
      intro r hr
      obtain ⟨hr, hd⟩ := (mem_served g.routes).1 hr
      exact (realizes_iff g l acme now r).2 (hcounts r hr hd)

end Agreement

namespace Realized

def shop : Deployment := { TwoStacks.deployment "shop" "" with services := [⟨"web", 1, .spread, [], ["frontend"]⟩] }

def web : Jaco.Route := ⟨"example.com", "shop", "web", 80, false, "", false⟩

def state (details : StringMap) : State := { State.new with
  deployments := empty.apply shop
  routes := empty.apply web
  replicasDesired := empty.apply {
    id := "shop-web-0", deployment := "shop", service := "web", host := "a", image := "web:1" }
  replicasObserved := empty.apply
    { id := "shop-web-0", state := .running, details := details, lastHealthAt := some (99 * 10 ^ 9) } }

def calls (details : StringMap) : RouteListings (state details) := ⟨listing _, listing _, listing _⟩

def rebuild (details : StringMap) : Listings (state details) :=
  ⟨listing _, listing _, listing _, listing _, listing _⟩

theorem web_stored (details : StringMap) : (state details).routes.get web.key = some web := rfl

end Realized

open Realized in
theorem addressed_replica_agrees :
    ∃ entries b, getRoute (state [("ip.jaco_shop_frontend", "10.244.5.2")]) (calls _) (100 * 10 ^ 9) "example.com" =
    .ok entries ∧
      SiteRoute.site "example.com" b ∈ (buildConfig (ingressInputs _ (rebuild [("ip.jaco_shop_frontend", "10.244.5.2")])
        { acmeCA := "" } (100 * 10 ^ 9))).https ∧
      List.Forall₂ Realizes entries b.proxies := by
  refine (realized_routes_iff _ _ _ _ _ _ ⟨web, web_stored _, rfl⟩).2 ⟨by decide, fun r hr hd => ?_⟩
  have hr := mem_list_of_get hr
  cases mem_singleton.1 hr
  exact ⟨by decide +kernel, by decide +kernel⟩

open Realized in
theorem ready_without_upstream :
    ¬ ∃ entries b, getRoute (state []) (calls []) (100 * 10 ^ 9) "example.com" = .ok entries ∧
      SiteRoute.site "example.com" b ∈
        (buildConfig (ingressInputs _ (rebuild []) { acmeCA := "" } (100 * 10 ^ 9))).https ∧
      List.Forall₂ Realizes entries b.proxies := by
  rintro ⟨entries, b, hget, hb, hall⟩
  cases site_of_mem (.inl hb)
  have hentries : getRoute (state []) (calls []) (100 * 10 ^ 9) "example.com" =
      .ok [⟨"", true, "shop", "web", 80, false, false, 1, 1⟩] := by decide +kernel
  rw [hentries] at hget
  cases hget
  have hproxies : (buildDomainRoute (ingressInputs _ (rebuild []) { acmeCA := "" } (100 * 10 ^ 9)).upstreams
      (domainMap (ingressInputs _ (rebuild []) { acmeCA := "" } (100 * 10 ^ 9)).routes "example.com")).proxies =
        [⟨configRoute (state []) web, []⟩] := by decide +kernel
  rw [hproxies] at hall
  cases hall with
  | cons h _ => exact absurd h.ready (by decide)

end Jaco.Caddy
