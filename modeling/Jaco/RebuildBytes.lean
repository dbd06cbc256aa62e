import Jaco.ContactOrders

namespace Jaco.Caddy

open TlsPolicies List

theorem item_of_key {α : Type} {keyFn : α → String} {s : Store α keyFn} (l : s.Listing) {a b : α} (ha : a ∈ l.items)
    (hb : b ∈ l.items) (h : keyFn a = keyFn b) : a = b := by
  rw [l.mem_items] at ha hb
  rw [h] at ha
  exact Option.some.inj (ha.symm.trans hb)

section Inputs

variable {st : State} (acme : BuildOpts) (now : Timestamp)

def configRoute (st : State) (r : Jaco.Route) : Route :=
  ⟨r, ((st.deployments.get r.deployment).map (·.acmeEmail)).getD ""⟩

theorem routes_ingressInputs (l : Listings st) :
    (ingressInputs st l acme now).routes = l.routes.items.map (configRoute st) := by
  simp only [ingressInputs, deploymentEmail_eq]
  rfl

theorem reordered_ingressInputs (l l' : Listings st) :
    Reordered (ingressInputs st l acme now) (ingressInputs st l' acme now) where
  routes := by
    rw [routes_ingressInputs, routes_ingressInputs]
    exact (l.routes.perm.trans l'.routes.perm.symm).map _
  tcpRoutes := l.tcpRoutes.perm.trans l'.tcpRoutes.perm.symm
  replicas := (l.observed.perm.trans l'.observed.perm.symm).map _
  addresses key id := (address_serviceMetas l.recorded key id).trans (address_serviceMetas l'.recorded key id).symm
  opts := rfl
  now := rfl

theorem mem_ingressRoutes {l : Listings st} {r : Route} :
    r ∈ (ingressInputs st l acme now).routes ↔ ∃ r₀ ∈ l.routes.items, configRoute st r₀ = r := by
  rw [routes_ingressInputs, mem_map]

theorem configRoute_injective (st : State) : Function.Injective (configRoute st) :=
  fun _ _ h => congrArg Route.toRoute h

theorem keyed_ingressInputs (l : Listings st) : Keyed (ingressInputs st l acme now) where
  nodup := by
    rw [routes_ingressInputs]
    exact ((l.routes.perm.nodup_iff).2 (List.Nodup.of_map _ (Store.nodup_list _))).map (configRoute_injective st)
  paths r hr r' hr' hdomain hpath := by
    obtain ⟨r₀, hr₀, rfl⟩ := (mem_ingressRoutes acme now).1 hr
    obtain ⟨r₁, hr₁, rfl⟩ := (mem_ingressRoutes acme now).1 hr'
    have hdomain : r₀.domain = r₁.domain := hdomain
    have hpath : r₀.path = r₁.path := hpath
    rw [item_of_key l.routes hr₀ hr₁ (by rw [Route.key, Route.key, hdomain, hpath])]
  ports r hr r' hr' hport := item_of_key l.tcpRoutes hr hr' (by rw [TCPRoute.key, TCPRoute.key, hport])
  ids r hr r' hr' hid := by
    obtain ⟨o, ho, rfl⟩ := mem_map.1 hr
    obtain ⟨o', ho', rfl⟩ := mem_map.1 hr'
    rw [item_of_key l.observed ho ho' hid]

def contact (st : State) (r : Jaco.Route) : String :=
  let email := ((st.deployments.get r.deployment).map (·.acmeEmail)).getD ""
  if email = "" then acme.acmeEmail else email

theorem email_policyKey (r : Jaco.Route) :
    (policyKey (defaultCA acme) (configRoute st r).view).email = contact acme st r := by
  have hdefault : (defaultCA acme).acmeEmail = acme.acmeEmail := by
    rw [defaultCA]
    split <;> rfl
  rw [policyKey, hdefault]
  rfl

theorem policyKey_eq_iff {r r' : Jaco.Route} (h : r.domain = r'.domain) :
    policyKey (defaultCA acme) (configRoute st r).view = policyKey (defaultCA acme) (configRoute st r').view ↔
      contact acme st r = contact acme st r' := by
  rw [← email_policyKey, ← email_policyKey]
  refine ⟨fun hkey => by rw [hkey], fun hemail => ?_⟩
  have hview : (configRoute st r).view.domain = (configRoute st r').view.domain := h
  rw [policyKey, policyKey, PolicyKey.mk.injEq]
  exact ⟨by rw [hview], hemail⟩

end Inputs

namespace Json

def field (key : String) : Json → Json
  | .obj fields => (fields.lookup key).getD .null
  | _ => .null

theorem strs_injective {l l' : List String} (h : strs l = strs l') : l = l' := by
  rw [strs, strs, Json.arr.injEq] at h
  exact map_injective_iff.2 (fun a b hab => by simpa using hab) h

end Json

theorem tlsPolicy_injective {p p' : Policy} (h : tlsPolicy p = tlsPolicy p') : p = p' := by
  obtain ⟨subjects, ca, email⟩ := p
  obtain ⟨subjects', ca', email'⟩ := p'
  simp only [tlsPolicy, Json.obj.injEq, List.cons.injEq, Prod.mk.injEq, Json.arr.injEq, true_and, and_true, cons_append,
    nil_append, Json.str.injEq] at h
  obtain ⟨⟨hca, hemail⟩, hsubjects⟩ := h
  cases hca
  cases Json.strs_injective hsubjects
  by_cases he : email = "" <;> by_cases he' : email' = "" <;> simp_all

theorem json_policies (c : Config) : ((((c.json.field "apps").field "tls").field "automation").field "policies") =
      if c.policies = [] then Json.null else .arr (c.policies.map tlsPolicy) := by
  by_cases hl : c.layer4 = [] <;> by_cases hp : c.policies = [] <;> simp [Config.json, Json.field, List.lookup, hl, hp]

theorem policies_of_json {c c' : Config} (h : c.json = c'.json) : c.policies = c'.policies := by
  have hfield := json_policies c
  rw [h, json_policies c'] at hfield
  by_cases hc : c.policies = [] <;> by_cases hc' : c'.policies = []
  · rw [hc, hc']
  · simp [hc, hc'] at hfield
  · simp [hc, hc'] at hfield
  · rw [if_neg hc, if_neg hc', Json.arr.injEq] at hfield
    exact (map_injective_iff.2 (fun _ _ => tlsPolicy_injective) hfield).symm

section Rebuild

variable {st : State} {acme : BuildOpts} {now : Timestamp}

theorem agreed_of_contacts {l : Listings st}
    (h : acme.acmeEnabled = true → ∀ r r' : Jaco.Route, st.routes.get r.key = some r → st.routes.get r'.key = some r' →
      r.tlsAuto = true → r'.tlsAuto = true → r.domain = r'.domain → contact acme st r = contact acme st r') :
    Agreed (ingressInputs st l acme now) := by
  intro henabled r hr r' hr' hauto hauto' hdomain
  obtain ⟨r₀, hr₀, rfl⟩ := (mem_ingressRoutes acme now).1 hr
  obtain ⟨r₁, hr₁, rfl⟩ := (mem_ingressRoutes acme now).1 hr'
  rw [l.routes.mem_items] at hr₀ hr₁
  exact (policyKey_eq_iff acme hdomain).2 (h henabled r₀ r₁ hr₀ hr₁ hauto hauto' hdomain)

def startingWith (r : Jaco.Route) (h : st.routes.get r.key = some r) : Listings st where
  deployments := st.deployments.listing
  routes := ⟨r :: st.routes.list.erase r, (perm_cons_erase (Store.mem_list.2 h)).symm⟩
  observed := st.replicasObserved.listing
  recorded := st.replicasObserved.listing
  tcpRoutes := st.tcpRoutes.listing

theorem contact_of_first {r : Jaco.Route} (h : st.routes.get r.key = some r) (henabled : acme.acmeEnabled = true)
    (hauto : r.tlsAuto = true) :
    (∃ p ∈ (buildConfig (ingressInputs st (startingWith r h) acme now)).policies, r.domain ∈ p.subjects) ∧
      ∀ p ∈ (buildConfig (ingressInputs st (startingWith r h) acme now)).policies, r.domain ∈ p.subjects →
        p.email = contact acme st r := by
  have hon : (defaultCA acme).acmeEnabled = true := (acmeEnabled_defaultCA acme).trans henabled
  have hissued : (configRoute st r).view ∈
      issued ((sortedRoutes (ingressInputs st (startingWith r h) acme now).routes).map Route.view) := by
    refine mem_issued_views.2 ⟨configRoute st r, ?_, rfl⟩
    rw [routes_ingressInputs, startingWith, map_cons]
    exact List.find?_cons_of_pos (Bool.and_eq_true_iff.2 ⟨hauto, decide_eq_true rfl⟩)
  refine ⟨?_, fun p hp hd => ?_⟩
  · rw [policies_buildConfig]
    refine (exists_subject_iff hon).2 ⟨(configRoute st r).view, ?_, hauto, rfl⟩
    exact (mem_filter.1 (Grouping.mem_of_mem_firstOn hissued)).1
  · rw [policy_of_subject hon hissued hp hd, policyOf, email_policyKey]

theorem same_configuration_iff (st : State) (acme : BuildOpts) (now : Timestamp) :
    (∀ l l' : Listings st, ingressBuilder st l acme now = ingressBuilder st l' acme now) ↔
      (acme.acmeEnabled = true → ∀ r r' : Jaco.Route, st.routes.get r.key = some r → st.routes.get r'.key = some r' →
        r.tlsAuto = true → r'.tlsAuto = true → r.domain = r'.domain → contact acme st r = contact acme st r') := by
  constructor
  · intro hsame henabled r r' hr hr' hauto hauto' hdomain
    have hpolicies := policies_of_json (hsame (startingWith r hr) (startingWith r' hr'))
    obtain ⟨p, hp, hd⟩ := (contact_of_first hr henabled hauto).1
    rw [← (contact_of_first hr henabled hauto).2 p hp hd]
    rw [hpolicies] at hp
    rw [hdomain] at hd
    exact (contact_of_first hr' henabled hauto').2 p hp hd
  · intro h l l'
    exact congrArg Config.json (buildConfig_reordered (reordered_ingressInputs acme now l l')
      (keyed_ingressInputs acme now l)
      (agreed_of_contacts h))

end Rebuild

namespace TwoStacks

def deployment (name email : String) : Deployment where
  name := name
  appliedRevision := 1
  status := .active
  services := []
  acmeEmail := email

def route (deployment path : String) : Jaco.Route := ⟨"example.com", deployment, "web", 80, true, path, false⟩

def shop : Jaco.Route := route "shop" "/shop"
def blog : Jaco.Route := route "blog" "/blog"

def state : State := { State.new with
  deployments := (Store.empty.apply (deployment "shop" "ops@shop.example")).apply (deployment "blog" "ops@blog.example")
  routes := (Store.empty.apply shop).apply blog }

theorem shop_stored : state.routes.get shop.key = some shop := by decide +kernel
theorem blog_stored : state.routes.get blog.key = some blog := by decide +kernel

end TwoStacks

open TwoStacks in
theorem contact_by_map_order : ingressBuilder state (startingWith shop shop_stored) { acmeCA := "" } 0 ≠
      ingressBuilder state (startingWith blog blog_stored) { acmeCA := "" } 0 := by
  intro h
  have hpolicies := policies_of_json h
  obtain ⟨p, hp, hd⟩ : ∃ p ∈
      (buildConfig (ingressInputs state (startingWith shop shop_stored) { acmeCA := "" } 0)).policies,
      shop.domain ∈ p.subjects := (contact_of_first shop_stored rfl rfl).1
  have hshop := (contact_of_first shop_stored rfl rfl).2 p hp hd
  rw [hpolicies] at hp
  have hblog := (contact_of_first blog_stored rfl rfl).2 p hp hd
  exact absurd (hshop.symm.trans hblog) (by decide +kernel)

end Jaco.Caddy
