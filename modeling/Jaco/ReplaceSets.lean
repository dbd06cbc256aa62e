import Jaco.FsmFrames

namespace Jaco

structure Replaced (da : DeploymentApply) (s t : State) : Prop where
  routes : ∀ r, (t.routes.get r.key = some r ∧ r.deployment = da.deployment) ↔ r ∈ da.routes
  tcpRoutes : ∀ r, (t.tcpRoutes.get r.key = some r ∧ r.deployment = da.deployment) ↔ r ∈ da.tcpRoutes
  plans : ∀ p, p.deployment = da.deployment →
    (t.rolloutPlans.get p.key = some p ↔ s.rolloutPlans.get p.key = some p ∧ p.service ∈ da.services.map (·.name))
  foreignRoutes : ∀ r, s.routes.get r.key = some r → r.deployment ≠ da.deployment → (∀ r' ∈ da.routes, r'.key ≠ r.key) →
    t.routes.get r.key = some r
  foreignTCPRoutes : ∀ r, s.tcpRoutes.get r.key = some r → r.deployment ≠ da.deployment →
    (∀ r' ∈ da.tcpRoutes, r'.key ≠ r.key) → t.tcpRoutes.get r.key = some r

theorem foreign_replaceOwned {α : Type} {keyFn : α → String} {s : Store α keyFn} {owner : α → String} {o : String}
    {l : List α} {v : α} (hv : s.get (keyFn v) = some v) (ho : owner v ≠ o) (hl : ∀ w ∈ l, keyFn w ≠ keyFn v) :
    (s.replaceOwned owner o l).get (keyFn v) = some v := by
  rw [Store.get_replaceOwned_of_notMem s owner o l _ hl, hv]
  simp [ho]

theorem plans_applyDeployment (s : State) {da : DeploymentApply} (ts : Option Timestamp) {p : RolloutPlan}
    (hp : p.deployment = da.deployment) :
    (applyDeployment s da ts).rolloutPlans.get p.key = some p ↔
      s.rolloutPlans.get p.key = some p ∧ p.service ∈ da.services.map (·.name) := by
  simp only [applyDeployment, Store.get_removeWhere, Option.filter_eq_some_iff]
  apply and_congr_right
  intro _
  simp [hp]

theorem tcpRouteKey_injective : Function.Injective tcpRouteKey := fun _ _ h => Int.repr_injective h

theorem keys_of_distinct_ports {routes : List TCPRoute} (h : (routes.map (·.publishedPort)).Nodup) :
    ∀ r ∈ routes, ∀ r' ∈ routes, r.key = r'.key → r = r' := by
  intro r hr r' hr' hkey
  exact List.inj_on_of_nodup_map h hr hr' (tcpRouteKey_injective hkey)

theorem replaced_iff (idx : Nat) (s : State) (identity : String) (ts : Option Timestamp) (da : DeploymentApply)
    (htcp : (da.tcpRoutes.map (·.publishedPort)).Nodup) :
    Replaced da s (applyEntry idx s ⟨identity, ts, .deploymentApply da⟩) ↔
      (∀ r ∈ da.routes, r.deployment = da.deployment) ∧ (∀ r ∈ da.tcpRoutes, r.deployment = da.deployment) ∧
        ∀ r ∈ da.routes, ∀ r' ∈ da.routes, r.key = r'.key → r = r' := by
  have hroutes := Store.owned_replaceOwned_iff s.routes Route.deployment da.deployment da.routes
  have htcpRoutes := Store.owned_replaceOwned_iff s.tcpRoutes TCPRoute.deployment da.deployment da.tcpRoutes
  constructor
  · intro h
    obtain ⟨hname, hkeys⟩ := hroutes.1 h.routes
    exact ⟨hname, (htcpRoutes.1 h.tcpRoutes).1, hkeys⟩
  · rintro ⟨hname, htcpName, hkeys⟩
    exact ⟨hroutes.2 ⟨hname, hkeys⟩, htcpRoutes.2 ⟨htcpName, keys_of_distinct_ports htcp⟩,
      fun p hp => plans_applyDeployment s ts hp,
      fun r hr ho hl => foreign_replaceOwned hr ho hl,
      fun r hr ho hl => foreign_replaceOwned hr ho hl⟩

namespace ReplaceSample

def route (domain path service : String) : Route :=
  { domain, path, deployment := "shop", service, port := 80, tlsAuto := false, stripPath := false }

def revision (routes : List Route) : DeploymentApply :=
  { deployment := "shop", revision := 2, services := [], routes,
    tcpRoutes := [{ publishedPort := 5432, deployment := "shop", service := "db", containerPort := 5432 }] }

def twoPaths : DeploymentApply := revision [route "shop.test" "/api" "api", route "shop.test" "" "web"]

def oneKey : DeploymentApply := revision [route "shop.test" "/a\x00/b" "api", route "shop.test\x00/a" "/b" "web"]

end ReplaceSample

open ReplaceSample

theorem two_paths_replaced : Replaced twoPaths State.new
      (applyEntry 1 State.new ⟨"op", some 0, .deploymentApply twoPaths⟩) :=
  (replaced_iff 1 State.new "op" (some 0) twoPaths (by decide)).2 (by decide +kernel)

theorem one_route_lost : (oneKey.routes.map (fun r => (r.domain, r.path))).Nodup ∧
      (∀ r ∈ oneKey.routes, r.deployment = "shop") ∧
      ¬ Replaced oneKey State.new
        (applyEntry 1 State.new ⟨"op", some 0, .deploymentApply oneKey⟩) := by
  refine ⟨by decide +kernel, by decide +kernel, fun h => ?_⟩
  have hstored := ((h.routes (route "shop.test" "/a\x00/b" "api")).2 List.mem_cons_self).1
  revert hstored
  decide +kernel

end Jaco
