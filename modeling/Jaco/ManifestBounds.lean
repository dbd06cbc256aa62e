import Jaco.Manifest

namespace Jaco.ManifestBounds

open List

theorem wrap32_eq_self_iff (x : Int) : wrap32 x = x ↔ -2 ^ 31 ≤ x ∧ x < 2 ^ 31 := by
  rw [wrap32]
  constructor
  · intro h
    have hle : -2 ^ 31 ≤ Int.bmod x (2 ^ 32) := Int.le_bmod (by decide)
    have hlt : Int.bmod x (2 ^ 32) < 2 ^ 31 := Int.bmod_lt (by decide)
    omega
  · rintro ⟨hle, hlt⟩
    exact Int.bmod_eq_of_le (by omega) (by omega)

abbrev InPortRange (x : Int) : Prop := 1 ≤ x ∧ x ≤ 65535

theorem port_exact_iff (x : Int) : wrap32 x = x ∧ InPortRange (wrap32 x) ↔ InPortRange x := by
  constructor
  · rintro ⟨hexact, hrange⟩
    exact hexact ▸ hrange
  · intro hrange
    have hexact := (wrap32_eq_self_iff x).2 ⟨by have := hrange.1; omega, by have := hrange.2; omega⟩
    exact ⟨hexact, hexact.symm ▸ hrange⟩

def declaredReplicas (j : JacoYAML) (svc : ServiceConfig) : Int :=
  (((j.override svc.name).bind (·.replicas)).or svc.deployReplicas).getD 1

structure Converted (j : JacoYAML) (project : Project) : Prop where
  replicas : ∀ svc ∈ project.services,
    (mergeOne svc (j.override svc.name)).replicas = declaredReplicas j svc ∧
      0 ≤ (mergeOne svc (j.override svc.name)).replicas
  ports_exact : ∀ svc ∈ project.services, ∀ p ∈ svc.ports, ∀ n, p.publishes = some n →
    wrap32 n = n ∧ wrap32 p.target = p.target
  tcp : ∀ r ∈ toTCPRoutes j.deployment project, InPortRange r.publishedPort ∧ InPortRange r.containerPort
  routes_exact : ∀ d ∈ j.routes, wrap32 d.port = d.port
  routes : ∀ r ∈ toRoutes j.deployment j.routes, InPortRange r.port

/-- The upper bounds nothing checks, and the lower ones compose's numbers are not checked for. -/
structure InBounds (j : JacoYAML) (project : Project) : Prop where
  replicas : ∀ svc ∈ project.services, 0 ≤ declaredReplicas j svc ∧ declaredReplicas j svc < 2 ^ 31
  ports : ∀ svc ∈ project.services, ∀ p ∈ svc.ports, ∀ n, p.publishes = some n → n ≤ 65535 ∧ InPortRange p.target
  routes : ∀ d ∈ j.routes, d.port ≤ 65535

theorem publishes_pos {p : PortConfig} {n : Int} (h : p.publishes = some n) : 0 < n := by
  rw [PortConfig.publishes] at h
  repeat' split at h
  all_goals first | cases h | exact of_decide_eq_true (Option.filter_eq_some_iff.1 h).2

theorem mem_toTCPRoutes (deployment : String) (project : Project) (r : TCPRoute) :
    r ∈ toTCPRoutes deployment project ↔ ∃ svc ∈ project.services, ∃ p ∈ svc.ports, ∃ n, p.publishes = some n ∧
      r = ⟨wrap32 n, deployment, svc.name, wrap32 p.target⟩ := by
  simp only [toTCPRoutes, mem_insertionSort, mem_flatMap, mem_filterMap, Option.map_eq_some_iff, @eq_comm _ r]

theorem forall_toTCPRoutes (deployment : String) (project : Project) (P : Int → Int → Prop) :
    (∀ r ∈ toTCPRoutes deployment project, P r.publishedPort r.containerPort) ↔
      ∀ svc ∈ project.services, ∀ p ∈ svc.ports, ∀ n, p.publishes = some n → P (wrap32 n) (wrap32 p.target) := by
  simp only [mem_toTCPRoutes]
  constructor
  · intro h svc hsvc p hp n hn
    have hr := h ⟨wrap32 n, deployment, svc.name, wrap32 p.target⟩ ⟨svc, hsvc, p, hp, n, hn, rfl⟩
    dsimp only at hr
    exact hr
  · rintro h r ⟨svc, hsvc, p, hp, n, hn, hr⟩
    simpa only [hr] using h svc hsvc p hp n hn

theorem port_pos_of_validateRoutes {m : RoutesSeen} {decls : List JacoRouteDecl} (h : validateRoutes m decls = none) :
    ∀ d ∈ decls, 0 < d.port := by
  induction decls generalizing m with
  | nil => nofun
  | cons r rest ih =>
    rw [validateRoutes, Option.or_eq_none_iff] at h
    refine forall_mem_cons.2 ⟨?_, ih h.2⟩
    by_contra hport
    have hroute := h.1
    rw [validateRoute] at hroute
    simp only [not_lt.1 hport, ↓reduceIte] at hroute
    repeat' split at hroute
    all_goals cases hroute

theorem accepted_ports_pos {P : Parsers} {j : JacoYAML} (h : P.validateJacoYAML j = none) :
    ∀ d ∈ j.routes, 0 < d.port := by
  rw [Parsers.validateJacoYAML] at h
  split at h
  · cases h
  · rw [Option.or_eq_none_iff, Option.or_eq_none_iff] at h
    exact port_pos_of_validateRoutes h.2.2

theorem converted_iff_in_bounds (P : Parsers) (j : JacoYAML) (project : Project)
    (haccepted : P.validateJacoYAML j = none) : Converted j project ↔ InBounds j project := by
  have htcp := forall_toTCPRoutes j.deployment project (fun n target => InPortRange n ∧ InPortRange target)
  constructor
  · intro h
    have hports := htcp.1 h.tcp
    refine ⟨?_, ?_, ?_⟩
    · intro svc hsvc
      obtain ⟨hexact, hnonneg⟩ := h.replicas svc hsvc
      have hrange := (wrap32_eq_self_iff _).1 hexact
      exact ⟨hexact ▸ hnonneg, hrange.2⟩
    · intro svc hsvc p hp n hn
      obtain ⟨hn', htarget⟩ := h.ports_exact svc hsvc p hp n hn
      obtain ⟨hrange, hrange'⟩ := hports svc hsvc p hp n hn
      exact ⟨((port_exact_iff n).1 ⟨hn', hrange⟩).2, (port_exact_iff _).1 ⟨htarget, hrange'⟩⟩
    · intro d hd
      exact ((port_exact_iff _).1 ⟨h.routes_exact d hd, h.routes _ (mem_map_of_mem hd)⟩).2
  · intro h
    have hpublished : ∀ svc ∈ project.services, ∀ p ∈ svc.ports, ∀ n, p.publishes = some n →
        (wrap32 n = n ∧ InPortRange (wrap32 n)) ∧ wrap32 p.target = p.target ∧ InPortRange (wrap32 p.target) := by
      intro svc hsvc p hp n hn
      obtain ⟨hmax, htarget⟩ := h.ports svc hsvc p hp n hn
      exact ⟨(port_exact_iff n).2 ⟨publishes_pos hn, hmax⟩, (port_exact_iff _).2 htarget⟩
    have hrouted : ∀ d ∈ j.routes, wrap32 d.port = d.port ∧ InPortRange (wrap32 d.port) := fun d hd =>
      (port_exact_iff _).2 ⟨accepted_ports_pos haccepted d hd, h.routes d hd⟩
    refine ⟨?_, ?_, ?_, fun d hd => (hrouted d hd).1, ?_⟩
    · intro svc hsvc
      obtain ⟨hnonneg, hmax⟩ := h.replicas svc hsvc
      have hexact := (wrap32_eq_self_iff _).2 ⟨by omega, hmax⟩
      exact ⟨hexact, hnonneg.trans_eq hexact.symm⟩
    · intro svc hsvc p hp n hn
      exact ⟨(hpublished svc hsvc p hp n hn).1.1, (hpublished svc hsvc p hp n hn).2.1⟩
    · exact htcp.2 (fun svc hsvc p hp n hn =>
        ⟨(hpublished svc hsvc p hp n hn).1.2, (hpublished svc hsvc p hp n hn).2.2⟩)
    · intro r hr
      obtain ⟨d, hd, rfl⟩ := mem_map.1 hr
      exact (hrouted d hd).2

namespace Shop

def parsers : Parsers where
  decodeJaco _ := .error (invalid "")
  mailError _ := none
  validateCompose _ := none
  loadCompose _ := .error ""
  specHash _ _ := .error ""

def manifest (replicas : Int) : JacoYAML :=
  { deployment := "shop"
    services := [{ name := "web", replicas := some replicas, placement := "spread" }]
    routes := [{ domain := "example.com", service := "web", port := 80, tls := "auto" }] }

def project : Project := ⟨[{ name := "web", ports := [{ published := "8080", target := 80 }] }], by decide⟩

end Shop

open Shop

theorem three_replicas_converted : parsers.validateJacoYAML (manifest 3) = none ∧ Converted (manifest 3) project := by
  have haccepted : parsers.validateJacoYAML (manifest 3) = none := by decide +kernel
  refine ⟨haccepted, (converted_iff_in_bounds parsers _ _ haccepted).2 ⟨?_, ?_, ?_⟩⟩
  · decide +kernel
  · have hpublishes : ({ published := "8080", target := 80 } : PortConfig).publishes = some 8080 := by decide +kernel
    intro svc hsvc p hp n hn
    obtain rfl := mem_singleton.1 hsvc
    obtain rfl := mem_singleton.1 hp
    obtain rfl := Option.some.inj (hpublishes.symm.trans hn)
    exact ⟨by decide, by decide⟩
  · decide

theorem three_billion_replicas_negative : parsers.validateJacoYAML (manifest 3000000000) = none ∧
      (project.services.map fun svc => (mergeOne svc ((manifest 3000000000).override svc.name)).replicas) =
        [-1294967296] ∧ ¬ Converted (manifest 3000000000) project := by
  have hreplicas : (project.services.map fun svc =>
      (mergeOne svc ((manifest 3000000000).override svc.name)).replicas) = [-1294967296] := by decide +kernel
  refine ⟨by decide +kernel, hreplicas, fun h => ?_⟩
  have hnonneg := (h.replicas _ mem_cons_self).2
  have hnegative : (mergeOne _ _).replicas = -1294967296 := (List.cons.inj hreplicas).1
  rw [hnegative] at hnonneg
  exact absurd hnonneg (by decide)

end Jaco.ManifestBounds
