import Jaco.DeployApply

namespace Jaco.Deploy

def KeepsForeignRoutes (deployment : String) (s s' : State) : Prop :=
  s.routes.KeepsForeign Route.deployment deployment s'.routes ∧
    s.tcpRoutes.KeepsForeign TCPRoute.deployment deployment s'.tcpRoutes

theorem apply_head (p : Parsers) (role : RaftRole) (s : State) (identity : String) (now : Timestamp)
    (req : ApplyRequest) (result : ApplyResult) (e : Entry) (h : apply p role s identity now req = .ok result)
    (he : result.commits.head? = some e) :
    ∃ a, admission p role s identity req = .ok a ∧ e = ⟨identity, some now, .deploymentApply (command s req a)⟩ := by
  unfold apply at h
  cases ha : admission p role s identity req with
  | error err => simp [ha] at h
  | ok a =>
    simp only [ha] at h
    by_cases hd : req.dryRun = true
    · simp only [hd, ↓reduceIte, Except.ok.injEq] at h
      subst h
      simp at he
    · simp only [hd, Bool.false_eq_true, ↓reduceIte, Except.ok.injEq] at h
      subst h
      exact ⟨a, rfl, (Option.some.inj he).symm⟩

theorem admission_eq_ok_iff (p : Parsers) (role : RaftRole) (s : State) (identity : String) (req : ApplyRequest)
    (a : Admitted) :
    admission p role s identity req = .ok a ↔
      requireLeader role "apply" = none ∧ parseAndValidate p req = .ok (a.jaco, a.project) ∧
      unknownOverride a.jaco a.project = none ∧ mergeServiceDefaults a.jaco a.project = .ok a.services ∧
      rejection s a.jaco a.project a.services = none ∧
      checkPrivilegedAdmission s identity (collectPrivilegedServices a.project) = none := by
  constructor
  · intro h
    unfold admission at h
    cases hl : requireLeader role "apply" with
    | some e => simp [hl] at h
    | none =>
      cases hp : parseAndValidate p req with
      | error e => simp [hl, hp] at h
      | ok jp =>
        obtain ⟨jaco, project⟩ := jp
        cases hu : unknownOverride jaco project with
        | some e => simp [hl, hp, hu] at h
        | none =>
          cases hm : mergeServiceDefaults jaco project with
          | error e => simp [hl, hp, hu, hm] at h
          | ok services =>
            simp only [hl, hp, hu, hm] at h
            split at h
            · cases h
            · rename_i hr
              cases h
              rw [Option.or_eq_none_iff] at hr
              exact ⟨rfl, rfl, hu, hm, hr.1, hr.2⟩
  · rintro ⟨hl, hp, hu, hm, hr, hg⟩
    simp [admission, hl, hp, hu, hm, hr, hg]

theorem toRoutes_owner (deployment : String) (decls : List JacoRouteDecl) :
    ∀ r ∈ toRoutes deployment decls, r.deployment = deployment := by
  intro r hr
  obtain ⟨d, -, rfl⟩ := List.mem_map.mp hr
  rfl

theorem toTCPRoutes_owner (deployment : String) (project : Project) :
    ∀ r ∈ toTCPRoutes deployment project, r.deployment = deployment := by
  intro r hr
  rw [toTCPRoutes, List.mem_insertionSort, List.mem_flatMap] at hr
  obtain ⟨svc, -, hr⟩ := hr
  obtain ⟨port, -, hr⟩ := List.mem_filterMap.mp hr
  obtain ⟨published, -, rfl⟩ := Option.map_eq_some_iff.mp hr
  rfl

theorem routes_applyEntry (s : State) (idx : Nat) (identity : String) (ts : Option Timestamp) (da : DeploymentApply) :
    (applyEntry idx s ⟨identity, ts, .deploymentApply da⟩).routes =
        s.routes.replaceOwned Route.deployment da.deployment da.routes ∧
      (applyEntry idx s ⟨identity, ts, .deploymentApply da⟩).tcpRoutes =
        s.tcpRoutes.replaceOwned TCPRoute.deployment da.deployment da.tcpRoutes := ⟨rfl, rfl⟩

theorem keepsForeignRoutes_command_iff (s s' : State) (idx : Nat) (identity : String) (ts : Option Timestamp)
    (req : ApplyRequest) (a : Admitted) :
    KeepsForeignRoutes a.jaco.deployment s'
        (applyEntry idx s' ⟨identity, ts, .deploymentApply (command s req a)⟩) ↔
      (∀ r ∈ (command s req a).routes, ∀ w, s'.routes.get r.key = some w → w.deployment = a.jaco.deployment) ∧
      ∀ r ∈ (command s req a).tcpRoutes, ∀ w, s'.tcpRoutes.get r.key = some w →
        w.deployment = a.jaco.deployment := by
  obtain ⟨hr, ht⟩ := routes_applyEntry s' idx identity ts (command s req a)
  unfold KeepsForeignRoutes
  rw [hr, ht]
  exact and_congr (Store.keepsForeign_replaceOwned_iff _ _ _ _ (toRoutes_owner _ _))
    (Store.keepsForeign_replaceOwned_iff _ _ _ _ (toTCPRoutes_owner _ _))

theorem apply_keeps_foreign_routes_iff (p : Parsers) (role : RaftRole) (s s' : State) (identity : String)
    (now : Timestamp) (idx : Nat) (req : ApplyRequest) (result : ApplyResult) (e : Entry) (da : DeploymentApply)
    (h : apply p role s identity now req = .ok result) (he : result.commits.head? = some e)
    (hda : e.payload = .deploymentApply da) :
    KeepsForeignRoutes da.deployment s' (applyEntry idx s' e) ↔
      (∀ r ∈ da.routes, ∀ w, s'.routes.get r.key = some w → w.deployment = da.deployment) ∧
      ∀ r ∈ da.tcpRoutes, ∀ w, s'.tcpRoutes.get r.key = some w → w.deployment = da.deployment := by
  obtain ⟨a, -, rfl⟩ := apply_head p role s identity now req result e h he
  cases hda
  exact keepsForeignRoutes_command_iff s s' idx identity (some now) req a

def webProject : Project := ⟨[{ name := "web", image := "nginx" }], by decide⟩

def oneRoute (deployment domain : String) : Parsers where
  decodeJaco _ := .ok { deployment := deployment, routes := [{ domain := domain, service := "web", port := 80 }] }
  mailError _ := none
  validateCompose _ := none
  loadCompose _ := .ok webProject
  specHash _ _ := .error ""

def sampleRequest : ApplyRequest := ⟨[1], [1], false⟩

def oneRouteEntry (deployment domain : String) : Entry :=
  ⟨"ops", some 1, .deploymentApply
    { deployment := deployment, revision := 1, jacoYaml := [1], composeYaml := [1],
      services := [{ name := "web", replicas := 1, placement := .spread }],
      routes := [⟨domain, deployment, "web", 80, true, "", false⟩] }⟩

def shopState : State := applyEntry 1 .new (oneRouteEntry "shop" "example.com")

theorem blog_beside_shop :
    KeepsForeignRoutes "blog" shopState (applyEntry 2 shopState (oneRouteEntry "blog" "blog.example.com")) :=
  (apply_keeps_foreign_routes_iff (oneRoute "blog" "blog.example.com") .leader shopState shopState "ops" 1 2
    sampleRequest ⟨1, [oneRouteEntry "blog" "blog.example.com"]⟩ _ _ (by decide +kernel) rfl rfl).mpr
    ⟨by decide, by decide⟩

theorem blog_takes_shop_route : apply (oneRoute "shop" "example.com") .leader .new "ops" 1 sampleRequest =
        .ok ⟨1, [oneRouteEntry "shop" "example.com"]⟩ ∧
      apply (oneRoute "blog" "example.com") .leader shopState "ops" 1 sampleRequest =
        .ok ⟨1, [oneRouteEntry "blog" "example.com"]⟩ ∧
      ¬ KeepsForeignRoutes "blog" shopState (applyEntry 2 shopState (oneRouteEntry "blog" "example.com")) := by
  refine ⟨by decide +kernel, by decide +kernel, ?_⟩
  rintro ⟨h, -⟩
  have hshop := h (routeKey "example.com" "") ⟨"example.com", "shop", "web", 80, true, "", false⟩
    (by decide +kernel) (by decide)
  revert hshop
  decide +kernel

end Jaco.Deploy
