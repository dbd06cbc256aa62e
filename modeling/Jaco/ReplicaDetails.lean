import Jaco.DependsOnGate
import Jaco.KeyedFolds
import Jaco.PassFrames

namespace Jaco.ReplicaDetails

open Lifecycle Reconciler KeyedFolds Scheduler List

def stateRank : ReplicaState → Nat
  | .running => 7
  | .degraded => 6
  | .updating => 5
  | .pulling => 4
  | .pending => 3
  | .stopped => 2
  | .failed => 1
  | .unspecified => 0

def dependencySatisfied (state : ReplicaState) (condition : String) : Bool :=
  if condition = dependencyConditionHealthy then state = .running
  else (condition = dependencyConditionStarted || condition = "") && (state = .running || state = .degraded)

def better (s : State) (deployment service : String) (best : ReplicaState) (rep : ReplicaDesired) : ReplicaState :=
  if rep.deployment ≠ deployment ∨ rep.service ≠ service then best
  else match s.replicasObserved.get rep.id with
    | none => best
    | some obs => if stateRank best < stateRank obs.state then obs.state else best

def bestObservedState (s : State) (replicas : List ReplicaDesired) (deployment service : String) : ReplicaState :=
  replicas.foldl (better s deployment service) .unspecified

structure DependencyState where
  service : String
  condition : String
  state : ReplicaState
  satisfied : Bool
  deriving DecidableEq

structure ReplicaDetail where
  id : String
  deployment : String
  service : String
  index : Int
  host : String
  image : String
  revision : Nat
  state : ReplicaState
  code : String
  message : String
  details : StringMap
  containerId : String
  startedAt : Option Timestamp
  lastHealthAt : Option Timestamp
  restartCount : Int
  lastAttemptAt : Option Timestamp
  dependsOn : List DependencyState
  deriving DecidableEq

structure GetReplicasRequest where
  deploymentFilter : String := ""
  serviceFilter : String := ""
  replicaId : String := ""

def GetReplicasRequest.selects (req : GetReplicasRequest) (rd : ReplicaDesired) : Bool :=
  (req.replicaId = "" || rd.id = req.replicaId) &&
    (req.deploymentFilter = "" || rd.deployment = req.deploymentFilter) &&
    (req.serviceFilter = "" || rd.service = req.serviceFilter)

/-- The iterations of one call: over the replicas it reports, and for each dependency of one over all replicas again. -/
structure Iterations (s : State) where
  replicas : s.replicasDesired.Listing
  best : ReplicaDesired → Dependency → s.replicasDesired.Listing

section Report

variable (P : Parsers) (s : State)

def dependenciesFor (deployment service : String) : List Dependency :=
  match s.deployments.get deployment with
  | none => []
  | some dep =>
    if dep.composeYaml = [] then []
    else match P.loadCompose dep.composeYaml with
      | .error _ => []
      | .ok project =>
        match project.services.find? (·.name = service) with
        | none => []
        | some svc => (toContainerSpec svc
            { clusterID := "", deployment := deployment, service := service, replicaID := "", replicaIndex := 0,
              raftIndex := 0 }).dependsOn

def resolveDependsOn (l : Iterations s) (rd : ReplicaDesired) (deps : List Dependency) : List DependencyState :=
  deps.map (fun d =>
    let state := bestObservedState s (l.best rd d).items rd.deployment d.service
    ⟨d.service, d.condition, state, d.required && dependencySatisfied state d.condition⟩)

def detail (rd : ReplicaDesired) (dependsOn : List DependencyState) : ReplicaDetail :=
  let obs := s.replicasObserved.get rd.id
  let counter := s.restartCounters.get rd.id
  { id := rd.id, deployment := rd.deployment, service := rd.service, index := rd.index
    host := ((obs.map (·.host)).filter (· ≠ "")).getD rd.host
    image := rd.image, revision := rd.raftIndex
    state := (obs.map (·.state)).getD .unspecified
    code := (obs.map (·.code)).getD ""
    message := (obs.map (·.message)).getD ""
    details := (obs.map (·.details)).getD []
    containerId := (obs.map (·.containerId)).getD ""
    startedAt := obs.bind (·.startedAt)
    lastHealthAt := obs.bind (·.lastHealthAt)
    restartCount := (counter.map (·.consecutiveFailures)).getD 0
    lastAttemptAt := counter.bind (·.lastAttemptAt)
    dependsOn := dependsOn }

def before (a b : ReplicaDetail) : Bool :=
  if a.deployment ≠ b.deployment then a.deployment < b.deployment
  else if a.service ≠ b.service then a.service < b.service
  else if a.index ≠ b.index then a.index < b.index
  else a.id ≤ b.id

def cacheKey (rd : ReplicaDesired) : String := rd.deployment ++ "\x00" ++ rd.service

def getReplicas (l : Iterations s) (req : GetReplicasRequest) : List ReplicaDetail :=
  ((memoMap cacheKey (fun rd => dependenciesFor P s rd.deployment rd.service) (fun _ => none)
    (l.replicas.items.filter req.selects)).map
      (fun (rd, deps) => detail s rd (resolveDependsOn s l rd deps))).insertionSort
      (fun a b => before a b)

end Report

theorem dependencySatisfied_mono {a b : ReplicaState} (h : stateRank a ≤ stateRank b) {condition : String}
    (ha : dependencySatisfied a condition = true) : dependencySatisfied b condition = true := by
  unfold dependencySatisfied at ha ⊢
  split at ha
  · rename_i hc
    rw [if_pos hc]
    revert h ha
    cases a <;> cases b <;> decide
  · rename_i hc
    rw [if_neg hc]
    rw [Bool.and_eq_true] at ha ⊢
    refine ⟨ha.1, ?_⟩
    have hstate := ha.2
    revert h hstate
    cases a <;> cases b <;> decide

theorem not_dependencySatisfied_unspecified (condition : String) :
    dependencySatisfied .unspecified condition ≠ true := by
  simp [dependencySatisfied]

theorem dependencySatisfied_eq {condition : String} (h : condition ≠ "") (state : ReplicaState) :
    dependencySatisfied state condition = satisfies state condition := by
  unfold dependencySatisfied satisfies
  by_cases hh : condition = dependencyConditionHealthy
  · subst hh
    simp [show dependencyConditionHealthy ≠ dependencyConditionStarted by decide]
  · rw [if_neg hh]
    by_cases hs : condition = dependencyConditionStarted <;> simp [hh, hs, h]

section Best

variable {s : State} {deployment service : String} {Q : ReplicaState → Prop}
  (hup : ∀ a b, stateRank a ≤ stateRank b → Q a → Q b)

include hup

theorem better_iff (best : ReplicaState) (rep : ReplicaDesired) : Q (better s deployment service best rep) ↔
      Q best ∨ rep.deployment = deployment ∧ rep.service = service ∧ ∃ obs ∈ s.replicasObserved.get rep.id,
      Q obs.state := by
  unfold better
  by_cases hrep : rep.deployment ≠ deployment ∨ rep.service ≠ service
  · rw [if_pos hrep]
    refine ⟨.inl, ?_⟩
    rintro (hbest | ⟨hd, hs, -⟩)
    · exact hbest
    · exact absurd ⟨hd, hs⟩ (not_and_or.2 hrep)
  · obtain ⟨hd, hs⟩ := not_or.1 hrep
    rw [if_neg hrep]
    cases hobs : s.replicasObserved.get rep.id with
    | none => simp
    | some obs =>
      have hstates : Q best ∨ Q obs.state ↔ Q (if stateRank best < stateRank obs.state then obs.state else best) := by
        split
        · rename_i hlt
          exact ⟨fun h => h.elim (hup _ _ hlt.le) id, .inr⟩
        · rename_i hle
          exact ⟨fun h => h.elim id (hup _ _ (not_lt.1 hle)), .inl⟩
      simp [← hstates, not_not.1 hd, not_not.1 hs]

theorem bestObservedState_iff (hzero : ¬ Q .unspecified) (l : s.replicasDesired.Listing) :
    Q (bestObservedState s l.items deployment service) ↔ ∃ rep ∈ s.replicasDesired.list, rep.deployment = deployment ∧
      rep.service = service ∧ ∃ obs ∈ s.replicasObserved.get rep.id, Q obs.state := by
  have hfold : ∀ (items : List ReplicaDesired) (best : ReplicaState),
      Q (items.foldl (better s deployment service) best) ↔ Q best ∨ ∃ rep ∈ items, rep.deployment = deployment ∧
        rep.service = service ∧ ∃ obs ∈ s.replicasObserved.get rep.id, Q obs.state := by
    intro items
    induction items with
    | nil => simp
    | cons rep items ih =>
      intro best
      rw [foldl_cons, ih, better_iff hup, exists_mem_cons_iff, or_assoc]
  rw [bestObservedState, hfold]
  simp only [hzero, false_or, l.perm.mem_iff]

end Best

theorem satisfied_iff {s : State} (l : s.replicasDesired.Listing) (deployment : String) {d : Dependency}
    (h : d.condition ≠ "") :
    dependencySatisfied (bestObservedState s l.items deployment d.service) d.condition = true ↔ Met s deployment d := by
  rw [bestObservedState_iff (Q := fun state => dependencySatisfied state d.condition = true)
    (fun _ _ hrank => dependencySatisfied_mono hrank) (not_dependencySatisfied_unspecified _) l]
  simp only [dependencySatisfied_eq h, Met]

/-- What compose-go guarantees: an empty document does not load, and the names of services are plain. -/
structure ComposeGo (P : Parsers) : Prop where
  empty : ∀ project, P.loadCompose [] ≠ .ok project
  names : ∀ yaml project, P.loadCompose yaml = .ok project → ∀ svc ∈ project.services, NulFree svc.name

section Agreement

variable {P : Parsers} {s : State} {rep : ReplicaDesired} {compose : Bytes} {spec : ContainerSpec}

theorem dependenciesFor_of_project (hP : ComposeGo P) (h : project P s rep = .ok (compose, spec)) :
    NulFree rep.service ∧ dependenciesFor P s rep.deployment rep.service = spec.dependsOn ∧
      ∀ d ∈ spec.dependsOn, d.condition ≠ "" := by
  unfold project at h
  split at h
  · cases h
  · rename_i dep hdep
    split at h
    · cases h
    · rename_i loaded hload
      split at h
      · cases h
      · split at h
        · cases h
        · rename_i svc hfind
          have hname : svc.name = rep.service := by simpa using List.find?_some hfind
          have hyaml : dep.composeYaml ≠ [] := fun he => hP.empty loaded (he ▸ hload)
          have hspec : spec.dependsOn = dependsOnFromCompose svc.dependsOn := by
            cases h
            split <;> rfl
          refine ⟨hname ▸ hP.names _ _ hload svc (mem_of_find?_eq_some hfind), ?_, ?_⟩
          · simp only [dependenciesFor, hdep, if_neg hyaml, hload, hfind]
            exact hspec.symm
          · rw [hspec]
            exact fun d => condition_ne_empty

theorem dependenciesFor_of_nul (hP : ComposeGo P) (deployment : String) {service : String} (h : ¬ NulFree service) :
    dependenciesFor P s deployment service = [] := by
  unfold dependenciesFor
  split
  · rfl
  · split
    · rfl
    · split
      · rfl
      · rename_i project hload
        split
        · rfl
        · rename_i svc hfind
          have hname : svc.name = service := by simpa using List.find?_some hfind
          exact absurd (hname ▸ hP.names _ _ hload svc (mem_of_find?_eq_some hfind)) h

def Shadowed (l : Iterations s) (req : GetReplicasRequest) (rep : ReplicaDesired) : Prop :=
  ∃ q, (l.replicas.items.filter req.selects).find? (fun q => cacheKey q = cacheKey rep) = some q ∧
    q.service ≠ rep.service

theorem reported (hP : ComposeGo P) (l : Iterations s) (req : GetReplicasRequest) (hrep : rep ∈ s.replicasDesired.list)
    (hspec : project P s rep = .ok (compose, spec)) {found : ReplicaDetail} (hfound : found ∈ getReplicas P s l req)
    (hid : found.id = rep.id) :
    Shadowed l req rep ∧ found.dependsOn = [] ∨
      ¬ Shadowed l req rep ∧ found.dependsOn = resolveDependsOn s l rep spec.dependsOn := by
  obtain ⟨⟨rd, deps⟩, hmem, rfl⟩ := mem_map.1 ((perm_insertionSort _ _).mem_iff.1 hfound)
  obtain ⟨hrd, q, hq, rfl⟩ := mem_memoMap cacheKey _ [] (fun _ => rfl) hmem
  rw [nil_append] at hq
  have hsame : rd = rep := by
    have hget := (l.replicas.mem_items rd).1 (mem_filter.1 hrd).1
    rw [show rd.id = rep.id from hid, Store.mem_list.1 hrep] at hget
    exact (Option.some.inj hget).symm
  subst hsame
  obtain ⟨hplain, hdeps, -⟩ := dependenciesFor_of_project hP hspec
  have hkey : rolloutPlanKey q.deployment q.service = rolloutPlanKey rd.deployment rd.service := by
    have hkeys := List.find?_some hq
    exact of_decide_eq_true hkeys
  by_cases hservice : q.service = rd.service
  · obtain ⟨hdeployment, -⟩ := rolloutPlanKey_inj (hservice ▸ hplain) hplain hkey
    refine .inr ⟨?_, ?_⟩
    · rintro ⟨q', hq', hne⟩
      cases hq.symm.trans hq'
      exact hne hservice
    · change resolveDependsOn s l rd (dependenciesFor P s q.deployment q.service) = _
      rw [hdeployment, hservice, hdeps]
  · refine .inl ⟨⟨q, hq, hservice⟩, ?_⟩
    have hnul : ¬ NulFree q.service := fun hfree => hservice (rolloutPlanKey_inj hfree hplain hkey).2
    change resolveDependsOn s l rd (dependenciesFor P s q.deployment q.service) = []
    rw [dependenciesFor_of_nul hP _ hnul]
    rfl

def Held (s : State) (deployment : String) (deps : List Dependency) : Prop :=
  ∃ d ∈ deps, d.required = true ∧ ¬ Met s deployment d

theorem gate_as_reported_iff (P : Parsers) (hP : ComposeGo P) (s : State) (l : Iterations s) (req : GetReplicasRequest)
    (order : Dependency → s.replicasDesired.Listing) (rep : ReplicaDesired) (hrep : rep ∈ s.replicasDesired.list)
    (compose : Bytes) (spec : ContainerSpec) (hspec : project P s rep = .ok (compose, spec)) (found : ReplicaDetail)
    (hfound : found ∈ getReplicas P s l req) (hid : found.id = rep.id) :
    (checkDependsOn s order rep.deployment spec.dependsOn = none ↔ ∀ e ∈ found.dependsOn, e.satisfied = true) ↔
      Shadowed l req rep ∧ ¬ Held s rep.deployment spec.dependsOn ∨
        ¬ Shadowed l req rep ∧
          ((∀ d ∈ spec.dependsOn, d.required = true) ∨ Held s rep.deployment spec.dependsOn) := by
  have hgate : checkDependsOn s order rep.deployment spec.dependsOn = none ↔
      ¬ Held s rep.deployment spec.dependsOn := by
    rw [checkDependsOn_eq_none_iff]
    simp [Held]
  rw [hgate]
  rcases reported hP l req hrep hspec hfound hid with ⟨hshadowed, hentries⟩ | ⟨hshadowed, hentries⟩
  · simp [hentries, hshadowed]
  · obtain ⟨-, -, hconditions⟩ := dependenciesFor_of_project hP hspec
    have hsatisfied : (∀ e ∈ found.dependsOn, e.satisfied = true) ↔
        (∀ d ∈ spec.dependsOn, d.required = true) ∧ ¬ Held s rep.deployment spec.dependsOn := by
      rw [hentries, resolveDependsOn, forall_mem_map]
      constructor
      · intro h
        refine ⟨fun d hd => (Bool.and_eq_true_iff.1 (h d hd)).1, ?_⟩
        rintro ⟨d, hd, -, hunmet⟩
        exact hunmet ((satisfied_iff _ _ (hconditions d hd)).1 (Bool.and_eq_true_iff.1 (h d hd)).2)
      · rintro ⟨hrequired, hheld⟩ d hd
        refine Bool.and_eq_true_iff.2 ⟨hrequired d hd, (satisfied_iff _ _ (hconditions d hd)).2 ?_⟩
        exact by_contra (fun hunmet => hheld ⟨d, hd, hrequired d hd, hunmet⟩)
    rw [hsatisfied]
    simp only [hshadowed, false_and, not_false_eq_true, true_and, false_or]
    tauto

end Agreement

namespace Advisory

def yaml (required : String) : Bytes :=
  ("services:\n  cache:\n    image: redis\n  web:\n    image: nginx\n    depends_on:\n      cache:\n" ++
    "        condition: service_started\n        required: " ++ required ++ "\n").toList.flatMap String.utf8EncodeChar

def webService (required : Bool) : ServiceConfig :=
  { name := "web", image := "nginx", dependsOn := [⟨"cache", "service_started", required⟩] }

def project (required : Bool) : Project :=
  ⟨[{ name := "cache", image := "redis" }, webService required], by simp [webService]⟩

def parsers : Parsers where
  decodeJaco _ := .error (invalid "")
  mailError _ := none
  validateCompose _ := none
  loadCompose b :=
    if b = yaml "true" then .ok (project true) else if b = yaml "false" then .ok (project false)
    else .error "empty compose file"
  specHash b _ := .ok b

def web : ReplicaDesired :=
  { id := "shop-web-0", deployment := "shop", service := "web", host := "node-a", image := "nginx" }

def state (required : String) : State :=
  { State.new with
    deployments := Store.empty.apply
      { name := "shop", appliedRevision := 1, status := .active, composeYaml := yaml required,
        services := ["cache", "web"].map (fun name => { name, replicas := 1, placement := .spread }) }
    replicasDesired := (Store.empty.apply web).apply
      { id := "shop-cache-0", deployment := "shop", service := "cache", host := "node-a", image := "redis" } }

def spec (required : Bool) : ContainerSpec :=
  toContainerSpec (webService required)
    { clusterID := "", deployment := "shop", service := "web", replicaID := "shop-web-0", replicaIndex := 0,
      raftIndex := 0 }

def iterations (s : State) : Iterations s := ⟨s.replicasDesired.listing, fun _ _ => s.replicasDesired.listing⟩

theorem composeGo : ComposeGo parsers := by
  have hloads : ∀ b loaded, parsers.loadCompose b = .ok loaded → ∃ required, loaded = project required ∧ b ≠ [] := by
    intro b loaded h
    dsimp only [parsers] at h
    split at h
    · rename_i hb
      cases h
      exact ⟨true, rfl, hb ▸ by decide +kernel⟩
    · split at h
      · rename_i hb
        cases h
        exact ⟨false, rfl, hb ▸ by decide +kernel⟩
      · cases h
  constructor
  · intro loaded h
    obtain ⟨-, -, hne⟩ := hloads _ _ h
    exact hne rfl
  · intro b loaded h
    obtain ⟨required, rfl, -⟩ := hloads _ _ h
    simp [project, webService, NulFree]

end Advisory

open Advisory in
theorem required_cache_reported :
    (checkDependsOn (state "true") (fun _ => (state "true").replicasDesired.listing) web.deployment
      (spec true).dependsOn = none ↔
      ∀ e ∈ (detail (state "true") web [⟨"cache", "service_started", .unspecified, false⟩]).dependsOn,
      e.satisfied = true) := by
  refine (gate_as_reported_iff parsers composeGo (state "true") (iterations _) ⟨"", "", "shop-web-0"⟩ _ web
    (by decide +kernel) (yaml "true") (spec true) (by decide +kernel) _ (by decide +kernel) rfl).2
      (.inr ⟨?_, .inl (by decide +kernel)⟩)
  rintro ⟨q, hq, hne⟩
  have hweb : ((iterations (state "true")).replicas.items.filter
      (GetReplicasRequest.selects ⟨"", "", "shop-web-0"⟩)).find?
      (fun q => cacheKey q = cacheKey web) = some web := by decide +kernel
  cases hweb.symm.trans hq
  exact hne rfl

open Advisory in
theorem optional_dependency_reported_unsatisfied :
    Reconciler.project parsers (state "false") web = .ok (yaml "false", spec false) ∧
      checkDependsOn (state "false") (fun _ => (state "false").replicasDesired.listing) "shop"
      (spec false).dependsOn = none ∧
      getReplicas parsers (state "false") (iterations _) ⟨"", "", "shop-web-0"⟩ =
        [detail (state "false") web [⟨"cache", "service_started", .unspecified, false⟩]] := by
  decide +kernel

end Jaco.ReplicaDetails
