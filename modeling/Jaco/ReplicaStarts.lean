import Jaco.StartOutcomes
import Jaco.SchedulerOffers

namespace Jaco.Reconciler

open Docker Lifecycle Interleaving Runs Scheduler List Function

structure SpecOptions where
  clusterID : String
  deployment : String
  service : String
  replicaID : String
  replicaIndex : Int
  raftIndex : Nat

def jacoLabels (opts : SpecOptions) : StringMap :=
  [("jaco.cluster_id", opts.clusterID), ("jaco.deployment", opts.deployment), ("jaco.service", opts.service),
    (labelReplicaID, opts.replicaID), ("jaco.replica_index", toString opts.replicaIndex),
    (labelRaftIndex, toString opts.raftIndex)]

def labelsWithJACO (user : StringMap) (opts : SpecOptions) : StringMap :=
  user.filter (fun kv => kv.1 ∉ (jacoLabels opts).map Prod.fst) ++ jacoLabels opts

def networkName (deployment network : String) : String :=
  "jaco_" ++ deployment ++ "_" ++ (if network = "default" then "_default" else network)

def networksFromCompose (networks : List String) (deployment : String) : List String :=
  if networks = [] then [networkName deployment "_default"] else networks.map (networkName deployment)

def dependencyConditionStarted : String := "service_started"

def dependencyConditionHealthy : String := "service_healthy"

def dependsOnFromCompose (deps : List ServiceDependency) : List Dependency :=
  (deps.map (fun d => ⟨d.service, if d.condition = "" then dependencyConditionStarted else d.condition,
    d.required⟩)).insertionSort
    (fun a b => a.service ≤ b.service)

def toContainerSpec (svc : ServiceConfig) (opts : SpecOptions) : ContainerSpec where
  deployment := opts.deployment
  replicaID := opts.replicaID
  raftIndex := opts.raftIndex
  image := svc.image
  labels := labelsWithJACO svc.labels opts
  networks := networksFromCompose svc.networks opts.deployment
  networkMode := svc.networkMode
  pullPolicy := svc.pullPolicy
  dependsOn := dependsOnFromCompose svc.dependsOn

/-- `runStart` up to the point where it has its container spec, with the compose document it used. -/
def project (P : Parsers) (s : State) (rep : ReplicaDesired) : Except String (Bytes × ContainerSpec) :=
  match s.deployments.get rep.deployment with
  | none => .error ("deployment " ++ rep.deployment ++ " missing from state")
  | some dep =>
    match P.loadCompose dep.composeYaml with
    | .error e => .error ("compose parse: " ++ e)
    | .ok loaded =>
      if rep.service ∉ dep.services.map (·.name) then
        .error ("service " ++ rep.service ++ " missing from deployment " ++ rep.deployment)
      else match loaded.services.find? (·.name = rep.service) with
        | none => .error ("compose service " ++ GoStrings.quote rep.service ++ " not in project")
        | some svc =>
          let svc := if rep.image ≠ "" then { svc with image := rep.image } else svc
          .ok (dep.composeYaml, toContainerSpec svc
            { clusterID := (s.cluster.map (·.clusterId)).getD "", deployment := rep.deployment,
              service := rep.service, replicaID := rep.id, replicaIndex := rep.index, raftIndex := rep.raftIndex })

structure Job where
  rep : ReplicaDesired
  compose : Bytes
  spec : ContainerSpec

/-- A node and its engine. `seen` are the replica records the node has stored so far, `built` the compose document
each container was created from. -/
structure World where
  index : Nat := 0
  state : State := .new
  seen : List ReplicaDesired := []
  jobs : List Job := []
  engine : Engine := .empty
  built : Nat → Bytes := fun _ => []

inductive Event where
  | command (gap : Nat) (c : Command)
  | begin (rep : ReplicaDesired)
  | abandon (i : Nat)
  | finish (i : Nat) (gate : Option (State × String)) (resolver : Option NetworkModeResolver) (fates : List Fate)
  | exited (id : Nat)
  | removed (id : Nat)
  | restart

def stored (idx : Nat) (c : Command) : List ReplicaDesired := (upsertsIn c).map (fun r => { r with raftIndex := idx })

def Job.start (j : Job) (e : Engine) (gate : Option (State × String)) (resolver : Option NetworkModeResolver)
    (fates : List Fate) : Except String Nat × Session :=
  startWithPullState j.spec gate resolver ⟨e, fates⟩

section

variable (P : Parsers)

def step (w : World) : Event → World
  | .command gap c =>
    { w with
      index := w.index + gap + 1
      state := c.apply (w.index + gap + 1) w.state
      seen := w.seen ++ stored (w.index + gap + 1) c }
  | .begin rep =>
    if rep ∈ w.seen then
      match project P w.state rep with
      | .error _ => w
      | .ok (compose, spec) => { w with jobs := w.jobs ++ [⟨rep, compose, spec⟩] }
    else w
  | .abandon i => { w with jobs := w.jobs.eraseIdx i }
  | .finish i gate resolver fates =>
    match w.jobs[i]? with
    | none => w
    | some j =>
      let e := (j.start w.engine gate resolver fates).2.engine
      { w with
        jobs := w.jobs.eraseIdx i
        engine := e
        built := if e.nextId = w.engine.nextId then w.built else update w.built w.engine.nextId j.compose }
  | .exited id => { w with engine := w.engine.setState id "exited" }
  | .removed id => { w with engine := w.engine.remove id }
  | .restart => { w with jobs := [] }

/-- The container a start returns has the record's image, and was created from a document in which the record's
service has the record's hash. -/
def StartsAsRecorded (w : World) : Event → Prop
  | .finish i gate resolver fates => ∀ j, w.jobs[i]? = some j → ∀ id,
      (j.start w.engine gate resolver fates).1 = .ok id →
      P.specHash ((step P w (.finish i gate resolver fates)).built id) j.rep.service = .ok j.rep.specHash ∧
        ∃ c, (step P w (.finish i gate resolver fates)).engine.find id = some c ∧ c.image = j.rep.image
  | _ => True

/-- When a start reads the deployment, it still defines the service as the record has it; and no command stores two
records under one id, or one without an image. -/
def Unchanged (w : World) : Event → Prop
  | .command _ c => ∀ r ∈ upsertsIn c, r.image ≠ "" ∧ ∀ r' ∈ upsertsIn c, r.id = r'.id → r = r'
  | .begin rep => ∀ dep ∈ w.state.deployments.get rep.deployment,
      P.specHash dep.composeYaml rep.service = .ok rep.specHash
  | _ => True

instance (w : World) (e : Event) : Decidable (Unchanged P w e) := by
  cases e <;> unfold Unchanged <;> infer_instance

def Matches (rep : ReplicaDesired) (labels : StringMap) (image : String) (compose : Bytes) : Prop :=
  (∀ v, (labelReplicaID, v) ∈ labels → v = rep.id) ∧ labels.lookup labelRaftIndex = some (toString rep.raftIndex) ∧
    image = rep.image ∧ P.specHash compose rep.service = .ok rep.specHash

structure Traced (w : World) : Prop where
  recent : ∀ r ∈ w.seen, r.raftIndex ≤ w.index ∧ r.image ≠ ""
  unique : ∀ r ∈ w.seen, ∀ r' ∈ w.seen, r.id = r'.id → r.raftIndex = r'.raftIndex → r = r'
  jobs : ∀ j ∈ w.jobs, j.rep ∈ w.seen ∧ j.spec.replicaID = j.rep.id ∧ j.spec.raftIndex = j.rep.raftIndex ∧
    Matches P j.rep j.spec.labels j.spec.image j.compose
  containers : ∀ c ∈ w.engine.containers, ∃ r ∈ w.seen, Matches P r c.labels c.image (w.built c.id)

theorem matches_labels (user : StringMap) (opts : SpecOptions) :
    (∀ v, (labelReplicaID, v) ∈ labelsWithJACO user opts → v = opts.replicaID) ∧
      (labelsWithJACO user opts).lookup labelRaftIndex = some (toString opts.raftIndex) := by
  constructor
  · intro v hv
    rcases mem_append.mp hv with hv | hv
    · have := (mem_filter.mp hv).2
      simp [jacoLabels] at this
    · simpa [jacoLabels, labelReplicaID, labelRaftIndex] using hv
  · have hnone : (user.filter (fun kv => kv.1 ∉ (jacoLabels opts).map Prod.fst)).lookup labelRaftIndex = none := by
      rw [lookup_eq_none_iff]
      intro kv hkv
      have hnot := (mem_filter.mp hkv).2
      simp only [decide_eq_true_eq] at hnot
      simp only [bne_iff_ne, ne_eq]
      rintro heq
      exact hnot (heq ▸ by simp [jacoLabels])
    rw [labelsWithJACO, lookup_append, hnone]
    rfl

theorem project_matches {s : State} {rep : ReplicaDesired} {compose : Bytes} {spec : ContainerSpec}
    (h : project P s rep = .ok (compose, spec)) (himage : rep.image ≠ "")
    (hhash : ∀ dep ∈ s.deployments.get rep.deployment, P.specHash dep.composeYaml rep.service = .ok rep.specHash) :
    spec.replicaID = rep.id ∧ spec.raftIndex = rep.raftIndex ∧ Matches P rep spec.labels spec.image compose := by
  unfold project at h
  split at h
  · cases h
  · rename_i dep hdep
    split at h
    · cases h
    · split at h
      · cases h
      · split at h
        · cases h
        · rename_i svc _
          cases h
          obtain ⟨hid, hidx⟩ := matches_labels svc.labels
            { clusterID := (s.cluster.map (·.clusterId)).getD "", deployment := rep.deployment,
              service := rep.service, replicaID := rep.id, replicaIndex := rep.index, raftIndex := rep.raftIndex }
          exact ⟨rfl, rfl, hid, hidx, rfl, hhash dep hdep⟩

variable {w : World} {e : Engine} {j : Job}

theorem traced_command {gap : Nat} {c : Command} (h : Traced P w)
    (hc : Unchanged P w (.command gap c)) : Traced P (step P w (.command gap c)) := by
  have hnew : ∀ r ∈ stored (w.index + gap + 1) c, r.raftIndex = w.index + gap + 1 ∧ r.image ≠ "" := by
    intro r hr
    obtain ⟨r₀, hr₀, rfl⟩ := mem_map.mp hr
    exact ⟨rfl, (hc r₀ hr₀).1⟩
  refine ⟨?_, ?_, ?_, ?_⟩
  · intro r hr
    rcases mem_append.mp hr with hr | hr
    · obtain ⟨hle, himage⟩ := h.recent r hr
      exact ⟨by simp only [step]; omega, himage⟩
    · exact ⟨(hnew r hr).1.le, (hnew r hr).2⟩
  · intro r hr r' hr' hid hidx
    rcases mem_append.mp hr with hr | hr <;> rcases mem_append.mp hr' with hr' | hr'
    · exact h.unique r hr r' hr' hid hidx
    · have := (h.recent r hr).1
      have := (hnew r' hr').1
      omega
    · have := (hnew r hr).1
      have := (h.recent r' hr').1
      omega
    · obtain ⟨r₀, hr₀, rfl⟩ := mem_map.mp hr
      obtain ⟨r₁, hr₁, rfl⟩ := mem_map.mp hr'
      rw [(hc r₀ hr₀).2 r₁ hr₁ hid]
  · intro j hj
    obtain ⟨hseen, hrest⟩ := h.jobs j hj
    exact ⟨mem_append_left _ hseen, hrest⟩
  · intro k hk
    obtain ⟨r, hr, hmatch⟩ := h.containers k hk
    exact ⟨r, mem_append_left _ hr, hmatch⟩

theorem traced_begin {rep : ReplicaDesired} (h : Traced P w) (hc : Unchanged P w (.begin rep)) :
    Traced P (step P w (.begin rep)) := by
  simp only [step]
  split
  · rename_i hseen
    split
    · exact h
    · rename_i compose spec hproject
      exact { h with
        jobs := forall_mem_snoc h.jobs ⟨hseen, project_matches P hproject (h.recent rep hseen).2 hc⟩ }
  · exact h

theorem traced_keeps {jobs : List Job} (h : Traced P w) (hk : Keeps w.engine e)
    (hjobs : ∀ j ∈ jobs, j ∈ w.jobs) : Traced P { w with engine := e, jobs := jobs } := by
  refine { h with jobs := fun j hj => h.jobs j (hjobs j hj), containers := ?_ }
  intro c hc
  obtain ⟨d, hd, hid, hlabels, himage, -⟩ := hk.2 c hc
  obtain ⟨r, hr, hmatch⟩ := h.containers d hd
  refine ⟨r, hr, ?_⟩
  rw [hlabels, himage, hid]
  exact hmatch

theorem traced_creates {jobs : List Job} (h : Traced P w) (hj : j ∈ w.jobs)
    (hc : Creates j.spec w.engine e) (hjobs : ∀ j ∈ jobs, j ∈ w.jobs) :
    Traced P { w with engine := e, jobs := jobs, built := update w.built w.engine.nextId j.compose } := by
  refine { h with jobs := fun j hj => h.jobs j (hjobs j hj), containers := ?_ }
  intro c hc'
  rcases hc.2 c hc' with ⟨d, hd, hid, hlabels, himage, -⟩ | ⟨hid, hlabels, himage⟩
  · obtain ⟨r, hr, hmatch⟩ := h.containers d hd
    refine ⟨r, hr, ?_⟩
    have hne : d.id ≠ w.engine.nextId := Nat.ne_of_lt (w.engine.fresh d hd)
    rw [hlabels, himage, hid]
    dsimp only
    rw [update_of_ne hne]
    exact hmatch
  · obtain ⟨hseen, -, -, hmatch⟩ := h.jobs j hj
    refine ⟨j.rep, hseen, ?_⟩
    rw [hlabels, himage, hid]
    dsimp only
    rw [update_self]
    exact hmatch

theorem matches_of_listed {c : Container} (h : Traced P w) (hj : j ∈ w.jobs)
    (hlisted : listed w.engine j.spec.replicaID = some c) (hidx : matchesRaftIndex c j.spec.raftIndex = true) :
    c ∈ w.engine.containers ∧ Matches P j.rep c.labels c.image (w.built c.id) := by
  obtain ⟨hseen, hid, hraft, -⟩ := h.jobs j hj
  have hmem : c ∈ w.engine.containers := mem_of_find?_eq_some hlisted
  obtain ⟨r, hr, hmatch⟩ := h.containers c hmem
  have hlabel : (labelReplicaID, j.spec.replicaID) ∈ c.labels := by simpa using List.find?_some hlisted
  have hrid : r.id = j.rep.id := ((hmatch.1 _ hlabel).symm.trans hid)
  have hridx : r.raftIndex = j.rep.raftIndex := by
    simp only [matchesRaftIndex, Container.label, hmatch.2.1, Option.getD_some, Bool.and_eq_true,
      decide_eq_true_eq] at hidx
    rw [← hraft]
    exact GoStrings.eq_of_parseUint_toString hidx.2
  have hrep : r = j.rep := h.unique r hr j.rep hseen hrid hridx
  exact ⟨hmem, hrep ▸ hmatch⟩

theorem find_of_keeps {e' : Engine} {c c' : Container} (hk : Keeps e e') (hc : c ∈ e.containers)
    (hfind : e'.find c.id = some c') : c'.image = c.image := by
  obtain ⟨hmem, hid⟩ := Engine.mem_of_find hfind
  obtain ⟨d, hd, hdid, -, himage, -⟩ := hk.2 c' hmem
  have hdc : d = c := inj_on_of_nodup_map e.nodup hd hc (hdid.symm.trans hid)
  rw [himage, hdc]

theorem finish_spec {i : Nat} {gate : Option (State × String)}
    {resolver : Option NetworkModeResolver} {fates : List Fate} (h : Traced P w) (hj : w.jobs[i]? = some j) :
    Traced P (step P w (.finish i gate resolver fates)) ∧
      StartsAsRecorded P w (.finish i gate resolver fates) := by
  have hmem : j ∈ w.jobs := mem_of_getElem? hj
  have hjobs : ∀ k ∈ w.jobs.eraseIdx i, k ∈ w.jobs := fun k hk => mem_of_mem_eraseIdx hk
  obtain ⟨hseen, -, -, hmatch⟩ := h.jobs j hmem
  have hstep : step P w (.finish i gate resolver fates) = { w with
        jobs := w.jobs.eraseIdx i
        engine := (j.start w.engine gate resolver fates).2.engine
        built := if (j.start w.engine gate resolver fates).2.engine.nextId = w.engine.nextId then w.built
          else update w.built w.engine.nextId j.compose } := by
    simp only [step, hj]
  rw [StartsAsRecorded, hstep]
  have hall : ∀ {Q : Job → Prop}, Q j → ∀ k, w.jobs[i]? = some k → Q k := by
    intro Q hQ k hk
    rw [hj] at hk
    cases hk
    exact hQ
  cases hrun : j.start w.engine gate resolver fates with
  | mk r t =>
    have houtcome := start_outcome hrun
    rcases houtcome with (⟨hk, hno⟩ | ⟨hc, -, hok⟩) | ⟨hk, c, hlisted, hidx, hr, c', hc'⟩
    · rw [if_pos hk.1]
      refine ⟨traced_keeps P h hk hjobs, hall ?_⟩
      intro id hid
      rw [hrun] at hid
      exact absurd hid (hno id)
    · have hnew : t.engine.nextId ≠ w.engine.nextId := by
        rw [hc.1]
        exact Nat.succ_ne_self _
      rw [if_neg hnew]
      have htraced := traced_creates P h hmem hc hjobs
      refine ⟨htraced, hall ?_⟩
      intro id hid
      rw [hrun] at hid
      obtain ⟨rfl, c, hfind⟩ := hok id hid
      obtain ⟨hcmem, hcid⟩ := Engine.mem_of_find hfind
      have himage : c.image = j.spec.image := by
        rcases hc.2 c hcmem with ⟨d, hd, hdid, -⟩ | ⟨-, -, himage⟩
        · exact absurd (hdid.symm.trans hcid) (Nat.ne_of_lt (w.engine.fresh d hd))
        · exact himage
      refine ⟨?_, c, hfind, himage.trans hmatch.2.2.1⟩
      dsimp only
      rw [update_self]
      exact hmatch.2.2.2
    · rw [if_pos hk.1]
      refine ⟨traced_keeps P h hk hjobs, hall ?_⟩
      obtain ⟨hcmem, hcmatch⟩ := matches_of_listed P h hmem hlisted hidx
      intro id hid
      rw [hrun] at hid
      obtain rfl : c.id = id := Except.ok.inj (hr.symm.trans hid)
      exact ⟨hcmatch.2.2.2, c', hc', (find_of_keeps hk hcmem hc').trans hcmatch.2.2.1⟩

theorem traced_step (w : World) (e : Event) (h : Traced P w) (hc : Unchanged P w e) :
    Traced P (step P w e) ∧ StartsAsRecorded P w e := by
  cases e with
  | command gap c => exact ⟨traced_command P h hc, trivial⟩
  | begin rep => exact ⟨traced_begin P h hc, trivial⟩
  | abandon i =>
    exact ⟨traced_keeps P h (.refl _) (fun j hj => mem_of_mem_eraseIdx hj), trivial⟩
  | finish i gate resolver fates =>
    cases hj : w.jobs[i]? with
    | none =>
      have hstep : step P w (.finish i gate resolver fates) = w := by simp only [step, hj]
      rw [hstep]
      refine ⟨h, ?_⟩
      intro j hj'
      rw [hj] at hj'
      cases hj'
    | some j => exact finish_spec P h hj
  | exited id => exact ⟨traced_keeps P h (keeps_setState _ id "exited") (fun _ hj => hj), trivial⟩
  | removed id => exact ⟨traced_keeps P h (keeps_remove _ id) (fun _ hj => hj), trivial⟩
  | restart => exact ⟨traced_keeps P h (.refl _) nofun, trivial⟩

theorem traced_start : Traced P {} where
  recent := nofun
  unique := nofun
  jobs := nofun
  containers := nofun

theorem starts_as_recorded (es : List Event) (h : Along (step P) (Unchanged P) {} es) :
    Along (step P) (StartsAsRecorded P) {} es :=
  (along_of_invariant (step P) (Traced P) (Unchanged P) (StartsAsRecorded P) (traced_step P) {} es (traced_start P) h).2

end

namespace Sample

open Scheduler.Sample

def replica : ReplicaDesired where
  id := "sample-web-0"
  deployment := "sample"
  service := "web"
  host := "node-a"
  image := "nginx:1.27"
  specHash := compose "1.27"

def started : List Event :=
  [.command 0 (.single (applied 1 "1.27")), .command 0 (upsertCommand 0 replica),
    .begin { replica with raftIndex := 2 },
    .finish 0 none none []]

def lost : List Event :=
  [.command 0 (.single (applied 2 "1.28")), .removed 0, .begin { replica with raftIndex := 2 }]

end Sample

open Sample Scheduler.Sample

theorem first_start_as_recorded :
    Along (step parsers) (Unchanged parsers) {} (started ++ [.exited 0, .begin { replica with raftIndex := 2 },
        .finish 0 none none []]) ∧
      Along (step parsers) (StartsAsRecorded parsers) {} (started ++ [.exited 0,
        .begin { replica with raftIndex := 2 }, .finish 0 none none []]) :=
  ⟨by decide +kernel, starts_as_recorded parsers _ (by decide +kernel)⟩

theorem lost_replica_gets_new_definition :
    ¬ Along (step parsers) (StartsAsRecorded parsers) {} (started ++ lost ++ [.finish 0 none none []]) := by
  intro h
  rw [along_append] at h
  obtain ⟨-, h, -⟩ := h
  obtain ⟨hhash, -⟩ := h _ rfl 1 (by rfl)
  revert hhash
  decide +kernel

end Jaco.Reconciler
