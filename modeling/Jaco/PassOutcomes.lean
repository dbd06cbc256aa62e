import Jaco.DriveOutcomes

namespace Jaco.Scheduler

open Interleaving Placement Rollout List

def hostsIn (s : State) (svc : ServiceSpec) : List String := eligibleHosts svc s.nodes.list

theorem nodup_hostsIn {s : State} {svc : ServiceSpec} : (hostsIn s svc).Nodup := by
  have hnames : ((s.nodes.list.filter (·.status = .ready)).map (·.hostname)).Nodup :=
    (filter_sublist.map _).nodup s.nodes.nodup_list
  unfold hostsIn eligibleHosts
  dsimp only
  split
  · exact (perm_insertionSort _ _).nodup_iff.2 (hnames.filter _)
  · exact (perm_insertionSort _ _).nodup_iff.2 hnames

theorem sortNames_hostsIn {s : State} {svc : ServiceSpec} : sortNames (hostsIn s svc) = hostsIn s svc :=
  sortNames_perm (perm_insertionSort _ _)

def Unblocked (P : Parsers) (s : State) (dep : Deployment) : Prop :=
  ∃ project, P.loadCompose dep.composeYaml = .ok project ∧ ∀ svc ∈ dep.services,
    lookupImage project svc.name ≠ "" ∧ (∃ h, P.specHash dep.composeYaml svc.name = .ok h) ∧
      Placeable svc (hostsIn s svc)

inductive Item where
  | stale (dep : Deployment)
  | serve (dep : Deployment) (svc : ServiceSpec)

def itemsOf (aborted : List String) (dep : Deployment) : List Item :=
  if dep.name ∈ aborted then [] else .stale dep :: dep.services.map (.serve dep)

structure Sees (P : Parsers) (s : State) (p : Pass) (desired : List DesiredReplica) : Prop where
  image : ∃ project, P.loadCompose p.dep.composeYaml = .ok project ∧ p.image = lookupImage project p.svc.name
  specHash : P.specHash p.dep.composeYaml p.svc.name = .ok p.specHash
  eligible : p.eligible = hostsIn s p.svc
  current : ∀ r, r ∈ p.current ↔
    s.replicasDesired.get r.id = some r ∧ r.deployment = p.dep.name ∧ r.service = p.svc.name
  rolling : p.rolling = isRollingImageChange p.current p.image
  placed : ∃ counts, desiredReplicas p.dep p.svc p.eligible counts = .ok desired
  ids : desired.map (·.id) = wantedIDs p.dep p.svc p.eligible

section Relations

variable (P : Parsers) (C : Timestamp → Prop)

def Steps (s : State) (p : Pass) (cs : List Command) (s' : State) : Prop :=
  if p.rolling then Drove C s p.dep p.svc (stepsOf p.svc p.eligible) p.rolloutStep cs s'
  else p.rolloutStep = -1 ∧ cs = [] ∧ s' = s

inductive Does (s : State) : Item → State → List Command → List Command → Prop
  | stale (dep : Deployment) (now : Timestamp) (stale : List ReplicaDesired)
      (h : ∀ r, r ∈ stale ↔ s.replicasDesired.get r.id = some r ∧ r.deployment = dep.name ∧
        r.service ∉ dep.services.map (·.name)) :
      Does s (.stale dep) s (stale.map (fun r => removeCommand now r.id)) []
  | serve (p : Pass) (desired : List DesiredReplica) (cs : List Command) (s' : State) (h : Sees P s p desired)
      (hsteps : Steps C s p cs s') : Does s (.serve p.dep p.svc) s' (p.commands desired) cs

inductive Chain : State → List Item → State → List Command → List Command → Prop
  | done (s : State) : Chain s [] s [] []
  | step {s s₁ s₂ : State} {item : Item} {items : List Item} {batch₁ batch₂ cs₁ cs₂ : List Command}
      (h : Does P C s item s₁ batch₁ cs₁) (hrest : Chain s₁ items s₂ batch₂ cs₂) :
      Chain s (item :: items) s₂ (batch₁ ++ batch₂) (cs₁ ++ cs₂)

def aborting (plan : RolloutPlan) (now : Timestamp) : RolloutPlan :=
  { plan with state := .aborted, failureReason := "step_timeout", lastStepAt := some now }

def abortCommand (s : State) (plan : RolloutPlan) (now ts : Timestamp) : Command :=
  .batch "rollout" (some ts)
    (planCommand (aborting plan now) ts :: rollbackChild plan.deployment ts (s.deployments.get plan.deployment))

inductive Expires (now : Timestamp) : State → List RolloutPlan → State → List String → List Command → Prop
  | done (s : State) : Expires now s [] s [] []
  | skip {s s' : State} {plan : RolloutPlan} {plans : List RolloutPlan} {aborted : List String} {es : List Command}
      (h : timedOut now plan = false) (hrest : Expires now s plans s' aborted es) :
      Expires now s (plan :: plans) s' aborted es
  | abort {s s' : State} {plan : RolloutPlan} {plans : List RolloutPlan} {aborted : List String} {es : List Command}
      (idx : Nat) (at_ ts : Timestamp) (h : timedOut now plan = true)
      (hrest : Expires now ((abortCommand s plan at_ ts).apply idx s) plans s' aborted es) :
      Expires now s (plan :: plans) s' (plan.deployment :: aborted) (abortCommand s plan at_ ts :: es)

def Submits (s : State) (batch : List Command) (s' : State) (cs : List Command) : Prop :=
  (batch = [] ∧ s' = s ∧ cs = []) ∨
    (batch ≠ [] ∧ ∃ idx ts, s' = (Command.batch "scheduler" (some ts) batch).apply idx s ∧
      cs = [.batch "scheduler" (some ts) batch])

def Passed (s s' : State) (cs : List Command) : Prop :=
  ∃ now plans s₁ aborted es s₂ batch ds xs, ∃ deps : List Deployment, C now ∧
    plans.Perm s.rolloutPlans.list ∧ Expires now s plans s₁ aborted es ∧ deps.Perm s₁.deployments.list ∧
    Chain P C s₁ (deps.flatMap (itemsOf aborted)) s₂ batch ds ∧ Submits s₂ batch s' xs ∧ cs = es ++ (ds ++ xs)

variable {P C}

variable {s s' : State} {cs : List Command}

theorem chain_append {s'' : State} {xs ys : List Item} {b b' cs' : List Command}
    (h : Chain P C s xs s' b cs) (h' : Chain P C s' ys s'' b' cs') :
    Chain P C s (xs ++ ys) s'' (b ++ b') (cs ++ cs') := by
  induction h with
  | done s => exact h'
  | step hd hrest ih =>
    rw [append_assoc, append_assoc]
    exact .step hd (ih h')

def Beside (s s' : State) : Prop := ∃ plans audit, s' = { s with rolloutPlans := plans, auditEvents := audit }

theorem beside_refl (s : State) : Beside s s := ⟨s.rolloutPlans, s.auditEvents, rfl⟩

theorem beside_trans {s'' : State} (h : Beside s s') (h' : Beside s' s'') : Beside s s'' := by
  obtain ⟨plans, audit, rfl⟩ := h
  obtain ⟨plans', audit', rfl⟩ := h'
  exact ⟨plans', audit', rfl⟩

theorem beside_drove {dep : Deployment} {svc : ServiceSpec} {total k : Int}
    (h : Drove C s dep svc total k cs s') : Beside s s' := by
  cases h <;> exact ⟨_, _, rfl⟩

theorem beside_does {item : Item} {batch : List Command} (h : Does P C s item s' batch cs) : Beside s s' := by
  cases h with
  | stale dep now stale h => exact beside_refl s
  | serve p desired _ _ h hsteps =>
    unfold Steps at hsteps
    split at hsteps
    · exact beside_drove hsteps
    · exact hsteps.2.2 ▸ beside_refl s

theorem beside_chain {items : List Item} {batch : List Command} (h : Chain P C s items s' batch cs) : Beside s s' := by
  induction h with
  | done s => exact beside_refl s
  | step hd _ ih => exact beside_trans (beside_does hd) ih

theorem get_abort (s : State) (plan : RolloutPlan) (now ts : Timestamp) (idx : Nat) {key : String}
    (h : plan.key ≠ key) :
    ((abortCommand s plan now ts).apply idx s).rolloutPlans.get key = s.rolloutPlans.get key := by
  have hset : (setPlan s (aborting plan now)).rolloutPlans.get key = s.rolloutPlans.get key :=
    get_setPlan_ne s (show (aborting plan now).key ≠ key from h)
  unfold abortCommand rollbackChild
  split
  · split
    · rename_i d _ _
      have hroll := applyEntry_agree idx (setPlan s (aborting plan now))
        ⟨"rollout", some ts, .deploymentRollback plan.deployment d.previousRevision⟩  .rolloutPlans
        (by simp [writes]) (by decide)
      exact (congrArg (fun plans => plans.get key) hroll).trans hset
    · exact hset
  · exact hset

end Relations

section Specs

variable {P : Parsers} {A : Others → Prop} {C : Timestamp → Prop} (hq : Quiet A C) {s : State}

include hq

theorem drivenStep_solo (dep : Deployment) (svc : ServiceSpec) (eligible : List String) (rolling : Bool) :
    Solo cluster A (At C s) (drivenStep dep svc eligible rolling) (fun k cs w => ∃ s',
      (if rolling then Drove C s dep svc (stepsOf svc eligible) k cs s' else k = -1 ∧ cs = [] ∧ s' = s) ∧
        At C s' w) := by
  unfold drivenStep
  cases rolling with
  | true => exact driveRollout_solo hq dep svc _
  | false => exact solo_ret (fun w hw => ⟨s, ⟨rfl, rfl, rfl⟩, hw⟩)

variable {dep : Deployment} {nodes : List Node}

theorem reconcileService_solo {svc : ServiceSpec} {project : Project}
    {specHash : Bytes} (hload : P.loadCompose dep.composeYaml = .ok project)
    (himage : lookupImage project svc.name ≠ "") (hhash : P.specHash dep.composeYaml svc.name = .ok specHash)
    (hnodes : nodes.Perm s.nodes.list) (hplace : Placeable svc (hostsIn s svc)) :
    Solo cluster A (At C s) (reconcileService dep svc nodes project specHash)
      (fun sp cs w => ∃ s', Does P C s (.serve dep svc) s' sp.commands cs ∧ At C s' w) := by
  have heligible : eligibleHosts svc nodes = hostsIn s svc := eligibleHosts_perm svc hnodes
  refine solo_clock hq (fun now _ => ?_)
  rw [if_neg himage]
  dsimp only
  refine solo_look hq _ (fun v hv => ?_)
  have hcurrent : ∀ r, r ∈ (v.listing v.state.replicasDesired).filter (fun r =>
      r.deployment = dep.name && r.service = svc.name) ↔
      s.replicasDesired.get r.id = some r ∧ r.deployment = dep.name ∧ r.service = svc.name := by
    intro r
    rw [mem_filter, mem_listing, hv.1]
    simp
  generalize (v.listing v.state.replicasDesired).filter (fun r =>
    r.deployment = dep.name && r.service = svc.name) = current at hcurrent ⊢
  rw [heligible]
  obtain ⟨desired, hdesired, hids⟩ : ∃ desired,
      desiredReplicas dep svc _ (fun h => current.countP (·.host = h)) = .ok desired ∧
        desired.map (·.id) = wantedIDs dep svc _ := desiredReplicas_ok hplace _
  rw [hdesired]
  dsimp only
  refine solo_bind (drivenStep_solo hq dep svc _ _) (fun k cs => solo_ret (fun w h => ?_))
  obtain ⟨s', hdrove, hw⟩ := h
  rw [append_nil]
  let p : Pass := ⟨dep, svc, lookupImage project svc.name, specHash, hostsIn s svc, current,
    isRollingImageChange current (lookupImage project svc.name), k, now⟩
  have hsees : Sees P s p desired := ⟨⟨project, hload, rfl⟩, hhash, rfl, hcurrent, rfl, ⟨_, hdesired⟩, hids⟩
  exact ⟨s', .serve p desired cs s' hsees hdrove, hw⟩

theorem services_solo {project : Project} (svcs : List ServiceSpec)
    (hload : P.loadCompose dep.composeYaml = .ok project) (hnodes : nodes.Perm s.nodes.list)
    (hsvcs : ∀ svc ∈ svcs, lookupImage project svc.name ≠ "" ∧ (∃ h, P.specHash dep.composeYaml svc.name = .ok h) ∧
      Placeable svc (hostsIn s svc)) (round : Round) :
    Solo cluster A (At C s) (svcs.foldlM (reconcileDeclared P dep nodes project) round)
      (fun round' cs w => ∃ s' batch, Chain P C s (svcs.map (.serve dep)) s' batch cs ∧
        round'.batch = round.batch ++ batch ∧ At C s' w) := by
  induction svcs generalizing s round with
  | nil => exact solo_ret (fun w hw => ⟨s, [], .done s, (append_nil _).symm, hw⟩)
  | cons svc svcs ih =>
    obtain ⟨himage, ⟨specHash, hhash⟩, hplace⟩ := hsvcs svc mem_cons_self
    rw [foldlM_cons]
    refine solo_bind (R := fun round' cs w => ∃ s' batch, Does P C s (.serve dep svc) s' batch cs ∧
      round'.batch = round.batch ++ batch ∧ At C s' w) ?_ (fun round' cs => ?_)
    · unfold reconcileDeclared
      rw [hhash]
      dsimp only
      refine solo_bind (reconcileService_solo hq hload himage hhash hnodes hplace)
        (fun sp cs => solo_ret (fun w h => ?_))
      obtain ⟨s', hdoes, hw⟩ := h
      exact ⟨s', sp.commands, by rwa [append_nil], rfl, hw⟩
    · refine solo_exists (fun s' => solo_exists (fun batch => solo_pure (fun hdoes => solo_pure (fun hround => ?_))))
      -- serving a service leaves the nodes alone, so the next one sees the same hosts
      have hbeside := beside_does hdoes
      obtain ⟨plans, audit, rfl⟩ := hbeside
      refine solo_mono (ih (s := { s with rolloutPlans := plans, auditEvents := audit }) hnodes
        (fun svc' hsvc' => hsvcs svc' (mem_cons_of_mem svc hsvc')) round')
        (fun _ h => h) (fun round'' ds w h => ?_)
      obtain ⟨s'', batch', hchain, hround', hw⟩ := h
      refine ⟨s'', batch ++ batch', .step hdoes hchain, ?_, hw⟩
      rw [hround', hround, append_assoc]

theorem reconcileDeployment_solo (hnodes : nodes.Perm s.nodes.list) (aborted : List String)
    (round : Round) (hdep : dep.name ∉ aborted → Unblocked P s dep) :
    Solo cluster A (At C s) (reconcileDeployment P nodes aborted round dep)
      (fun round' cs w => ∃ s' batch, Chain P C s (itemsOf aborted dep) s' batch cs ∧
        round'.batch = round.batch ++ batch ∧ At C s' w) := by
  unfold reconcileDeployment itemsOf
  by_cases hname : dep.name ∈ aborted
  · rw [if_pos hname, if_pos hname]
    exact solo_ret (fun w hw => ⟨s, [], .done s, (append_nil _).symm, hw⟩)
  · rw [if_neg hname, if_neg hname]
    obtain ⟨project, hload, hsvcs⟩ := hdep hname
    rw [hload]
    dsimp only
    refine solo_look hq _ (fun v hv => solo_clock hq (fun now _ => ?_))
    have hstale : ∀ r, r ∈ undeclared dep v ↔ s.replicasDesired.get r.id = some r ∧ r.deployment = dep.name ∧
        r.service ∉ dep.services.map (·.name) := by
      intro r
      rw [undeclared, mem_filter, mem_listing, hv.1]
      simp
    refine solo_mono (services_solo hq dep.services hload hnodes hsvcs _) (fun _ h => h) (fun round' cs w h => ?_)
    obtain ⟨s', batch, hchain, hround, hw⟩ := h
    refine ⟨s', _, .step (.stale dep now (undeclared dep v) hstale) hchain, ?_, hw⟩
    rw [hround, append_assoc]

theorem deployments_solo (hnodes : nodes.Perm s.nodes.list) (aborted : List String)
    (deps : List Deployment) (hdeps : ∀ dep ∈ deps, dep.name ∉ aborted → Unblocked P s dep) (round : Round) :
    Solo cluster A (At C s) (deps.foldlM (reconcileDeployment P nodes aborted) round)
      (fun round' cs w => ∃ s' batch, Chain P C s (deps.flatMap (itemsOf aborted)) s' batch cs ∧
        round'.batch = round.batch ++ batch ∧ At C s' w) := by
  induction deps generalizing s round with
  | nil => exact solo_ret (fun w hw => ⟨s, [], .done s, (append_nil _).symm, hw⟩)
  | cons dep deps ih =>
    rw [foldlM_cons]
    refine solo_bind (reconcileDeployment_solo hq hnodes aborted round (hdeps dep mem_cons_self))
      (fun round' cs => ?_)
    refine solo_exists (fun s' => solo_exists (fun batch => solo_pure (fun hchain => solo_pure (fun hround => ?_))))
    have hbeside := beside_chain hchain
    obtain ⟨plans, audit, rfl⟩ := hbeside
    refine solo_mono (ih (s := { s with rolloutPlans := plans, auditEvents := audit }) hnodes
      (fun dep' hdep' => hdeps dep' (mem_cons_of_mem dep hdep')) round')
      (fun _ h => h) (fun round'' ds w h => ?_)
    obtain ⟨s'', batch', hchain', hround', hw⟩ := h
    refine ⟨s'', batch ++ batch', chain_append hchain hchain', ?_, hw⟩
    rw [hround', hround, append_assoc]

theorem abort_solo {plan : RolloutPlan} (hplan : s.rolloutPlans.get plan.key = some plan) :
    Solo cluster A (At C s) (abort plan.deployment plan.service "step_timeout")
      (fun ok cs w => ok = true ∧ ∃ idx now ts, cs = [abortCommand s plan now ts] ∧
        At C ((abortCommand s plan now ts).apply idx s) w) := by
  refine solo_look hq _ (fun v hv => ?_)
  rw [hv.1]
  change s.rolloutPlans.get (rolloutPlanKey plan.deployment plan.service) = some plan at hplan
  rw [hplan]
  refine solo_clock hq (fun now _ => solo_look hq _ (fun v hv => solo_clock hq (fun ts _ => ?_)))
  rw [hv.1]
  exact solo_commit hq (fun idx w hw => ⟨rfl, idx, now, ts, rfl, hw⟩)

theorem abortTimedOut_solo (now : Timestamp) (aborted : List String) (plans : List RolloutPlan)
    (hplans : ∀ plan ∈ plans, s.rolloutPlans.get plan.key = some plan) (hnodup : (plans.map (·.key)).Nodup) :
    Solo cluster A (At C s) (abortTimedOut now aborted plans)
      (fun aborted' cs w => ∃ s' more, Expires now s plans s' more cs ∧ aborted' = aborted ++ more ∧ At C s' w) := by
  induction plans generalizing s aborted with
  | nil => exact solo_ret (fun w hw => ⟨s, [], .done s, (append_nil _).symm, hw⟩)
  | cons plan plans ih =>
    rw [map_cons, nodup_cons] at hnodup
    unfold abortTimedOut
    cases htimed : timedOut now plan with
    | false =>
      refine solo_mono (ih aborted (fun p hp => hplans p (mem_cons_of_mem plan hp)) hnodup.2) (fun _ h => h)
        (fun aborted' cs w h => ?_)
      obtain ⟨s', more, hrest, h⟩ := h
      exact ⟨s', more, .skip htimed hrest, h⟩
    | true =>
      refine solo_bind (abort_solo hq (hplans plan mem_cons_self)) (fun ok cs => solo_pure (fun hok => ?_))
      subst hok
      refine solo_exists (fun idx => solo_exists (fun at_ => solo_exists (fun ts => solo_pure (fun hcs => ?_))))
      subst hcs
      have hothers : ∀ p ∈ plans, ((abortCommand s plan at_ ts).apply idx s).rolloutPlans.get p.key = some p := by
        intro p hp
        rw [get_abort s plan at_ ts idx (fun h => hnodup.1 (mem_map.2 ⟨p, hp, h.symm⟩))]
        exact hplans p (mem_cons_of_mem plan hp)
      refine solo_mono (ih (aborted ++ [plan.deployment]) hothers hnodup.2) (fun _ h => h) (fun aborted' cs w h => ?_)
      obtain ⟨s', more, hrest, hmore, hw⟩ := h
      refine ⟨s', plan.deployment :: more, .abort idx at_ ts htimed hrest, ?_, hw⟩
      rw [hmore, append_assoc, singleton_append]

theorem submitBatch_solo (round : Round) :
    Solo cluster A (At C s) (submitBatch round) (fun _ cs w => ∃ s', Submits s round.batch s' cs ∧ At C s' w) := by
  unfold submitBatch
  split
  · rename_i hempty
    exact solo_ret (fun w hw => ⟨s, .inl ⟨isEmpty_iff.1 hempty, rfl, rfl⟩, hw⟩)
  · rename_i hne
    refine solo_clock hq (fun ts _ => solo_bind (R := fun _ cs w => ∃ s', Submits s round.batch s' cs ∧ At C s' w) ?_
      (fun ok cs => solo_ret (fun w h => by rwa [append_nil])))
    refine solo_commit hq (fun idx w hw => ⟨_, .inr ⟨fun h => hne (isEmpty_iff.2 h), idx, ts, rfl, rfl⟩, hw⟩)

theorem reconcile_solo (hopen : ∀ now plans s₁ aborted es, C now → plans.Perm s.rolloutPlans.list →
      Expires now s plans s₁ aborted es → ∀ dep ∈ s₁.deployments.list, dep.name ∉ aborted → Unblocked P s₁ dep) :
    Solo cluster A (At C s) (reconcile P) (fun _ cs w => ∃ s', Passed P C s s' cs ∧ At C s' w) := by
  refine solo_look hq _ (fun v hv => ?_)
  rw [hv.2.2]
  refine solo_bind (R := fun aborted es w => ∃ now plans s₁, (C now ∧ plans.Perm s.rolloutPlans.list ∧
    Expires now s plans s₁ aborted es) ∧ At C s₁ w) ?_ (fun aborted es => ?_)
  · refine solo_clock hq (fun now hnow => solo_look hq _ (fun v hv => ?_))
    have hperm : (v.listing v.state.rolloutPlans).Perm s.rolloutPlans.list := hv.1 ▸ listing_perm v _
    refine solo_mono (abortTimedOut_solo hq now [] _ (fun plan hplan => ?_) ?_) (fun _ h => h)
      (fun aborted es w h => ?_)
    · exact Store.mem_list.1 (hperm.mem_iff.1 hplan)
    · exact (hperm.map _).nodup_iff.2 s.rolloutPlans.nodup_list
    · obtain ⟨s₁, more, hexpires, rfl, hw⟩ := h
      exact ⟨now, _, s₁, ⟨hnow, hperm, hexpires⟩, hw⟩
  · refine solo_exists (fun now => solo_exists (fun plans => solo_exists (fun s₁ => solo_pure (fun h => ?_))))
    obtain ⟨hnow, hplans, hexpires⟩ := h
    refine solo_look hq _ (fun v hv => solo_look hq _ (fun u hu => ?_))
    have hdeps : (v.listing v.state.deployments).Perm s₁.deployments.list := hv.1 ▸ listing_perm v _
    have hnodes : (u.listing u.state.nodes).Perm s₁.nodes.list := hu.1 ▸ listing_perm u _
    refine solo_bind (deployments_solo hq hnodes aborted _ (fun dep hdep => ?_) {}) (fun round ds => ?_)
    · exact hopen now plans s₁ aborted es hnow hplans hexpires dep (hdeps.mem_iff.1 hdep)
    · refine solo_exists (fun s₂ => solo_exists (fun batch => solo_pure (fun hchain => solo_pure (fun hround => ?_))))
      refine solo_mono (submitBatch_solo hq round) (fun _ h => h) (fun _ xs w h => ?_)
      obtain ⟨s', hsubmits, hw⟩ := h
      rw [hround] at hsubmits
      exact ⟨s', ⟨now, plans, s₁, aborted, es, s₂, batch, ds, xs, _, hnow, hplans, hexpires, hdeps, hchain,
        hsubmits, rfl⟩, hw⟩

end Specs

end Jaco.Scheduler
