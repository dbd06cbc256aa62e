import Jaco.Scheduler

namespace Jaco.Scheduler

open Interleaving Placement Rollout List

def upsertsIn (c : Command) : List ReplicaDesired :=
  c.entries.filterMap (fun e => match e.payload with
    | .replicaDesiredUpsert r => r
    | _ => none)

def FromManifest (P : Parsers) (compose : Bytes) (r : ReplicaDesired) : Prop :=
  (∃ project, P.loadCompose compose = .ok project ∧ r.image = lookupImage project r.service) ∧
    P.specHash compose r.service = .ok r.specHash

def Continues (R : World → Prop) (key : String) (plan : RolloutPlan) : Prop :=
  ∃ w, R w ∧ ∃ old, w.state.rolloutPlans.get key = some old ∧ plan.deployment = old.deployment ∧
    plan.service = old.service ∧ plan.targetRevision = old.targetRevision

inductive Drives (R : World → Prop) (deployment service : String) : Payload → Prop
  | audit (ev : AuditEvent) : Drives R deployment service (.auditAppend (some ev))
  | begin (plan : RolloutPlan) (hd : plan.deployment = deployment) (hs : plan.service = service) :
      Drives R deployment service (.rolloutPlanUpdate (some plan))
  | proceed (plan : RolloutPlan) (h : Continues R (rolloutPlanKey deployment service) plan) :
      Drives R deployment service (.rolloutPlanUpdate (some plan))

inductive Aborts (R : World → Prop) : Payload → Prop
  | rollback (deployment : String) (revision : Nat) : Aborts R (.deploymentRollback deployment revision)
  | plan (plan : RolloutPlan) (key : String) (hs : plan.state = .aborted) (h : Continues R key plan) :
      Aborts R (.rolloutPlanUpdate (some plan))

inductive Offer (P : Parsers) (R : World → Prop) : Payload → Prop
  | status (u : DeploymentStatusUpdate) : Offer P R (.deploymentStatusUpdate u)
  | remove (id : String) : Offer P R (.replicaDesiredRemove id)
  | abort (p : Payload) (h : Aborts R p) : Offer P R p
  | drive (p : Payload) (w : World) (dep : Deployment) (service : String) (hw : R w)
      (hdep : w.state.deployments.get dep.name = some dep) (h : Drives R dep.name service p) : Offer P R p
  | upsert (r : ReplicaDesired) (w : World) (dep : Deployment) (hw : R w)
      (hdep : w.state.deployments.get dep.name = some dep) (hr : r.deployment = dep.name)
      (hm : FromManifest P dep.composeYaml r) : Offer P R (.replicaDesiredUpsert (some r))

variable {P : Parsers} {R : World → Prop}

variable {G : Command → Prop}

theorem clock_within : Within R G (fun _ => True) clock := within_read_any World.now

section RolloutOffers

variable (deployment service : String)

theorem applyPlan_within {G : Payload → Prop} {plan : RolloutPlan} (h : G (.rolloutPlanUpdate (some plan))) :
    Within R (Allows G) (fun _ => True) (applyPlan plan) :=
  within_look (fun _ => within_send (allows_single h))

variable {G : Command → Prop}

theorem findPlan_within : Within R G (fun found => ∀ p ∈ found, ∃ w, R w ∧
      w.state.rolloutPlans.get (rolloutPlanKey deployment service) = some p) (findPlan deployment service) :=
  within_read _ (fun w hw _ hp => ⟨w, hw, hp⟩)

theorem continues_of_stored {key : String} {p plan : RolloutPlan}
    (h : ∃ w, R w ∧ w.state.rolloutPlans.get key = some p) (hd : plan.deployment = p.deployment)
    (hs : plan.service = p.service) (ht : plan.targetRevision = p.targetRevision) : Continues R key plan := by
  obtain ⟨w, hw, hk⟩ := h
  exact ⟨w, hw, p, hk, hd, hs, ht⟩

theorem start_drives (targetRev : Nat) (totalSteps : Int) :
    Within R (Allows (Drives R deployment service)) (fun _ => True)
    (start deployment service targetRev totalSteps) := by
  refine within_look (fun found => ?_)
  split
  · exact within_ret trivial
  · exact within_look (fun now => applyPlan_within (.begin _ rfl rfl))

theorem countNotRunning_within (observed : List ReplicaObserved) :
    Within R G (fun _ => True) (countNotRunning deployment service observed) := by
  refine within_foldlM _ observed 0 trivial (fun obs _ n _ => ?_)
  split
  · exact within_ret trivial
  · exact within_look (fun mine => within_ret trivial)

theorem stepReady_within : Within R G (fun _ => True) (stepReady deployment service) := by
  refine within_look (fun found => ?_)
  cases found with
  | none => exact within_ret trivial
  | some plan =>
    dsimp only
    split
    · exact within_ret trivial
    · refine within_look (fun observed => ?_)
      refine within_bind_any (countNotRunning_within deployment service observed) (fun notRunning => ?_)
      refine within_look (fun target => ?_)
      cases target with
      | none => exact within_ret trivial
      | some target =>
        dsimp only
        split
        · exact within_ret trivial
        · exact within_look (fun now => within_ret trivial)

theorem advanceStep_drives :
    Within R (Allows (Drives R deployment service)) (fun _ => True) (advanceStep deployment service) := by
  refine within_bind (findPlan_within deployment service) (fun found hp => ?_)
  cases found with
  | none => exact within_ret trivial
  | some plan =>
    dsimp only
    split
    · exact within_ret trivial
    · refine within_bind_any (stepReady_within deployment service) (fun ready => ?_)
      cases ready with
      | none => exact within_ret trivial
      | some verdict =>
        dsimp only
        split
        · exact within_look (fun now => within_send (allows_single (.audit _)))
        · exact within_bind_any clock_within
            (fun now => applyPlan_within (.proceed _ (continues_of_stored (hp plan rfl) rfl rfl rfl)))

theorem complete_drives :
    Within R (Allows (Drives R deployment service)) (fun _ => True) (complete deployment service) := by
  refine within_bind (findPlan_within deployment service) (fun found hp => ?_)
  cases found with
  | none => exact within_ret trivial
  | some plan =>
    exact within_bind_any clock_within
      (fun now => applyPlan_within (.proceed _ (continues_of_stored (hp plan rfl) rfl rfl rfl)))

theorem rollbackChild_aborts (now : Timestamp) (dep : Option Deployment) :
    ∀ c ∈ rollbackChild deployment now dep, Allows (Aborts R) c := by
  intro c hc
  unfold rollbackChild at hc
  split at hc
  · split at hc
    · rw [mem_singleton] at hc
      exact hc ▸ allows_single (.rollback _ _)
    · cases hc
  · cases hc

theorem abort_aborts (reason : String) :
    Within R (Allows (Aborts R)) (fun _ => True) (abort deployment service reason) := by
  refine within_bind (findPlan_within deployment service) (fun found hp => ?_)
  cases found with
  | none => exact within_ret trivial
  | some plan =>
    refine within_look (fun now => ?_)
    refine within_look (fun dep => ?_)
    refine within_look (fun now' => within_send (allows_batch (fun c hc => ?_)))
    rcases mem_cons.1 hc with h | h
    · exact h ▸ allows_single (.plan _ _ rfl (continues_of_stored (hp plan rfl) rfl rfl rfl))
    · exact rollbackChild_aborts deployment now' dep c h

theorem checkTimeouts_aborts : Within R (Allows (Aborts R)) (fun _ => True) checkTimeouts := by
  refine within_look (fun now => ?_)
  refine within_look (fun plans => ?_)
  generalize ([] : List String) = aborted
  induction plans generalizing aborted with
  | nil => exact within_ret trivial
  | cons plan plans ih =>
    rw [abortTimedOut]
    split
    · refine within_bind_any (abort_aborts _ _ _) (fun ok => ?_)
      split
      · exact ih _
      · exact within_ret trivial
    · exact ih aborted

end RolloutOffers

theorem driveRollout_drives (dep : Deployment) (svc : ServiceSpec) (totalSteps : Int) :
    Within R (Allows (Drives R dep.name svc.name)) (fun _ => True) (driveRollout dep svc totalSteps) := by
  have hstart : Within R (Allows (Drives R dep.name svc.name)) (fun _ => True) (do
      let ok ← start dep.name svc.name dep.appliedRevision totalSteps
      pure (if ok then (0 : Int) else -1)) :=
    within_bind_any (start_drives _ _ _ _) (fun ok => within_ret trivial)
  have hcomplete : Within R (Allows (Drives R dep.name svc.name)) (fun _ => True) (do
      let _ ← complete dep.name svc.name
      pure (-1 : Int)) :=
    within_bind_any (complete_drives _ _) (fun _ => within_ret trivial)
  refine within_look (fun found => ?_)
  cases found with
  | none => exact hstart
  | some plan =>
    dsimp only
    split
    · split
      · exact within_ret trivial
      · exact hstart
    · split
      · exact hcomplete
      · refine within_bind_any (stepReady_within dep.name svc.name) (fun ready => ?_)
        rcases ready with _ | ⟨ready, notRunning⟩
        · exact within_ret trivial
        · cases ready with
          | false => exact within_ret trivial
          | true =>
            refine within_bind_any (advanceStep_drives dep.name svc.name) (fun ok => ?_)
            split
            · exact within_ret trivial
            · refine within_look (fun found => ?_)
              cases found with
              | none => exact within_ret trivial
              | some plan =>
                dsimp only
                split
                · exact hcomplete
                · exact within_ret trivial

theorem drivenStep_drives (dep : Deployment) (svc : ServiceSpec) (eligible : List String) (rolling : Bool) :
    Within R (Allows (Drives R dep.name svc.name)) (fun _ => True) (drivenStep dep svc eligible rolling) := by
  unfold drivenStep
  split
  · exact driveRollout_drives dep svc _
  · exact within_ret trivial

def Gates (p : Pass) (d : DesiredReplica) : Prop :=
  p.rolling = true → 0 ≤ p.rolloutStep → ∀ cur, p.find d = some cur → cur.host = p.hostFor d → cur.image ≠ p.image →
    d.index = p.rolloutStep

def Off (p : Pass) (d : DesiredReplica) : Prop :=
  ∀ cur, p.find d = some cur → ¬ (cur.host = p.hostFor d ∧ cur.image = p.image ∧ cur.specHash = p.specHash)

theorem mem_upserts (p : Pass) (changed : Bool) (desired : List DesiredReplica) (r : ReplicaDesired)
    (h : r ∈ p.upserts changed desired) : ∃ d ∈ desired, r = p.replica d ∧ Gates p d ∧ Off p d := by
  induction desired generalizing changed with
  | nil => cases h
  | cons d ds ih =>
    have hrest : ∀ changed, r ∈ p.upserts changed ds → ∃ d' ∈ d :: ds, r = p.replica d' ∧ Gates p d' ∧ Off p d' := by
      intro changed hr
      obtain ⟨d', hd', he⟩ := ih changed hr
      exact ⟨d', mem_cons_of_mem d hd', he⟩
    have hcons : ∀ changed, Gates p d → Off p d → r ∈ p.replica d :: p.upserts changed ds →
        ∃ d' ∈ d :: ds, r = p.replica d' ∧ Gates p d' ∧ Off p d' := by
      intro changed hgate hoff hr
      rcases mem_cons.1 hr with hr | hr
      · exact ⟨d, mem_cons_self, hr, hgate, hoff⟩
      · exact hrest changed hr
    rw [Pass.upserts] at h
    split at h
    · rename_i hnone
      have hfind : ∀ cur, p.find d ≠ some cur := fun cur hcur => by rw [hnone] at hcur; cases hcur
      exact hcons changed (fun _ _ cur hcur => absurd hcur (hfind cur)) (fun cur hcur => absurd hcur (hfind cur)) h
    · rename_i cur hsome
      have hfind : ∀ cur', p.find d = some cur' → cur' = cur := fun cur' hcur => by
        rw [hsome] at hcur
        exact (Option.some.inj hcur).symm
      split at h
      · exact hrest changed h
      · rename_i hoff
        replace hoff : Off p d := fun cur' hcur => hfind cur' hcur ▸ hoff
        split at h
        · split at h
          · rename_i hstep
            split at h
            · exact hrest changed h
            · rename_i hindex
              exact hcons changed (fun _ _ _ _ _ _ => not_not.1 hindex) hoff h
          · rename_i hstep
            split at h
            · exact hrest changed h
            · exact hcons true (fun _ hpos => absurd hpos hstep) hoff h
        · rename_i hgate
          refine hcons changed (fun hroll _ cur' hcur hhost himage => ?_) hoff h
          cases hfind cur' hcur
          exact absurd ⟨hroll, hhost, himage⟩ hgate

theorem upsert_of_open (p : Pass) {d : DesiredReplica} (hoff : Off p d)
    (hopen : p.rolling = true → ∀ cur, p.find d = some cur → cur.host = p.hostFor d → cur.image ≠ p.image →
      0 ≤ p.rolloutStep ∧ d.index = p.rolloutStep)
    (changed : Bool) {desired : List DesiredReplica} (hd : d ∈ desired) : p.replica d ∈ p.upserts changed desired := by
  induction desired generalizing changed with
  | nil => cases hd
  | cons d' ds ih =>
    rw [Pass.upserts]
    rcases mem_cons.1 hd with rfl | hd
    · cases hcur : p.find d with
      | none => exact mem_cons_self
      | some cur =>
        dsimp only
        rw [if_neg (hoff cur hcur)]
        split
        · rename_i hgate
          obtain ⟨hstep, hindex⟩ := hopen hgate.1 cur hcur hgate.2.1 hgate.2.2
          rw [if_pos hstep, if_neg (not_not.2 hindex)]
          exact mem_cons_self
        · exact mem_cons_self
    · repeat' split
      all_goals first | exact ih _ hd | exact mem_cons_of_mem _ (ih _ hd)

theorem upsert_of_displaced (p : Pass) {d : DesiredReplica}
    (hfind : ∀ cur, p.find d = some cur → cur.host ≠ p.hostFor d)
    (changed : Bool) {desired : List DesiredReplica} (hd : d ∈ desired) : p.replica d ∈ p.upserts changed desired :=
  upsert_of_open p (fun cur hcur h => hfind cur hcur h.1) (fun _ cur hcur hhost => absurd hhost (hfind cur hcur))
    changed hd

theorem commands_offered {p : Pass} {project : Project} {w : World} (hw : R w)
    (hdep : w.state.deployments.get p.dep.name = some p.dep) (hload : P.loadCompose p.dep.composeYaml = .ok project)
    (himage : p.image = lookupImage project p.svc.name)
    (hhash : P.specHash p.dep.composeYaml p.svc.name = .ok p.specHash) (desired : List DesiredReplica) :
    ∀ c ∈ p.commands desired, Allows (Offer P R) c := by
  intro c hc
  rcases mem_append.1 hc with hc | hc
  · obtain ⟨r, hr, rfl⟩ := mem_map.1 hc
    obtain ⟨d, hd, rfl, -⟩ := mem_upserts p false desired r hr
    exact allows_single (.upsert _ w p.dep hw hdep rfl ⟨⟨project, hload, himage⟩, hhash⟩)
  · obtain ⟨id, hid, rfl⟩ := mem_map.1 hc
    exact allows_single (.remove id)

theorem reconcileService_offers {w : World} {dep : Deployment} (hw : R w)
    (hdep : w.state.deployments.get dep.name = some dep) {svc : ServiceSpec} (nodes : List Node) {project : Project}
    (hload : P.loadCompose dep.composeYaml = .ok project) {specHash : Bytes}
    (hhash : P.specHash dep.composeYaml svc.name = .ok specHash) :
    Within R (Allows (Offer P R)) (fun sp => ∀ c ∈ sp.commands, Allows (Offer P R) c)
      (reconcileService dep svc nodes project specHash) := by
  have hblocked : ∀ reason now, ∀ c ∈ (blocked dep svc reason now).commands, Allows (Offer P R) c := by
    intro reason now c hc
    rw [blocked, mem_singleton] at hc
    exact hc ▸ allows_single (.status _)
  refine within_look (fun now => ?_)
  dsimp only
  split
  · exact within_ret (hblocked _ now)
  · refine within_look (fun current => ?_)
    split
    · exact within_ret (hblocked _ now)
    · rename_i desired _
      refine within_bind_any ?_ (fun step => ?_)
      · exact within_weaken (drivenStep_drives dep svc _ _)
          (fun c hc => allows_mono (fun _ h => .drive _ w dep svc.name hw hdep h) hc)
      · let p : Pass := ⟨dep, svc, lookupImage project svc.name, specHash, eligibleHosts svc nodes, current,
          isRollingImageChange current (lookupImage project svc.name), step, now⟩
        have hp : ∀ c ∈ p.commands desired, Allows (Offer P R) c :=
          commands_offered hw hdep hload rfl hhash desired
        exact hp

def Round.All (G : Command → Prop) (round : Round) : Prop := ∀ c ∈ round.batch, G c

theorem all_append {round : Round} (h : round.All G) {cs : List Command} (hcs : ∀ c ∈ cs, G c)
    (services : List ServicePass) : Round.All G { batch := round.batch ++ cs, services := services } := by
  exact forall_mem_append.2 ⟨h, hcs⟩

section Rounds

variable {G : Command → Prop} (hG : ∀ c, Allows (Offer P R) c → G c)

include hG

theorem all_append_pending {round : Round} (h : round.All G) (name reason : String) (now : Timestamp)
    (services : List ServicePass) :
    Round.All G { batch := round.batch ++ [markDeploymentPending name reason now], services := services } := by
  refine all_append h (fun c hc => ?_) services
  rw [mem_singleton] at hc
  exact hc ▸ hG _ (allows_single (.status _))

theorem reconcileDeclared_offers {w : World} {dep : Deployment} (hw : R w)
    (hdep : w.state.deployments.get dep.name = some dep) (nodes : List Node) (project : Project)
    (hload : P.loadCompose dep.composeYaml = .ok project) (round : Round) (svc : ServiceSpec) (hround : round.All G) :
    Within R (Allows (Offer P R)) (Round.All G) (reconcileDeclared P dep nodes project round svc) := by
  unfold reconcileDeclared
  split
  · exact within_look (fun now => within_ret (all_append_pending hG hround _ _ now _))
  · rename_i specHash hhash
    refine within_bind (reconcileService_offers hw hdep nodes hload hhash) (fun sp hsp => ?_)
    exact within_ret (all_append hround (fun c hc => hG c (hsp c hc)) _)

theorem reconcileDeployment_offers {w : World} {dep : Deployment} (hw : R w)
    (hdep : w.state.deployments.get dep.name = some dep) (nodes : List Node) (aborted : List String) (round : Round)
    (hround : round.All G) :
    Within R (Allows (Offer P R)) (Round.All G) (reconcileDeployment P nodes aborted round dep) := by
  unfold reconcileDeployment
  split
  · exact within_ret hround
  · split
    · exact within_look (fun now => within_ret (all_append_pending hG hround _ _ now _))
    · rename_i project hload
      refine within_look (fun stale => ?_)
      refine within_look (fun now => ?_)
      refine within_foldlM _ dep.services _ (all_append hround (fun c hc => ?_) _) (fun svc _ r hr => ?_)
      · obtain ⟨rep, _, rfl⟩ := mem_map.1 hc
        exact hG _ (allows_single (.remove _))
      · exact reconcileDeclared_offers hG hw hdep nodes project hload r svc hr

end Rounds

theorem submitBatch_within {round : Round}
    (h : ∀ identity ts, G (.batch identity ts round.batch)) : Within R G (fun _ => True) (submitBatch round) := by
  unfold submitBatch
  split
  · exact within_ret trivial
  · refine within_look (fun now => ?_)
    exact within_bind_any (within_send (h _ _)) (fun _ => within_ret trivial)

theorem offer_noApply {p : Payload} {D : String} (h : Offer P R p) : NoApply D p := by
  cases h with
  | status u => trivial
  | remove id => trivial
  | abort p h => cases h <;> trivial
  | drive p w dep service hw hdep h => cases h <;> trivial
  | upsert r w dep hw hdep hr hm => trivial

theorem reconcile_offers (P : Parsers) (R : World → Prop) :
    Within R (Allows (Offer P R)) (fun _ => True) (reconcile P) := by
  refine within_look (fun leader => ?_)
  split
  · exact within_ret trivial
  · refine within_bind_any (within_weaken checkTimeouts_aborts (fun c hc => allows_mono (fun _ => .abort _) hc))
      (fun aborted => ?_)
    refine within_bind (Q := fun deps => ∃ w, R w ∧ ∀ dep ∈ deps, w.state.deployments.get dep.name = some dep)
      (within_read _ (fun w hw => ⟨w, hw, fun dep h => (mem_listing w _ dep).1 h⟩)) (fun deps hdeps => ?_)
    obtain ⟨w, hw, hdep⟩ := hdeps
    refine within_look (fun nodes => ?_)
    refine within_bind (Q := Round.All (Allows (Offer P R))) ?_
      (fun round hround => submitBatch_within (fun _ _ => allows_batch hround))
    refine within_foldlM _ deps _ (fun c hc => by cases hc) (fun dep hmem round hround => ?_)
    exact reconcileDeployment_offers (fun _ h => h) hw (hdep dep hmem) nodes aborted round hround

theorem pass_offers (P : Parsers) (R : World → Prop) : Within R (Allows (Offer P R)) (fun _ => True) (pass P) :=
  within_bind_any (reconcile_offers P R) (fun _ => within_ret trivial)

end Jaco.Scheduler
