import Jaco.SchedulingDebt

namespace Jaco.Scheduler

open Interleaving Placement Rollout List Store

def Idle (o : Others) : Prop := o.commands = [] ∧ o.leader = true

structure Turn where
  wait : Others
  during : List Others := []

def Turn.Idle (t : Turn) : Prop := Scheduler.Idle t.wait ∧ 0 < t.wait.elapsed ∧ ∀ o ∈ t.during, Scheduler.Idle o

section Run

variable (P : Parsers)

def turn (w : World) (t : Turn) : Interleaving.Outcome World Command Others Round :=
  follow cluster (reconcile P) t.during (w.disturb t.wait)

def worldAt (turns : ℕ → Turn) (w : World) : ℕ → World
  | 0 => w
  | n + 1 => (turn P (worldAt turns w n) (turns n)).now

def emittedAt (turns : ℕ → Turn) (w : World) (n : ℕ) : List Command :=
  (turn P (worldAt P turns w n) (turns n)).emitted

variable {P}

theorem quiet_idle (C : Timestamp → Prop) (hC : ∀ t (n : ℕ), C t → C (t + n)) : Quiet Idle C :=
  ⟨fun _ h => h.1, fun _ h => h.2, fun o t _ ht => hC t o.elapsed ht⟩

theorem disturb_idle {o : Others} (h : Idle o) (w : World) : (w.disturb o).state = w.state := by
  rw [World.disturb, h.1]
  rfl

theorem later_of_le (T t : Timestamp) (n : ℕ) (h : T ≤ t) : T ≤ t + n :=
  h.trans (le_add_of_nonneg_right (Int.natCast_nonneg n))

theorem turn_pays {C : Timestamp → Prop} (hC : ∀ t (n : ℕ), C t → C (t + n)) {w : World}
    (hw : Settleable P w.state) {t : Turn} (ht : t.Idle) (hclock : C (w.now + t.wait.elapsed)) :
    Pays P C w.state (turn P w t).now.state (turn P w t).emitted.length ∧ C (turn P w t).now.now := by
  have hat : At C w.state (w.disturb t.wait) := ⟨disturb_idle ht.1 w, hclock, ht.1.2⟩
  have hopen : ∀ now plans s₁ aborted es, C now → plans.Perm w.state.rolloutPlans.list →
      Expires now w.state plans s₁ aborted es → ∀ dep ∈ s₁.deployments.list, dep.name ∉ aborted →
        Unblocked P s₁ dep := by
    intro now plans s₁ aborted es _ hplans hexpires dep hdep _
    have hpays : Pays P C w.state s₁ es.length :=
      expires_pays hw (fun plan hplan => mem_list.1 (hplans.mem_iff.1 hplan))
        ((hplans.map _).nodup_iff.2 w.state.rolloutPlans.nodup_list) hexpires
    exact hpays.settleable.unblocked dep hdep
  obtain ⟨s', hpassed, hend⟩ := reconcile_solo (quiet_idle C hC) hopen t.during _ ht.2.2 hat
  obtain ⟨hstate, hclock', -⟩ := hend
  have hpays := passed_pays hw hpassed
  rw [← hstate] at hpays
  exact ⟨hpays, hclock'⟩

theorem now_worldAt {turns : ℕ → Turn} (hturns : ∀ n, (turns n).Idle) {w : World} (hw : Settleable P w.state) (n : ℕ) :
    Settleable P (worldAt P turns w n).state ∧
      (∀ obs ∈ (worldAt P turns w n).state.replicasObserved.list, obs ∈ w.state.replicasObserved.list) ∧
      w.now + n ≤ (worldAt P turns w n).now := by
  induction n with
  | zero => exact ⟨hw, fun _ h => h, by simp [worldAt]⟩
  | succ n ih =>
    obtain ⟨hs, hobs, hnow⟩ := ih
    have helapsed : (1 : Int) ≤ (turns n).wait.elapsed := Int.ofNat_le.2 (hturns n).2.1
    have hlater : w.now + (n + 1 : ℕ) ≤ (worldAt P turns w n).now + (turns n).wait.elapsed := by
      push_cast
      linarith
    obtain ⟨hpays, hclock⟩ := turn_pays (C := fun t => w.now + (n + 1 : ℕ) ≤ t) (later_of_le _) hs (hturns n) hlater
    exact ⟨hpays.settleable, fun obs h => hobs obs (hpays.observed obs h), hclock⟩

theorem exists_stale (observed : List ReplicaObserved) :
    ∃ T : Timestamp, ∀ t, T ≤ t → ∀ obs ∈ observed, isFresh t obs.lastHealthAt = false := by
  induction observed with
  | nil => exact ⟨0, nofun⟩
  | cons obs observed ih =>
    obtain ⟨T, hT⟩ := ih
    refine ⟨max T ((obs.lastHealthAt.getD 0) + healthFreshness), fun t ht obs' hobs' => ?_⟩
    rcases mem_cons.1 hobs' with rfl | hobs'
    · cases hlast : obs'.lastHealthAt with
      | none => rfl
      | some last =>
        rw [hlast, Option.getD_some] at ht
        have hlate : last + healthFreshness ≤ t := (le_max_right _ _).trans ht
        simp only [isFresh, Option.any_some, decide_eq_false_iff_not, not_lt]
        linarith
    · exact hT t ((le_max_left _ _).trans ht) obs' hobs'

theorem passes_fall_silent (P : Parsers) (turns : ℕ → Turn) (hturns : ∀ n, (turns n).Idle) (w : World)
    (hw : Settleable P w.state) : ∃ N, ∀ n, N ≤ n → emittedAt P turns w n = [] := by
  obtain ⟨T, hT⟩ := exists_stale w.state.replicasObserved.list
  refine eventually_silent (fun n => debt P (worldAt P turns w n).state) (emittedAt P turns w) (T - w.now).toNat
    (fun n hn => ?_)
  obtain ⟨hs, hobs, hnow⟩ := now_worldAt hturns hw n
  have hlate : T ≤ (worldAt P turns w n).now + (turns n).wait.elapsed := by
    have htoNat := Int.self_le_toNat (T - w.now)
    have hn' : ((T - w.now).toNat : Int) ≤ n := Int.ofNat_le.2 hn
    have helapsed := Int.natCast_nonneg (turns n).wait.elapsed
    linarith
  obtain ⟨hpays, -⟩ := turn_pays (C := fun t => T ≤ t) (later_of_le T) hs (hturns n) hlate
  exact hpays.paid (fun t ht obs h => hT t ht obs (hobs obs h))

end Run

namespace Sample

def declared : World :=
  (World.commit (node "node-a") { state := .new, index := 0, now := 0 }).commit (.single (applied 1 "1.27"))

def tick : Turn := { wait := { elapsed := 61 * 10 ^ 9 } }

theorem tick_idle : tick.Idle := ⟨⟨rfl, rfl⟩, by decide, nofun⟩

section States

variable {s : State} {d : Deployment} (hdeps : s.deployments = empty.apply d) (hname : d.name = "sample")
  (hcompose : d.composeYaml = compose "1.27") (hservices : d.services = [web])
  (hnodes : s.nodes = declared.state.nodes)

include hdeps in
theorem eq_of_mem_deployments {dep : Deployment} (h : dep ∈ s.deployments.list) : dep = d := by
  rw [hdeps, list_empty_apply, mem_singleton] at h
  exact h

include hdeps hservices in
theorem eq_of_declares {dep : Deployment} {svc : ServiceSpec} (h : Declares s dep svc) : dep = d ∧ svc = web := by
  obtain rfl := eq_of_mem_deployments hdeps (mem_deployments h)
  have hsvc := h.2
  rw [hservices, mem_singleton] at hsvc
  exact ⟨rfl, hsvc⟩

include hnodes in
theorem hostsIn_sample : hostsIn s web = ["node-a"] := by
  rw [hostsIn, hnodes]
  decide +kernel

include hname hnodes in
theorem wanted_sample : wanted s d web = ["sample-web-0", "sample-web-1"] := by
  rw [wanted, hostsIn_sample hnodes, wantedIDs, hname]
  decide +kernel

include hdeps hname hcompose hservices hnodes in
theorem schedulable_sample (howned : ∀ r ∈ s.replicasDesired.list, r.deployment = "sample" ∧ r.service = "web") :
    Schedulable parsers s := by
  constructor
  · intro dep hdep
    obtain rfl := eq_of_mem_deployments hdeps hdep
    rw [hservices]
    refine ⟨nodup_singleton _, fun svc hsvc => ?_⟩
    rw [mem_singleton] at hsvc
    subst hsvc
    exact ⟨by simp [NulFree, web], by decide⟩
  · rw [hnodes]
    decide +kernel
  · intro dep hdep
    obtain rfl := eq_of_mem_deployments hdeps hdep
    refine ⟨_, rfl, fun svc hsvc => ?_⟩
    rw [hservices, mem_singleton] at hsvc
    subst hsvc
    rw [hostsIn_sample hnodes, hcompose]
    exact ⟨by decide +kernel, ⟨_, rfl⟩, by decide⟩
  · intro dep svc hdep
    obtain ⟨rfl, rfl⟩ := eq_of_declares hdeps hservices hdep
    rw [wanted_sample hname hnodes]
    decide
  · intro dep svc dep' svc' hdep hdep' _ _ _
    obtain ⟨rfl, rfl⟩ := eq_of_declares hdeps hservices hdep
    obtain ⟨rfl, rfl⟩ := eq_of_declares hdeps hservices hdep'
    exact ⟨rfl, rfl⟩
  · intro dep svc hdep id _ r hr
    obtain ⟨rfl, rfl⟩ := eq_of_declares hdeps hservices hdep
    rw [hname]
    exact howned r (mem_list_of_get hr)

end States

end Sample

open Sample

theorem sample_falls_silent : Settleable parsers declared.state ∧
      ∃ N, ∀ n, N ≤ n → emittedAt parsers (fun _ => tick) declared n = [] := by
  have hw : Settleable parsers declared.state := by
    refine ⟨schedulable_sample rfl rfl rfl rfl rfl (by decide +kernel), fun dep hdep => .inl ?_⟩
    obtain rfl := eq_of_mem_deployments rfl hdep
    rfl
  exact ⟨hw, passes_fall_silent parsers (fun _ => tick) (fun _ => tick_idle) declared hw⟩

namespace Sample

structure Flaps (s : State) (t : Timestamp) (d : Deployment) : Prop where
  deployments : s.deployments = empty.apply d
  name : d.name = "sample"
  compose : d.composeYaml = compose "1.27"
  services : d.services = [web]
  revisions : d.appliedRevision ≠ d.previousRevision ∧ 0 < d.appliedRevision ∧ 0 < d.previousRevision
  nodes : s.nodes = declared.state.nodes
  replicas : s.replicasDesired = placed.state.replicasDesired
  plan : ∃ plan, s.rolloutPlans = empty.apply plan ∧ plan.deployment = "sample" ∧ plan.service = "web" ∧
    ((plan.state ≠ .inProgress ∧ plan.targetRevision ≠ d.appliedRevision) ∨
      (plan.state = .inProgress ∧ plan.targetRevision = d.appliedRevision ∧ ∃ t' ≤ t, plan.lastStepAt = some t'))

theorem apply_apply {α : Type} {keyFn : α → String} (v v' : α) (h : keyFn v = keyFn v') :
    ((empty : Store α keyFn).apply v).apply v' = empty.apply v' := by
  refine ext (fun k => ?_)
  rw [get_apply, get_apply, get_apply, h]
  split <;> rfl

variable {s : State} {t : Timestamp} {d : Deployment} {C : Timestamp → Prop}

theorem flaps_settled (h : Flaps s t d) : Schedulable parsers s ∧ unsettled parsers s = ∅ := by
  have hs : Schedulable parsers s :=
    schedulable_sample h.deployments h.name h.compose h.services h.nodes (by rw [h.replicas]; decide +kernel)
  have hrecords : ∀ id ∈ ["sample-web-0", "sample-web-1"], ∃ r ∈ s.replicasDesired.get id,
      r.image = "nginx:1.27" ∧ r.specHash = compose "1.27" ∧ stickyExistingHost r web ["node-a"] = some r.host := by
    rw [h.replicas]
    decide +kernel
  refine ⟨hs, Set.eq_empty_iff_forall_notMem.2 ?_⟩
  rintro id (⟨dep, svc, hdep, hid, hnot⟩ | ⟨r, hr, dep, hdep, hnot⟩)
  · obtain ⟨rfl, rfl⟩ := eq_of_declares h.deployments h.services hdep
    rw [wanted_sample h.name h.nodes] at hid
    obtain ⟨r, hr, himage, hhash, hhost⟩ := hrecords id hid
    refine hnot r hr ⟨_, _, rfl, rfl, ?_, ?_, ?_⟩
    · rw [himage, h.compose]
      decide +kernel
    · rw [hhash, h.compose]
    · intro counts desired _ d' _ _
      rw [hostsIn_sample h.nodes, hhost, Option.getD_some]
  · have hsample : ∀ r ∈ s.replicasDesired.list,
        r.deployment = "sample" ∧ r.service = "web" ∧ r.id ∈ ["sample-web-0", "sample-web-1"] := by
      rw [h.replicas]
      decide +kernel
    obtain ⟨hd, hsvc, hid⟩ := hsample r (mem_list_of_get hr)
    rw [hd, h.deployments, ← h.name] at hdep
    have heq : dep = d := (Option.some.inj ((get_apply_self empty d).symm.trans hdep)).symm
    subst heq
    refine hnot web (h.services ▸ mem_singleton_self web) hsvc.symm ?_
    rw [wanted_sample h.name h.nodes]
    exact hid

theorem rolling_of_mem {current : List ReplicaDesired} {image : String} {r : ReplicaDesired} (hr : r ∈ current)
    (h : r.image = image) : isRollingImageChange current image = true := by
  have hany : current.any (·.image = image) = true := any_eq_true.2 ⟨r, hr, decide_eq_true h⟩
  have hne : current.isEmpty = false := by
    cases current with
    | nil => cases hr
    | cons _ _ => rfl
  rw [isRollingImageChange, hne, hany]
  rfl

theorem flaps_start {s' : State} (h : Flaps s t d)
    (hplan : ∀ plan ∈ s.rolloutPlans.get (rolloutPlanKey d.name web.name),
      plan.state ≠ .inProgress ∧ plan.targetRevision ≠ d.appliedRevision) {batch cs : List Command}
    (hchain : Chain parsers C s [.stale d, .serve d web] s' batch cs) :
    batch = [] ∧ cs ≠ [] ∧ ∃ now, C now ∧ Flaps s' now d := by
  obtain ⟨hs, hsettled⟩ := flaps_settled h
  have hget : s.deployments.get d.name = some d := by
    rw [h.deployments]
    exact get_apply_self empty d
  have hnothing : ∀ {item : Item}, item.In s → ∀ {s' batch cs}, Does parsers C s item s' batch cs → batch = [] := by
    intro item hitem s' batch cs hdoes
    refine eq_nil_iff_forall_not_mem.2 (fun c hc => ?_)
    obtain ⟨id, -, hopen⟩ := does_mends hs hitem hdoes c hc
    rw [hsettled] at hopen
    exact hopen
  cases hchain with
  | step hstale hrest =>
    have hempty := hnothing (show Item.In s (.stale d) from hget) hstale
    cases hstale with
    | stale _ now stale hstale =>
      cases hrest with
      | step hserve hdone =>
        cases hdone with
        | done =>
          have hempty' := hnothing (show Item.In s (.serve d web) from ⟨hget, h.services ▸ mem_singleton_self web⟩)
            hserve
          generalize hitem : Item.serve d web = item at hserve
          cases hserve with
          | stale => cases hitem
          | serve p desired cs _ hsees hsteps =>
            injection hitem with hdep hsvc
            obtain ⟨project, hload, himage⟩ := hsees.image
            rw [← hdep, h.compose] at hload
            have hp : p.image = "nginx:1.27" := by
              cases hload
              rw [himage, ← hsvc]
              decide +kernel
            obtain ⟨r, hr, hrd, hrs, hri⟩ : ∃ r ∈ s.replicasDesired.list,
                r.deployment = "sample" ∧ r.service = "web" ∧ r.image = "nginx:1.27" := by
              rw [h.replicas]
              decide +kernel
            have hcurrent : r ∈ p.current :=
              (hsees.current r).2 ⟨mem_list.1 hr, by rw [hrd, ← hdep, h.name], by rw [hrs, ← hsvc]; rfl⟩
            have hrolling : p.rolling = true := hsees.rolling.trans (rolling_of_mem hcurrent (hri.trans hp.symm))
            rw [Steps, if_pos hrolling, ← hdep, ← hsvc] at hsteps
            refine ⟨by rw [hempty, hempty']; rfl, ?_⟩
            generalize p.rolloutStep = k at hsteps
            cases hsteps with
            | started now ts hnow _ =>
              obtain ⟨plan, hplans, hpd, hps, -⟩ := h.plan
              refine ⟨by simp, now, hnow, h.deployments, h.name, h.compose, h.services, h.revisions,
                h.nodes, h.replicas,
                starting d web (stepsOf web p.eligible) now, ?_, h.name, rfl, .inr ⟨rfl, rfl, now, le_refl now, rfl⟩⟩
              have hkey : plan.key = (starting d web (stepsOf web p.eligible) now).key := by
                rw [RolloutPlan.key, RolloutPlan.key, hpd, hps]
                change _ = rolloutPlanKey d.name "web"
                rw [h.name]
              change s.rolloutPlans.apply _ = _
              rw [hplans]
              exact apply_apply plan _ hkey
            | past plan hp hstate htarget => exact absurd htarget (hplan plan hp).2
            | completed plan _ _ hp hstate | waiting plan _ _ hp hstate | held plan _ _ _ _ hp hstate
            | advanced plan _ _ _ _ _ hp hstate | finished plan _ _ _ _ _ _ hp hstate =>
              exact absurd hstate (hplan plan hp).1

theorem flaps_abort (h : Flaps s t d) {plan : RolloutPlan}
    (hplans : s.rolloutPlans = empty.apply plan) (hpd : plan.deployment = "sample") (hps : plan.service = "web")
    (htarget : plan.targetRevision = d.appliedRevision) (idx : Nat) (at_ ts : Timestamp) :
    Flaps ((abortCommand s plan at_ ts).apply idx s) t
      { d with
        appliedRevision := d.previousRevision, previousRevision := d.appliedRevision, updatedAt := some ts } := by
  have hget : s.deployments.get plan.deployment = some d := by
    rw [h.deployments, hpd, ← h.name]
    exact get_apply_self empty d
  have hcommand : (abortCommand s plan at_ ts).apply idx s = applyEntry idx (setPlan s (aborting plan at_))
      ⟨"rollout", some ts, .deploymentRollback plan.deployment d.previousRevision⟩ := by
    rw [abortCommand, hget, rollbackChild, if_pos h.revisions.2.2]
    rfl
  have hdeps : ((abortCommand s plan at_ ts).apply idx s).deployments = empty.apply
      { d with
        appliedRevision := d.previousRevision, previousRevision := d.appliedRevision, updatedAt := some ts } := by
    rw [hcommand]
    refine Eq.trans (applyEntry_agree_mutate idx (setPlan s (aborting plan at_))
      ⟨"rollout", some ts, .deploymentRollback plan.deployment d.previousRevision⟩ .deployments (by decide)) ?_
    simp only [mutate]
    rw [show (setPlan s (aborting plan at_)).deployments.get plan.deployment = some d from hget]
    change s.deployments.apply _ = _
    rw [h.deployments]
    exact apply_apply d _ rfl
  have hothers : ∀ part, part ∉ [Part.deployments] → part ≠ .auditEvents →
      ((abortCommand s plan at_ ts).apply idx s).Agree (setPlan s (aborting plan at_)) part := by
    intro part hpart haudit
    rw [hcommand]
    exact applyEntry_agree idx _ _ part hpart haudit
  refine ⟨hdeps, h.name, h.compose, h.services, ⟨Ne.symm h.revisions.1, h.revisions.2.2, h.revisions.2.1⟩, ?_, ?_,
    aborting plan at_, ?_, hpd, hps, .inl ⟨by simp [aborting], ?_⟩⟩
  · exact (hothers .nodes (by decide) (by decide)).trans h.nodes
  · exact (hothers .replicasDesired (by decide) (by decide)).trans h.replicas
  · refine Eq.trans (hothers .rolloutPlans (by decide) (by decide)) ?_
    change s.rolloutPlans.apply _ = _
    rw [hplans]
    exact apply_apply plan _ rfl
  · change plan.targetRevision ≠ d.previousRevision
    rw [htarget]
    exact h.revisions.1

theorem flaps_later {t' : Timestamp} (h : Flaps s t d) (ht : t ≤ t') : Flaps s t' d := by
  obtain ⟨plan, hplans, hpd, hps, hplan⟩ := h.plan
  refine ⟨h.deployments, h.name, h.compose, h.services, h.revisions, h.nodes, h.replicas, plan, hplans, hpd, hps,
    hplan.imp_right (fun hrun => ?_)⟩
  obtain ⟨hstate, htarget, u, hu, hlast⟩ := hrun
  exact ⟨hstate, htarget, u, hu.trans ht, hlast⟩

theorem flaps_turn {w : World} (h : Flaps w.state w.now d) : (turn parsers w tick).emitted ≠ [] ∧
      ∃ d', Flaps (turn parsers w tick).now.state (turn parsers w tick).now.now d' := by
  have hq : Quiet (fun _ => False) (fun t => t = w.now + (61 * 10 ^ 9 : ℕ)) := ⟨by simp, by simp, by simp⟩
  have hlater : w.now ≤ w.now + (61 * 10 ^ 9 : ℕ) := later_of_le _ _ _ (le_refl _)
  obtain ⟨plan, hplans, hpd, hps, hplan⟩ := h.plan
  have hkey : plan.key = rolloutPlanKey d.name web.name := by rw [RolloutPlan.key, hpd, hps, h.name]; rfl
  have hget : ∀ p ∈ w.state.rolloutPlans.get (rolloutPlanKey d.name web.name), p = plan := by
    intro p hp
    rw [hplans, ← hkey] at hp
    exact (Option.some.inj ((get_apply_self empty plan).symm.trans hp)).symm
  -- the plan's rollout has either run out of time, or is over and has to be started again
  have hexpired : ∀ {now plans s₁ aborted es}, now = w.now + (61 * 10 ^ 9 : ℕ) → plans.Perm w.state.rolloutPlans.list →
      Expires now w.state plans s₁ aborted es →
      (s₁ = w.state ∧ aborted = [] ∧ es = [] ∧ plan.state ≠ .inProgress ∧ plan.targetRevision ≠ d.appliedRevision) ∨
        (aborted = ["sample"] ∧ es ≠ [] ∧ ∃ d', Flaps s₁ w.now d') := by
    intro now plans s₁ aborted es hnow hperm hexpires
    rw [hplans, list_empty_apply, perm_singleton] at hperm
    subst hperm
    rcases hplan with ⟨hstate, htarget⟩ | ⟨hstate, htarget, u, hu, hlast⟩
    · have hnot : timedOut now plan = false := by simp [timedOut, hstate]
      cases hexpires with
      | skip _ hrest =>
        cases hrest
        exact .inl ⟨rfl, rfl, rfl, hstate, htarget⟩
      | abort _ _ _ htimed => rw [hnot] at htimed; cases htimed
    · have htimed : timedOut now plan = true := by
        simp only [timedOut, hstate, hlast, decide_true, Option.any_some, Bool.true_and, decide_eq_true_eq, not_lt,
          stepTimeout, hnow]
        push_cast
        linarith
      cases hexpires with
      | skip hnot _ => rw [htimed] at hnot; cases hnot
      | abort idx at_ ts _ hrest =>
        cases hrest
        exact .inr ⟨by rw [hpd], by simp, _, flaps_abort h hplans hpd hps htarget idx at_ ts⟩
  have hopen : ∀ now plans s₁ aborted es, now = w.now + (61 * 10 ^ 9 : ℕ) → plans.Perm w.state.rolloutPlans.list →
      Expires now w.state plans s₁ aborted es → ∀ dep ∈ s₁.deployments.list, dep.name ∉ aborted →
        Unblocked parsers s₁ dep := by
    intro now plans s₁ aborted es hnow hperm hexpires dep hdep hname
    rcases hexpired hnow hperm hexpires with ⟨rfl, -⟩ | ⟨rfl, -, d', h'⟩
    · exact (flaps_settled h).1.unblocked dep hdep
    · exact (flaps_settled h').1.unblocked dep hdep
  obtain ⟨s', hpassed, hstate, hnow, -⟩ := reconcile_solo hq hopen [] (w.disturb tick.wait) (by simp)
    ⟨disturb_idle tick_idle.1 w, rfl, rfl⟩
  obtain ⟨now, plans, s₁, aborted, es, s₂, batch, ds, xs, deps, hnow', hperm, hexpires, hdeps, hchain, hsubmits, hcs⟩ :=
    hpassed
  change (turn parsers w tick).emitted = _ at hcs
  change (turn parsers w tick).now.state = _ at hstate
  change (turn parsers w tick).now.now = _ at hnow
  rw [hcs, hstate, hnow]
  rcases hexpired hnow' hperm hexpires with ⟨rfl, rfl, rfl, hended, htarget⟩ | ⟨rfl, hes, d', h'⟩
  · rw [h.deployments, list_empty_apply, perm_singleton] at hdeps
    subst hdeps
    have hitems : [d].flatMap (itemsOf []) = [.stale d, .serve d web] := by simp [itemsOf, h.services]
    rw [hitems] at hchain
    obtain ⟨rfl, hds, u, rfl, hflaps⟩ := flaps_start h (fun p hp => by rw [hget p hp]; exact ⟨hended, htarget⟩) hchain
    rcases hsubmits with ⟨-, rfl, rfl⟩ | ⟨hne, -⟩
    · exact ⟨by simpa using hds, d, hflaps⟩
    · exact absurd rfl hne
  · rw [h'.deployments, list_empty_apply, perm_singleton] at hdeps
    subst hdeps
    have hitems : [d'].flatMap (itemsOf ["sample"]) = [] := by simp [itemsOf, h'.name]
    rw [hitems] at hchain
    cases hchain
    rcases hsubmits with ⟨-, rfl, rfl⟩ | ⟨hne, -⟩
    · exact ⟨by simpa using hes, d', flaps_later h' hlater⟩
    · exact absurd rfl hne

def reapplied : World := undisturbed (placed.commit (.single (applied 2 "1.27")))

def unplaced : World := World.commit (.single (applied 1 "1.27")) { state := .new, index := 0, now := 0 }

structure Unplaced (s : State) (d : Deployment) : Prop where
  deployments : s.deployments = empty.apply d
  name : d.name = "sample"
  compose : d.composeYaml = compose "1.27"
  services : d.services = [web]
  nodes : s.nodes = empty
  replicas : s.replicasDesired = empty
  plans : s.rolloutPlans = empty

theorem unplaced_marked (h : Unplaced s d) (reason : String) (now ts : Timestamp) (idx : Nat) : ∃ d', Unplaced
    ((Command.batch "scheduler" (some ts) [markDeploymentPending "sample" reason now]).apply idx s) d' := by
  have hget : s.deployments.get "sample" = some d := by
    rw [h.deployments, ← h.name]
    exact get_apply_self empty d
  have hmark : (Command.batch "scheduler" (some ts) [markDeploymentPending "sample" reason now]).apply idx s =
      { s with
        deployments := empty.apply { d with status := .pending, statusDetails := [("reason", reason)] } } := by
    simp only [Command.apply, applyChildren, markDeploymentPending, applyEntry, applyPayload, mutate, auditOf, hget]
    rw [h.deployments]
    simp only [ne_eq, not_true_eq_false, if_false]
    rw [apply_apply]
    rfl
  rw [hmark]
  exact ⟨_, rfl, h.name, h.compose, h.services, h.nodes, h.replicas, h.plans⟩

theorem unplaced_turn {w : World} (h : Unplaced w.state d) :
    (turn parsers w tick).emitted ≠ [] ∧ ∃ d', Unplaced (turn parsers w tick).now.state d' := by
  obtain ⟨reason, ts, hemitted, hstate⟩ : ∃ reason ts,
      (turn parsers w tick).emitted = [.batch "scheduler" (some ts) [markDeploymentPending "sample" reason ts]] ∧
        (turn parsers w tick).now.state =
          (Command.batch "scheduler" (some ts) [markDeploymentPending "sample" reason ts]).apply
            (w.index + 1) w.state := by
    -- with no node and no replica the pass runs through whatever the rest of the state is
    obtain ⟨s, _⟩ := w
    obtain ⟨hdeps, hname, hcompose, hservices, hnodes, hreplicas, hplans⟩ := h
    cases s
    cases d
    dsimp only at hdeps hname hcompose hservices hnodes hreplicas hplans
    subst hdeps hname hcompose hservices hnodes hreplicas hplans
    exact ⟨_, _, rfl, rfl⟩
  rw [hemitted, hstate]
  exact ⟨by simp, unplaced_marked h reason ts ts _⟩

end Sample

theorem passes_never_fall_silent : tick.Idle ∧ (∀ n, emittedAt parsers (fun _ => tick) unplaced n ≠ []) ∧
      ∀ n, emittedAt parsers (fun _ => tick) reapplied n ≠ [] := by
  refine ⟨tick_idle, fun n => ?_, fun n => ?_⟩
  · suffices h : ∃ d, Sample.Unplaced (worldAt parsers (fun _ => tick) unplaced n).state d by
      obtain ⟨d, h⟩ := h
      exact (unplaced_turn h).1
    induction n with
    | zero => exact ⟨_, rfl, rfl, rfl, rfl, rfl, rfl, rfl⟩
    | succ n ih =>
      obtain ⟨d, h⟩ := ih
      exact (unplaced_turn h).2
  · suffices h : ∃ d, Sample.Flaps (worldAt parsers (fun _ => tick) reapplied n).state
        (worldAt parsers (fun _ => tick) reapplied n).now d by
      obtain ⟨d, h⟩ := h
      exact (flaps_turn h).1
    induction n with
    | zero =>
      let d : Deployment :=
        { name := "sample", appliedRevision := 2, previousRevision := 1, status := .active,
          composeYaml := compose "1.27", services := [web] }
      refine ⟨d, ?_⟩
      refine ⟨by decide +kernel, rfl, rfl, rfl, by decide, by decide +kernel, by decide +kernel, ?_⟩
      exact ⟨_, rfl, by decide +kernel, by decide +kernel,
        .inr ⟨by decide +kernel, by decide +kernel, 0, by decide, rfl⟩⟩
    | succ n ih =>
      obtain ⟨d, h⟩ := ih
      exact (flaps_turn h).2

end Jaco.Scheduler
