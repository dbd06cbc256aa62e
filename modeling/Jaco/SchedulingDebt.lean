import Jaco.ReplicaRepairs

/-!
What a state still owes: rollouts to start or to end, replicas to write or to remove. Once no observation
is fresh any more, every command of a pass pays some of it off.
-/

namespace Jaco.Scheduler

open Interleaving Placement Rollout List Store

section Plans

def inProgress (s : State) : Set String := {k | ∃ plan ∈ s.rolloutPlans.get k, plan.state = .inProgress}

def lagging (s : State) : Set String :=
  {k | ∃ dep svc, Declares s dep svc ∧ rolloutPlanKey dep.name svc.name = k ∧
    ∀ plan ∈ s.rolloutPlans.get k, plan.targetRevision ≠ dep.appliedRevision}

/-- A plan that has to be started has to be ended as well. -/
noncomputable def planDebt (s : State) : ℕ := (inProgress s).ncard + 2 * (lagging s).ncard

theorem finite_inProgress (s : State) : (inProgress s).Finite := by
  refine (finite_toSet (s.rolloutPlans.list.map (·.key))).subset ?_
  rintro k ⟨plan, hget, -⟩
  exact mem_map.2 ⟨plan, mem_list_of_get hget, get_key hget⟩

theorem finite_lagging (s : State) : (lagging s).Finite := by
  refine (finite_toSet
    (s.deployments.list.flatMap (fun d => d.services.map (fun svc => rolloutPlanKey d.name svc.name)))).subset ?_
  rintro k ⟨dep, svc, hdep, hkey, -⟩
  exact mem_flatMap.2 ⟨dep, mem_deployments hdep, mem_map.2 ⟨svc, hdep.2, hkey⟩⟩

variable {s : State} {plan old : RolloutPlan} {k : String}

section

variable (hget : s.rolloutPlans.get k = some old) (hkey : plan.key = k)
  (htarget : plan.targetRevision = old.targetRevision)

include hget hkey htarget

theorem lagging_setPlan : lagging (setPlan s plan) = lagging s := by
  ext k'
  by_cases hk : k' = k
  · subst hk
    have hnew := get_setPlan_self s hkey
    simp only [lagging, Set.mem_ofPred_eq, hnew, hget, Option.mem_some_iff, forall_eq', htarget]
    exact Iff.rfl
  · have hnew := get_setPlan_ne s (hkey ▸ Ne.symm hk : plan.key ≠ k')
    simp only [lagging, Set.mem_ofPred_eq, hnew]
    exact Iff.rfl

theorem planDebt_retire (hold : old.state = .inProgress) (hstate : plan.state ≠ .inProgress) :
    planDebt (setPlan s plan) + 1 ≤ planDebt s := by
  have hset : inProgress (setPlan s plan) = inProgress s \ {k} := by
    ext k'
    by_cases hk : k' = k
    · subst hk
      simp [inProgress, get_setPlan_self s hkey, hstate]
    · simp [inProgress, get_setPlan_ne s (hkey ▸ Ne.symm hk : plan.key ≠ k'), hk]
  have hmem : k ∈ inProgress s := ⟨old, hget, hold⟩
  have hcard := Set.ncard_sdiff_singleton_add_one hmem (finite_inProgress s)
  rw [planDebt, planDebt, hset, lagging_setPlan hget hkey htarget]
  omega

theorem planDebt_keep (hstate : plan.state = old.state) : planDebt (setPlan s plan) = planDebt s := by
  have hset : inProgress (setPlan s plan) = inProgress s := by
    ext k'
    by_cases hk : k' = k
    · subst hk
      simp [inProgress, get_setPlan_self s hkey, hget, hstate]
    · simp [inProgress, get_setPlan_ne s (hkey ▸ Ne.symm hk : plan.key ≠ k')]
  rw [planDebt, planDebt, hset, lagging_setPlan hget hkey htarget]

end

theorem planDebt_start (plan : RolloutPlan) (hs : WellNamed s) {dep : Deployment} {svc : ServiceSpec}
    (hdep : Declares s dep svc)
    (hold : ∀ old ∈ s.rolloutPlans.get (rolloutPlanKey dep.name svc.name),
      old.state ≠ .inProgress ∧ old.targetRevision ≠ dep.appliedRevision)
    (hkey : plan.key = rolloutPlanKey dep.name svc.name) (htarget : plan.targetRevision = dep.appliedRevision) :
    planDebt (setPlan s plan) + 1 ≤ planDebt s := by
  have hinsert : inProgress (setPlan s plan) ⊆ insert plan.key (inProgress s) := by
    rintro k ⟨p, hget, hstate⟩
    by_cases hk : plan.key = k
    · exact .inl hk.symm
    · rw [get_setPlan_ne s hk] at hget
      exact .inr ⟨p, hget, hstate⟩
  have herase : lagging (setPlan s plan) ⊆ lagging s \ {plan.key} := by
    rintro k ⟨dep', svc', hdep', hk, hlag⟩
    have hne : plan.key ≠ k := by
      intro hpk
      rw [get_setPlan_self s hpk] at hlag
      obtain ⟨rfl, -⟩ := declares_of_key hs hdep hdep' ((hkey.symm.trans hpk).trans hk.symm)
      exact hlag plan rfl htarget
    rw [get_setPlan_ne s hne] at hlag
    exact ⟨⟨dep', svc', hdep', hk, hlag⟩, fun h => hne h.symm⟩
  have hmem : plan.key ∈ lagging s := ⟨dep, svc, hdep, hkey.symm, fun old hget => (hold old (hkey ▸ hget)).2⟩
  have hle := (Set.ncard_le_ncard hinsert ((finite_inProgress s).insert plan.key)).trans
    (Set.ncard_insert_le plan.key (inProgress s))
  have hle' := Set.ncard_le_ncard herase ((finite_lagging s).subset Set.sdiff_subset)
  have hcard := Set.ncard_sdiff_singleton_add_one hmem (finite_lagging s)
  rw [planDebt, planDebt]
  omega

end Plans

def Ended (s : State) (dep : Deployment) : Prop :=
  (∀ plan ∈ s.rolloutPlans.list, plan.deployment = dep.name → plan.state ≠ .inProgress) ∧
    ∀ svc ∈ dep.services, ∃ plan ∈ s.rolloutPlans.get (rolloutPlanKey dep.name svc.name),
      plan.state ≠ .inProgress ∧ plan.targetRevision = dep.appliedRevision

structure Settleable (P : Parsers) (s : State) : Prop extends Schedulable P s where
  rollouts : ∀ dep ∈ s.deployments.list, dep.previousRevision = 0 ∨ Ended s dep

noncomputable def debt (P : Parsers) (s : State) : ℕ := planDebt s + (unsettled P s).ncard

def Stale (C : Timestamp → Prop) (s : State) : Prop :=
  ∀ t, C t → ∀ obs ∈ s.replicasObserved.list, isFresh t obs.lastHealthAt = false

structure Pays (P : Parsers) (C : Timestamp → Prop) (s s' : State) (n : ℕ) : Prop where
  settleable : Settleable P s'
  observed : ∀ obs ∈ s'.replicasObserved.list, obs ∈ s.replicasObserved.list
  less : debt P s' ≤ debt P s
  paid : Stale C s → debt P s' + n ≤ debt P s

section Steps

variable {P : Parsers} {C : Timestamp → Prop} {s s' s'' : State}

theorem pays_trans {n m : ℕ} (h : Pays P C s s' n) (h' : Pays P C s' s'' m) : Pays P C s s'' (n + m) := by
  refine ⟨h'.settleable, fun obs hobs => h.observed obs (h'.observed obs hobs), h'.less.trans h.less, fun hstale => ?_⟩
  have hpaid := h.paid hstale
  have hpaid' := h'.paid (fun t ht obs hobs => hstale t ht obs (h.observed obs hobs))
  omega

theorem alike_setPlan (s : State) (plan : RolloutPlan) : Alike s (setPlan s plan) := ⟨rfl, rfl⟩

theorem debt_setPlan (plan : RolloutPlan) :
    debt P (setPlan s plan) = planDebt (setPlan s plan) + (unsettled P s).ncard := by
  have hsame : unsettled P (setPlan s plan) = unsettled P s :=
    Set.ext (fun id => unsettled_alike (alike_setPlan s plan) rfl)
  rw [debt, hsame]

theorem schedulable_setPlan (hs : Schedulable P s) (plan : RolloutPlan) : Schedulable P (setPlan s plan) :=
  schedulable_alike (alike_setPlan s plan) hs hs.owned

variable {dep : Deployment} {plan old : RolloutPlan} {now : Timestamp} {cs batch : List Command}

theorem ended_setPlan (h : Ended s dep) (hdep : plan.state = .inProgress → plan.deployment ≠ dep.name)
    (hkey : ∀ svc ∈ dep.services, plan.key ≠ rolloutPlanKey dep.name svc.name) : Ended (setPlan s plan) dep := by
  refine ⟨fun p hp hname hstate => ?_, fun svc hsvc => ?_⟩
  · have hget : (setPlan s plan).rolloutPlans.get p.key = some p := mem_list.1 hp
    by_cases hk : plan.key = p.key
    · rw [get_setPlan_self s hk] at hget
      cases hget
      exact hdep hstate hname
    · rw [get_setPlan_ne s hk] at hget
      exact h.1 p (mem_list.2 hget) hname hstate
  · obtain ⟨p, hget, hp⟩ := h.2 svc hsvc
    exact ⟨p, by rw [get_setPlan_ne s (hkey svc hsvc)]; exact hget, hp⟩

theorem not_stale_of_ready {D S : String} (hnow : C now) (h : ready s D S plan now = true) : ¬ Stale C s := by
  intro hstale
  obtain ⟨obs, hget, hobs⟩ := (Option.any_eq_true _ _).1 h
  have hfresh := hstale now hnow obs (mem_list_of_get hget)
  simp [hfresh] at hobs

theorem inProgress_of_timedOut (h : timedOut now plan = true) : plan.state = .inProgress := by
  rw [timedOut, Bool.and_eq_true] at h
  exact of_decide_eq_true h.1

variable (hs : Settleable P s)

include hs

theorem pays_refl : Pays P C s s 0 := ⟨hs, fun _ h => h, le_refl _, fun _ => le_refl _⟩

section

variable (hget : s.rolloutPlans.get plan.key = some old) (hold : old.state = .inProgress)
  (hdep : plan.deployment = old.deployment)

include hget hold hdep

theorem settleable_touch : Settleable P (setPlan s plan) := by
  refine ⟨schedulable_setPlan hs.toSchedulable plan, fun dep hmem => (hs.rollouts dep hmem).imp_right (fun h => ?_)⟩
  refine ended_setPlan h (fun _ hname => ?_) (fun svc hsvc hkey => ?_)
  · exact h.1 old (mem_list_of_get hget) (hdep ▸ hname) hold
  · obtain ⟨p, hp, hstate, -⟩ := h.2 svc hsvc
    rw [← hkey, hget] at hp
    cases hp
    exact hstate hold

variable (htarget : plan.targetRevision = old.targetRevision)

include htarget

theorem pays_retire (hstate : plan.state ≠ .inProgress) : Pays P C s (setPlan s plan) 1 := by
  have hdebt := planDebt_retire hget rfl htarget hold hstate
  have hle : debt P (setPlan s plan) + 1 ≤ debt P s := by
    rw [debt_setPlan, debt]
    omega
  exact ⟨settleable_touch hs hget hold hdep, fun _ h => h, (Nat.le_succ _).trans hle, fun _ => hle⟩

theorem pays_keep (hfresh : ¬ Stale C s) (hstate : plan.state = old.state) (n : ℕ) : Pays P C s (setPlan s plan) n := by
  refine ⟨settleable_touch hs hget hold hdep, fun _ h => h, le_of_eq ?_, fun hstale => absurd hstale hfresh⟩
  rw [debt_setPlan, debt, planDebt_keep hget rfl htarget hstate]

end

theorem pays_start {svc : ServiceSpec} (hdep : Declares s dep svc)
    (hold : ∀ old ∈ s.rolloutPlans.get (rolloutPlanKey dep.name svc.name),
      old.state ≠ .inProgress ∧ old.targetRevision ≠ dep.appliedRevision) (total : Int) (now : Timestamp) :
    Pays P C s (setPlan s (starting dep svc total now)) 1 := by
  have hdebt := planDebt_start (starting dep svc total now) hs.named hdep hold rfl rfl
  have hle : debt P (setPlan s (starting dep svc total now)) + 1 ≤ debt P s := by
    rw [debt_setPlan, debt]
    omega
  refine ⟨⟨schedulable_setPlan hs.toSchedulable _, fun dep' hmem => ?_⟩, fun _ h => h, (Nat.le_succ _).trans hle,
    fun _ => hle⟩
  refine (hs.rollouts dep' hmem).imp_right (fun h => ?_)
  -- the deployment that starts a rollout is not one whose rollouts have all ended
  have hne : dep ≠ dep' := by
    rintro rfl
    obtain ⟨p, hp, -, htarget⟩ := h.2 svc hdep.2
    exact (hold p hp).2 htarget
  have hname : dep.name ≠ dep'.name := fun heq => hne (Option.some.inj (hdep.1.symm.trans (heq ▸ mem_list.1 hmem)))
  refine ended_setPlan h (fun _ => hname) (fun svc' hsvc' hkey => hne ?_)
  exact (declares_of_key hs.named hdep ⟨mem_list.1 hmem, hsvc'⟩ hkey).1

theorem drove_pays {svc : ServiceSpec} (hdep : Declares s dep svc) {total k : Int}
    (h : Drove C s dep svc total k cs s') : Pays P C s s' cs.length := by
  cases h with
  | started now ts _ hplan => exact pays_start hs hdep hplan total now
  | past => exact pays_refl hs
  | waiting => exact pays_refl hs
  | completed plan now ts hplan hstate hstep =>
    have hkey : plan.key = _ := get_key hplan
    exact pays_retire hs (by rw [← hplan, ← hkey]; rfl) hstate rfl rfl (by simp [completing])
  | held plan now hnow e audit hplan hstate hstep hready hbehind he =>
    have hfresh := not_stale_of_ready hnow hready
    have halike : Alike s { s with auditEvents := audit } := ⟨rfl, rfl⟩
    have hs' : Settleable P { s with auditEvents := audit } :=
      ⟨schedulable_alike halike hs.toSchedulable hs.owned, hs.rollouts⟩
    have hsame : unsettled P { s with auditEvents := audit } = unsettled P s :=
      Set.ext (fun id => unsettled_alike halike rfl)
    have hdebt : debt P { s with auditEvents := audit } = debt P s := by
      rw [debt, debt, hsame]
      rfl
    exact ⟨hs', fun _ h => h, le_of_eq hdebt, fun hstale => absurd hstale hfresh⟩
  | advanced plan now now' ts hnow hnow' hplan hstate hstep hready hbehind hnext =>
    have hget : s.rolloutPlans.get (advancing plan now').key = some plan := get_key hplan ▸ hplan
    exact pays_keep hs hget hstate rfl rfl (not_stale_of_ready hnow hready) rfl 1
  | finished plan now now' ts now'' ts' hnow hplan hstate hstep hready hbehind hnext =>
    have hget : s.rolloutPlans.get (advancing plan now').key = some plan := get_key hplan ▸ hplan
    have hadvance : Pays P C s (setPlan s (advancing plan now')) 1 :=
      pays_keep hs hget hstate rfl rfl (not_stale_of_ready hnow hready) rfl 1
    have hnew := get_setPlan_self s (show (advancing plan now').key = _ from rfl)
    exact pays_trans hadvance (pays_retire hadvance.settleable hnew hstate rfl rfl (by simp [completing]))

theorem does_pays {item : Item} (hitem : item.In s) (h : Does P C s item s' batch cs) : Pays P C s s' cs.length := by
  cases h with
  | stale => exact pays_refl hs
  | serve p desired _ _ hsees hsteps =>
    unfold Steps at hsteps
    split at hsteps
    · exact drove_pays hs hitem hsteps
    · obtain ⟨-, rfl, rfl⟩ := hsteps
      exact pays_refl hs

theorem chain_pays {items : List Item} (hitems : ∀ item ∈ items, item.In s)
    (h : Chain P C s items s' batch cs) :
    Pays P C s s' cs.length ∧ ∀ c ∈ batch, ∃ id, Repairs P s id c ∧ id ∈ unsettled P s := by
  induction h with
  | done s => exact ⟨pays_refl hs, nofun⟩
  | @step s s₁ s₂ item items batch₁ batch₂ cs₁ cs₂ hdoes hrest ih =>
    have hpays := does_pays hs (hitems item mem_cons_self) hdoes
    have hmends := does_mends hs.toSchedulable (hitems item mem_cons_self) hdoes
    have hbeside := beside_does hdoes
    obtain ⟨plans, audit, rfl⟩ := hbeside
    have halike : Alike { s with rolloutPlans := plans, auditEvents := audit } s := ⟨rfl, rfl⟩
    obtain ⟨hpays', hmends'⟩ := ih hpays.settleable (fun item' hitem' => by
      have hin := hitems item' (mem_cons_of_mem item hitem')
      cases item' <;> exact hin)
    refine ⟨by rw [length_append]; exact pays_trans hpays hpays', fun c hc => ?_⟩
    rcases mem_append.1 hc with hc | hc
    · exact hmends c hc
    · obtain ⟨id, hrepairs, hopen⟩ := hmends' c hc
      exact ⟨id, repairs_alike halike hrepairs, (unsettled_alike halike rfl).2 hopen⟩

theorem abort_pays (hget : s.rolloutPlans.get plan.key = some plan)
    (hstate : plan.state = .inProgress) (idx : Nat) (at_ ts : Timestamp) :
    Pays P C s ((abortCommand s plan at_ ts).apply idx s) 1 := by
  -- there is no revision to roll back to, so the batch holds the plan alone
  have hchild : rollbackChild plan.deployment ts (s.deployments.get plan.deployment) = [] := by
    unfold rollbackChild
    split
    · rename_i d hd
      have hname : d.name = plan.deployment := get_key hd
      rcases hs.rollouts d (mem_list_of_get hd) with hzero | hended
      · rw [if_neg (by omega)]
      · exact absurd hstate (hended.1 plan (mem_list.2 hget) hname.symm)
    · rfl
  have happly : (abortCommand s plan at_ ts).apply idx s = setPlan s (aborting plan at_) := by
    rw [abortCommand, hchild]
    rfl
  rw [happly]
  exact pays_retire hs hget hstate rfl rfl (by simp [aborting])

theorem expires_pays {plans : List RolloutPlan}
    (hplans : ∀ plan ∈ plans, s.rolloutPlans.get plan.key = some plan) (hnodup : (plans.map (·.key)).Nodup)
    {aborted : List String} {es : List Command} (h : Expires now s plans s' aborted es) :
    Pays P C s s' es.length := by
  induction h with
  | done s => exact pays_refl hs
  | skip _ _ ih => exact ih hs (fun p hp => hplans p (mem_cons_of_mem _ hp)) (nodup_cons.1 hnodup).2
  | @abort s s' plan plans aborted es idx at_ ts htimed _ ih =>
    obtain ⟨hfresh, hrest⟩ := nodup_cons.1 hnodup
    have hpays : Pays P C s ((abortCommand s plan at_ ts).apply idx s) 1 :=
      abort_pays hs (hplans plan mem_cons_self) (inProgress_of_timedOut htimed) idx at_ ts
    have hpays' := ih hpays.settleable (fun p hp => by
      rw [get_abort s plan at_ ts idx (fun hkey => hfresh (mem_map.2 ⟨p, hp, hkey.symm⟩))]
      exact hplans p (mem_cons_of_mem plan hp)) hrest
    rw [length_cons, Nat.add_comm]
    exact pays_trans hpays hpays'

theorem submits_pays (hbatch : ∀ c ∈ batch, ∃ id, Repairs P s id c ∧ id ∈ unsettled P s)
    (h : Submits s batch s' cs) : Pays P C s s' cs.length := by
  rcases h with ⟨-, rfl, rfl⟩ | ⟨hne, idx, ts, rfl, rfl⟩
  · exact pays_refl hs
  · obtain ⟨⟨hs', hsub⟩, hmended, halike, hplans, hobs⟩ := repairs_batch hs.toSchedulable idx batch (fun c hc => by
      obtain ⟨id, hid, -⟩ := hbatch c hc
      exact ⟨id, hid⟩)
    have hsettle : Settleable P (applyChildren idx s batch) := by
      refine ⟨hs', fun dep hdep => ?_⟩
      rw [halike.1] at hdep
      rw [Ended, hplans]
      exact hs.rollouts dep hdep
    have hplan : planDebt (applyChildren idx s batch) = planDebt s := by
      simp only [planDebt, inProgress, lagging, hplans, declares_alike halike]
    obtain ⟨c, hc⟩ := exists_mem_of_ne_nil batch hne
    obtain ⟨id, hid, hopen⟩ := hbatch c hc
    have hlt : (unsettled P (applyChildren idx s batch)).ncard < (unsettled P s).ncard :=
      Set.ncard_lt_ncard ⟨hsub, fun hsup => hmended c hc id hid (hsup hopen)⟩ finite_unsettled
    have hle : debt P (applyChildren idx s batch) + 1 ≤ debt P s := by
      rw [debt, debt, hplan]
      omega
    exact ⟨hsettle, hobs, (Nat.le_succ _).trans hle, fun _ => hle⟩

theorem passed_pays (h : Passed P C s s' cs) : Pays P C s s' cs.length := by
  obtain ⟨now, plans, s₁, aborted, es, s₂, batch, ds, xs, deps, -, hplans, hexpires, hdeps, hchain, hsubmits, rfl⟩ := h
  have hexpired : Pays P C s s₁ es.length := expires_pays hs (fun plan hplan => mem_list.1 (hplans.mem_iff.1 hplan))
      ((hplans.map _).nodup_iff.2 s.rolloutPlans.nodup_list) hexpires
  have hitems : ∀ item ∈ deps.flatMap (itemsOf aborted), item.In s₁ := by
    intro item hitem
    obtain ⟨dep, hdep, hitem⟩ := mem_flatMap.1 hitem
    have hget : s₁.deployments.get dep.name = some dep := mem_list.1 (hdeps.mem_iff.1 hdep)
    unfold itemsOf at hitem
    split at hitem
    · cases hitem
    · rcases mem_cons.1 hitem with rfl | hitem
      · exact hget
      · obtain ⟨svc, hsvc, rfl⟩ := mem_map.1 hitem
        exact ⟨hget, hsvc⟩
  obtain ⟨hserved, hbatch⟩ := chain_pays hexpired.settleable hitems hchain
  have hbeside := beside_chain hchain
  obtain ⟨plans', audit, rfl⟩ := hbeside
  have halike : Alike s₁ { s₁ with rolloutPlans := plans', auditEvents := audit } := ⟨rfl, rfl⟩
  have hsubmitted : Pays P C { s₁ with rolloutPlans := plans', auditEvents := audit } s' xs.length := by
    refine submits_pays hserved.settleable (fun c hc => ?_) hsubmits
    obtain ⟨id, hrepairs, hopen⟩ := hbatch c hc
    exact ⟨id, repairs_alike halike hrepairs, (unsettled_alike halike rfl).2 hopen⟩
  rw [length_append, length_append]
  exact pays_trans hexpired (pays_trans hserved hsubmitted)

end Steps

end Jaco.Scheduler
