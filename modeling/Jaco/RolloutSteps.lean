import Jaco.SchedulerOffers

namespace Jaco.Scheduler

open Interleaving Placement Rollout

def IsObservation : Payload → Prop
  | .replicaObservedUpdate _ => True
  | _ => False

def Observing (o : Others) : Prop := ∀ c ∈ o.commands, Allows IsObservation c

def NoPlan (p : Payload) : Prop := Part.rolloutPlans ∉ writes p

theorem noPlan_observation {p : Payload} (h : IsObservation p) : NoPlan p := by
  cases p <;> simp_all [IsObservation, NoPlan, writes]

theorem steady_of_entry {Q : State → Prop} (h : ∀ idx s e, IsObservation e.payload → Q s → Q (applyEntry idx s e)) :
    Steady cluster Observing (fun c => Q c.now.state) := by
  rintro ⟨_ | o, fate⟩ c hg hc
  · exact hc
  · exact disturb_keeps h o c.now (hg o rfl) hc

theorem arrive_now {g : Gap Others} {c : Config World} : c.now.now ≤ (cluster.arrive g c).now.now := by
  obtain ⟨others, fate⟩ := g
  cases others with
  | none => exact le_refl c.now.now
  | some o => exact le_add_of_nonneg_right (Int.natCast_nonneg o.elapsed)

section Plans

variable (D S : String)

def planAt (w : World) : Option RolloutPlan := w.state.rolloutPlans.get (rolloutPlanKey D S)

def PlanIs (x : Option RolloutPlan) (c : Config World) : Prop := planAt D S c.now = x

def AtStep (k : Int) (w : World) : Prop := ∃ p, planAt D S w = some p ∧ p.state = .inProgress ∧ p.currentStep = k

def AtRest (w : World) : Prop := ∀ p, planAt D S w = some p → p.state ≠ .inProgress

def isReady (id : String) (w : World) : Bool :=
  (w.state.replicasObserved.get id).any (fun obs => obs.state = .running && isFresh w.now obs.lastHealthAt)

variable {D S}

theorem targetID_of_step {p : RolloutPlan} {k : Nat} (hk : k < 2 ^ 31) (h : p.currentStep = k) :
    targetID p D S = replicaID D S k := by
  have hindex : (p.currentStep % 2 ^ 64).toNat = k := by omega
  rw [targetID, hindex]

theorem planAt_entry {x : Option RolloutPlan} (idx : Nat) (s : State) (e : Entry) (he : NoPlan e.payload)
    (hs : s.rolloutPlans.get (rolloutPlanKey D S) = x) :
    (applyEntry idx s e).rolloutPlans.get (rolloutPlanKey D S) = x := by
  have hplans : (applyEntry idx s e).rolloutPlans = s.rolloutPlans :=
    applyEntry_agree idx s e .rolloutPlans he (by decide)
  rw [hplans]
  exact hs

theorem planAt_commit {c : Command} (h : Allows NoPlan c) (w : World) : planAt D S (w.commit c) = planAt D S w :=
  commit_keeps (Q := fun s => s.rolloutPlans.get (rolloutPlanKey D S) = planAt D S w) planAt_entry c w h rfl

theorem planAt_commit_plan (w : World) (plan : RolloutPlan) (now : Timestamp) (h : plan.key = rolloutPlanKey D S) :
    planAt D S (w.commit (planCommand plan now)) = some plan := by
  have hplans : (w.commit (planCommand plan now)).state.rolloutPlans = w.state.rolloutPlans.apply plan := rfl
  rw [planAt, hplans, ← h]
  exact Store.get_apply_self _ plan

variable {x : Option RolloutPlan}

theorem steady_planIs : Steady cluster Observing (PlanIs D S x) :=
  steady_of_entry (fun idx s e he => planAt_entry idx s e (noPlan_observation he))

theorem findPlan_spec :
    Triple cluster Observing (PlanIs D S x) (findPlan D S) (fun found c => found = x ∧ PlanIs D S x c) :=
  triple_mono (triple_read _ steady_planIs) (fun _ h => h) (fun _ _ h => ⟨h.2.1.trans h.1, h.1⟩)

theorem read_spec {α : Type} (f : World → α) :
    Triple cluster Observing (PlanIs D S x) (Program.read f) (fun _ c => PlanIs D S x c) :=
  triple_mono (triple_read f steady_planIs) (fun _ h => h) (fun _ _ h => h.1)

theorem applyPlan_spec (plan : RolloutPlan) (h : plan.key = rolloutPlanKey D S) :
    Triple cluster Observing (PlanIs D S x) (applyPlan plan) (fun ok c => ok = true ∧ PlanIs D S (some plan) c) :=
  triple_bind (read_spec World.now) (fun now => triple_send _ steady_planIs
    (fun c _ => ⟨rfl, planAt_commit_plan c.now plan now h⟩))

theorem start_spec (hx : ∀ p, x = some p → p.state ≠ .inProgress) (rev : Nat) (totalSteps : Int) :
    Triple cluster Observing (PlanIs D S x)
      (do
        let ok ← start D S rev totalSteps
        pure (if ok then (0 : Int) else -1))
      (fun k c => AtStep D S k c.now) := by
  have hstart : Triple cluster Observing (PlanIs D S x) (start D S rev totalSteps)
      (fun ok c => ok = true ∧ AtStep D S 0 c.now) := by
    refine triple_bind findPlan_spec (fun found => triple_pure (fun hfound => ?_))
    subst hfound
    split
    · rename_i hany
      obtain ⟨p, hp, hprog⟩ := (Option.any_eq_true _ _).1 hany
      exact absurd (of_decide_eq_true hprog) (hx p hp)
    · refine triple_bind (read_spec World.now) (fun now => ?_)
      exact triple_mono (applyPlan_spec _ rfl) (fun _ h => h) (fun ok c h => ⟨h.1, _, h.2, rfl, rfl⟩)
  refine triple_bind hstart (fun ok => triple_ret (fun c hc => ?_))
  rw [if_pos hc.1]
  exact hc.2

theorem complete_spec {p : RolloutPlan} (hkey : p.key = rolloutPlanKey D S) :
    Triple cluster Observing (PlanIs D S (some p))
      (do
        let _ ← complete D S
        pure (-1 : Int))
      (fun _ c => AtRest D S c.now) := by
  refine triple_bind (R := fun _ c => AtRest D S c.now) ?_ (fun _ => triple_ret (fun _ hc => hc))
  refine triple_bind findPlan_spec (fun found => triple_pure (fun hfound => ?_))
  subst hfound
  refine triple_bind (read_spec World.now) (fun now => ?_)
  refine triple_mono (applyPlan_spec { p with state := .completed, lastStepAt := some now } hkey)
    (fun _ h => h) (fun ok c h q hq => ?_)
  rw [← Option.some.inj (h.2.symm.trans hq)]
  exact nofun

theorem countNotRunning_spec (observed : List ReplicaObserved) :
    Triple cluster Observing (PlanIs D S x) (countNotRunning D S observed) (fun _ c => PlanIs D S x c) := by
  refine triple_foldlM (I := fun _ _ c => PlanIs D S x c) _ observed 0 (fun pre obs post n hl => ?_)
  split
  · exact triple_ret (fun _ hc => hc)
  · exact triple_bind (read_spec _) (fun mine => triple_ret (fun _ hc => hc))

theorem isFresh_earlier {now later : Timestamp} (hle : now ≤ later) {ts : Option Timestamp}
    (h : isFresh later ts = true) : isFresh now ts = true := by
  obtain ⟨t, rfl, hfresh⟩ := (Option.any_eq_true _ _).1 h
  exact decide_eq_true (lt_of_le_of_lt (sub_le_sub_right hle t) (of_decide_eq_true hfresh))

def ReadBefore (id : String) (obs : Option ReplicaObserved) (c : Config World) : Prop :=
  ∃ v ∈ c.seen, v.state.replicasObserved.get id = obs ∧ v.now ≤ c.now.now

theorem steady_readBefore {id : String} {obs : Option ReplicaObserved} :
    Steady cluster Observing (fun c => PlanIs D S x c ∧ ReadBefore id obs c) := by
  rintro g c hg ⟨hc, v, hv, hget, hle⟩
  exact ⟨steady_planIs g c hg hc, v, List.mem_cons_of_mem _ hv, hget, le_trans hle arrive_now⟩

theorem stepReady_spec {p : RolloutPlan} (hp : p.state = .inProgress) :
    Triple cluster Observing (PlanIs D S (some p)) (stepReady D S)
      (fun r c => PlanIs D S (some p) c ∧ ∃ ready n, r = some (ready, n) ∧
        (ready = true → ∃ v ∈ c.seen, isReady (targetID p D S) v = true)) := by
  refine triple_bind findPlan_spec (fun found => triple_pure (fun hfound => ?_))
  subst hfound
  dsimp only
  rw [if_neg (not_not.2 hp)]
  refine triple_bind (read_spec _) (fun observed => ?_)
  refine triple_bind (countNotRunning_spec observed) (fun notRunning => ?_)
  refine triple_bind (R := fun found c => PlanIs D S (some p) c ∧ ReadBefore (targetID p D S) found c)
    (triple_mono (triple_read _ steady_planIs) (fun _ h => h)
      (fun _ c h => ⟨h.1, c.now, h.2.2, h.2.1.symm, le_refl _⟩)) (fun target => ?_)
  cases target with
  | none => exact triple_ret (fun c hc => ⟨hc.1, false, notRunning, rfl, nofun⟩)
  | some target =>
    dsimp only
    split
    · exact triple_ret (fun c hc => ⟨hc.1, false, notRunning, rfl, nofun⟩)
    · rename_i hrunning
      refine triple_bind (triple_read World.now steady_readBefore) (fun now => triple_ret (fun c hc => ?_))
      obtain ⟨⟨hplan, v, hv, hget, hle⟩, hnow, -⟩ := hc
      refine ⟨hplan, _, notRunning, rfl, fun hready => ⟨v, hv, ?_⟩⟩
      -- the clock is read after the record, so it was no less fresh when it was read
      rw [hnow] at hready
      simp [isReady, hget, not_not.1 hrunning, isFresh_earlier hle hready]

theorem advanceStep_spec {p : RolloutPlan} (hkey : p.key = rolloutPlanKey D S) (hp : p.state = .inProgress) :
    Triple cluster Observing (PlanIs D S (some p)) (advanceStep D S)
      (fun ok c => ok = true ∧ ∃ q, q.state = .inProgress ∧ PlanIs D S (some q) c) := by
  refine triple_bind findPlan_spec (fun found => triple_pure (fun hfound => ?_))
  subst hfound
  dsimp only
  rw [if_neg (not_not.2 hp)]
  refine triple_bind (stepReady_spec hp) (fun ready => ?_)
  cases ready with
  | none =>
    refine triple_assume (φ := False) (fun c hc => ?_) False.elim
    obtain ⟨_, _, hr, -⟩ := hc.2
    cases hr
  | some verdict =>
    dsimp only
    refine triple_mono (P := PlanIs D S (some p)) ?_ (fun _ h => h.1) (fun _ _ h => h)
    split
    · refine triple_bind (read_spec World.now) (fun now => triple_send _ steady_planIs (fun c hc => ⟨rfl, p, hp, ?_⟩))
      exact (planAt_commit (allows_single (by simp [NoPlan, writes])) c.now).trans hc
    · refine triple_bind (read_spec World.now) (fun now => ?_)
      let q := { p with currentStep := wrap32 (p.currentStep + 1), lastStepAt := some now }
      exact triple_mono (applyPlan_spec q hkey) (fun _ h => h) (fun ok c h => ⟨h.1, q, hp, h.2⟩)

theorem advanceAfter_spec {p : RolloutPlan} (hkey : p.key = rolloutPlanKey D S) (hp : p.state = .inProgress) :
    Triple cluster Observing (PlanIs D S (some p))
      (do
        let ok ← advanceStep D S
        if !ok then pure (-1)
        else
          match ← findPlan D S with
          | none => pure (-1)
          | some plan =>
            if plan.currentStep ≥ plan.totalSteps then
              let _ ← complete D S
              pure (-1)
            else pure plan.currentStep)
      (fun k c => AtStep D S k c.now ∨ AtRest D S c.now) := by
  refine triple_bind (advanceStep_spec hkey hp) (fun ok => triple_pure (fun hok => ?_))
  subst hok
  refine triple_exists (fun q => triple_pure (fun hprog => ?_))
  refine triple_bind (findPlan_spec (x := some q)) (fun found => triple_pure (fun hfound => ?_))
  subst hfound
  dsimp only
  split
  · refine triple_assume (fun c hc => Store.get_key hc) (fun hq => ?_)
    exact triple_mono (complete_spec hq) (fun _ h => h) (fun _ _ h => .inr h)
  · exact triple_ret (fun c hc => .inl ⟨q, hc, hprog, rfl⟩)

/-- What a call decided: the plan it ends with, and that it left the step it found only when that was ready. -/
def Driven (D S : String) (x : Option RolloutPlan) (k : Int) (c : Config World) : Prop :=
  (AtStep D S k c.now ∨ AtRest D S c.now) ∧ ∀ p, x = some p → p.state = .inProgress →
    AtStep D S p.currentStep c.now ∨ AtRest D S c.now ∨ ∃ v ∈ c.seen, isReady (targetID p D S) v = true

theorem driven_of_atRest {k : Int} {c : Config World} (h : AtRest D S c.now) : Driven D S x k c :=
  ⟨.inr h, fun _ _ _ => .inr (.inl h)⟩

theorem driveRollout_spec {dep : Deployment} {svc : ServiceSpec} {totalSteps : Int} :
    Triple cluster Observing (PlanIs dep.name svc.name x) (driveRollout dep svc totalSteps)
      (Driven dep.name svc.name x) := by
  have hstart (hx : ∀ p, x = some p → p.state ≠ .inProgress) :=
    triple_mono (start_spec (D := dep.name) (S := svc.name) hx dep.appliedRevision totalSteps) (fun _ h => h)
      (fun k c h => show Driven dep.name svc.name x k c from ⟨.inl h, fun p hp hprog => absurd hprog (hx p hp)⟩)
  refine triple_bind findPlan_spec (fun found => triple_pure (fun hfound => ?_))
  subst hfound
  cases found with
  | none => exact hstart nofun
  | some p =>
    dsimp only
    by_cases hp : p.state = .inProgress
    · rw [if_neg (not_not.2 hp)]
      refine triple_assume (fun c hc => Store.get_key hc) (fun hkey => ?_)
      split
      · exact triple_mono (complete_spec hkey) (fun _ h => h) (fun _ _ h => driven_of_atRest h)
      · refine triple_bind (stepReady_spec hp) (fun ready => ?_)
        rcases ready with _ | ⟨_ | _, notRunning⟩
        · refine triple_assume (φ := False) (fun c hc => ?_) False.elim
          obtain ⟨_, _, hr, -⟩ := hc.2
          cases hr
        · refine triple_ret (fun c hc => ?_)
          have hat : AtStep dep.name svc.name p.currentStep c.now := ⟨p, hc.1, hp, rfl⟩
          refine ⟨.inl hat, fun q hq _ => ?_⟩
          cases hq
          exact .inl hat
        · refine triple_mono (triple_and (advanceAfter_spec hkey hp)
            (triple_seen (fun v => isReady (targetID p dep.name svc.name) v = true) _))
            (fun c hc => ⟨hc.1, ?_⟩) (fun k c h => ⟨h.1, fun q hq _ => ?_⟩)
          · obtain ⟨_, _, hr, hready⟩ := hc.2
            cases hr
            exact hready rfl
          · cases hq
            exact .inr (.inr h.2)
    · rw [if_pos hp]
      split
      · refine triple_ret (fun c hc => driven_of_atRest (fun q hq => ?_))
        cases hc.symm.trans hq
        exact hp
      · refine hstart (fun q hq => ?_)
        cases hq
        exact hp

theorem driveRollout_looks {dep : Deployment} {svc : ServiceSpec} {totalSteps : Int} :
    Triple cluster Observing (PlanIs dep.name svc.name x) (driveRollout dep svc totalSteps)
      (fun _ c => ∃ v ∈ c.seen, planAt dep.name svc.name v = x) :=
  triple_bind (R := fun _ c => ∃ v ∈ c.seen, planAt dep.name svc.name v = x)
    (triple_mono (triple_read _ steady_planIs) (fun _ h => h) (fun _ c h => ⟨c.now, h.2.2, h.1⟩))
    (fun _ => triple_seen _ _)

end Plans

end Jaco.Scheduler
