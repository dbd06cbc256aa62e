import Jaco.Emission
import Jaco.DesiredSet

/-!
What one pass does to the rollout plan of a service when nobody else writes: between two accesses only the
clock moves, and every submission is acknowledged.
-/

namespace Jaco.Scheduler

open Interleaving Placement Rollout

structure Quiet (A : Others → Prop) (C : Timestamp → Prop) : Prop where
  commands : ∀ o, A o → o.commands = []
  leader : ∀ o, A o → o.leader = true
  clock : ∀ o t, A o → C t → C (t + o.elapsed)

def At (C : Timestamp → Prop) (s : State) (w : World) : Prop := w.state = s ∧ C w.now ∧ w.leader = true

def setPlan (s : State) (plan : RolloutPlan) : State :=
  { s with rolloutPlans := s.rolloutPlans.apply plan }

theorem get_setPlan_self (s : State) {plan : RolloutPlan} {key : String} (h : plan.key = key) :
    (setPlan s plan).rolloutPlans.get key = some plan := by
  rw [← h]
  exact Store.get_apply_self s.rolloutPlans plan

theorem get_setPlan_ne (s : State) {plan : RolloutPlan} {key : String} (h : plan.key ≠ key) :
    (setPlan s plan).rolloutPlans.get key = s.rolloutPlans.get key :=
  (Store.get_apply s.rolloutPlans plan key).trans (if_neg h)

def starting (dep : Deployment) (svc : ServiceSpec) (total : Int) (now : Timestamp) : RolloutPlan where
  deployment := dep.name
  service := svc.name
  targetRevision := dep.appliedRevision
  totalSteps := total
  currentStep := 0
  state := .inProgress
  startedAt := some now
  lastStepAt := some now

def advancing (plan : RolloutPlan) (now : Timestamp) : RolloutPlan :=
  { plan with currentStep := wrap32 (plan.currentStep + 1), lastStepAt := some now }

def completing (plan : RolloutPlan) (now : Timestamp) : RolloutPlan :=
  { plan with state := .completed, lastStepAt := some now }

def ready (s : State) (D S : String) (plan : RolloutPlan) (now : Timestamp) : Bool :=
  (s.replicasObserved.get (targetID plan D S)).any (fun obs => obs.state = .running && isFresh now obs.lastHealthAt)

def lags (s : State) (D S : String) (obs : ReplicaObserved) : Bool :=
  !(obs.state = .running) && (s.replicasDesired.get obs.id).any (fun d => d.deployment = D && d.service = S)

def behind (s : State) (D S : String) : Nat := s.replicasObserved.list.countP (lags s D S)

inductive Drove (C : Timestamp → Prop) (s : State) (dep : Deployment) (svc : ServiceSpec) (total : Int) :
    Int → List Command → State → Prop
  | started (now ts : Timestamp) (hnow : C now)
      (hplan : ∀ plan ∈ s.rolloutPlans.get (rolloutPlanKey dep.name svc.name),
        plan.state ≠ .inProgress ∧ plan.targetRevision ≠ dep.appliedRevision) :
      Drove C s dep svc total 0 [planCommand (starting dep svc total now) ts]
        (setPlan s (starting dep svc total now))
  | past (plan : RolloutPlan) (hplan : s.rolloutPlans.get (rolloutPlanKey dep.name svc.name) = some plan)
      (hstate : plan.state ≠ .inProgress) (htarget : plan.targetRevision = dep.appliedRevision) :
      Drove C s dep svc total (-1) [] s
  | completed (plan : RolloutPlan) (now ts : Timestamp)
      (hplan : s.rolloutPlans.get (rolloutPlanKey dep.name svc.name) = some plan)
      (hstate : plan.state = .inProgress) (hstep : plan.totalSteps ≤ plan.currentStep) :
      Drove C s dep svc total (-1) [planCommand (completing plan now) ts] (setPlan s (completing plan now))
  | waiting (plan : RolloutPlan) (now : Timestamp) (hnow : C now)
      (hplan : s.rolloutPlans.get (rolloutPlanKey dep.name svc.name) = some plan)
      (hstate : plan.state = .inProgress) (hstep : plan.currentStep < plan.totalSteps)
      (hready : ready s dep.name svc.name plan now = false) :
      Drove C s dep svc total plan.currentStep [] s
  | held (plan : RolloutPlan) (now : Timestamp) (hnow : C now) (e : Entry) (audit : List AuditEvent)
      (hplan : s.rolloutPlans.get (rolloutPlanKey dep.name svc.name) = some plan)
      (hstate : plan.state = .inProgress) (hstep : plan.currentStep < plan.totalSteps)
      (hready : ready s dep.name svc.name plan now = true) (hbehind : 1 < behind s dep.name svc.name)
      (he : ∃ ev, e.payload = .auditAppend ev) :
      Drove C s dep svc total plan.currentStep [.single e] { s with auditEvents := audit }
  | advanced (plan : RolloutPlan) (now now' ts : Timestamp) (hnow : C now) (hnow' : C now')
      (hplan : s.rolloutPlans.get (rolloutPlanKey dep.name svc.name) = some plan)
      (hstate : plan.state = .inProgress) (hstep : plan.currentStep < plan.totalSteps)
      (hready : ready s dep.name svc.name plan now = true) (hbehind : behind s dep.name svc.name ≤ 1)
      (hnext : wrap32 (plan.currentStep + 1) < plan.totalSteps) :
      Drove C s dep svc total (wrap32 (plan.currentStep + 1)) [planCommand (advancing plan now') ts]
        (setPlan s (advancing plan now'))
  | finished (plan : RolloutPlan) (now now' ts now'' ts' : Timestamp) (hnow : C now)
      (hplan : s.rolloutPlans.get (rolloutPlanKey dep.name svc.name) = some plan)
      (hstate : plan.state = .inProgress) (hstep : plan.currentStep < plan.totalSteps)
      (hready : ready s dep.name svc.name plan now = true) (hbehind : behind s dep.name svc.name ≤ 1)
      (hnext : plan.totalSteps ≤ wrap32 (plan.currentStep + 1)) :
      Drove C s dep svc total (-1)
        [planCommand (advancing plan now') ts, planCommand (completing (advancing plan now') now'') ts']
        (setPlan (setPlan s (advancing plan now')) (completing (advancing plan now') now''))

section Specs

variable {A : Others → Prop} {C : Timestamp → Prop} (hq : Quiet A C) {s : State}

include hq

theorem at_disturb (o : Others) (w : World) (ho : A o) (hw : At C s w) : At C s (w.disturb o) := by
  obtain ⟨hstate, hclock, -⟩ := hw
  refine ⟨?_, hq.clock o w.now ho hclock, hq.leader o ho⟩
  rw [World.disturb, hq.commands o ho]
  exact hstate

theorem solo_look {α β : Type} (f : World → α) {k : α → Task β} {Q : β → List Command → World → Prop}
    (h : ∀ v, At C s v → Solo cluster A (At C s) (k (f v)) Q) : Solo cluster A (At C s) (Program.read f >>= k) Q :=
  solo_read_bind (at_disturb hq) f h

theorem solo_clock {β : Type} {k : Timestamp → Task β} {Q : β → List Command → World → Prop}
    (h : ∀ now, C now → Solo cluster A (At C s) (k now) Q) : Solo cluster A (At C s) (clock >>= k) Q :=
  solo_look hq World.now (fun v hv => h v.now hv.2.1)

theorem solo_commit {c : Command} {Q : Bool → List Command → World → Prop}
    (h : ∀ idx w, At C (c.apply idx s) w → Q true [c] w) : Solo cluster A (At C s) (Program.send c) Q := by
  refine solo_send (at_disturb hq) c (fun v hv => h (v.index + 1) _ ⟨?_, hv.2⟩)
  obtain ⟨rfl, -⟩ := hv
  rfl

theorem applyPlan_solo (plan : RolloutPlan) : Solo cluster A (At C s) (applyPlan plan)
      (fun ok cs w => ok = true ∧ ∃ ts, cs = [planCommand plan ts] ∧ At C (setPlan s plan) w) :=
  solo_clock hq (fun now => fun _ => solo_commit hq (fun _ _ hw => ⟨rfl, now, rfl, hw⟩))

theorem start_solo (D S : String) (rev : Nat) (total : Int)
    (hplan : ∀ plan ∈ s.rolloutPlans.get (rolloutPlanKey D S), plan.state ≠ .inProgress) :
    Solo cluster A (At C s) (start D S rev total) (fun ok cs w => ok = true ∧ ∃ now ts, C now ∧
      let plan : RolloutPlan :=
        { deployment := D, service := S, targetRevision := rev, totalSteps := total, currentStep := 0,
          state := .inProgress, startedAt := some now, lastStepAt := some now }
      cs = [planCommand plan ts] ∧ At C (setPlan s plan) w) := by
  refine solo_look hq _ (fun v hv => ?_)
  have hfree : ¬ (v.state.rolloutPlans.get (rolloutPlanKey D S)).any (·.state = .inProgress) := by
    rw [hv.1, Option.any_eq_true]
    rintro ⟨plan, hget, hstate⟩
    exact hplan plan hget (of_decide_eq_true hstate)
  rw [if_neg hfree]
  refine solo_clock hq (fun now hnow => ?_)
  refine solo_mono (applyPlan_solo hq _) (fun _ h => h) (fun ok cs w h => ?_)
  obtain ⟨hok, ts, hcs, hw⟩ := h
  exact ⟨hok, now, ts, hnow, hcs, hw⟩

variable {D S : String} {plan : RolloutPlan}

theorem complete_solo (hplan : s.rolloutPlans.get (rolloutPlanKey D S) = some plan) :
    Solo cluster A (At C s) (complete D S) (fun _ cs w => ∃ now ts, cs = [planCommand (completing plan now) ts] ∧
      At C (setPlan s (completing plan now)) w) := by
  refine solo_look hq _ (fun v hv => ?_)
  rw [hv.1, hplan]
  refine solo_clock hq (fun now _ => ?_)
  refine solo_mono (applyPlan_solo hq _) (fun _ h => h) (fun ok cs w h => ?_)
  obtain ⟨-, ts, hcs, hw⟩ := h
  exact ⟨now, ts, hcs, hw⟩

theorem countNotRunning_solo (D S : String) (observed : List ReplicaObserved) :
    Solo cluster A (At C s) (countNotRunning D S observed)
      (fun n cs w => n = observed.countP (lags s D S) ∧ cs = [] ∧ At C s w) := by
  suffices h : ∀ n₀, Solo cluster A (At C s) (observed.foldlM (fun n obs => if obs.state = .running then pure n
        else do
          let mine ← belongsToService obs D S
          pure (if mine then n + 1 else n)) n₀)
      (fun n cs w => n = n₀ + observed.countP (lags s D S) ∧ cs = [] ∧ At C s w) from
    solo_mono (h 0) (fun _ h => h) (fun n cs w h => ⟨h.1.trans (Nat.zero_add _), h.2⟩)
  induction observed with
  | nil => exact fun n₀ => solo_ret (fun w hw => ⟨rfl, rfl, hw⟩)
  | cons obs observed ih =>
    intro n₀
    rw [List.foldlM_cons]
    by_cases hrun : obs.state = .running
    · rw [if_pos hrun]
      have hlags : lags s D S obs = false := by simp [lags, hrun]
      rw [List.countP_cons_of_neg (by simp [hlags])]
      exact ih n₀
    · rw [if_neg hrun]
      refine solo_bind (R := fun n cs w => n = n₀ + (if lags s D S obs then 1 else 0) ∧ cs = [] ∧ At C s w) ?_ ?_
      · refine solo_look hq _ (fun v hv => solo_ret (fun w hw => ⟨?_, rfl, hw⟩))
        rw [hv.1]
        simp only [lags, hrun, decide_false, Bool.not_false, Bool.true_and]
        split <;> rfl
      · refine fun n cs => solo_pure (fun hn => solo_pure (fun hcs => ?_))
        subst hn hcs
        refine solo_mono (ih _) (fun _ h => h) (fun n cs w h => ⟨h.1.trans ?_, h.2⟩)
        rw [List.countP_cons]
        omega

theorem stepReady_solo (hplan : s.rolloutPlans.get (rolloutPlanKey D S) = some plan)
    (hstate : plan.state = .inProgress) :
    Solo cluster A (At C s) (stepReady D S) (fun r cs w =>
      (∃ now, C now ∧ r = some (ready s D S plan now, behind s D S)) ∧ cs = [] ∧ At C s w) := by
  refine solo_look hq _ (fun v hv => ?_)
  rw [hv.1, hplan]
  dsimp only
  rw [if_neg (not_not.2 hstate)]
  refine solo_look hq _ (fun v hv => ?_)
  refine solo_bind (countNotRunning_solo hq D S _) (fun n cs => ?_)
  refine solo_pure (fun hn => solo_pure (fun hcs => ?_))
  have hcount : n = behind s D S := by
    rw [hn, (listing_perm v _).countP_eq, hv.1, behind]
  subst hcs hcount
  refine solo_look hq _ (fun v hv => ?_)
  rw [hv.1]
  split
  · rename_i hnone
    exact solo_ret (fun w hw => ⟨⟨v.now, hv.2.1, by rw [ready, hnone]; rfl⟩, rfl, hw⟩)
  · rename_i target hsome
    split
    · rename_i hnot
      exact solo_ret (fun w hw => ⟨⟨v.now, hv.2.1, by simp [ready, hsome, hnot]⟩, rfl, hw⟩)
    · rename_i hrun
      refine solo_clock hq (fun now hnow => solo_ret (fun w hw => ⟨⟨now, hnow, ?_⟩, rfl, hw⟩))
      simp [ready, hsome, not_not.1 hrun]

theorem auditAndHold_solo (D S reason : String) :
    Solo cluster A (At C s) (auditAndHold D S reason) (fun ok cs w => ok = true ∧ ∃ e audit,
      (∃ ev, e.payload = .auditAppend ev) ∧ cs = [.single e] ∧ At C { s with auditEvents := audit } w) :=
  solo_clock hq (fun _ _ => solo_commit hq (fun _ _ hw => ⟨rfl, _, _, ⟨_, rfl⟩, rfl, hw⟩))

theorem advanceStep_solo
    (hplan : s.rolloutPlans.get (rolloutPlanKey D S) = some plan) (hstate : plan.state = .inProgress) :
    Solo cluster A (At C s) (advanceStep D S) (fun ok cs w => ok = true ∧
      ((1 < behind s D S ∧ ∃ e audit, (∃ ev, e.payload = .auditAppend ev) ∧ cs = [.single e] ∧
          At C { s with auditEvents := audit } w) ∨
        (behind s D S ≤ 1 ∧ ∃ now ts, C now ∧ cs = [planCommand (advancing plan now) ts] ∧
          At C (setPlan s (advancing plan now)) w))) := by
  refine solo_look hq _ (fun v hv => ?_)
  rw [hv.1, hplan]
  dsimp only
  rw [if_neg (not_not.2 hstate)]
  refine solo_bind (stepReady_solo hq hplan hstate) (fun r cs => solo_pure (fun hr => solo_pure (fun hcs => ?_)))
  obtain ⟨now, -, rfl⟩ := hr
  subst hcs
  dsimp only
  split
  · rename_i hbehind
    refine solo_mono (auditAndHold_solo hq D S _) (fun _ h => h) (fun ok cs w h => ?_)
    obtain ⟨hok, h⟩ := h
    exact ⟨hok, .inl ⟨hbehind, h⟩⟩
  · rename_i hbehind
    refine solo_clock hq (fun now hnow => ?_)
    refine solo_mono (applyPlan_solo hq _) (fun _ h => h) (fun ok cs w h => ?_)
    obtain ⟨hok, ts, hcs, hw⟩ := h
    exact ⟨hok, .inr ⟨not_lt.1 hbehind, now, ts, hnow, hcs, hw⟩⟩

theorem startRollout_solo (dep : Deployment) (svc : ServiceSpec) (total : Int)
    (hplan : ∀ plan ∈ s.rolloutPlans.get (rolloutPlanKey dep.name svc.name),
      plan.state ≠ .inProgress ∧ plan.targetRevision ≠ dep.appliedRevision) :
    Solo cluster A (At C s)
      (do
        let ok ← start dep.name svc.name dep.appliedRevision total
        pure (if ok then 0 else -1))
      (fun k cs w => ∃ s', Drove C s dep svc total k cs s' ∧ At C s' w) := by
  refine solo_bind (start_solo hq _ _ _ _ (fun plan hget => (hplan plan hget).1)) (fun ok cs => ?_)
  refine solo_ret (fun w h => ?_)
  obtain ⟨rfl, now, ts, hnow, rfl, hw⟩ := h
  exact ⟨_, .started now ts hnow hplan, hw⟩

theorem driveRollout_solo (dep : Deployment) (svc : ServiceSpec) (total : Int) :
    Solo cluster A (At C s) (driveRollout dep svc total)
      (fun k cs w => ∃ s', Drove C s dep svc total k cs s' ∧ At C s' w) := by
  refine solo_look hq _ (fun v hv => ?_)
  rw [hv.1]
  split
  · rename_i hnone
    exact startRollout_solo hq dep svc total (fun plan hget => by rw [hnone] at hget; cases hget)
  · rename_i plan hplan
    have hkey : plan.key = rolloutPlanKey dep.name svc.name := Store.get_key hplan
    split
    · rename_i hstate
      split
      · rename_i htarget
        exact solo_ret (fun w hw => ⟨s, .past plan hplan hstate htarget, hw⟩)
      · rename_i htarget
        refine startRollout_solo hq dep svc total (fun plan' hget => ?_)
        rw [hplan] at hget
        cases hget
        exact ⟨hstate, htarget⟩
    · rename_i hstate
      replace hstate := not_not.1 hstate
      split
      · rename_i hstep
        refine solo_bind (complete_solo hq hplan) (fun ok cs => solo_ret (fun w h => ?_))
        obtain ⟨now, ts, rfl, hw⟩ := h
        exact ⟨_, .completed plan now ts hplan hstate hstep, hw⟩
      · rename_i hstep
        replace hstep := not_le.1 hstep
        refine solo_bind (stepReady_solo hq hplan hstate) (fun r cs => solo_pure (fun hr => solo_pure (fun hcs => ?_)))
        obtain ⟨now, hnow, rfl⟩ := hr
        subst hcs
        cases hready : ready s dep.name svc.name plan now with
        | false => exact solo_ret (fun w hw => ⟨s, .waiting plan now hnow hplan hstate hstep hready, hw⟩)
        | true =>
          refine solo_bind (advanceStep_solo hq hplan hstate) (fun ok cs => solo_pure (fun hok => ?_))
          subst hok
          refine solo_or (solo_pure (fun hbehind => ?_)) (solo_pure (fun hbehind => ?_))
          · refine solo_exists (fun e => solo_exists (fun audit => solo_pure (fun he => solo_pure (fun hcs => ?_))))
            subst hcs
            refine solo_look hq _ (fun v hv => ?_)
            rw [hv.1]
            change Solo cluster A _ (match s.rolloutPlans.get (rolloutPlanKey dep.name svc.name) with | _ => _) _
            rw [hplan]
            dsimp only
            rw [if_neg (not_le.2 hstep)]
            exact solo_ret (fun w hw => ⟨_, .held plan now hnow e audit hplan hstate hstep hready hbehind he, hw⟩)
          · refine solo_exists (fun now' => solo_exists (fun ts => solo_pure (fun hnow' => solo_pure (fun hcs => ?_))))
            subst hcs
            have hnext : (setPlan s (advancing plan now')).rolloutPlans.get (rolloutPlanKey dep.name svc.name) =
                some (advancing plan now') :=
              get_setPlan_self s (show (advancing plan now').key = _ from hkey)
            refine solo_look hq _ (fun v hv => ?_)
            rw [hv.1, hnext]
            dsimp only
            split
            · rename_i hlast
              refine solo_bind (complete_solo hq hnext) (fun ok cs => solo_ret (fun w h => ?_))
              obtain ⟨now'', ts', rfl, hw⟩ := h
              exact ⟨_, .finished plan now now' ts now'' ts' hnow hplan hstate hstep hready hbehind hlast, hw⟩
            · rename_i hlast
              exact solo_ret (fun w hw => ⟨_, .advanced plan now now' ts hnow hnow' hplan hstate hstep hready hbehind
                (not_le.1 hlast), hw⟩)

end Specs

end Jaco.Scheduler
