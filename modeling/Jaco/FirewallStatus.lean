import Jaco.ContainerStart
import Jaco.FirewallDrift

/-!
The degraded flag lives in the daemon, the node status in the replicated state. What the status says after a tick that
reports no trouble depends on what became of the update that went with the last change of the flag.
-/

namespace Jaco.Firewall

open Runs Lifecycle

def nodeStatusFromString (s : String) : NodeStatus :=
  if s = "ready" then .ready else if s = "isolation_unavailable" then .isolationUnavailable else .ready

def announced (effects : List Effect) : Option NodeStatus :=
  effects.findSome? (fun e => match e with
    | .status status _ => some (nodeStatusFromString status)
    | _ => none)

structure Daemon where
  reconciler : Reconciler
  recorded : Option NodeStatus

inductive DaemonEvent where
  | tick (env : TickEnv)
  | edit (live : Live)
  | restart

def boot (live : Live) : Daemon := ⟨⟨live, false⟩, none⟩

def Daemon.step (d : Daemon) : DaemonEvent → Daemon
  | .tick env =>
    let t := Firewall.tick d.reconciler env
    ⟨t.1, if env.statusErr = none then (announced t.2.2).or d.recorded else d.recorded⟩
  | .edit live => { d with reconciler := { d.reconciler with live := live } }
  -- the flag is a field of the process; the kernel's table and the recorded status outlive it
  | .restart => { d with reconciler := { d.reconciler with degraded := false } }

def mends (r : Reconciler) (env : TickEnv) : Prop :=
  (∀ err, env.list ≠ .failed err) ∧ (drift r.live env = none ∨ (env.applyErr = none ∧ env.auditErr = none))

def Released (d : Daemon) : Prop :=
  d.recorded ≠ some .isolationUnavailable ∧
    ∀ (st : State) (hostname : String), (st.nodes.get hostname).map (·.status) = d.recorded →
      checkIsolationAvailable (some (st, hostname)) = none

def atReleases (d : Daemon) : DaemonEvent → Prop
  | .tick env => (tick d.reconciler env).2.1 = .ok () → (tick d.reconciler env).1.degraded = false →
      Released (d.step (.tick env))
  | _ => True

/-- While the recorded status says isolation is unavailable, the daemon is not restarted and a tick that clears the flag
gets its status update through. -/
def Reported (d : Daemon) (e : DaemonEvent) : Prop :=
  d.recorded = some .isolationUnavailable →
    match e with
    | .tick env => mends d.reconciler env → env.statusErr = none
    | .edit _ => True
    | .restart => False

def Flagged (d : Daemon) : Prop := d.recorded = some .isolationUnavailable → d.reconciler.degraded = true

theorem announced_exemption (pool code : String) (ensure : Option (Option String)) (effects : List Effect) :
    announced (exemption pool code ensure ++ effects) = announced effects := by
  unfold exemption
  split
  · split <;> simp [announced]
  · rfl

theorem announced_exemptions (env : TickEnv) (effects : List Effect) :
    announced (exemptions env ++ effects) = announced effects := by
  rw [exemptions, List.append_assoc, announced_exemption, announced_exemption]

variable {env : TickEnv} {d : Daemon}

theorem reconcile_of_clean {r : Reconciler} (hl : ∀ err, env.list ≠ .failed err)
    (h : drift r.live env = none) : reconcile r env = settle r env := by
  unfold reconcile
  cases hlist : env.list with
  | failed err => exact absurd hlist (hl err)
  | garbled err => simp only [h]
  | read => simp only [h]

theorem reconcile_of_drift {r : Reconciler} {summary : String} (hl : ∀ err, env.list ≠ .failed err)
    (h : drift r.live env = some summary) : reconcile r env = reload r env summary := by
  unfold reconcile
  cases hlist : env.list with
  | failed err => exact absurd hlist (hl err)
  | garbled err => simp only [h]
  | read => simp only [h]

theorem settle_clears (r : Reconciler) (env : TickEnv) : (settle r env).1.degraded = false ∧
      announced (settle r env).2.2 = if r.degraded then some .ready else none := by
  unfold settle
  cases hr : r.degraded with
  | false => simp [announced, hr]
  | true => cases env.statusErr <;> simp [announced, nodeStatusFromString]

theorem reload_clears (r : Reconciler) (env : TickEnv) (summary : String) (happly : env.applyErr = none)
    (haudit : env.auditErr = none) :
    (reload r env summary).1.degraded = false ∧
      announced (reload r env summary).2.2 = if r.degraded then some .ready else none := by
  unfold reload
  cases hr : r.degraded <;> simp [announced, nodeStatusFromString, happly, haudit]

theorem reload_fails (r : Reconciler) (env : TickEnv) (summary : String)
    (h : ¬ (env.applyErr = none ∧ env.auditErr = none)) :
    (reload r env summary).2.1 ≠ .ok () ∧
      ((reload r env summary).1.degraded = r.degraded ∧ announced (reload r env summary).2.2 = none ∨
        (reload r env summary).1.degraded = true ∧
          announced (reload r env summary).2.2 = some .isolationUnavailable) := by
  unfold reload
  cases happly : env.applyErr with
  | some err => simp [announced, nodeStatusFromString]
  | none =>
    cases haudit : env.auditErr with
    | some err => simp [announced]
    | none => exact absurd ⟨happly, haudit⟩ h

theorem tick_cases (r : Reconciler) (env : TickEnv) : (mends r env ∧ (tick r env).1.degraded = false ∧
      announced (tick r env).2.2 = if r.degraded then some .ready else none) ∨
    (¬ mends r env ∧ (tick r env).2.1 ≠ .ok () ∧
      ((tick r env).1.degraded = r.degraded ∧ announced (tick r env).2.2 = none ∨
        (tick r env).1.degraded = true ∧ announced (tick r env).2.2 = some .isolationUnavailable)) := by
  simp only [tick, announced_exemptions]
  by_cases hfailed : ∃ err, env.list = .failed err
  · obtain ⟨err, hlist⟩ := hfailed
    right
    simp [mends, reconcile, hlist, announced]
  · have hl : ∀ err, env.list ≠ .failed err := fun err h => hfailed ⟨err, h⟩
    cases hdrift : drift r.live env with
    | none =>
      left
      rw [reconcile_of_clean hl hdrift]
      exact ⟨⟨hl, .inl hdrift⟩, settle_clears r env⟩
    | some summary =>
      rw [reconcile_of_drift hl hdrift]
      by_cases happlied : env.applyErr = none ∧ env.auditErr = none
      · left
        exact ⟨⟨hl, .inr happlied⟩, reload_clears r env summary happlied.1 happlied.2⟩
      · right
        have hbroken : ¬ mends r env := by simp [mends, hdrift, happlied]
        exact ⟨hbroken, reload_fails r env summary happlied⟩

theorem released_of_ne (h : d.recorded ≠ some .isolationUnavailable) : Released d := by
  refine ⟨h, fun st hostname hrecorded => ?_⟩
  unfold checkIsolationAvailable
  cases hnode : st.nodes.get hostname with
  | none => simp [hnode]
  | some n =>
    have hstatus : n.status ≠ .isolationUnavailable := by
      intro hn
      simp only [hnode, Option.map_some, hn] at hrecorded
      exact h hrecorded.symm
    simp [hnode, hstatus]

theorem flagged_tick (hd : Flagged d) (he : Reported d (.tick env)) :
    Flagged (d.step (.tick env)) ∧ atReleases d (.tick env) := by
  rcases tick_cases d.reconciler env with ⟨hmends, hclear, hsays⟩ | ⟨-, herr, hkept | hbroke⟩
  · have hrecorded : (d.step (.tick env)).recorded ≠ some .isolationUnavailable := by
      simp only [Daemon.step, hsays]
      by_cases hbad : d.recorded = some .isolationUnavailable
      · simp [he hbad hmends, hd hbad]
      · cases d.reconciler.degraded <;> split <;> simp [hbad]
    exact ⟨fun h => absurd h hrecorded, fun _ _ => released_of_ne hrecorded⟩
  · refine ⟨fun h => ?_, fun hok => absurd hok herr⟩
    simp only [Daemon.step, hkept.2, Option.none_or, ite_self] at h
    simpa only [Daemon.step, hkept.1] using hd h
  · exact ⟨fun _ => hbroke.1, fun hok => absurd hok herr⟩

theorem flagged_step (d : Daemon) (e : DaemonEvent) (hd : Flagged d) (he : Reported d e) :
    Flagged (d.step e) ∧ atReleases d e := by
  cases e with
  | tick env => exact flagged_tick hd he
  | edit live => exact ⟨hd, trivial⟩
  | restart => exact ⟨fun h => (he h).elim, trivial⟩

def Undisturbed (env : TickEnv) : Prop :=
  (∀ err, env.list ≠ .failed err) ∧ env.applyErr = none ∧ env.statusErr = none ∧ env.auditErr = none

theorem tick_ok_of_undisturbed (r : Reconciler) (h : Undisturbed env) : mends r env ∧ (tick r env).2.1 = .ok () := by
  obtain ⟨hl, happly, hstatus, haudit⟩ := h
  have hmends : mends r env := ⟨hl, .inr ⟨happly, haudit⟩⟩
  refine ⟨hmends, ?_⟩
  cases hdrift : drift r.live env with
  | none =>
    simp only [tick, reconcile_of_clean hl hdrift]
    exact (settle_ok_iff r env).2 (fun _ => ⟨hstatus, haudit⟩)
  | some summary => simp [tick, reconcile_of_drift hl hdrift, reload, happly, haudit]

theorem lapsed (hflag : d.reconciler.degraded = false)
    (hbad : d.recorded = some .isolationUnavailable) (henv : Undisturbed env) : ¬ atReleases d (.tick env) := by
  intro hrel
  obtain ⟨hmends, hok⟩ := tick_ok_of_undisturbed d.reconciler henv
  rcases tick_cases d.reconciler env with ⟨-, hclear, hsays⟩ | ⟨hno, -⟩
  · apply (hrel hok hclear).1
    simp [Daemon.step, hsays, hflag, hbad]
  · exact hno hmends

theorem lapse_of_not_reported {e : DaemonEvent} (h : ¬ Reported d e) :
    (d.step e).reconciler.degraded = false ∧ (d.step e).recorded = some .isolationUnavailable := by
  unfold Reported at h
  push Not at h
  obtain ⟨hbad, he⟩ := h
  cases e with
  | tick env =>
    obtain ⟨hmends, hstatus⟩ := Classical.not_imp.1 he
    rcases tick_cases d.reconciler env with ⟨-, hclear, -⟩ | ⟨hno, -⟩
    · exact ⟨hclear, by simp [Daemon.step, hstatus, hbad]⟩
    · exact absurd hmends hno
  | edit live => exact absurd trivial he
  | restart => exact ⟨rfl, hbad⟩

theorem recovered_node_released_iff (live : Live) (events : List DaemonEvent) :
    (∀ pre post, events = pre ++ post → ∀ env, Undisturbed env →
      Along Daemon.step atReleases (boot live) (pre ++ [.tick env])) ↔
    Along Daemon.step Reported (boot live) events := by
  have hboot : Flagged (boot live) := nofun
  constructor
  · intro h
    rw [along_iff_split]
    intro pre e post hevents
    by_contra hno
    obtain ⟨hflag, hbad⟩ := lapse_of_not_reported hno
    let env := quietTick ⟨[]⟩
    have henv : Undisturbed env := ⟨nofun, rfl, rfl, rfl⟩
    have hrun := h (pre ++ [e]) post (by rw [hevents, List.append_assoc]; rfl) env henv
    rw [along_append, run_append] at hrun
    exact lapsed hflag hbad henv hrun.2.1
  · intro h pre post hevents env henv
    rw [hevents, along_append] at h
    have htick : Reported (run Daemon.step (boot live) pre) (.tick env) := fun _ _ => henv.2.2.1
    apply (along_of_invariant Daemon.step Flagged Reported atReleases flagged_step _ _ hboot _).2
    rw [along_append]
    exact ⟨h.1, htick, trivial⟩

namespace Sample

def failedApply : TickEnv := { quietTick twoDeployments with applyErr := some "nft: operation not permitted" }

def unheardRecovery : TickEnv := { quietTick twoDeployments with statusErr := some "no leader" }

end Sample

theorem recovery_left_unreported :
    ¬ Along Daemon.step atReleases (boot none) [.tick Sample.failedApply, .tick Sample.unheardRecovery] ∧
    ¬ Along Daemon.step atReleases (boot none)
      [.tick Sample.failedApply, .restart, .tick (quietTick twoDeployments)] := by
  refine ⟨fun h => ?_, fun h => ?_⟩
  · exact (h.2.1 (by decide +kernel) (by decide +kernel)).1 (by decide +kernel)
  · exact (h.2.2.1 (by decide +kernel) (by decide +kernel)).1 (by decide +kernel)

end Jaco.Firewall
