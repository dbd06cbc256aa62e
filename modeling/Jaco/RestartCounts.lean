import Jaco.RestartPolicy
import Jaco.Emission

namespace Jaco.RestartPolicy

open Interleaving Runs List

section Handle

variable {w : World} {obs : ReplicaObserved}

theorem follow_now {α : Type} (p : Task α) (w : World) : (follow cluster p ([] : List Others) w).now =
      (follow cluster p ([] : List Others) w).emitted.foldl (fun v c => v.commit c) w := by
  induction p generalizing w with
  | ret a => rfl
  | look k ih => exact ih w w
  | submit c k ih => exact ih true (w.commit c)

def restartBatch (id : String) (now : Timestamp) : Command :=
  .batch "restarter" (some now) [restarterEntry now (.restartCounterUpdate id .increment),
    restarterEntry now (.replicaCommandIssue id "restart")]

def rerouteBatch (id : String) (now : Timestamp) : Command :=
  .batch "restarter" (some now) [restarterEntry now (.replicaCommandIssue id "remove_from_routing"),
    restarterEntry now (.replicaCommandIssue id "restart")]

def giveUp (obs : ReplicaObserved) (counter : Option RestartCounter) (now : Timestamp) : Command :=
  restarterEntry now (.replicaObservedUpdate (some (exhausted obs (nextFailures counter))))

def reaction (w : World) (obs : ReplicaObserved) : List Command :=
  let counter := w.state.restartCounters.get obs.id
  match obs.state with
  | .failed =>
    if obs.code = "restart_exhausted" then []
    else if nextFailures counter ≥ maxConsecutiveFailures then [giveUp obs counter w.now]
    else [restartBatch obs.id w.now]
  | .degraded => [rerouteBatch obs.id w.now]
  | .running => if counter.isNone then [] else [restarterEntry w.now (.restartCounterUpdate obs.id .reset)]
  | _ => []

theorem emitted_handle (hleads : w.leader = true) :
    (follow cluster (handle obs) ([] : List Others) w).emitted = reaction w obs := by
  change (follow cluster (if !w.leader then pure () else
    match obs.state with
    | .failed => if obs.code = "restart_exhausted" then pure () else handleFailure obs
    | .degraded => handleDegraded obs
    | .running => handleRunning obs
    | _ => pure ()) ([] : List Others) w).emitted = _
  rw [hleads, reaction]
  simp only [Bool.not_true, Bool.false_eq_true, if_false]
  cases obs.state with
  | failed =>
    dsimp only
    split
    · rfl
    · change (follow cluster (if nextFailures (w.state.restartCounters.get obs.id) ≥ maxConsecutiveFailures
        then _ else _) ([] : List Others) w).emitted = _
      split <;> rfl
  | running =>
    change (follow cluster (if (w.state.restartCounters.get obs.id).isNone then _ else _)
        ([] : List Others) w).emitted = _
    dsimp only
    split <;> rfl
  | _ => rfl

theorem reaction_failed (h : obs.state = .failed) : reaction w obs = if obs.code = "restart_exhausted" then []
    else if nextFailures (w.state.restartCounters.get obs.id) ≥ maxConsecutiveFailures then
      [giveUp obs (w.state.restartCounters.get obs.id) w.now]
    else [restartBatch obs.id w.now] := by
  rw [reaction, h]

theorem reaction_degraded (h : obs.state = .degraded) : reaction w obs = [rerouteBatch obs.id w.now] := by
  rw [reaction, h]

theorem reaction_running (h : obs.state = .running) : reaction w obs =
    if (w.state.restartCounters.get obs.id).isNone then []
    else [restarterEntry w.now (.restartCounterUpdate obs.id .reset)] := by
  rw [reaction, h]

theorem reaction_other (hf : obs.state ≠ .failed) (hd : obs.state ≠ .degraded) (hr : obs.state ≠ .running) :
    reaction w obs = [] := by
  rw [reaction]
  cases h : obs.state <;> simp_all

end Handle

def polled (w : World) (obs : ReplicaObserved) : World :=
  (follow cluster (handle obs) ([] : List Others) (w.commit (observeCommand obs))).now

def submits (w : World) (obs : ReplicaObserved) : List Command :=
  (follow cluster (handle obs) ([] : List Others) (w.commit (observeCommand obs))).emitted

theorem polled_eq (w : World) (obs : ReplicaObserved) :
    polled w obs = (submits w obs).foldl (fun v c => v.commit c) (w.commit (observeCommand obs)) :=
  follow_now (handle obs) (w.commit (observeCommand obs))

def count (w : World) (id : String) : Int :=
  ((w.state.restartCounters.get id).map (·.consecutiveFailures)).getD 0

theorem counters_commit (w : World) (c : Command) (h : Allows (fun p => Part.restartCounters ∉ writes p) c) :
    (w.commit c).state.restartCounters = w.state.restartCounters :=
  commit_keeps (Q := fun s => s.restartCounters = w.state.restartCounters)
    (G := fun p => Part.restartCounters ∉ writes p)
    (fun idx s e he hs => (applyEntry_agree idx s e .restartCounters he (by decide)).trans hs) c w h rfl

theorem nextFailures_eq {w : World} {id : String} (h₀ : 0 ≤ count w id) (h₂ : count w id ≤ 2) :
    nextFailures (w.state.restartCounters.get id) = count w id + 1 := by
  rw [count] at h₀ h₂ ⊢
  cases hget : w.state.restartCounters.get id with
  | none => rfl
  | some counter =>
    rw [hget, Option.map_some, Option.getD_some] at h₀ h₂
    rw [nextFailures, Option.map_some, Option.getD_some, wrap32, Int.bmod_eq_of_le (by omega) (by omega)]

theorem count_restartBatch (w : World) (id : String) (now : Timestamp) :
    count (w.commit (restartBatch id now)) id = nextFailures (w.state.restartCounters.get id) := by
  let increment : Entry := { identity := "restarter", ts := some now, payload := .restartCounterUpdate id .increment }
  let issue : Entry := { identity := "restarter", ts := some now, payload := .replicaCommandIssue id "restart" }
  have hstate : (w.commit (restartBatch id now)).state =
      applyEntry (w.index + 1) (applyEntry (w.index + 1) w.state increment) issue := by
    change (restartBatch id now).apply (w.index + 1) w.state = _
    rw [Command.apply_eq_foldl, restartBatch, entries_batch]
    simp only [restarterEntry, flatMap_cons, flatMap_nil, entries_single]
    rfl
  have hissue : (w.commit (restartBatch id now)).state.restartCounters =
      (applyEntry (w.index + 1) w.state increment).restartCounters := by
    rw [hstate]
    exact applyEntry_agree _ _ issue .restartCounters (by simp [issue, writes]) (by decide)
  have hincrement : (applyEntry (w.index + 1) w.state increment).restartCounters =
      (bumpRestartCounter w.state id .increment (some now)).restartCounters :=
    applyEntry_agree_mutate _ _ increment .restartCounters (by decide)
  rw [count, hissue, hincrement, bumpRestartCounter]
  dsimp only
  rw [Store.get_apply, if_pos rfl, Option.map_some, Option.getD_some]
  cases w.state.restartCounters.get id <;> rfl

theorem count_reset (w : World) (id : String) (now : Timestamp) :
    count (w.commit (restarterEntry now (.restartCounterUpdate id .reset))) id = 0 := by
  let reset : Entry := { identity := "restarter", ts := some now, payload := .restartCounterUpdate id .reset }
  have hreset : (w.commit (restarterEntry now (.restartCounterUpdate id .reset))).state.restartCounters =
      (bumpRestartCounter w.state id .reset (some now)).restartCounters := by
    rw [restarterEntry, commit_single]
    exact applyEntry_agree_mutate _ _ reset .restartCounters (by decide)
  rw [count, hreset, bumpRestartCounter, Store.get_remove, if_pos rfl]
  rfl

theorem count_silent (w : World) (c : Command) (h : Allows (fun p => Part.restartCounters ∉ writes p) c) (id : String) :
    count (w.commit c) id = count w id := by
  rw [count, counters_commit w c h, count]

def Fails (obs : ReplicaObserved) : Prop := obs.state = .failed ∧ obs.code ≠ "restart_exhausted"

instance (obs : ReplicaObserved) : Decidable (Fails obs) :=
  inferInstanceAs (Decidable (obs.state = .failed ∧ obs.code ≠ "restart_exhausted"))

def failures (ps : List ReplicaObserved) : Nat :=
  (ps.rtakeWhile (·.state ≠ .running)).countP (fun obs => Fails obs)

theorem failures_snoc (ps : List ReplicaObserved) (obs : ReplicaObserved) : failures (ps ++ [obs]) =
      if obs.state = .running then 0 else failures ps + if Fails obs then 1 else 0 := by
  by_cases h : obs.state = .running
  · rw [if_pos h, failures, rtakeWhile_concat_neg _ _ _ (by simpa using h)]
    rfl
  · rw [if_neg h, failures, rtakeWhile_concat_pos _ _ _ (by simpa using h), countP_append, failures]
    simp only [countP_singleton, decide_eq_true_eq]

theorem polled_leader (w : World) (obs : ReplicaObserved) : (polled w obs).leader = w.leader := by
  have hall : ∀ (cs : List Command) (v : World), (cs.foldl (fun v c => v.commit c) v).leader = v.leader := by
    intro cs
    induction cs with
    | nil => exact fun _ => rfl
    | cons c cs ih => exact fun v => ih (v.commit c)
  rw [polled_eq]
  exact hall _ _

theorem count_observed (w : World) (obs : ReplicaObserved) (id : String) :
    count (w.commit (observeCommand obs)) id = count w id :=
  count_silent w _ (allows_single (by simp [writes])) id

theorem submits_cases {w : World} {obs : ReplicaObserved} (hleads : w.leader = true) {n : Nat} (hn : n ≤ 2)
    (hcount : count w obs.id = n) :
    (obs.state = .degraded ∧ submits w obs = [rerouteBatch obs.id w.now]) ∨
    (Fails obs ∧ n < 2 ∧ submits w obs = [restartBatch obs.id w.now]) ∨
    (Fails obs ∧ n = 2 ∧ ∃ counter, submits w obs = [giveUp obs counter w.now]) ∨
    (obs.state = .running ∧ n = 0 ∧ submits w obs = []) ∨
    (obs.state = .running ∧ submits w obs = [restarterEntry w.now (.restartCounterUpdate obs.id .reset)]) ∨
    (obs.state ≠ .degraded ∧ obs.state ≠ .running ∧ ¬ Fails obs ∧ submits w obs = []) := by
  have hobserved := (count_observed w obs obs.id).trans hcount
  have hnext := nextFailures_eq (by rw [hobserved]; omega) (by rw [hobserved]; omega)
  have hsubmits : submits w obs = reaction (w.commit (observeCommand obs)) obs := emitted_handle hleads
  have hnow : (w.commit (observeCommand obs)).now = w.now := rfl
  rw [hsubmits]
  by_cases hd : obs.state = .degraded
  · exact .inl ⟨hd, reaction_degraded hd⟩
  by_cases hr : obs.state = .running
  · rw [reaction_running hr]
    split
    · rename_i hnone
      have hzero : count (w.commit (observeCommand obs)) obs.id = 0 := by
        rw [count, Option.isNone_iff_eq_none.1 hnone]
        rfl
      exact .inr (.inr (.inr (.inl ⟨hr, by omega, rfl⟩)))
    · exact .inr (.inr (.inr (.inr (.inl ⟨hr, rfl⟩))))
  by_cases hfails : Fails obs
  · rw [reaction_failed hfails.1, if_neg hfails.2, hnext, hobserved, maxConsecutiveFailures]
    split
    · exact .inr (.inr (.inl ⟨hfails, by omega, _, rfl⟩))
    · exact .inr (.inl ⟨hfails, by omega, rfl⟩)
  · refine .inr (.inr (.inr (.inr (.inr ⟨hd, hr, hfails, ?_⟩))))
    by_cases hf : obs.state = .failed
    · have hcode : obs.code = "restart_exhausted" := by
        by_contra hcode
        exact hfails ⟨hf, hcode⟩
      rw [reaction_failed hf, if_pos hcode]
    · exact reaction_other hf hd hr

theorem count_polled {w : World} {obs : ReplicaObserved} (hleads : w.leader = true) {n : Nat} (hn : n ≤ 2)
    (hcount : count w obs.id = n) : count (polled w obs) obs.id =
      if obs.state = .running then 0 else ↑(min (n + if Fails obs then 1 else 0) 2) := by
  have hobserved := (count_observed w obs obs.id).trans hcount
  have hnext := nextFailures_eq (by rw [hobserved]; omega) (by rw [hobserved]; omega)
  rw [polled_eq]
  rcases submits_cases hleads hn hcount with ⟨hd, hcs⟩ | ⟨hfails, hless, hcs⟩ | ⟨hfails, htwo, counter, hcs⟩ |
    ⟨hr, hzero, hcs⟩ | ⟨hr, hcs⟩ | ⟨-, hr, hfails, hcs⟩
  · have hsilent : Allows (fun p => Part.restartCounters ∉ writes p) (rerouteBatch obs.id w.now) := by
      refine allows_batch (fun c hc => ?_)
      simp only [mem_cons, not_mem_nil, or_false] at hc
      rcases hc with rfl | rfl <;> exact allows_single (by simp [writes])
    have hfails : ¬ Fails obs := fun h => by simp [h.1] at hd
    rw [hcs, foldl_cons, foldl_nil, count_silent _ _ hsilent, hobserved, if_neg (by simp [hd]), if_neg hfails]
    omega
  · rw [hcs, foldl_cons, foldl_nil, count_restartBatch, hnext, hobserved, if_neg (by simp [hfails.1]), if_pos hfails]
    omega
  · rw [hcs, foldl_cons, foldl_nil, giveUp, restarterEntry, count_silent _ _ (allows_single (by simp [writes])),
      hobserved, if_neg (by simp [hfails.1]), if_pos hfails]
    omega
  · rw [hcs, foldl_nil, hobserved, if_pos hr, hzero]
    rfl
  · rw [hcs, if_pos hr]
    exact count_reset _ obs.id w.now
  · rw [hcs, foldl_nil, hobserved, if_neg hr, if_neg hfails]
    omega

inductive Event (id : String) where
  | poll (obs : ReplicaObserved) (h : obs.id = id)
  | apply (identity : String) (ts : Option Timestamp) (da : DeploymentApply)

section Sequences

variable {id : String}

def Event.obs : Event id → Option ReplicaObserved
  | .poll obs _ => some obs
  | .apply _ _ _ => none

def step (w : World) : Event id → World
  | .poll obs _ => polled w obs
  | .apply identity ts da => w.commit (.single ⟨identity, ts, .deploymentApply da⟩)

theorem step_leader (w : World) (e : Event id) : (step w e).leader = w.leader := by
  cases e with
  | poll obs h => exact polled_leader w obs
  | apply identity ts da => rfl

theorem run_leader (w : World) (es : List (Event id)) : (run step w es).leader = w.leader := by
  induction es generalizing w with
  | nil => rfl
  | cons e es ih => exact (ih (step w e)).trans (step_leader w e)

theorem count_run {w : World} (hleads : w.leader = true) (hnew : w.state.restartCounters.get id = none)
    (es : List (Event id)) : count (run step w es) id = ↑(min (failures (es.filterMap Event.obs)) 2) := by
  induction es using List.reverseRecOn with
  | nil =>
    rw [run_nil, count, hnew]
    rfl
  | append_singleton es e ih =>
    rw [run_append, run_cons, run_nil, filterMap_append]
    cases e with
    | poll obs h =>
      have hn : min (failures (es.filterMap Event.obs)) 2 ≤ 2 := min_le_right _ _
      have hpolled := @count_polled _ obs ((run_leader w es).trans hleads) _ hn (by rw [h]; exact ih)
      rw [h] at hpolled
      have hone : [(.poll obs h : Event id)].filterMap Event.obs = [obs] := rfl
      rw [step, hpolled, hone, failures_snoc]
      split
      · rfl
      · congr 1
        omega
    | apply identity ts da =>
      have hnone : [(.apply identity ts da : Event id)].filterMap Event.obs = [] := rfl
      rw [step, count_silent _ _ (allows_single (by simp [writes])), ih, hnone, append_nil]

def restarts (id : String) (cs : List Command) : Bool :=
  cs.any (fun c => c.entries.any (fun e => e.payload = .replicaCommandIssue id "restart"))

theorem restarts_submits {w : World} {obs : ReplicaObserved} (hleads : w.leader = true) {n : Nat} (hn : n ≤ 2)
    (hcount : count w obs.id = n) :
    restarts obs.id (submits w obs) = true ↔ obs.state = .degraded ∨ Fails obs ∧ n < 2 := by
  rcases submits_cases hleads hn hcount with ⟨hd, hcs⟩ | ⟨hfails, hless, hcs⟩ | ⟨hfails, htwo, counter, hcs⟩ |
    ⟨hr, hzero, hcs⟩ | ⟨hr, hcs⟩ | ⟨hd, -, hfails, hcs⟩
  · simp [hcs, restarts, rerouteBatch, restarterEntry, hd]
  · simp [hcs, restarts, restartBatch, restarterEntry, hfails, hless]
  · simp [hcs, restarts, giveUp, restarterEntry, hfails.1, htwo]
  · simp [hcs, restarts, Fails, hr]
  · simp [hcs, restarts, restarterEntry, Fails, hr]
  · simp [hcs, restarts, hd, hfails]

variable (deployment : String)

/-- Failed or degraded observations since the last RUNNING one, and whether there have been three of them since the
deployment's last apply. -/
def strike : Nat × Bool → Event id → Nat × Bool
  | (n, tripped), .poll obs _ =>
    if obs.state = .running then (0, tripped)
    else if Fails obs ∨ obs.state = .degraded then (n + 1, tripped || decide (3 ≤ n + 1))
    else (n, tripped)
  | (n, tripped), .apply _ _ da => (n, tripped && da.deployment ≠ deployment)

def Tripped (es : List (Event id)) : Prop := (es.foldl (strike deployment) (0, false)).2 = true

instance (es : List (Event id)) : Decidable (Tripped deployment es) :=
  inferInstanceAs (Decidable ((es.foldl (strike deployment) (0, false)).2 = true))

def Stops (w : World) (es : List (Event id)) : Prop :=
  ∀ before obs h after, es = before ++ .poll obs h :: after → Tripped deployment before →
    restarts id (submits (run step w before) obs) = false

/-- After three failures in a row and before the next apply, no observation is DEGRADED, and none FAILED with fewer than
two FAILED ones since the last RUNNING. -/
def OnlyFailed (es : List (Event id)) : Prop :=
  ∀ before obs h after, es = before ++ .poll obs h :: after → Tripped deployment before →
    obs.state ≠ .degraded ∧ (Fails obs → 2 ≤ failures (before.filterMap Event.obs))

theorem stops_iff_onlyFailed {w : World} (hleads : w.leader = true) (hnew : w.state.restartCounters.get id = none)
    (es : List (Event id)) : Stops deployment w es ↔ OnlyFailed deployment es := by
  have hpoint : ∀ (before : List (Event id)) obs, obs.id = id → (restarts id (submits (run step w before) obs) = false ↔
      obs.state ≠ .degraded ∧ (Fails obs → 2 ≤ failures (before.filterMap Event.obs))) := by
    intro before obs h
    have hrestarts := @restarts_submits _ obs ((run_leader w before).trans hleads) _ (min_le_right _ 2)
      (by rw [h]; exact count_run hleads hnew before)
    rw [h] at hrestarts
    rw [← Bool.not_eq_true, hrestarts, not_or, not_and]
    refine and_congr_right (fun _ => imp_congr_right (fun _ => ?_))
    omega
  constructor
  · intro hstops before obs h after hsplit htripped
    exact (hpoint before obs h).1 (hstops before obs h after hsplit htripped)
  · intro honly before obs h after hsplit htripped
    exact (hpoint before obs h).2 (honly before obs h after hsplit htripped)

end Sequences

namespace Sample

def leader : World := { state := .new, index := 0, now := 0 }

def observed (state : ReplicaState) (code : String) : Event "sample-web-0" :=
  .poll { id := "sample-web-0", state := state, code := code } rfl

def crashes (n : Nat) : List (Event "sample-web-0") := List.replicate n (observed .failed "container_exited")

end Sample

open Sample

theorem crashes_stop : Tripped "sample" (crashes 4) ∧ Stops "sample" leader (crashes 5) := by
  have hcrashes : ∀ n < 5, Tripped "sample" (crashes n) → 2 ≤ failures ((crashes n).filterMap Event.obs) := by
    decide
  refine ⟨by decide, (stops_iff_onlyFailed "sample" rfl (by decide +kernel) _).2 ?_⟩
  intro before obs h after hsplit htripped
  obtain ⟨hlen, hbefore, hrest⟩ := append_eq_replicate_iff.1 hsplit.symm
  have hobs := eq_of_mem_replicate (hrest ▸ mem_cons_self)
  rw [length_cons] at hlen
  rw [hbefore] at htripped ⊢
  refine ⟨fun hdegraded => ?_, fun _ => hcrashes before.length (by omega) htripped⟩
  simp [observed] at hobs
  simp [hobs] at hdegraded

theorem degraded_restarts_on : ¬ Stops "sample" leader (List.replicate 4 (observed .degraded "")) := by
  intro h
  have hfalse := h (List.replicate 3 (observed .degraded "")) _ rfl [] rfl (by decide)
  exact absurd hfalse (by decide +kernel)

end Jaco.RestartPolicy
