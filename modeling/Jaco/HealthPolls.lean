import Jaco.RestartCounts

namespace Jaco.RestartPolicy

open Interleaving Runs List

structure ContainerState where
  status : String
  exitCode : Int := 0
  health : Option String := none

structure Inspection where
  state : Option ContainerState
  networks : List (String × Option String) := []

structure ReplicaWatcher (replicaID : String) where
  containerID : String
  hasHealthcheck : Bool
  lastState : ReplicaState := .pending
  consecutiveRunning : Nat := 0
  startedAt : Option Timestamp := none

def healthyConsecutiveCount : Nat := 5

section Poll

variable {replicaID : String}

def classify (info : Inspection) (rw : ReplicaWatcher replicaID) : (ReplicaState × String × Int) × Nat :=
  match info.state with
  | none => ((.failed, "no_state", 0), rw.consecutiveRunning)
  | some st =>
    if st.status = "exited" then ((.failed, "container_exited", st.exitCode), rw.consecutiveRunning)
    else
      match if rw.hasHealthcheck then st.health else none with
      | some "starting" => ((.pending, "", 0), rw.consecutiveRunning)
      | some "healthy" => ((.running, "", 0), rw.consecutiveRunning)
      | some "unhealthy" => ((.degraded, "", 0), rw.consecutiveRunning)
      | _ =>
        if st.status = "running" then
          if rw.consecutiveRunning + 1 ≥ healthyConsecutiveCount then ((.running, "", 0), rw.consecutiveRunning + 1)
          else ((.pending, "", 0), rw.consecutiveRunning + 1)
        else ((.pending, "", 0), 0)

def poll (now : Timestamp) (result : Except String Inspection) (rw : ReplicaWatcher replicaID) :
    ReplicaObserved × ReplicaWatcher replicaID :=
  match result with
  | .error err =>
    ({ id := replicaID, state := .failed, code := "inspect_failed", message := err, containerId := rw.containerID,
       lastHealthAt := some now }, { rw with lastState := .failed })
  | .ok info =>
    let ((state, code, exitCode), consecutiveRunning) := classify info rw
    let startedAt := rw.startedAt.or (if state = .running then some now else none)
    ({ id := replicaID, state := state, code := code, containerId := rw.containerID, lastHealthAt := some now,
       startedAt := startedAt,
       details := (if exitCode ≠ 0 then [("exit_code", toString exitCode)] else []) ++
         info.networks.filterMap (fun n => (n.2.filter (· ≠ "")).map (fun ip => ("ip." ++ n.1, ip))) },
      { rw with lastState := state, consecutiveRunning := consecutiveRunning, startedAt := startedAt })

variable (now : Timestamp) (result : Except String Inspection) (rw : ReplicaWatcher replicaID)

theorem poll_id : (poll now result rw).1.id = replicaID := by
  cases result <;> rfl

theorem classify_code (info : Inspection) (rw : ReplicaWatcher replicaID) :
    (classify info rw).1.2.1 ≠ "restart_exhausted" := by
  rw [classify]
  split
  · simp
  · split
    · simp
    · split
      · simp
      · simp
      · simp
      · split
        · split <;> simp
        · simp

theorem poll_code : (poll now result rw).1.code ≠ "restart_exhausted" := by
  cases result with
  | error err => exact (by decide : "inspect_failed" ≠ "restart_exhausted")
  | ok info => exact classify_code info rw

end Poll

inductive Sighting where
  | start (containerID : String) (hasHealthcheck : Bool)
  | stop
  | inspect (now : Timestamp) (result : Except String Inspection) (delivered : Bool)

section Watch

variable (replicaID : String)

structure Watched where
  watcher : Option (ReplicaWatcher replicaID) := none
  submitted : List (Event replicaID) := []

variable {replicaID}

def Watched.see (s : Watched replicaID) : Sighting → Watched replicaID
  | .start containerID hasHealthcheck =>
    if s.watcher.any (·.containerID = containerID) then s
    else { s with watcher := some { containerID := containerID, hasHealthcheck := hasHealthcheck } }
  | .stop => { s with watcher := none }
  | .inspect now result delivered =>
    match s.watcher with
    | none => s
    | some rw =>
      ⟨some (poll now result rw).2,
        s.submitted ++ if delivered then [.poll (poll now result rw).1 (poll_id now result rw)] else []⟩

def Unmarked (es : List (Event replicaID)) : Prop :=
  ∀ obs ∈ es.filterMap Event.obs, obs.code ≠ "restart_exhausted"

theorem see_unmarked (s : Watched replicaID) (x : Sighting) (hs : Unmarked s.submitted) :
    Unmarked (s.see x).submitted := by
  cases x with
  | start containerID hasHealthcheck =>
    rw [Watched.see]
    split
    · exact hs
    · exact hs
  | stop => exact hs
  | inspect now result delivered =>
    rw [Watched.see]
    split
    · exact hs
    · rename_i rw hrw
      intro obs hobs
      rw [filterMap_append, mem_append] at hobs
      rcases hobs with hobs | hobs
      · exact hs obs hobs
      · cases delivered with
        | false => exact absurd hobs not_mem_nil
        | true =>
          rw [mem_singleton.1 hobs]
          exact poll_code now result rw

variable (replicaID)

def submissions (sightings : List Sighting) : List (Event replicaID) := (run Watched.see {} sightings).submitted

theorem submissions_unmarked (sightings : List Sighting) : Unmarked (submissions replicaID sightings) :=
  run_invariant Watched.see (fun s => Unmarked s.submitted) see_unmarked (fun _ hobs => absurd hobs not_mem_nil)
    sightings

end Watch

section Counting

variable {id : String}

def givesUp (cs : List Command) : Bool :=
  cs.any (fun c => c.entries.any (fun e => match e.payload with
    | .replicaObservedUpdate (some obs) => obs.code = "restart_exhausted"
    | _ => false))

theorem givesUp_submits {w : World} {obs : ReplicaObserved} (hleads : w.leader = true) {n : Nat} (hn : n ≤ 2)
    (hcount : count w obs.id = n) : givesUp (submits w obs) = true ↔ Fails obs ∧ n = 2 := by
  rcases submits_cases hleads hn hcount with ⟨hd, hcs⟩ | ⟨hfails, hless, hcs⟩ | ⟨hfails, htwo, counter, hcs⟩ |
    ⟨hr, hzero, hcs⟩ | ⟨hr, hcs⟩ | ⟨-, -, hfails, hcs⟩
  · simp [hcs, givesUp, rerouteBatch, restarterEntry, Fails, hd]
  · simp [hcs, givesUp, restartBatch, restarterEntry, Nat.ne_of_lt hless]
  · simp [hcs, givesUp, giveUp, restarterEntry, exhausted, hfails, htwo]
  · simp [hcs, givesUp, Fails, hr]
  · simp [hcs, givesUp, restarterEntry, Fails, hr]
  · simp [hcs, givesUp, hfails]

def Exhausted (w : World) (es : List (Event id)) : Prop :=
  ∃ before obs h after, es = before ++ .poll obs h :: after ∧ givesUp (submits (run step w before) obs) = true ∧
    ∀ later ∈ after.filterMap Event.obs, later.state ≠ .running

theorem failures_append {ps qs : List ReplicaObserved} (h : ∀ obs ∈ qs, obs.state ≠ .running) :
    failures (ps ++ qs) = failures ps + qs.countP (fun obs => Fails obs) := by
  induction qs using List.reverseRecOn with
  | nil => rw [append_nil, countP_nil, Nat.add_zero]
  | append_singleton qs obs ih =>
    have hqs := ih (fun later hlater => h later (mem_append_left _ hlater))
    have hobs := h obs (mem_append_right _ (mem_singleton_self obs))
    rw [← append_assoc, failures_snoc, if_neg hobs, hqs, countP_append, countP_singleton, Nat.add_assoc]
    simp only [decide_eq_true_eq]

theorem exhausted_iff {w : World} (hleads : w.leader = true) (hnew : w.state.restartCounters.get id = none)
    (es : List (Event id)) : Exhausted w es ↔ 3 ≤ failures (es.filterMap Event.obs) := by
  have hpoint : ∀ (before : List (Event id)) obs, obs.id = id → (givesUp (submits (run step w before) obs) = true ↔
      Fails obs ∧ 2 ≤ failures (before.filterMap Event.obs)) := by
    intro before obs h
    rw [givesUp_submits ((run_leader w before).trans hleads) (min_le_right _ 2)
      (by rw [h]; exact count_run hleads hnew before)]
    exact and_congr_right (fun _ => by omega)
  constructor
  · rintro ⟨before, obs, h, after, rfl, hgives, hafter⟩
    obtain ⟨hfails, htwo⟩ := (hpoint before obs h).1 hgives
    have hsplit : (before ++ .poll obs h :: after).filterMap Event.obs =
        (before.filterMap Event.obs ++ [obs]) ++ after.filterMap Event.obs := by
      rw [filterMap_append, append_assoc]
      rfl
    rw [hsplit, failures_append hafter, failures_snoc, if_neg (by simp [hfails.1]), if_pos hfails]
    omega
  · induction es using List.reverseRecOn with
    | nil =>
      intro hthree
      exact absurd hthree (by simp [failures])
    | append_singleton es e ih =>
      intro hthree
      cases e with
      | apply identity ts da =>
        have hnone : [(.apply identity ts da : Event id)].filterMap Event.obs = [] := rfl
        rw [filterMap_append, hnone, append_nil] at hthree
        obtain ⟨before, obs, h, after, hes, hgives, hafter⟩ := ih hthree
        refine ⟨before, obs, h, after ++ [.apply identity ts da], by rw [hes, append_assoc]; rfl, hgives, ?_⟩
        rw [filterMap_append, hnone, append_nil]
        exact hafter
      | poll obs h =>
        have hone : [(.poll obs h : Event id)].filterMap Event.obs = [obs] := rfl
        rw [filterMap_append, hone, failures_snoc] at hthree
        have hrun : obs.state ≠ .running := fun hrun => by simp [hrun] at hthree
        rw [if_neg hrun] at hthree
        by_cases hearlier : 3 ≤ failures (es.filterMap Event.obs)
        · obtain ⟨before, first, hfirst, after, hes, hgives, hafter⟩ := ih hearlier
          refine ⟨before, first, hfirst, after ++ [.poll obs h], by rw [hes, append_assoc]; rfl, hgives, ?_⟩
          intro later hlater
          rw [filterMap_append, hone, mem_append, mem_singleton] at hlater
          rcases hlater with hlater | rfl
          · exact hafter later hlater
          · exact hrun
        · have hfails : Fails obs := by
            by_contra hfails
            rw [if_neg hfails] at hthree
            omega
          rw [if_pos hfails] at hthree
          exact ⟨es, obs, h, [], rfl, (hpoint es obs h).2 ⟨hfails, by omega⟩, by simp⟩

def enter : Option ReplicaState × Nat → ReplicaObserved → Option ReplicaState × Nat
  | (prev, n), obs =>
    (some obs.state,
      if obs.state = .running then 0 else if obs.state = .failed ∧ prev ≠ some .failed then n + 1 else n)

def transitions (ps : List ReplicaObserved) : Nat := (ps.foldl enter (none, 0)).2

theorem transitions_snoc (ps : List ReplicaObserved) (obs : ReplicaObserved) : transitions (ps ++ [obs]) =
      if obs.state = .running then 0
      else if obs.state = .failed ∧ ps.getLast?.map (·.state) ≠ some .failed then transitions ps + 1
      else transitions ps := by
  have hlast : (ps.foldl enter (none, 0)).1 = ps.getLast?.map (·.state) := by
    induction ps using List.reverseRecOn with
    | nil => rfl
    | append_singleton ps prev ih => rw [foldl_append, List.getLast?_concat]; rfl
  rw [transitions, foldl_append, ← hlast]
  rfl

theorem transitions_le_failures {ps : List ReplicaObserved} (hcode : ∀ obs ∈ ps, obs.code ≠ "restart_exhausted") :
    transitions ps ≤ failures ps := by
  induction ps using List.reverseRecOn with
  | nil => exact Nat.le_refl 0
  | append_singleton ps obs ih =>
    have hps := ih (fun o ho => hcode o (mem_append_left _ ho))
    have hobs := hcode obs (mem_append_right _ (mem_singleton_self obs))
    rw [transitions_snoc, failures_snoc]
    split
    · exact Nat.le_refl 0
    · split
      · rename_i henter
        rw [if_pos ⟨henter.1, hobs⟩]
        omega
      · omega

def Counted (w : World) (es : List (Event id)) : Prop :=
  ∀ before after, es = before ++ after → ¬ Exhausted w before →
    count (run step w before) id = transitions (before.filterMap Event.obs)

def NoRepeat (es : List (Event id)) : Prop :=
  ∀ before f g after, es.filterMap Event.obs = before ++ f :: g :: after → f.state = .failed → g.state = .failed →
    failures before ≠ 0

theorem transitions_eq_failures {ps : List ReplicaObserved} (hcode : ∀ obs ∈ ps, obs.code ≠ "restart_exhausted")
    (hrepeat : ∀ before f g after, ps = before ++ f :: g :: after → f.state = .failed → g.state = .failed →
      failures before ≠ 0)
    (hthree : failures ps < 3) : transitions ps = failures ps := by
  induction ps using List.reverseRecOn with
  | nil => rfl
  | append_singleton ps obs ih =>
    have hobs := hcode obs (mem_append_right _ (mem_singleton_self obs))
    rw [failures_snoc] at hthree
    rw [transitions_snoc, failures_snoc]
    by_cases hrun : obs.state = .running
    · rw [if_pos hrun, if_pos hrun]
    rw [if_neg hrun] at hthree ⊢
    rw [if_neg hrun]
    have hps : transitions ps = failures ps := by
      refine ih (fun o ho => hcode o (mem_append_left _ ho)) ?_ (by omega)
      intro before f g after hsplit
      exact hrepeat before f g (after ++ [obs]) (by rw [hsplit, append_assoc]; rfl)
    by_cases hf : obs.state = .failed
    · have hfails : Fails obs := ⟨hf, hobs⟩
      rw [if_pos hfails] at hthree
      -- a FAILED predecessor would already be the second failure, and this one the third
      have henters : ps.getLast?.map (·.state) ≠ some .failed := by
        intro hlast
        obtain ⟨f, hlast, hfailed⟩ := Option.map_eq_some_iff.1 hlast
        obtain ⟨before, rfl⟩ := List.getLast?_eq_some_iff.1 hlast
        have hfirst := hrepeat before f obs [] (by simp) hfailed hf
        have hprevious : Fails f := ⟨hfailed, hcode f (by simp)⟩
        rw [failures_snoc, if_neg (by simp [hfailed]), if_pos hprevious] at hthree
        omega
      rw [if_pos ⟨hf, henters⟩, if_pos hfails, hps]
    · have hfails : ¬ Fails obs := fun h => hf h.1
      rw [if_neg (fun h => hf h.1), if_neg hfails, hps, Nat.add_zero]

theorem counted_iff_noRepeat {w : World} (hleads : w.leader = true) (hnew : w.state.restartCounters.get id = none)
    (sightings : List Sighting) : Counted w (submissions id sightings) ↔ NoRepeat (submissions id sightings) := by
  have hcode := submissions_unmarked id sightings
  generalize submissions id sightings = es at hcode
  constructor
  · intro hcounted before f g after hsplit hf hg hzero
    have hpair : before ++ f :: g :: after = before ++ [f] ++ [g] ++ after := by simp
    rw [hpair] at hsplit
    obtain ⟨es₁, es₂, rfl, hbefore, -⟩ := filterMap_eq_append_iff.1 hsplit
    have hcodes : ∀ obs ∈ before ++ [f] ++ [g], obs.code ≠ "restart_exhausted" := fun obs hobs =>
      hcode obs (by rw [hsplit]; exact mem_append_left _ hobs)
    have hone : failures (before ++ [f]) = 1 := by
      rw [failures_snoc, if_neg (by simp [hf]), if_pos ⟨hf, hcodes f (by simp)⟩, hzero]
    have htwo : failures (before ++ [f] ++ [g]) = 2 := by
      rw [failures_snoc, if_neg (by simp [hg]), if_pos ⟨hg, hcodes g (by simp)⟩, hone]
    -- the second report counts as a failure but enters no new state
    have hsame : transitions (before ++ [f] ++ [g]) = transitions (before ++ [f]) := by
      rw [transitions_snoc, if_neg (by simp [hg]), if_neg (by simp [hf])]
    have hle := transitions_le_failures (fun obs hobs => hcodes obs (mem_append_left [g] hobs))
    have hcount := hcounted es₁ es₂ rfl (by rw [exhausted_iff hleads hnew, hbefore]; omega)
    rw [count_run hleads hnew, hbefore, htwo, hsame] at hcount
    omega
  · rintro hrepeat before after rfl hexhausted
    rw [exhausted_iff hleads hnew] at hexhausted
    rw [Unmarked, filterMap_append] at hcode
    rw [NoRepeat, filterMap_append] at hrepeat
    have hcodes : ∀ obs ∈ before.filterMap Event.obs, obs.code ≠ "restart_exhausted" := fun obs hobs =>
      hcode obs (mem_append_left _ hobs)
    have heq : transitions (before.filterMap Event.obs) = failures (before.filterMap Event.obs) := by
      refine transitions_eq_failures hcodes ?_ (by omega)
      intro earlier f g later hsplit
      exact hrepeat earlier f g (later ++ after.filterMap Event.obs) (by rw [hsplit, append_assoc]; rfl)
    rw [count_run hleads hnew, heq, min_eq_left (by omega)]

end Counting

namespace Sample

def exits (code : Int) : Sighting := .inspect 0 (.ok { state := some { status := "exited", exitCode := code } }) true

def restarted : Sighting := .inspect 0 (.ok { state := some { status := "running" } }) true

def flapping : List Sighting := [.start "c1" false, exits 1, restarted, exits 1]

def exitedOnce : List Sighting := [.start "c1" false, exits 1, exits 1]

end Sample

open Sample

theorem flapping_counted : Counted leader (submissions "sample-web-0" flapping) := by
  refine (counted_iff_noRepeat rfl (by decide +kernel) flapping).2 ?_
  intro before f g after hsplit hf hg
  have hstates : ((submissions "sample-web-0" flapping).filterMap Event.obs).map (·.state) =
      [.failed, .pending, .failed] := by decide +kernel
  rw [hsplit, map_append, map_cons, map_cons, hf, hg] at hstates
  have hlength := congrArg List.length hstates
  simp only [length_append, length_cons, length_map, length_nil] at hlength
  rcases before with _ | ⟨a, _ | ⟨b, before⟩⟩
  · simp at hstates
  · simp at hstates
  · rw [length_cons, length_cons] at hlength
    omega

theorem exit_counted_twice : ¬ Counted leader (submissions "sample-web-0" exitedOnce) := by
  intro h
  have hfew : ¬ Exhausted leader (submissions "sample-web-0" exitedOnce) := by
    rw [exhausted_iff rfl (by decide +kernel)]
    decide +kernel
  have hcount := h (submissions "sample-web-0" exitedOnce) [] (append_nil _).symm hfew
  exact absurd hcount (by decide +kernel)

end Jaco.RestartPolicy
