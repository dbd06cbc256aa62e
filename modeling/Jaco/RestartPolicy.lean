import Jaco.SharedCluster

namespace Jaco.RestartPolicy

open Interleaving

def observeCommand (obs : ReplicaObserved) : Command :=
  .single { identity := "runtime", ts := none, payload := .replicaObservedUpdate (some obs) }

def maxConsecutiveFailures : Int := 3

def restarterEntry (now : Timestamp) (payload : Payload) : Command :=
  .single { identity := "restarter", ts := some now, payload := payload }

def applyBatch (first second : Payload) : Task Bool := do
  let t₁ ← clock
  let t₂ ← clock
  let now ← clock
  Program.send (.batch "restarter" (some now) [restarterEntry t₁ first, restarterEntry t₂ second])

def exhausted (obs : ReplicaObserved) (nextFailures : Int) : ReplicaObserved where
  id := obs.id
  state := .failed
  code := "restart_exhausted"
  message := "restart policy gave up after 3 consecutive failures"
  containerId := obs.containerId
  host := obs.host
  lastHealthAt := obs.lastHealthAt
  details := [("consecutive_failures", toString nextFailures)]

def nextFailures : Option RestartCounter → Int
  | some existing => wrap32 (existing.consecutiveFailures + 1)
  | none => 1

def handleFailure (obs : ReplicaObserved) : Task Unit := do
  let counter ← Program.read (fun w => w.state.restartCounters.get obs.id)
  if nextFailures counter ≥ maxConsecutiveFailures then
    let now ← clock
    let _ ← Program.send (restarterEntry now (.replicaObservedUpdate (some (exhausted obs (nextFailures counter)))))
    pure ()
  else
    let _ ← applyBatch (.restartCounterUpdate obs.id .increment) (.replicaCommandIssue obs.id "restart")
    pure ()

def handleDegraded (obs : ReplicaObserved) : Task Unit := do
  let _ ← applyBatch (.replicaCommandIssue obs.id "remove_from_routing") (.replicaCommandIssue obs.id "restart")
  pure ()

def handleRunning (obs : ReplicaObserved) : Task Unit := do
  let counter ← Program.read (fun w => w.state.restartCounters.get obs.id)
  if counter.isNone then pure ()
  else
    let now ← clock
    let _ ← Program.send (restarterEntry now (.restartCounterUpdate obs.id .reset))
    pure ()

def handle (obs : ReplicaObserved) : Task Unit := do
  let leader ← Program.read World.leader
  if !leader then pure ()
  else
    match obs.state with
    | .failed => if obs.code = "restart_exhausted" then pure () else handleFailure obs
    | .degraded => handleDegraded obs
    | .running => handleRunning obs
    | _ => pure ()

def About (id : String) : Payload → Prop
  | .replicaObservedUpdate (some obs) => obs.id = id
  | .restartCounterUpdate id' _ => id' = id
  | .replicaCommandIssue id' _ => id' = id
  | _ => False

variable {R : World → Prop}

theorem applyBatch_about (id : String) (first second : Payload) (h₁ : About id first) (h₂ : About id second) :
    Within R (Allows (About id)) (fun _ => True) (applyBatch first second) := by
  refine within_look (fun t₁ => ?_)
  refine within_look (fun t₂ => ?_)
  refine within_look (fun now => within_send (allows_batch (fun c hc => ?_)))
  rcases List.mem_cons.1 hc with rfl | hc
  · exact allows_single h₁
  · rw [List.mem_singleton.1 hc]
    exact allows_single h₂

theorem handleFailure_about (obs : ReplicaObserved) :
    Within R (Allows (About obs.id)) (fun _ => True) (handleFailure obs) := by
  refine within_look (fun counter => ?_)
  split
  · refine within_look (fun now => ?_)
    exact within_bind_any (within_send (allows_single rfl)) (fun _ => within_ret trivial)
  · exact within_bind_any (applyBatch_about obs.id _ _ rfl rfl) (fun _ => within_ret trivial)

theorem handleRunning_about (obs : ReplicaObserved) :
    Within R (Allows (About obs.id)) (fun _ => True) (handleRunning obs) := by
  refine within_look (fun counter => ?_)
  split
  · exact within_ret trivial
  · refine within_look (fun now => ?_)
    exact within_bind_any (within_send (allows_single rfl)) (fun _ => within_ret trivial)

theorem handle_about (obs : ReplicaObserved) : Within R (Allows (About obs.id)) (fun _ => True) (handle obs) := by
  refine within_look (fun leader => ?_)
  split
  · exact within_ret trivial
  · split
    · split
      · exact within_ret trivial
      · exact handleFailure_about obs
    · exact within_bind_any (applyBatch_about obs.id _ _ rfl rfl) (fun _ => within_ret trivial)
    · exact handleRunning_about obs
    · exact within_ret trivial

end Jaco.RestartPolicy
