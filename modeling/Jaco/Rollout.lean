import Jaco.SharedCluster
import Jaco.Placement

namespace Jaco.Rollout

open Interleaving Placement

def stepTimeout : Int := 60 * 10 ^ 9
def healthFreshness : Int := 10 * 10 ^ 9

def planCommand (plan : RolloutPlan) (now : Timestamp) : Command :=
  .single { identity := "rollout", ts := some now, payload := .rolloutPlanUpdate (some plan) }

def applyPlan (plan : RolloutPlan) : Task Bool := do
  let now ← clock
  Program.send (planCommand plan now)

def findPlan (deployment service : String) : Task (Option RolloutPlan) :=
  Program.read (fun w => w.state.rolloutPlans.get (rolloutPlanKey deployment service))

/-- `false` stands for a non-nil error here and below: no caller looks at more of it. -/
def start (deployment service : String) (targetRev : Nat) (totalSteps : Int) : Task Bool := do
  let existing ← findPlan deployment service
  if existing.any (·.state = .inProgress) then pure false
  else
    let now ← clock
    applyPlan
      { deployment := deployment, service := service, targetRevision := targetRev, totalSteps := totalSteps,
        currentStep := 0, state := .inProgress, startedAt := some now, lastStepAt := some now }

def belongsToService (obs : ReplicaObserved) (deployment service : String) : Task Bool :=
  Program.read (fun w =>
    (w.state.replicasDesired.get obs.id).any (fun d => d.deployment = deployment && d.service = service))

def countNotRunning (deployment service : String) (observed : List ReplicaObserved) : Task Nat :=
  observed.foldlM (fun n obs =>
    if obs.state = .running then pure n
    else do
      let mine ← belongsToService obs deployment service
      pure (if mine then n + 1 else n)) 0

def isFresh (now : Timestamp) (ts : Option Timestamp) : Bool := ts.any (fun t => now - t < healthFreshness)

/-- The id `StepReady` waits for; the conversion of a negative step wraps. -/
def targetID (plan : RolloutPlan) (deployment service : String) : String :=
  replicaID deployment service (plan.currentStep % 2 ^ 64).toNat

def stepReady (deployment service : String) : Task (Option (Bool × Nat)) := do
  match ← findPlan deployment service with
  | none => pure none
  | some plan =>
    if plan.state ≠ .inProgress then pure (some (false, 0))
    else
      let observed ← Program.read (fun w => w.listing w.state.replicasObserved)
      let notRunning ← countNotRunning deployment service observed
      match ← Program.read (fun w => w.state.replicasObserved.get (targetID plan deployment service)) with
      | none => pure (some (false, notRunning))
      | some target =>
        if target.state ≠ .running then pure (some (false, notRunning))
        else
          let now ← clock
          pure (some (isFresh now target.lastHealthAt, notRunning))

def auditAndHold (deployment service reason : String) : Task Bool := do
  let now ← clock
  Program.send (.single
    { identity := "rollout", ts := some now
      payload := .auditAppend (some
        { raftIndex := 0, type := .rolloutInvariantHold, identity := "rollout", ts := none
          payload := [("deployment", deployment), ("service", service), ("reason", reason)] }) })

def advanceStep (deployment service : String) : Task Bool := do
  match ← findPlan deployment service with
  | none => pure false
  | some plan =>
    if plan.state ≠ .inProgress then pure false
    else
      match ← stepReady deployment service with
      | none => pure false
      | some (_, notRunning) =>
        if notRunning > 1 then
          auditAndHold deployment service
            ("invariant_hold: " ++ toString notRunning ++ " replicas not running (>1)")
        else
          let now ← clock
          applyPlan { plan with currentStep := wrap32 (plan.currentStep + 1), lastStepAt := some now }

def complete (deployment service : String) : Task Bool := do
  match ← findPlan deployment service with
  | none => pure false
  | some plan =>
    let now ← clock
    applyPlan { plan with state := .completed, lastStepAt := some now }

def rollbackChild (deployment : String) (now : Timestamp) (dep : Option Deployment) : List Command :=
  match dep with
  | some d =>
    if d.previousRevision > 0 then
      [.single { identity := "rollout", ts := some now, payload := .deploymentRollback deployment d.previousRevision }]
    else []
  | none => []

def abort (deployment service reason : String) : Task Bool := do
  match ← findPlan deployment service with
  | none => pure false
  | some plan =>
    let now ← clock
    let plan := { plan with state := .aborted, failureReason := reason, lastStepAt := some now }
    let dep ← Program.read (fun w => w.state.deployments.get deployment)
    let now ← clock
    Program.send (.batch "rollout" (some now) (planCommand plan now :: rollbackChild deployment now dep))

def timedOut (now : Timestamp) (plan : RolloutPlan) : Bool :=
  plan.state = .inProgress && plan.lastStepAt.any (fun t => ¬ (now - t < stepTimeout))

def abortTimedOut (now : Timestamp) (aborted : List String) : List RolloutPlan → Task (List String)
  | [] => pure aborted
  | plan :: plans =>
    if timedOut now plan then do
      let ok ← abort plan.deployment plan.service "step_timeout"
      if ok then abortTimedOut now (aborted ++ [plan.deployment]) plans else pure aborted
    else abortTimedOut now aborted plans

def checkTimeouts : Task (List String) := do
  let now ← clock
  let plans ← Program.read (fun w => w.listing w.state.rolloutPlans)
  abortTimedOut now [] plans

end Jaco.Rollout
