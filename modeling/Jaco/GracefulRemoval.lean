import Jaco.Relocation
import Jaco.Reliance

namespace Jaco.Relocation

open Interleaving Placement

def drainComplete : List Migration → Task Bool
  | [] => pure true
  | m :: ms => do
    match ← Program.read (fun w => w.state.replicasObserved.get m.replicaID) with
    | none => pure false
    | some obs => if obs.state ≠ .running then pure false else drainComplete ms

def awaitDrain (ms : List Migration) (deadline : Timestamp) : Nat → Task (Except Status Unit)
  | 0 => pure (.error ⟨.deadlineExceeded, "drain_cancelled", "context canceled"⟩)
  | polls + 1 => do
    let now ← clock
    if now < deadline then
      let complete ← drainComplete ms
      if complete then pure (.ok ()) else awaitDrain ms deadline polls
    else pure (.error ⟨.failedPrecondition, "drain_timeout",
      "drain did not complete within 60s; retry or pass --force to skip the drain step"⟩)

def drainWait : Int := 60 * 10 ^ 9

def drainToEnd (hostname : String) (polls : Nat) : Task (Except Status Unit) := do
  let nodes ← Program.read (fun w => w.listing w.state.nodes)
  let replicas ← Program.read (fun w => w.listing w.state.replicasDesired)
  let deployments ← Program.read (fun w => w.listing w.state.deployments)
  match plan hostname nodes replicas deployments with
  | .error e => pure (.error ⟨.failedPrecondition, "drain_no_placement", e⟩)
  | .ok [] => pure (.ok ())
  | .ok (m :: ms) =>
    let now ← clock
    match ← applyMigrations hostname now (m :: ms) with
    | .error e => pure (.error e)
    | .ok () =>
      let start ← clock
      awaitDrain (m :: ms) (start + drainWait) polls

inductive Call where
  | command (c : Command)
  | prepareForRemoval (leaver : String)
  | removeServer (id : String)

def nodeRemoveCommand (identity hostname : String) (now : Timestamp) : Command :=
  .single { identity := identity, ts := some now, payload := .nodeRemove hostname }

def nodeRemove (identity hostname : String) (polls : Nat) : Program World Call (Except Status Unit) := do
  let leader ← Program.read World.leader
  if !leader then pure (.error ⟨.unavailable, "no_leader", "remove requires leader"⟩)
  else if hostname = "" then pure (.error ⟨.invalidArgument, "validation_failed", "hostname required"⟩)
  else
    match ← (drainToEnd hostname polls).mapCommand Call.command with
    | .error e => pure (.error e)
    | .ok () =>
      let prepared ← Program.send (.prepareForRemoval hostname)
      if !prepared then pure (.error ⟨.internal, "raft_demote_failed", ""⟩)
      else
        let removed ← Program.send (.removeServer hostname)
        if !removed then pure (.error ⟨.internal, "raft_remove_failed", ""⟩)
        else
          let now ← Program.read World.now
          let ok ← Program.send (.command (nodeRemoveCommand identity hostname now))
          if !ok then pure (.error ⟨.internal, "raft_apply_failed", ""⟩) else pure (.ok ())

end Jaco.Relocation
