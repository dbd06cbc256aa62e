import Jaco.Rollout

namespace Jaco.Scheduler

open Interleaving Placement Rollout

def lookupImage (p : Project) (serviceName : String) : String :=
  ((p.services.find? (·.name = serviceName)).map (·.image)).getD ""

def markDeploymentPending (name reason : String) (now : Timestamp) : Command :=
  .single
    { identity := "scheduler", ts := some now
      payload := .deploymentStatusUpdate { deployment := name, status := .pending, details := [("reason", reason)] } }

def upsertCommand (now : Timestamp) (r : ReplicaDesired) : Command :=
  .single { identity := "scheduler", ts := some now, payload := .replicaDesiredUpsert (some r) }

def removeCommand (now : Timestamp) (id : String) : Command :=
  .single { identity := "scheduler", ts := some now, payload := .replicaDesiredRemove id }

structure DesiredReplica where
  id : String
  host : String
  index : Int
  deriving DecidableEq

def desiredReplicas (dep : Deployment) (svc : ServiceSpec) (eligible : List String) (counts : String → Nat) :
    Except PlacementError (List DesiredReplica) :=
  if svc.placement = .global then
    .ok (eligible.zipIdx.map (fun h => ⟨replicaIDForHost dep.name svc.name h.1, h.1, wrap32 h.2⟩))
  else
    (List.range svc.replicas.toNat).mapM (fun (i : Nat) =>
      (placeReplica dep.name svc eligible i counts).map (fun host => ⟨replicaID dep.name svc.name i, host, i⟩))

def isRollingImageChange (current : List ReplicaDesired) (desiredImage : String) : Bool :=
  if current.isEmpty then false
  else if current.any (·.image = desiredImage) then true
  else !current.any (fun r => r.image = "" || r.image = desiredImage)

def stickyExistingHost (cur : ReplicaDesired) (svc : ServiceSpec) (eligible : List String) : Option String :=
  if cur.host = "" then none
  else if cur.host ∉ eligible then none
  else if svc.placement = .hosts && cur.host ∉ svc.hosts then none
  else some cur.host

def driveRollout (dep : Deployment) (svc : ServiceSpec) (totalSteps : Int) : Task Int := do
  match ← findPlan dep.name svc.name with
  | none =>
    let ok ← start dep.name svc.name dep.appliedRevision totalSteps
    pure (if ok then 0 else -1)
  | some plan =>
    if plan.state ≠ .inProgress then
      if plan.targetRevision = dep.appliedRevision then pure (-1)
      else
        let ok ← start dep.name svc.name dep.appliedRevision totalSteps
        pure (if ok then 0 else -1)
    else if plan.currentStep ≥ plan.totalSteps then
      let _ ← complete dep.name svc.name
      pure (-1)
    else
      match ← stepReady dep.name svc.name with
      | none => pure (-1)
      | some (false, _) => pure plan.currentStep
      | some (true, _) =>
        let ok ← advanceStep dep.name svc.name
        if !ok then pure (-1)
        else
          match ← findPlan dep.name svc.name with
          | none => pure (-1)
          | some plan =>
            if plan.currentStep ≥ plan.totalSteps then
              let _ ← complete dep.name svc.name
              pure (-1)
            else pure plan.currentStep

structure Pass where
  dep : Deployment
  svc : ServiceSpec
  image : String
  specHash : Bytes
  eligible : List String
  current : List ReplicaDesired
  rolling : Bool
  rolloutStep : Int
  now : Timestamp

namespace Pass

variable (p : Pass)

def find (d : DesiredReplica) : Option ReplicaDesired := p.current.find? (·.id = d.id)

def hostFor (d : DesiredReplica) : String :=
  ((p.find d).bind (fun cur => stickyExistingHost cur p.svc p.eligible)).getD d.host

def replica (d : DesiredReplica) : ReplicaDesired where
  id := d.id
  deployment := p.dep.name
  service := p.svc.name
  index := d.index
  host := p.hostFor d
  image := p.image
  specHash := p.specHash

def upserts (changed : Bool) : List DesiredReplica → List ReplicaDesired
  | [] => []
  | d :: ds =>
    match p.find d with
    | none => p.replica d :: upserts changed ds
    | some cur =>
      if cur.host = p.hostFor d ∧ cur.image = p.image ∧ cur.specHash = p.specHash then upserts changed ds
      else if p.rolling ∧ cur.host = p.hostFor d ∧ cur.image ≠ p.image then
        if 0 ≤ p.rolloutStep then
          if d.index ≠ p.rolloutStep then upserts changed ds else p.replica d :: upserts changed ds
        else if changed then upserts changed ds
        else p.replica d :: upserts true ds
      else p.replica d :: upserts changed ds

def removes (desired : List DesiredReplica) : List String :=
  (p.current.map (·.id)).filter (fun id => id ∉ desired.map (·.id))

def commands (desired : List DesiredReplica) : List Command :=
  (p.upserts false desired).map (upsertCommand p.now) ++ (p.removes desired).map (removeCommand p.now)

end Pass

structure ServicePass where
  deployment : String
  service : String
  rolloutStep : Int
  commands : List Command

def blocked (dep : Deployment) (svc : ServiceSpec) (reason : String) (now : Timestamp) : ServicePass :=
  ⟨dep.name, svc.name, -1, [markDeploymentPending dep.name reason now]⟩

def stepsOf (svc : ServiceSpec) (eligible : List String) : Int :=
  if svc.placement = .global then wrap32 eligible.length else svc.replicas

/-- `-1`: no plan drives this pass. -/
def drivenStep (dep : Deployment) (svc : ServiceSpec) (eligible : List String) (rolling : Bool) : Task Int :=
  if rolling then driveRollout dep svc (stepsOf svc eligible) else pure (-1)

def reconcileService (dep : Deployment) (svc : ServiceSpec) (nodes : List Node) (project : Project)
    (specHash : Bytes) : Task ServicePass := do
  let now ← clock
  let image := lookupImage project svc.name
  if image = "" then
    pure (blocked dep svc ("service " ++ GoStrings.quote svc.name ++ " not found in compose project") now)
  else
    let eligible := eligibleHosts svc nodes
    let current ← Program.read (fun w =>
      (w.listing w.state.replicasDesired).filter (fun r => r.deployment = dep.name && r.service = svc.name))
    match desiredReplicas dep svc eligible (fun h => current.countP (·.host = h)) with
    | .error e => pure (blocked dep svc e.message now)
    | .ok desired =>
      let rolling := isRollingImageChange current image
      let rolloutStep ← drivenStep dep svc eligible rolling
      let p : Pass := ⟨dep, svc, image, specHash, eligible, current, rolling, rolloutStep, now⟩
      pure ⟨dep.name, svc.name, rolloutStep, p.commands desired⟩

structure Round where
  batch : List Command := []
  services : List ServicePass := []

variable (P : Parsers)

def reconcileDeclared (dep : Deployment) (nodes : List Node) (project : Project) (round : Round)
    (svc : ServiceSpec) : Task Round :=
  match P.specHash dep.composeYaml svc.name with
  | .error e => do
    let now ← clock
    let reason := "service " ++ GoStrings.quote svc.name ++ " spec hash failed: " ++ e
    pure { round with batch := round.batch ++ [markDeploymentPending dep.name reason now] }
  | .ok specHash => do
    let sp ← reconcileService dep svc nodes project specHash
    pure { batch := round.batch ++ sp.commands, services := round.services ++ [sp] }

def undeclared (dep : Deployment) (w : World) : List ReplicaDesired :=
  (w.listing w.state.replicasDesired).filter (fun r =>
    r.deployment = dep.name && r.service ∉ dep.services.map (·.name))

def reconcileDeployment (nodes : List Node) (aborted : List String) (round : Round) (dep : Deployment) :
    Task Round :=
  if dep.name ∈ aborted then pure round
  else
    match P.loadCompose dep.composeYaml with
    | .error e => do
      let now ← clock
      pure { round with
        batch := round.batch ++ [markDeploymentPending dep.name ("compose parse failed: " ++ e) now] }
    | .ok project => do
      let stale ← Program.read (undeclared dep)
      let now ← clock
      dep.services.foldlM (reconcileDeclared P dep nodes project)
        { round with batch := round.batch ++ stale.map (fun r => removeCommand now r.id) }

def submitBatch (round : Round) : Task Round :=
  if round.batch.isEmpty then pure round
  else do
    let now ← clock
    let _ ← Program.send (.batch "scheduler" (some now) round.batch)
    pure round

def reconcile : Task Round := do
  let leader ← Program.read World.leader
  if !leader then pure {}
  else
    let aborted ← checkTimeouts
    let deployments ← Program.read (fun w => w.listing w.state.deployments)
    let nodes ← Program.read (fun w => w.listing w.state.nodes)
    let round ← deployments.foldlM (reconcileDeployment P nodes aborted) {}
    submitBatch round

def pass : Task Unit := do
  let _ ← reconcile P
  pure ()

namespace Sample

def compose (tag : String) : Bytes :=
  ("services:\n  web:\n    image: nginx:" ++ tag ++ "\n").toList.flatMap String.utf8EncodeChar

def parsers : Parsers where
  decodeJaco _ := .error (invalid "")
  mailError _ := none
  validateCompose _ := none
  loadCompose b :=
    .ok ⟨[{ name := "web", image := if b = compose "1.27" then "nginx:1.27" else "nginx:1.28" }],
      List.nodup_singleton _⟩
  specHash b _ := .ok b

def web : ServiceSpec := { name := "web", replicas := 2, placement := .spread }

def node (hostname : String) : Command :=
  .single ⟨"", none, .clusterInit
    { clusterId := "", caCert := [], caKey := [], operatorTokenHashedSecret := [], selfHostname := hostname,
      selfAddress := hostname }⟩

def applyOf (revision : Nat) (compose : Bytes) : DeploymentApply where
  deployment := "sample"
  revision := revision
  composeYaml := compose
  services := [web]

def applied (revision : Nat) (tag : String) : Entry :=
  ⟨"ops", none, .deploymentApply (applyOf revision (compose tag))⟩

def undisturbed (w : World) : World := (exec cluster (reconcile parsers) ([] : List (Gap Others)) ⟨w, []⟩).2.2.now

def placed : World :=
  undisturbed ((World.commit (node "node-a") { state := .new, index := 0, now := 0 }).commit
    (.single (applied 1 "1.27")))

end Sample

end Jaco.Scheduler
