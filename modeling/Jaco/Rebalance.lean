import Jaco.Relocation

/-!
The pressure-based rebalancer. Pressures lie in an ordered field; `math.Exp` and `strconv.FormatFloat` are parameters.
-/

namespace Jaco.Rebalance

open Interleaving Relocation

structure Floats (K : Type) where
  exp : K → K
  formatFloat : K → String

structure Snapshot (K : Type) where
  cpu : K
  memory : K

structure Footprint (K : Type) where
  cpu : K
  memory : K

structure Config (K : Type) where
  triggerThreshold : K
  imbalanceGap : K
  reliefFloor : K
  dstCap : K
  cooldownReplica : Int
  cooldownNode : Int
  consecutiveCycles : Int

structure EWMA (K : Type) where
  window : Int
  value : K
  hasData : Bool := false
  lastAt : Timestamp := 0

inductive Dimension where
  | cpu | memory
  deriving DecidableEq

def Dimension.string : Dimension → String
  | .cpu => "cpu"
  | .memory => "memory"

inductive SkipReason where
  | none | resourceLimits | antiAffinity | cooldownReplica | cooldownNode | dstCap | reliefFloor
  deriving DecidableEq

def SkipReason.string : SkipReason → String
  | .none => ""
  | .resourceLimits => "resource_limits"
  | .antiAffinity => "anti_affinity"
  | .cooldownReplica => "cooldown_replica"
  | .cooldownNode => "cooldown_node"
  | .dstCap => "dst_cap"
  | .reliefFloor => "relief_floor"

structure MoveCandidate (K : Type) where
  replica : ReplicaDesired
  src : String
  dst : String
  spec : Option ServiceSpec
  footprint : Footprint K
  srcPressure : Snapshot K
  dstPressure : Snapshot K
  perHostCount : Nat := 0
  dstResourceFits : Bool := false

structure Source (K : Type) where
  nodePressure : String → Option (Snapshot K)
  replicaFootprint : String → Footprint K

structure Scored (K : Type) where
  c : MoveCandidate K
  score : K

structure Rebalancer (K : Type) where
  cfg : Config K
  pressureEWMA : String → Option (EWMA K) := fun _ => none
  consecutiveOverThreshold : String → Int := fun _ => 0
  lastReplicaMoveAt : String → Option Timestamp := fun _ => none
  lastNodeMoveAt : String → Option Timestamp := fun _ => none

def antiAffinityOK (spec : Option ServiceSpec) (dst : String) (perHostCount : Nat) : Bool :=
  match spec with
  | none => true
  | some spec =>
    match spec.placement with
    | .hosts => dst ∈ spec.hosts
    | .spread => perHostCount = 0
    | .global => false
    | _ => true

section Scoring

variable {K : Type} [Field K] [LinearOrder K]

def defaultConfig : Config K where
  triggerThreshold := 85 / 100
  imbalanceGap := 25 / 100
  reliefFloor := 10 / 100
  dstCap := 75 / 100
  cooldownReplica := 10 * 60 * 10 ^ 9
  cooldownNode := 2 * 60 * 10 ^ 9
  consecutiveCycles := 2

def newEWMA (window : Int) : EWMA K := { window := if window ≤ 0 then 1 else window, value := 0 }

def EWMA.update (F : Floats K) (e : EWMA K) (now : Timestamp) (sample : K) : EWMA K :=
  if !e.hasData then { e with value := sample, lastAt := now, hasData := true }
  else
    let dt := if now - e.lastAt < 0 then 0 else now - e.lastAt
    let alpha := 1 - F.exp (-(dt : K) / (e.window : K))
    { e with value := e.value + alpha * (sample - e.value), lastAt := now }

def composite (s : Snapshot K) : K := if s.memory > s.cpu then s.memory else s.cpu

def dominant (s : Snapshot K) : Dimension := if s.memory > s.cpu then .memory else .cpu

def moveCost : K := 1 / 100

def hardFilter (c : MoveCandidate K) : SkipReason :=
  if !c.dstResourceFits then .resourceLimits
  else if !antiAffinityOK c.spec c.dst c.perHostCount then .antiAffinity
  else .none

def reliefEstimate (c : MoveCandidate K) : K :=
  if dominant c.srcPressure = .memory then c.footprint.memory else c.footprint.cpu

def score (c : MoveCandidate K) : K := reliefEstimate c - moveCost

def postMovePressure (c : MoveCandidate K) : Snapshot K × Snapshot K :=
  let cpu := c.srcPressure.cpu - c.footprint.cpu
  let memory := c.srcPressure.memory - c.footprint.memory
  (⟨if cpu < 0 then 0 else cpu, if memory < 0 then 0 else memory⟩,
    ⟨c.dstPressure.cpu + c.footprint.cpu, c.dstPressure.memory + c.footprint.memory⟩)

def relief (c : MoveCandidate K) : K := composite c.srcPressure - composite (postMovePressure c).1

def dstResourceFits (dst : Snapshot K) (fp : Footprint K) : Bool :=
  if dst.cpu + fp.cpu > 1 then false
  else if dst.memory + fp.memory > 1 then false
  else true

def auditPayload (F : Floats K) (c : MoveCandidate K) (score relief : K) (dominant : Dimension) (reason : SkipReason) :
    StringMap :=
  [("replica_id", c.replica.id), ("deployment", c.replica.deployment), ("service", c.replica.service),
    ("src", c.src), ("dst", c.dst), ("dominant", dominant.string),
    ("relief", F.formatFloat relief), ("score", F.formatFloat score), ("move_cost", F.formatFloat moveCost),
    ("src_pressure_before", F.formatFloat (composite c.srcPressure)),
    ("dst_pressure_before", F.formatFloat (composite c.dstPressure)),
    ("src_pressure_after", F.formatFloat (composite (postMovePressure c).1)),
    ("dst_pressure_after", F.formatFloat (composite (postMovePressure c).2))] ++
    if reason ≠ .none then [("reason", reason.string)] else []

end Scoring

def ranged {α : Type} (l : List (String × α)) (w : World) : List (String × α) :=
  l.insertionSort (fun a b => w.order a.1 ≤ w.order b.1)

section Cycle

variable {K : Type} [Field K] [LinearOrder K] (F : Floats K) (src : Source K)

def sampled (nodes : List Node) : List (String × Snapshot K) :=
  nodes.filterMap (fun n => (src.nodePressure n.hostname).map (fun snap => (n.hostname, snap)))

def pressureOf (snapshotByHost : List (String × Snapshot K)) (host : String) : Snapshot K :=
  (snapshotByHost.lookup host).getD ⟨0, 0⟩

namespace Rebalancer

variable (r : Rebalancer K)

def fold (now : Timestamp) (snapshotByHost : List (String × Snapshot K)) : Rebalancer K :=
  { r with
    pressureEWMA := snapshotByHost.foldl (fun ewmas s => Function.update ewmas s.1
      (some (((ewmas s.1).getD (newEWMA (5 * 60 * 10 ^ 9))).update F now (composite s.2)))) r.pressureEWMA }

def value (host : String) : K := ((r.pressureEWMA host).map (·.value)).getD 0

def countOver (snapshotByHost : List (String × Snapshot K)) : Rebalancer K :=
  { r with
    consecutiveOverThreshold := snapshotByHost.foldl (fun counts s => Function.update counts s.1
      (if r.value s.1 ≥ r.cfg.triggerThreshold then counts s.1 + 1 else 0)) r.consecutiveOverThreshold }

end Rebalancer

structure Extremes (K : Type) where
  hotHost : String
  hotEWMA : K
  coldEWMA : K

def extremes (r : Rebalancer K) (hosts : List (String × Snapshot K)) : Extremes K :=
  hosts.foldl (fun x s =>
    let v := r.value s.1
    let x := if v > x.hotEWMA then { x with hotHost := s.1, hotEWMA := v } else x
    if v < x.coldEWMA then { x with coldEWMA := v } else x) ⟨"", 0, 11 / 10⟩

def skip (c : MoveCandidate K) (reason : SkipReason) (relief : K) (dom : Dimension) : Task Bool :=
  emitAudit .rebalanceSkipped (auditPayload F c 0 relief dom reason)

def candidate (hotHost : String) (snapshotByHost : List (String × Snapshot K)) (placed : List ReplicaDesired)
    (rep : ReplicaDesired) (spec : Option ServiceSpec) (dst : String × Snapshot K) : MoveCandidate K where
  replica := rep
  src := hotHost
  dst := dst.1
  spec := spec
  footprint := src.replicaFootprint rep.id
  srcPressure := pressureOf snapshotByHost hotHost
  dstPressure := dst.2
  perHostCount := placed.countP (fun r =>
    r.host = dst.1 && r.deployment = rep.deployment && r.service = rep.service)
  dstResourceFits := dstResourceFits dst.2 (src.replicaFootprint rep.id)

def gate (r : Rebalancer K) (now : Timestamp) (c : MoveCandidate K) : SkipReason × K :=
  if (r.lastNodeMoveAt c.dst).any (fun t => now - t < r.cfg.cooldownNode) then (.cooldownNode, 0)
  else if hardFilter c ≠ .none then (hardFilter c, 0)
  else if composite (postMovePressure c).2 ≥ r.cfg.dstCap then (.dstCap, 0)
  else if relief c < r.cfg.reliefFloor then (.reliefFloor, relief c)
  else (.none, 0)

variable (r : Rebalancer K) (now : Timestamp) (hotHost : String) (snapshotByHost : List (String × Snapshot K))
  (placed : List ReplicaDesired)

def weighMove (rep : ReplicaDesired) (spec : Option ServiceSpec) (survived : List (Scored K))
    (dst : String × Snapshot K) : Task (List (Scored K)) :=
  if dst.1 = hotHost then pure survived
  else
    let c := candidate src hotHost snapshotByHost placed rep spec dst
    let (reason, relief) := gate r now c
    if reason ≠ .none then do
      let _ ← skip F c reason relief (dominant c.srcPressure)
      pure survived
    else pure (survived ++ [⟨c, score c⟩])

def weighReplica (survived : List (Scored K)) (rep : ReplicaDesired) : Task (List (Scored K)) :=
  if rep.host ≠ hotHost then pure survived
  else do
    let spec ← Program.read (serviceSpec rep)
    if (r.lastReplicaMoveAt rep.id).any (fun t => now - t < r.cfg.cooldownReplica) then
      let hot := pressureOf snapshotByHost hotHost
      let _ ← skip F
        { replica := rep, src := hotHost, dst := "", spec := spec, footprint := src.replicaFootprint rep.id,
          srcPressure := hot, dstPressure := ⟨0, 0⟩ } .cooldownReplica 0 (dominant hot)
      pure survived
    else
      let dsts ← Program.read (ranged snapshotByHost)
      dsts.foldlM (weighMove F src r now hotHost snapshotByHost placed rep spec) survived

def better (a b : Scored K) : Bool :=
  b.score < a.score || (a.score = b.score && a.c.replica.id ≤ b.c.replica.id)

end Cycle

section Rounds

variable {K : Type} [Field K] [LinearOrder K] (F : Floats K)

def survey (src : Source K) (r : Rebalancer K) (now : Timestamp) : Task (Rebalancer K × Option (Scored K)) := do
  let nodes ← Program.read (fun w => w.listing w.state.nodes)
  let snapshotByHost := sampled src nodes
  let r := r.fold F now snapshotByHost
  if snapshotByHost.length < 2 then pure (r, none)
  else
    let hosts ← Program.read (ranged snapshotByHost)
    let x := extremes r hosts
    let r := r.countOver snapshotByHost
    if r.consecutiveOverThreshold x.hotHost < r.cfg.consecutiveCycles then pure (r, none)
    else if x.hotEWMA - x.coldEWMA < r.cfg.imbalanceGap then pure (r, none)
    else
      let placed ← Program.read (fun w => w.listing w.state.replicasDesired)
      let replicas ← Program.read (fun w => w.listing w.state.replicasDesired)
      let survived ← replicas.foldlM (weighReplica F src r now x.hotHost snapshotByHost placed) []
      pure (r, (survived.insertionSort (fun a b => better a b)).head?)

def moveCommand (c : MoveCandidate K) (now : Timestamp) : Command :=
  .single
    { identity := "scheduler/rebalance", ts := some now
      payload := .replicaDesiredUpsert (some { c.replica with host := c.dst }) }

def commitMove (c : MoveCandidate K) : Task Bool := do
  let now ← clock
  Program.send (moveCommand c now)

def settleMove (r : Rebalancer K) (now : Timestamp) (winner : Scored K) : Task (Rebalancer K) := do
  let ok ← commitMove winner.c
  if !ok then pure r
  else
    let _ ← emitAudit .rebalanceMoved
      (auditPayload F winner.c winner.score (relief winner.c) (dominant winner.c.srcPressure) .none)
    pure { r with
      lastReplicaMoveAt := Function.update r.lastReplicaMoveAt winner.c.replica.id (some now)
      lastNodeMoveAt := Function.update r.lastNodeMoveAt winner.c.dst (some now) }

def cycleAt (src : Source K) (r : Rebalancer K) (now : Timestamp) : Task (Rebalancer K) := do
  let (r, winner) ← survey F src r now
  match winner with
  | none => pure r
  | some winner => settleMove F r now winner

def cycle (src : Source K) (r : Rebalancer K) : Task (Rebalancer K) := do
  let leader ← Program.read World.leader
  if !leader then pure r
  else
    let now ← clock
    cycleAt F src r now

end Rounds

end Jaco.Rebalance
