import Jaco.SeparateServices

namespace Jaco.Scheduler

open Interleaving Placement Rollout ReplicaIds Runs

def numberedOf (deployment : String) (svc : ServiceSpec) : List String :=
  if svc.placement = .global then [] else (List.range svc.replicas.toNat).map (replicaID deployment svc.name)

def numberedIDs (s : State) : List String :=
  s.deployments.list.flatMap (fun dep => dep.services.flatMap (numberedOf dep.name))

structure Shift where
  world : World
  thread : Option (Task Round) := none
  seen : List World := []
  declared : List String := []
  retired : List String := []

def retire (declared : List String) (idx : Nat) (t : State × List String) (e : Entry) : State × List String :=
  let s := applyEntry idx t.1 e
  (s, t.2 ++ declared.filter (fun id => (t.1.replicasDesired.get id).isSome && (s.replicasDesired.get id).isNone))

def upserted (e : Entry) : Option ReplicaDesired :=
  match e.payload with
  | .replicaDesiredUpsert r => r
  | _ => none

def Fresh (t : State × List String) (e : Entry) : Prop := ∀ r ∈ upserted e, r.id ∉ t.2

instance (t : State × List String) (e : Entry) : Decidable (Fresh t e) :=
  inferInstanceAs (Decidable (∀ r ∈ upserted e, r.id ∉ t.2))

namespace Shift

inductive Event where
  | operator (e : Entry)
  | elapse (time : Nat) (leader : Bool) (order : String → Nat)
  | begin
  | act (fate : Fate)

def commit (s : Shift) (c : Command) : Shift :=
  let w := s.world.commit c
  { s with
    world := w
    declared := s.declared ++ numberedIDs w.state
    retired := (run (retire s.declared w.index) (s.world.state, s.retired) c.entries).2 }

variable (P : Parsers)

def step (s : Shift) : Event → Shift
  | .operator e => s.commit (.single e)
  | .elapse time leader order =>
    { s with world := { s.world with now := s.world.now + time, leader := leader, order := order } }
  | .begin => if s.thread.isNone then { s with thread := some (reconcile P), seen := [] } else s
  | .act fate =>
    match s.thread with
    | none => s
    | some (.ret _) => { s with thread := none }
    | some (.look k) => { s with thread := some (k s.world), seen := s.world :: s.seen }
    | some (.submit c k) =>
      match fate with
      | .acked => { s.commit c with thread := some (k true) }
      | .unacked => { s.commit c with thread := some (k false) }
      | .lost => { s with thread := some (k false) }

def committed (s : Shift) : Event → Option Command
  | .operator e => some (.single e)
  | .act fate =>
    match s.thread, fate with
    | some (.submit _ _), .lost => none
    | some (.submit c _), _ => some c
    | _, _ => none
  | _ => none

/-- No entry that commits in this step upserts a retired id. -/
def NeverReused (s : Shift) (e : Event) : Prop :=
  ∀ c ∈ s.committed e, Along (retire s.declared (s.world.index + 1)) Fresh (s.world.state, s.retired) c.entries

instance (s : Shift) (e : Event) : Decidable (s.NeverReused e) :=
  inferInstanceAs (Decidable (∀ c ∈ s.committed e, Along _ _ _ _))

def Novel (s : Shift) (da : DeploymentApply) : Prop :=
  ∀ svc ∈ da.services, ∀ id ∈ numberedOf da.deployment svc, id ∈ s.declared → id ∈ numberedIDs s.world.state

instance (s : Shift) (da : DeploymentApply) : Decidable (s.Novel da) :=
  inferInstanceAs (Decidable (∀ svc ∈ da.services, ∀ id ∈ numberedOf da.deployment svc, id ∈ s.declared → _))

def Meets (F : Fleet) (s : Shift) : Event → Prop
  | .operator e =>
    match e.payload with
    | .deploymentApply da => (da.services.map (·.name)).Nodup ∧ (∀ svc ∈ da.services, Enrolled F da.deployment svc) ∧
        s.Novel da
    | .deploymentDelete _ => s.thread.isNone = true
    | .nodeJoin nj => nj.hostname ∈ F.hosts
    | .clusterInit ci => ci.selfHostname ∈ F.hosts
    | .replicaDesiredUpsert _ => False
    | .replicaDesiredRemove _ => False
    | _ => True
  | _ => True

def fresh : Shift := { world := { state := .new, index := 0, now := 0 } }

end Shift

end Jaco.Scheduler
