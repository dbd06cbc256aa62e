import Jaco.FleetPasses

namespace Jaco.Scheduler

open Interleaving Placement List

section Records

theorem applyChildren_append (idx : Nat) (s : State) (cs ds : List Command) :
    applyChildren idx s (cs ++ ds) = applyChildren idx (applyChildren idx s cs) ds := by
  induction cs generalizing s with
  | nil => rw [nil_append, applyChildren]
  | cons c cs ih => rw [cons_append, applyChildren, applyChildren, ih]

def stamped (idx : Nat) (r : ReplicaDesired) : ReplicaDesired := { r with raftIndex := idx }

theorem get_upserts (idx : Nat) (now : Timestamp) (rs : List ReplicaDesired) (s : State) (id : String) :
    (applyChildren idx s (rs.map (upsertCommand now))).replicasDesired.get id =
      (s.replicasDesired.applyAll (rs.map (stamped idx))).get id := by
  have hreplicas : (applyChildren idx s (rs.map (upsertCommand now))).replicasDesired =
      s.replicasDesired.applyAll (rs.map (stamped idx)) := by
    induction rs generalizing s with
    | nil => rw [map_nil, applyChildren, map_nil, Store.applyAll_nil]
    | cons r rs ih =>
      have hone : ((upsertCommand now r).apply idx s).replicasDesired = s.replicasDesired.apply (stamped idx r) := by
        apply Store.ext
        intro k
        rw [get_upsertCommand, Store.get_apply]
        rfl
      rw [map_cons, applyChildren, ih, hone, map_cons, Store.applyAll_cons]
  rw [hreplicas]

theorem get_removes (idx : Nat) (now : Timestamp) (ids : List String) (s : State) (id : String) :
    (applyChildren idx s (ids.map (removeCommand now))).replicasDesired.get id =
      if id ∈ ids then none else s.replicasDesired.get id := by
  induction ids generalizing s with
  | nil => rw [map_nil, applyChildren, if_neg not_mem_nil]
  | cons id' ids ih =>
    rw [map_cons, applyChildren, ih, get_removeCommand]
    by_cases hid : id' = id
    · rw [if_pos hid, ite_self, if_pos (hid ▸ mem_cons_self)]
    · rw [if_neg hid]
      exact if_congr ⟨mem_cons_of_mem id', fun h => (mem_cons.1 h).resolve_left (fun h => hid h.symm)⟩ rfl rfl

theorem get_commands (p : Pass) (desired : List DesiredReplica) (idx : Nat) (s : State) (id : String) :
    (applyChildren idx s (p.commands desired)).replicasDesired.get id =
      if id ∈ p.removes desired then none
      else (s.replicasDesired.applyAll ((p.upserts false desired).map (stamped idx))).get id := by
  rw [Pass.commands, applyChildren_append, get_removes, get_upserts]

end Records

section Call

variable (dep : Deployment) (svc : ServiceSpec) (project : Project) (specHash : Bytes) (w : World)

def currentOf : List ReplicaDesired :=
  (w.listing w.state.replicasDesired).filter (fun r => r.deployment = dep.name && r.service = svc.name)

def countsOf (host : String) : Nat := (currentOf dep svc w).countP (·.host = host)

def rollingOf : Bool := isRollingImageChange (currentOf dep svc w) (lookupImage project svc.name)

def stepOf : Int :=
  (follow cluster (drivenStep dep svc (hostsIn w.state svc) (rollingOf dep svc project w)) [] w).answer

def passOf : Pass where
  dep := dep
  svc := svc
  image := lookupImage project svc.name
  specHash := specHash
  eligible := hostsIn w.state svc
  current := currentOf dep svc w
  rolling := rollingOf dep svc project w
  rolloutStep := stepOf dep svc project w
  now := w.now

def serviced : World :=
  let o := follow cluster (reconcileService dep svc (w.listing w.state.nodes) project specHash) [] w
  o.now.commit (.batch "scheduler" (some o.now.now) o.answer.commands)

theorem drivenStep_replicas (eligible : List String) (rolling : Bool) :
    (follow cluster (drivenStep dep svc eligible rolling) [] w).now.state.replicasDesired =
    w.state.replicasDesired := by
  have hframe : Solo cluster (fun _ => False) (fun v : World => Framed w.state v.state)
      (drivenStep dep svc eligible rolling)
      (fun _ _ v => True ∧ Framed w.state v.state) :=
    solo_of_within (fun _ _ h => h.elim)
      (fun c v hc => commit_keeps (fun idx s e he => framed_entry idx s e (rolloutStep_drives he)) c v hc)
      (drivenStep_drives dep svc eligible rolling)
  exact (hframe [] w (fun _ h => (not_mem_nil h).elim) (framed_refl w.state)).2.replicas

theorem mem_currentOf (r : ReplicaDesired) : r ∈ currentOf dep svc w ↔
    w.state.replicasDesired.get r.id = some r ∧ r.deployment = dep.name ∧ r.service = svc.name := by
  rw [currentOf, mem_filter, mem_listing]
  simp

theorem follow_reconcileService (himage : lookupImage project svc.name ≠ "") :
    let o := follow cluster (reconcileService dep svc (w.listing w.state.nodes) project specHash) [] w
    match desiredReplicas dep svc (hostsIn w.state svc) (countsOf dep svc w) with
    | .error e => o.answer.commands = [markDeploymentPending dep.name e.message w.now] ∧ o.now = w
    | .ok desired => o.answer.commands = (passOf dep svc project specHash w).commands desired ∧
        o.now = (follow cluster (drivenStep dep svc (hostsIn w.state svc) (rollingOf dep svc project w)) [] w).now := by
  have heligible : eligibleHosts svc (w.listing w.state.nodes) = hostsIn w.state svc :=
    eligibleHosts_perm svc (listing_perm w w.state.nodes)
  intro o
  have ho : o = follow cluster (match desiredReplicas dep svc (hostsIn w.state svc) (countsOf dep svc w) with
      | .error e => pure (blocked dep svc e.message w.now)
      | .ok desired => drivenStep dep svc (hostsIn w.state svc) (rollingOf dep svc project w) >>= fun step =>
        pure ⟨dep.name, svc.name, step, Pass.commands ⟨dep, svc, lookupImage project svc.name, specHash,
          hostsIn w.state svc, currentOf dep svc w, rollingOf dep svc project w, step, w.now⟩ desired⟩) [] w := by
    change follow cluster (reconcileService dep svc (w.listing w.state.nodes) project specHash) [] w = _
    rw [reconcileService, clock, follow_read_bind]
    dsimp only
    rw [if_neg himage, follow_read_bind, heligible]
    rfl
  cases hdesired : desiredReplicas dep svc (hostsIn w.state svc) (countsOf dep svc w) with
  | error e =>
    rw [ho, hdesired]
    exact ⟨rfl, rfl⟩
  | ok desired =>
    rw [ho, hdesired]
    dsimp only
    rw [follow_bind]
    exact ⟨rfl, rfl⟩

theorem get_serviced (himage : lookupImage project svc.name ≠ "") {desired : List DesiredReplica}
    (hdesired : desiredReplicas dep svc (hostsIn w.state svc) (countsOf dep svc w) = .ok desired) :
    ∃ idx, ∀ id, (serviced dep svc project specHash w).state.replicasDesired.get id =
      if id ∈ (passOf dep svc project specHash w).removes desired then none
      else (w.state.replicasDesired.applyAll (((passOf dep svc project specHash w).upserts false desired).map
        (stamped idx))).get id := by
  have hfollow := follow_reconcileService dep svc project specHash w himage
  rw [hdesired] at hfollow
  obtain ⟨hcommands, hnow⟩ := hfollow
  have hreplicas := drivenStep_replicas dep svc w (hostsIn w.state svc) (rollingOf dep svc project w)
  refine ⟨(follow cluster (drivenStep dep svc (hostsIn w.state svc) (rollingOf dep svc project w)) [] w).now.index + 1,
    fun id => ?_⟩
  rw [serviced, hcommands, hnow, ← hreplicas]
  exact get_commands _ _ _ _ _

end Call

end Jaco.Scheduler
