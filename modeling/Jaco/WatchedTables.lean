import Jaco.ChangeFeed
import Jaco.DeploymentDelete

namespace Jaco.Watch

open List Store

inductive EntityType where
  | deployments
  | replicasObserved
  | routes
  | tcpRoutes
  deriving DecidableEq

abbrev EntityType.Record : EntityType → Type
  | .deployments => Deployment
  | .replicasObserved => ReplicaObserved
  | .routes => Route
  | .tcpRoutes => TCPRoute

instance : (t : EntityType) → DecidableEq t.Record
  | .deployments => inferInstanceAs (DecidableEq Deployment)
  | .replicasObserved => inferInstanceAs (DecidableEq ReplicaObserved)
  | .routes => inferInstanceAs (DecidableEq Route)
  | .tcpRoutes => inferInstanceAs (DecidableEq TCPRoute)

def EntityType.key : (t : EntityType) → t.Record → String
  | .deployments => Deployment.name
  | .replicasObserved => ReplicaObserved.id
  | .routes => Route.key
  | .tcpRoutes => TCPRoute.key

structure Tables where
  store : (t : EntityType) → Store t.Record t.key
  desired : Store ReplicaDesired ReplicaDesired.id

theorem Tables.ext {T U : Tables} (hs : ∀ t, T.store t = U.store t) (hd : T.desired = U.desired) : T = U := by
  obtain ⟨s, d⟩ := T
  obtain ⟨s', d'⟩ := U
  have he : s = s' := funext hs
  cases he
  cases hd
  rfl

def stateTables (s : State) : Tables where
  store
    | .deployments => s.deployments
    | .replicasObserved => s.replicasObserved
    | .routes => s.routes
    | .tcpRoutes => s.tcpRoutes
  desired := s.replicasDesired

inductive Op where
  | table (t : EntityType) (w : Write t.Record)
  | desired (w : Write ReplicaDesired)

def Tables.set (T : Tables) (t : EntityType) (s : Store t.Record t.key) : Tables :=
  { T with store := Function.update T.store t s }

def Tables.apply (T : Tables) : Op → Tables
  | .table t w => T.set t (w.apply (T.store t))
  | .desired w => { T with desired := w.apply T.desired }

def putAll (t : EntityType) (l : List t.Record) : List Op := l.map (fun v => .table t (.put v))

section Ops

variable (rank : String → Nat)

def dropWhere (T : Tables) (t : EntityType) (p : t.Record → Bool) : List Op :=
  (((T.store t).ranked rank).items.filter p).map (fun v => .table t (.drop (t.key v)))

def replaceOwned (T : Tables) (t : EntityType) (owner : t.Record → String) (o : String) (l : List t.Record) : List Op :=
  dropWhere rank T t (fun v => owner v = o && t.key v ∉ l.map t.key) ++ putAll t l

def removeReplicaDesired (id : String) : List Op := [.desired (.drop id), .table .replicasObserved (.drop id)]

/-- The writes of one entry to the watched stores, in the order the state machine makes them; `rank` is the order in
which it happens to go through a map. -/
def opsOf (T : Tables) (ts : Option Timestamp) (idx : Nat) : Payload → List Op
  | .deploymentApply da =>
    let prevRev := (((T.store .deployments).get da.deployment).map Deployment.appliedRevision).getD 0
    let deployment : Deployment :=
      { name := da.deployment, appliedRevision := da.revision, previousRevision := prevRev, status := .active,
        jacoYaml := da.jacoYaml, composeYaml := da.composeYaml, services := da.services,
        updatedAt := ts, acmeEmail := da.acmeEmail }
    .table .deployments (.put deployment) ::
      (replaceOwned rank T .routes Route.deployment da.deployment da.routes ++
        replaceOwned rank T .tcpRoutes TCPRoute.deployment da.deployment da.tcpRoutes)
  | .deploymentRollback deployment revision =>
    match (T.store .deployments).get deployment with
    | none => []
    | some (existing : Deployment) =>
      [.table .deployments (.put
        { existing with appliedRevision := revision, previousRevision := existing.appliedRevision, updatedAt := ts })]
  | .deploymentDelete name =>
    dropWhere rank T .routes (fun r : Route => r.deployment = name) ++
      dropWhere rank T .tcpRoutes (fun r : TCPRoute => r.deployment = name) ++
      ((T.desired.ranked rank).items.filter (·.deployment = name)).flatMap (fun r => removeReplicaDesired r.id) ++
      [.table .deployments (.drop name)]
  | .deploymentStatusUpdate u =>
    match (T.store .deployments).get u.deployment with
    | none => []
    | some (d : Deployment) => [.table .deployments (.put { d with status := u.status, statusDetails := u.details })]
  | .replicaDesiredUpsert (some r) => [.desired (.put { r with raftIndex := idx })]
  | .replicaDesiredRemove id => removeReplicaDesired id
  | .replicaObservedUpdate (some r) => [.table .replicasObserved (.put r)]
  | .routeUpsert (some r) => [.table .routes (.put r)]
  | .routeRemove domain => dropWhere rank T .routes (fun r : Route => r.domain = domain)
  | _ => []

end Ops

variable (T : Tables) (t : EntityType)

@[simp] theorem store_set_self (s : Store t.Record t.key) : (T.set t s).store t = s := Function.update_self ..

theorem store_set_of_ne (T : Tables) {t u : EntityType} (s : Store t.Record t.key) (h : u ≠ t) :
    (T.set t s).store u = T.store u := Function.update_of_ne h ..

@[simp] theorem set_set {s s' : Store t.Record t.key} : (T.set t s).set t s' = T.set t s' := by
  simp [Tables.set]

@[simp] theorem set_store : T.set t (T.store t) = T := by
  simp [Tables.set]

theorem foldl_putAll {l : List t.Record} : (putAll t l).foldl Tables.apply T = T.set t ((T.store t).applyAll l) := by
  induction l generalizing T with
  | nil => simp [putAll]
  | cons v l ih =>
    rw [applyAll_cons]
    have h := ih (T.set t ((T.store t).apply v))
    rw [store_set_self, set_set] at h
    exact h

theorem foldl_drops {l : List t.Record} {p : t.Record → Bool} :
    ((l.filter p).map (fun v => Op.table t (.drop (t.key v)))).foldl Tables.apply T =
      T.set t (removeOver p (T.store t) l) := by
  induction l generalizing T with
  | nil => simp [removeOver]
  | cons v l ih =>
    rw [filter_cons]
    cases hp : p v with
    | false => simpa [removeOver, hp] using ih T
    | true =>
      have h := ih (T.set t ((T.store t).remove (t.key v)))
      rw [store_set_self, set_set] at h
      have hover : removeOver p (T.store t) (v :: l) = removeOver p ((T.store t).remove (t.key v)) l := by
        simp [removeOver, hp]
      rw [hover]
      exact h

variable {rank : String → Nat}

theorem foldl_dropWhere {T U : Tables} (t : EntityType) (p : t.Record → Bool) (h : U.store t = T.store t) :
    (dropWhere rank T t p).foldl Tables.apply U = U.set t ((U.store t).removeWhere p) := by
  rw [dropWhere, foldl_drops, h, removeOver_listing]

theorem foldl_replaceOwned {T U : Tables} (t : EntityType) (owner : t.Record → String) (o : String)
    (l : List t.Record) (h : U.store t = T.store t) :
    (replaceOwned rank T t owner o l).foldl Tables.apply U = U.set t ((U.store t).replaceOwned owner o l) := by
  rw [replaceOwned, foldl_append, foldl_dropWhere t _ h, foldl_putAll, store_set_self, set_set]
  rfl

theorem foldl_removeReplicaDesired (s : State) (l : List ReplicaDesired) :
    (l.flatMap (fun r => removeReplicaDesired r.id)).foldl Tables.apply (stateTables s) =
      stateTables (l.foldl (fun t r => t.removeReplicaDesired r.id) s) := by
  induction l generalizing s with
  | nil => rfl
  | cons r l ih =>
    rw [flatMap_cons, foldl_append, foldl_cons, ← ih]
    congr 1
    apply Tables.ext
    · intro t
      cases t <;> rfl
    · rfl

theorem stateTables_applyDeployment {s : State} {da : DeploymentApply} {ts : Option Timestamp} {idx : Nat} :
    (opsOf rank (stateTables s) ts idx (.deploymentApply da)).foldl Tables.apply (stateTables s) =
      stateTables (applyDeployment s da ts) := by
  rw [opsOf, foldl_cons, foldl_append, foldl_replaceOwned .routes, foldl_replaceOwned .tcpRoutes]
  · apply Tables.ext
    · intro t
      cases t <;> rfl
    · rfl
  · rfl
  · rfl

theorem stateTables_deleteDeployment (s : State) (name : String) (ts : Option Timestamp) (idx : Nat) :
    (opsOf rank (stateTables s) ts idx (.deploymentDelete name)).foldl Tables.apply (stateTables s) =
      stateTables (deleteDeployment s name) := by
  have hroutes : ((stateTables s).set .routes (s.routes.removeWhere (·.deployment = name))).set .tcpRoutes
      (s.tcpRoutes.removeWhere (·.deployment = name)) = stateTables { s with
        routes := s.routes.removeWhere (·.deployment = name)
        tcpRoutes := s.tcpRoutes.removeWhere (·.deployment = name) } := by
    apply Tables.ext
    · intro t
      cases t <;> rfl
    · rfl
  rw [opsOf, foldl_append, foldl_append, foldl_append,
    foldl_dropWhere (T := stateTables s) (U := stateTables s) .routes _ rfl, foldl_dropWhere .tcpRoutes _ (by rfl)]
  have hreplicas := foldl_removeReplicaDesired { s with
      routes := s.routes.removeWhere (·.deployment = name)
      tcpRoutes := s.tcpRoutes.removeWhere (·.deployment = name) }
    ((s.replicasDesired.ranked rank).items.filter (·.deployment = name))
  rw [← hroutes, foldl_removeReplicaDesired_perm ((s.replicasDesired.ranked rank).perm.filter _)] at hreplicas
  refine (congrArg (fun T => T.apply (.table .deployments (.drop name))) hreplicas).trans ?_
  apply Tables.ext
  · intro t
    cases t <;> rfl
  · rfl

def watched : List Part := [.deployments, .replicasObserved, .routes, .tcpRoutes, .replicasDesired]

theorem stateTables_of_agree {s s' : State} (h : ∀ part ∈ watched, s.Agree s' part) :
    stateTables s = stateTables s' := by
  apply Tables.ext
  · intro t
    cases t with
    | deployments => exact h .deployments (by decide)
    | replicasObserved => exact h .replicasObserved (by decide)
    | routes => exact h .routes (by decide)
    | tcpRoutes => exact h .tcpRoutes (by decide)
  · exact h .replicasDesired (by decide)

variable (s : State) (ts : Option Timestamp) (idx : Nat) (p : Payload)

theorem stateTables_mutate_of_disjoint
    (h : ∀ part ∈ watched, part ∉ writes p) : stateTables (mutate s ts idx p) = stateTables s :=
  stateTables_of_agree (fun part hp => mutate_agree s ts idx p part (h part hp))

theorem stateTables_putDeployment {s : State} {d : Deployment} :
    (stateTables s).set .deployments (s.deployments.apply d) =
      stateTables { s with deployments := s.deployments.apply d } := by
  apply Tables.ext
  · intro t
    cases t <;> rfl
  · rfl

theorem stateTables_mutate :
    (opsOf rank (stateTables s) ts idx p).foldl Tables.apply (stateTables s) = stateTables (mutate s ts idx p) := by
  cases p with
  | deploymentApply da => exact stateTables_applyDeployment
  | deploymentDelete name => exact stateTables_deleteDeployment s name ts idx
  | deploymentRollback deployment revision =>
    have hget : ((stateTables s).store .deployments).get deployment = s.deployments.get deployment := rfl
    cases hd : s.deployments.get deployment with
    | none => simp only [opsOf, mutate, hget.trans hd, hd, foldl_nil]
    | some d =>
      simp only [opsOf, mutate, hget.trans hd, hd]
      exact stateTables_putDeployment
  | deploymentStatusUpdate u =>
    have hget : ((stateTables s).store .deployments).get u.deployment = s.deployments.get u.deployment := rfl
    cases hd : s.deployments.get u.deployment with
    | none => simp only [opsOf, mutate, hget.trans hd, hd, foldl_nil]
    | some d =>
      simp only [opsOf, mutate, hget.trans hd, hd]
      exact stateTables_putDeployment
  | routeRemove domain =>
    rw [opsOf, foldl_dropWhere (T := stateTables s) (U := stateTables s) .routes _ rfl]
    apply Tables.ext
    · intro t
      cases t <;> rfl
    · rfl
  | replicaDesiredUpsert r => cases r <;> rfl
  | replicaDesiredRemove id =>
    apply Tables.ext
    · intro t
      cases t <;> rfl
    · rfl
  | replicaObservedUpdate r =>
    apply Tables.ext
    · intro t
      cases r <;> cases t <;> rfl
    · cases r <;> rfl
  | routeUpsert r =>
    apply Tables.ext
    · intro t
      cases r <;> cases t <;> rfl
    · cases r <;> rfl
  | _ => exact (stateTables_mutate_of_disjoint s ts idx _ (by simp [watched, writes])).symm

theorem foldl_opsOf (T : Tables) (rank' : String → Nat) :
    (opsOf rank T ts idx p).foldl Tables.apply T = (opsOf rank' T ts idx p).foldl Tables.apply T := by
  have hstate : stateTables { State.new with
      deployments := T.store .deployments, replicasObserved := T.store .replicasObserved, routes := T.store .routes,
      tcpRoutes := T.store .tcpRoutes, replicasDesired := T.desired } = T :=
    Tables.ext (fun t => by cases t <;> rfl) rfl
  rw [← hstate, stateTables_mutate, stateTables_mutate]

def applyEntryOps (idx : Nat) (T : Tables) (e : Entry) : Tables :=
  (opsOf (fun _ => 0) T e.ts idx e.payload).foldl Tables.apply T

theorem stateTables_applyEntry {idx : Nat} {s : State} {e : Entry} :
    stateTables (applyEntry idx s e) = applyEntryOps idx (stateTables s) e := by
  rw [applyEntryOps, stateTables_mutate]
  apply stateTables_of_agree
  intro part hp
  apply applyEntry_agree_mutate
  rintro rfl
  simp [watched] at hp

theorem stateTables_apply (idx : Nat) (s : State) (c : Command) :
    stateTables (c.apply idx s) = c.entries.foldl (applyEntryOps idx) (stateTables s) := by
  rw [Command.apply_eq_foldl]
  generalize c.entries = es
  induction es generalizing s with
  | nil => rfl
  | cons e es ih => rw [foldl_cons, foldl_cons, ih, stateTables_applyEntry]

end Jaco.Watch
