import Jaco.FsmFrames

namespace Jaco

open Store List

structure CascadeOrder (s : State) where
  routes : s.routes.Listing
  tcpRoutes : s.tcpRoutes.Listing
  replicas : s.replicasDesired.Listing
  plans : s.rolloutPlans.Listing
  subnets : s.subnets.Listing

def deleteInOrder (s : State) (name : String) (o : CascadeOrder s) : State :=
  let s := { s with
    routes := removeOver (·.deployment = name) s.routes o.routes.items
    tcpRoutes := removeOver (·.deployment = name) s.tcpRoutes o.tcpRoutes.items }
  let s := (o.replicas.items.filter (·.deployment = name)).foldl (fun t r => t.removeReplicaDesired r.id) s
  { s with
    rolloutPlans := removeOver (·.deployment = name) s.rolloutPlans o.plans.items
    subnets := removeOver (·.deployment = name) s.subnets o.subnets.items
    deployments := s.deployments.remove name }

theorem removeOver_listing {α : Type} {keyFn : α → String} (p : α → Bool) (s : Store α keyFn) (l : s.Listing) :
    removeOver p s l.items = s.removeWhere p := by
  apply ext
  intro k
  rw [removeWhere, get_removeOver, get_removeOver]
  simp only [l.perm.mem_iff]

def Store.without {α : Type} {keyFn : α → String} (s : Store α keyFn) (keys : List String) : Store α keyFn :=
  keys.foldl remove s

theorem get_without {α : Type} {keyFn : α → String} (s : Store α keyFn) (keys : List String) (k : String) :
    (s.without keys).get k = if k ∈ keys then none else s.get k := by
  induction keys generalizing s with
  | nil => simp [Store.without]
  | cons key keys ih =>
    change ((s.remove key).without keys).get k = _
    rw [ih, get_remove]
    by_cases hk : key = k
    · simp [hk]
    · simp [hk, Ne.symm hk]

theorem Store.without_congr {α : Type} {keyFn : α → String} (s : Store α keyFn) {keys keys' : List String}
    (h : ∀ k, k ∈ keys ↔ k ∈ keys') : s.without keys = s.without keys' := by
  apply ext
  intro k
  rw [get_without, get_without]
  simp only [h]

theorem foldl_removeReplicaDesired (l : List ReplicaDesired) (s : State) :
    l.foldl (fun t r => t.removeReplicaDesired r.id) s =
      { s with
        replicasDesired := s.replicasDesired.without (l.map (·.id))
        replicasObserved := s.replicasObserved.without (l.map (·.id))
        restartCounters := s.restartCounters.without (l.map (·.id)) } := by
  induction l generalizing s with
  | nil => rfl
  | cons r l ih => rw [foldl_cons, ih]; rfl

theorem foldl_removeReplicaDesired_perm {l l' : List ReplicaDesired} (h : l.Perm l') (s : State) :
    l.foldl (fun t r => t.removeReplicaDesired r.id) s = l'.foldl (fun t r => t.removeReplicaDesired r.id) s := by
  have hids : ∀ k, k ∈ l.map (·.id) ↔ k ∈ l'.map (·.id) := fun k => (h.map _).mem_iff
  simp only [foldl_removeReplicaDesired, Store.without_congr _ hids]

def State.replicaIds (s : State) (name : String) : List String :=
  (s.replicasDesired.list.filter (·.deployment = name)).map (·.id)

theorem mem_replicaIds (s : State) (name k : String) :
    k ∈ s.replicaIds name ↔ ∃ r, s.replicasDesired.get k = some r ∧ r.deployment = name := by
  simp only [State.replicaIds, mem_map, mem_filter, decide_eq_true_eq, mem_list]
  constructor
  · rintro ⟨r, ⟨hr, hdep⟩, rfl⟩
    exact ⟨r, hr, hdep⟩
  · rintro ⟨r, hr, hdep⟩
    have hid := get_key hr
    exact ⟨r, ⟨by rw [hid]; exact hr, hdep⟩, hid⟩

theorem deleteDeployment_eq (s : State) (name : String) : deleteDeployment s name = { s with
        deployments := s.deployments.remove name
        routes := s.routes.removeWhere (·.deployment = name)
        tcpRoutes := s.tcpRoutes.removeWhere (·.deployment = name)
        replicasDesired := s.replicasDesired.without (s.replicaIds name)
        replicasObserved := s.replicasObserved.without (s.replicaIds name)
        restartCounters := s.restartCounters.without (s.replicaIds name)
        rolloutPlans := s.rolloutPlans.removeWhere (·.deployment = name)
        subnets := s.subnets.removeWhere (·.deployment = name) } := by
  rw [deleteDeployment, State.removeReplicasOf, foldl_removeReplicaDesired]
  rfl

theorem deleteInOrder_eq (s : State) (name : String) (o : CascadeOrder s) :
    deleteInOrder s name o = deleteDeployment s name := by
  rw [deleteDeployment_eq, deleteInOrder, foldl_removeReplicaDesired_perm (o.replicas.perm.filter _),
    foldl_removeReplicaDesired]
  simp only [removeOver_listing]
  rfl

structure Deleted (name : String) (s t : State) : Prop where
  deployments : ∀ k, t.deployments.get k = if k = name then none else s.deployments.get k
  routes : ∀ k, t.routes.get k = (s.routes.get k).filter (·.deployment ≠ name)
  tcpRoutes : ∀ k, t.tcpRoutes.get k = (s.tcpRoutes.get k).filter (·.deployment ≠ name)
  replicasDesired : ∀ k, t.replicasDesired.get k = (s.replicasDesired.get k).filter (·.deployment ≠ name)
  rolloutPlans : ∀ k, t.rolloutPlans.get k = (s.rolloutPlans.get k).filter (·.deployment ≠ name)
  subnets : ∀ k, t.subnets.get k = (s.subnets.get k).filter (·.deployment ≠ name)
  replicasObserved : ∀ k, t.replicasObserved.get k =
    if (s.replicasDesired.get k).any (·.deployment = name) then none else s.replicasObserved.get k
  restartCounters : ∀ k, t.restartCounters.get k =
    if (s.replicasDesired.get k).any (·.deployment = name) then none else s.restartCounters.get k
  others : ∀ part ∈ [Part.nodes, .certs, .certBlobs, .challengeTokens, .tokens, .joinTokens, .replicaCounters,
    .registryCredentials, .cluster], t.Agree s part

theorem mem_replicaIds_any (s : State) (name k : String) :
    k ∈ s.replicaIds name ↔ (s.replicasDesired.get k).any (·.deployment = name) = true := by
  rw [mem_replicaIds]
  cases s.replicasDesired.get k with
  | none => simp
  | some r => simp

theorem filter_not_owner {α : Type} (owner : α → String) (name : String) (v : Option α) :
    v.filter (fun x => !decide (owner x = name)) = v.filter (fun x => owner x ≠ name) := by
  simp only [ne_eq, decide_not]

theorem deleted_deleteDeployment (s : State) (name : String) : Deleted name s (deleteDeployment s name) := by
  rw [deleteDeployment_eq]
  constructor
  · intro k
    rw [get_remove]
    exact if_congr eq_comm rfl rfl
  · exact fun k => (get_removeWhere _ _ k).trans (filter_not_owner _ name _)
  · exact fun k => (get_removeWhere _ _ k).trans (filter_not_owner _ name _)
  · intro k
    simp only [get_without, mem_replicaIds_any]
    cases s.replicasDesired.get k with
    | none => simp
    | some r => by_cases hdep : r.deployment = name <;> simp [hdep, Option.filter_some]
  · exact fun k => (get_removeWhere _ _ k).trans (filter_not_owner _ name _)
  · exact fun k => (get_removeWhere _ _ k).trans (filter_not_owner _ name _)
  · intro k
    simp only [get_without, mem_replicaIds_any]
  · intro k
    simp only [get_without, mem_replicaIds_any]
  · intro part hpart
    simp only [mem_cons, not_mem_nil, or_false] at hpart
    rcases hpart with rfl | rfl | rfl | rfl | rfl | rfl | rfl | rfl | rfl <;> rfl

theorem delete_removes_exactly (idx : Nat) (s : State) (identity : String) (ts : Option Timestamp) (name : String) :
    Deleted name s (applyEntry idx s ⟨identity, ts, .deploymentDelete name⟩) ∧
      ∀ o : CascadeOrder s, deleteInOrder s name o = mutate s ts idx (.deploymentDelete name) := by
  refine ⟨?_, fun o => deleteInOrder_eq s name o⟩
  have happlied : applyEntry idx s ⟨identity, ts, .deploymentDelete name⟩ =
      (deleteDeployment s name).appendAudit ⟨idx, .delete, identity, ts, [("deployment", name)]⟩ := rfl
  have hdel := deleted_deleteDeployment s name
  rw [happlied]
  exact ⟨hdel.deployments, hdel.routes, hdel.tcpRoutes, hdel.replicasDesired, hdel.rolloutPlans, hdel.subnets,
    hdel.replicasObserved, hdel.restartCounters, fun part hpart => by
      have hsame := hdel.others part hpart
      simp only [mem_cons, not_mem_nil, or_false] at hpart
      rcases hpart with rfl | rfl | rfl | rfl | rfl | rfl | rfl | rfl | rfl <;> exact hsame⟩

end Jaco
