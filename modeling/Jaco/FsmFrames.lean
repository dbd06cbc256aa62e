import Jaco.Fsm

namespace Jaco

open List Store

inductive Part where
  | nodes | deployments | replicasDesired | replicasObserved | routes | tcpRoutes | certs | certBlobs
  | challengeTokens | tokens | joinTokens | subnets | rolloutPlans | replicaCounters | restartCounters
  | registryCredentials | auditEvents | cluster
  deriving DecidableEq

def State.Agree (s t : State) : Part → Prop
  | .nodes => s.nodes = t.nodes
  | .deployments => s.deployments = t.deployments
  | .replicasDesired => s.replicasDesired = t.replicasDesired
  | .replicasObserved => s.replicasObserved = t.replicasObserved
  | .routes => s.routes = t.routes
  | .tcpRoutes => s.tcpRoutes = t.tcpRoutes
  | .certs => s.certs = t.certs
  | .certBlobs => s.certBlobs = t.certBlobs
  | .challengeTokens => s.challengeTokens = t.challengeTokens
  | .tokens => s.tokens = t.tokens
  | .joinTokens => s.joinTokens = t.joinTokens
  | .subnets => s.subnets = t.subnets
  | .rolloutPlans => s.rolloutPlans = t.rolloutPlans
  | .replicaCounters => s.replicaCounters = t.replicaCounters
  | .restartCounters => s.restartCounters = t.restartCounters
  | .registryCredentials => s.registryCredentials = t.registryCredentials
  | .auditEvents => s.auditEvents = t.auditEvents
  | .cluster => s.cluster = t.cluster

theorem State.Agree.refl (s : State) (part : Part) : s.Agree s part := by
  cases part <;> rfl

theorem State.Agree.trans {s t u : State} {part : Part} (h : s.Agree t part) (h' : t.Agree u part) :
    s.Agree u part := by
  cases part <;> exact Eq.trans h h'

def writes : Payload → List Part
  | .clusterInit _ => [.cluster, .tokens, .nodes]
  | .nodeJoin _ | .nodeStatusUpdate _ | .nodeUpdateSelf _ => [.nodes]
  | .nodeRemove _ => [.nodes, .subnets]
  | .deploymentApply _ => [.deployments, .rolloutPlans, .routes, .tcpRoutes]
  | .deploymentRollback _ _ | .deploymentStatusUpdate _ => [.deployments]
  | .deploymentDelete _ => [.routes, .tcpRoutes, .replicasDesired, .replicasObserved, .restartCounters, .rolloutPlans,
      .subnets, .deployments]
  | .replicaDesiredUpsert _ => [.replicasDesired]
  | .replicaDesiredRemove _ => [.replicasDesired, .replicasObserved, .restartCounters]
  | .replicaObservedUpdate _ => [.replicasObserved]
  | .rolloutPlanUpdate _ => [.rolloutPlans]
  | .replicaCounterIncrement _ _ => [.replicaCounters]
  | .restartCounterUpdate _ _ => [.restartCounters]
  | .routeUpsert _ | .routeRemove _ => [.routes]
  | .certLock _ | .certUnlock _ => [.certs]
  | .challengeTokenStore _ => [.challengeTokens]
  | .certBlobUpsert _ | .certBlobRemove _ => [.certBlobs]
  | .subnetAllocate _ | .subnetFree _ => [.subnets]
  | .tokenIssue _ | .tokenRevoke _ => [.tokens]
  | .joinTokenIssue _ | .joinTokenConsume _ => [.joinTokens]
  | .auditAppend _ => [.auditEvents]
  | .registryCredentialUpsert _ | .registryCredentialRemove _ => [.registryCredentials]
  | .replicaCommandIssue _ _ | .certStore _ _ _ | .missing => []

theorem removeReplicasOf_agree (name : String) (s : State) (part : Part)
    (h : part ∉ [Part.replicasDesired, .replicasObserved, .restartCounters]) :
    (s.removeReplicasOf name).Agree s part := by
  unfold State.removeReplicasOf
  generalize s.replicasDesired.list.filter (·.deployment = name) = l
  induction l generalizing s with
  | nil => exact State.Agree.refl s part
  | cons r l ih =>
    rw [foldl_cons]
    refine (ih (s.removeReplicaDesired r.id)).trans ?_
    cases part <;> first | rfl | exact absurd h (by decide)

theorem replicasDesired_removeReplicasOf (s : State) (name : String) :
    (s.removeReplicasOf name).replicasDesired = s.replicasDesired.removeWhere (·.deployment = name) := by
  unfold State.removeReplicasOf removeWhere removeOver
  rw [foldl_filter]
  generalize s.replicasDesired.list = l
  induction l generalizing s with
  | nil => rfl
  | cons r l ih =>
    rw [foldl_cons, foldl_cons, ih]
    congr 1
    by_cases hr : r.deployment = name
    · simp [hr, State.removeReplicaDesired]
    · simp [hr]

theorem deployments_removeReplicasOf (s : State) (name : String) :
    (s.removeReplicasOf name).deployments = s.deployments :=
  removeReplicasOf_agree name s .deployments (by decide)

theorem rolloutPlans_removeReplicasOf (s : State) (name : String) :
    (s.removeReplicasOf name).rolloutPlans = s.rolloutPlans :=
  removeReplicasOf_agree name s .rolloutPlans (by decide)

theorem subnets_removeReplicasOf (s : State) (name : String) : (s.removeReplicasOf name).subnets = s.subnets :=
  removeReplicasOf_agree name s .subnets (by decide)

theorem deleteDeployment_agree {name : String} (s : State) {part : Part}
    (h : part ∉ writes (.deploymentDelete name)) : (deleteDeployment s name).Agree s part := by
  have hr := removeReplicasOf_agree name { s with
      routes := s.routes.removeWhere (·.deployment = name)
      tcpRoutes := s.tcpRoutes.removeWhere (·.deployment = name) } part
  cases part <;> first | (simp [writes] at h; done) | exact hr (by decide)

theorem mutate_agree (s : State) (ts : Option Timestamp) (idx : Nat) (p : Payload) (part : Part)
    (h : part ∉ writes p) : (mutate s ts idx p).Agree s part := by
  cases p with
  | deploymentDelete name => exact deleteDeployment_agree s h
  | nodeStatusUpdate _ | nodeUpdateSelf _ | deploymentRollback _ _ | deploymentStatusUpdate _
  | certUnlock _ | certBlobRemove _
  | subnetFree _ | tokenRevoke _ | joinTokenConsume _ | registryCredentialRemove _ =>
    simp only [mutate, updateNodeStatus, updateNodeSelf, unlockCert, freeSubnets]
    split <;> cases part <;> first | rfl | simp [writes] at h
  | certLock l =>
    simp only [mutate, lockCert]
    split
    · cases part <;> first | rfl | simp [writes] at h
    · split <;> cases part <;> first | rfl | simp [writes] at h
  | registryCredentialUpsert c =>
    cases c with
    | none => exact State.Agree.refl s part
    | some c =>
      simp only [mutate, upsertCredential]
      split <;> cases part <;> first | rfl | simp [writes] at h
  | restartCounterUpdate _ r | replicaDesiredUpsert r | replicaObservedUpdate r | rolloutPlanUpdate r | routeUpsert r
  | challengeTokenStore r | certBlobUpsert r | auditAppend r =>
    cases r <;> cases part <;> first | rfl | simp [writes] at h
  | _ => cases part <;> first | rfl | simp [writes] at h

theorem applyEntry_agree_mutate (idx : Nat) (s : State) (e : Entry) (part : Part) (h : part ≠ .auditEvents) :
    (applyEntry idx s e).Agree (mutate s e.ts idx e.payload) part := by
  unfold applyEntry applyPayload
  dsimp only
  split
  · cases part <;> first | rfl | exact absurd rfl h
  · exact State.Agree.refl _ part

theorem applyEntry_deployments (idx : Nat) (s : State) (e : Entry) :
    (applyEntry idx s e).deployments = (mutate s e.ts idx e.payload).deployments :=
  applyEntry_agree_mutate idx s e .deployments (by decide)

theorem applyEntry_rolloutPlans (idx : Nat) (s : State) (e : Entry) :
    (applyEntry idx s e).rolloutPlans = (mutate s e.ts idx e.payload).rolloutPlans :=
  applyEntry_agree_mutate idx s e .rolloutPlans (by decide)

theorem applyEntry_replicasDesired (idx : Nat) (s : State) (e : Entry) :
    (applyEntry idx s e).replicasDesired = (mutate s e.ts idx e.payload).replicasDesired :=
  applyEntry_agree_mutate idx s e .replicasDesired (by decide)

theorem applyEntry_agree (idx : Nat) (s : State) (e : Entry) (part : Part) (hp : part ∉ writes e.payload)
    (h : part ≠ .auditEvents) : (applyEntry idx s e).Agree s part :=
  (applyEntry_agree_mutate idx s e part h).trans (mutate_agree s e.ts idx e.payload part hp)

section Tables

variable {idx : Nat} {s : State} {e : Entry}

theorem get_replicasDesired_entry {id : String} {r : ReplicaDesired}
    (h : (applyEntry idx s e).replicasDesired.get id = some r) :
    s.replicasDesired.get id = some r ∨
      ∃ r₀, e.payload = .replicaDesiredUpsert (some r₀) ∧ r = { r₀ with raftIndex := idx } := by
  rw [applyEntry_replicasDesired] at h
  by_cases hw : Part.replicasDesired ∈ writes e.payload
  · generalize e.payload = p at h hw
    cases p with
    | deploymentDelete name =>
      simp only [mutate, deleteDeployment, replicasDesired_removeReplicasOf] at h
      exact .inl (get_of_removeWhere h)
    | replicaDesiredRemove id' => exact .inl (get_of_remove h)
    | replicaDesiredUpsert r' =>
      cases r' with
      | none => exact .inl h
      | some r' => exact (eq_or_get_of_apply h).symm.imp_right (fun hr => ⟨r', rfl, hr⟩)
    | _ => simp [writes] at hw
  · rw [show (mutate s e.ts idx e.payload).replicasDesired = s.replicasDesired from
      mutate_agree s e.ts idx e.payload .replicasDesired hw] at h
    exact .inl h

theorem get_rolloutPlans_entry {key : String} {plan : RolloutPlan}
    (h : (applyEntry idx s e).rolloutPlans.get key = some plan) :
    s.rolloutPlans.get key = some plan ∨ e.payload = .rolloutPlanUpdate (some plan) := by
  rw [applyEntry_rolloutPlans] at h
  by_cases hw : Part.rolloutPlans ∈ writes e.payload
  · generalize e.payload = p at h hw
    cases p with
    | deploymentApply da => exact .inl (get_of_removeWhere h)
    | deploymentDelete name =>
      simp only [mutate, deleteDeployment, rolloutPlans_removeReplicasOf] at h
      exact .inl (get_of_removeWhere h)
    | rolloutPlanUpdate plan' =>
      cases plan' with
      | none => exact .inl h
      | some plan' => exact (eq_or_get_of_apply h).symm.imp_right (fun hplan => by rw [hplan])
    | _ => simp [writes] at hw
  · rw [show (mutate s e.ts idx e.payload).rolloutPlans = s.rolloutPlans from
      mutate_agree s e.ts idx e.payload .rolloutPlans hw] at h
    exact .inl h

theorem get_subnets_entry {key : String} {sn : Subnet} (h : (applyEntry idx s e).subnets.get key = some sn) :
    s.subnets.get key = some sn ∨
      ∃ sa, e.payload = .subnetAllocate sa ∧ sn = ⟨sa.deployment, sa.network, sa.cidr, e.ts, sa.host⟩ := by
  rw [show (applyEntry idx s e).subnets = (mutate s e.ts idx e.payload).subnets from
    applyEntry_agree_mutate idx s e .subnets (by decide)] at h
  by_cases hw : Part.subnets ∈ writes e.payload
  · generalize e.payload = p at h hw
    cases p with
    | nodeRemove hostname => exact .inl (get_of_removeWhere h)
    | deploymentDelete name =>
      simp only [mutate, deleteDeployment, subnets_removeReplicasOf] at h
      exact .inl (get_of_removeWhere h)
    | subnetAllocate sa => exact (eq_or_get_of_apply h).symm.imp_right (fun hsn => ⟨sa, rfl, hsn⟩)
    | subnetFree sf =>
      simp only [mutate, freeSubnets] at h
      split at h
      · exact .inl (get_of_remove h)
      · exact .inl (get_of_removeWhere h)
    | _ => simp [writes] at hw
  · rw [show (mutate s e.ts idx e.payload).subnets = s.subnets from
      mutate_agree s e.ts idx e.payload .subnets hw] at h
    exact .inl h

end Tables

mutual

theorem Command.apply_eq_foldl (idx : Nat) (s : State) (c : Command) :
    c.apply idx s = c.entries.foldl (applyEntry idx) s := by
  cases c with
  | absent => rw [Command.apply, Command.entries]; rfl
  | single e => rw [Command.apply, Command.entries]; rfl
  | batch identity ts cs => rw [Command.apply, Command.entries, applyChildren_eq_foldl]

theorem applyChildren_eq_foldl (idx : Nat) (s : State) (cs : List Command) :
    applyChildren idx s cs = (entriesOf cs).foldl (applyEntry idx) s := by
  cases cs with
  | nil => rw [applyChildren, entriesOf]; rfl
  | cons c cs =>
    rw [applyChildren, entriesOf, foldl_append, Command.apply_eq_foldl idx s c, applyChildren_eq_foldl idx _ cs]

end

theorem Command.apply_keeps {Q : State → Prop} {G : Payload → Prop}
    (h : ∀ idx s e, G e.payload → Q s → Q (applyEntry idx s e)) (idx : Nat) (c : Command)
    (hc : ∀ e ∈ c.entries, G e.payload) (s : State) (hs : Q s) : Q (c.apply idx s) := by
  rw [Command.apply_eq_foldl]
  generalize c.entries = es at hc ⊢
  induction es generalizing s with
  | nil => exact hs
  | cons e es ih =>
    exact ih _ (h idx s e (hc e mem_cons_self) hs) (fun e' he' => hc e' (mem_cons_of_mem e he'))

theorem replay_keeps {Q : State → Prop} {G : Payload → Prop}
    (h : ∀ idx s e, G e.payload → Q s → Q (applyEntry idx s e)) (logs : List Log)
    (hl : ∀ l ∈ logs, ∀ c ∈ l.data, ∀ e ∈ c.entries, G e.payload) (s : State) (hs : Q s) : Q (replay s logs) := by
  induction logs generalizing s with
  | nil => exact hs
  | cons l logs ih =>
    refine ih (fun l' hl' => hl l' (mem_cons_of_mem l hl')) (l.apply s) ?_
    unfold Log.apply
    split
    · exact hs
    · rename_i c hc
      exact Command.apply_keeps h l.index c (hl l mem_cons_self c hc) s hs

theorem batch_applies_leaves (s : State) (i : Nat) (identity : String) (ts : Option Timestamp)
    (children : List Command) :
    Log.apply s ⟨i, some (.batch identity ts children)⟩ =
      replay s ((Command.batch identity ts children).entries.map fun e => ⟨i, some (.single e)⟩) := by
  have hleaf : ∀ (t : State) (e : Entry), Log.apply t ⟨i, some (.single e)⟩ = applyEntry i t e := by
    intro t e
    simp only [Log.apply, Command.apply_eq_foldl, entries_single, foldl_cons, foldl_nil]
  simp only [replay, foldl_map, hleaf]
  exact Command.apply_eq_foldl i s (.batch identity ts children)

def NoApply (D : String) : Payload → Prop
  | .deploymentApply da => da.deployment ≠ D
  | _ => True

inductive Retouched (D : String) (p : Payload) (d₀ : Deployment) : Deployment → Prop where
  | same : Retouched D p d₀ d₀
  | status (st : DeploymentStatus) (details : StringMap) :
      Retouched D p d₀ { d₀ with status := st, statusDetails := details }
  | rollback (revision : Nat) (ts : Option Timestamp) (h : p = .deploymentRollback D revision) :
      Retouched D p d₀
        { d₀ with appliedRevision := revision, previousRevision := d₀.appliedRevision, updatedAt := ts }

theorem retouched_mutate {s : State} {ts : Option Timestamp} {idx : Nat} {p : Payload} {D : String}
    (h : NoApply D p) {d : Deployment} (hd : (mutate s ts idx p).deployments.get D = some d) :
    ∃ d₀, s.deployments.get D = some d₀ ∧ Retouched D p d₀ d := by
  by_cases hw : Part.deployments ∈ writes p
  · cases p with
    | deploymentApply da =>
      have hne : da.deployment ≠ D := h
      simp only [mutate, applyDeployment, get_apply, if_neg hne] at hd
      exact ⟨d, hd, .same⟩
    | deploymentRollback name revision =>
      simp only [mutate] at hd
      split at hd
      · exact ⟨d, hd, .same⟩
      · rename_i existing he
        have hk : existing.name = name := get_key he
        simp only [get_apply] at hd
        split at hd
        · rename_i hname
          have hD : name = D := hk.symm.trans hname
          subst hD
          cases hd
          exact ⟨existing, he, .rollback revision ts rfl⟩
        · exact ⟨d, hd, .same⟩
    | deploymentDelete name =>
      simp only [mutate, deleteDeployment, deployments_removeReplicasOf] at hd
      exact ⟨d, get_of_remove hd, .same⟩
    | deploymentStatusUpdate u =>
      simp only [mutate] at hd
      split at hd
      · exact ⟨d, hd, .same⟩
      · rename_i existing he
        have hk : existing.name = u.deployment := get_key he
        simp only [get_apply] at hd
        split at hd
        · rename_i hname
          cases hd
          exact ⟨existing, by rw [← hname, hk]; exact he, .status u.status u.details⟩
        · exact ⟨d, hd, .same⟩
    | _ => simp [writes] at hw
  · have he : (mutate s ts idx p).deployments = s.deployments := mutate_agree s ts idx p .deployments hw
    rw [he] at hd
    exact ⟨d, hd, .same⟩

theorem retouched_entry (idx : Nat) (s : State) (e : Entry) {D : String} (h : NoApply D e.payload)
    {d : Deployment} (hd : (applyEntry idx s e).deployments.get D = some d) :
    ∃ d₀, s.deployments.get D = some d₀ ∧ Retouched D e.payload d₀ d := by
  rw [applyEntry_deployments] at hd
  exact retouched_mutate h hd

theorem get_deployments_entry (idx : Nat) (s : State) (e : Entry) {D : String} (h : NoApply D e.payload)
    {d : Deployment} (hd : (applyEntry idx s e).deployments.get D = some d) :
    ∃ d₀, s.deployments.get D = some d₀ ∧ d.composeYaml = d₀.composeYaml ∧ d.services = d₀.services := by
  obtain ⟨d₀, hd₀, ht⟩ := retouched_entry idx s e h hd
  refine ⟨d₀, hd₀, ?_⟩
  cases ht with
  | same => exact ⟨rfl, rfl⟩
  | status st details => exact ⟨rfl, rfl⟩
  | rollback revision ts h => exact ⟨rfl, rfl⟩

end Jaco
