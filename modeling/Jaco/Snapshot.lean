import Jaco.Fsm

namespace Jaco

open Store

structure FSMSnapshot where
  cluster : Option ClusterMeta
  nodes : List Node
  deployments : List Deployment
  replicasDesired : List ReplicaDesired
  replicasObserved : List ReplicaObserved
  routes : List Route
  tcpRoutes : List TCPRoute
  certs : List Cert
  certBlobs : List CertBlob
  challengeTokens : List ChallengeToken
  tokens : List Token
  joinTokens : List JoinToken
  subnets : List Subnet
  rolloutPlans : List RolloutPlan
  replicaCounters : List ReplicaCounter
  restartCounters : List RestartCounter
  auditEvents : List AuditEvent
  registryCredentials : List RegistryCredential

def State.snapshot (s : State) : FSMSnapshot where
  cluster := s.cluster
  nodes := s.nodes.list
  deployments := s.deployments.list
  replicasDesired := s.replicasDesired.list
  replicasObserved := s.replicasObserved.list
  routes := s.routes.list
  tcpRoutes := s.tcpRoutes.list
  certs := s.certs.list
  certBlobs := s.certBlobs.list
  challengeTokens := s.challengeTokens.list
  tokens := s.tokens.list
  joinTokens := s.joinTokens.list
  subnets := s.subnets.list
  rolloutPlans := s.rolloutPlans.list
  replicaCounters := s.replicaCounters.list
  restartCounters := s.restartCounters.list
  auditEvents := s.auditEvents
  registryCredentials := s.registryCredentials.list

/-- A snapshot of `s` up to the order in which each store's map was iterated. -/
structure State.Snapshots (s : State) (snap : FSMSnapshot) : Prop where
  cluster : snap.cluster = s.cluster
  nodes : snap.nodes.Perm s.nodes.list
  deployments : snap.deployments.Perm s.deployments.list
  replicasDesired : snap.replicasDesired.Perm s.replicasDesired.list
  replicasObserved : snap.replicasObserved.Perm s.replicasObserved.list
  routes : snap.routes.Perm s.routes.list
  tcpRoutes : snap.tcpRoutes.Perm s.tcpRoutes.list
  certs : snap.certs.Perm s.certs.list
  certBlobs : snap.certBlobs.Perm s.certBlobs.list
  challengeTokens : snap.challengeTokens.Perm s.challengeTokens.list
  tokens : snap.tokens.Perm s.tokens.list
  joinTokens : snap.joinTokens.Perm s.joinTokens.list
  subnets : snap.subnets.Perm s.subnets.list
  rolloutPlans : snap.rolloutPlans.Perm s.rolloutPlans.list
  replicaCounters : snap.replicaCounters.Perm s.replicaCounters.list
  restartCounters : snap.restartCounters.Perm s.restartCounters.list
  auditEvents : snap.auditEvents = s.auditEvents
  registryCredentials : snap.registryCredentials.Perm s.registryCredentials.list

theorem State.snapshots_snapshot {s : State} : s.Snapshots s.snapshot := by
  constructor <;> first | exact List.Perm.refl _ | rfl

def State.restore (t : State) (snap : FSMSnapshot) : State where
  cluster := snap.cluster.or t.cluster
  nodes := t.nodes.applyAll snap.nodes
  deployments := t.deployments.applyAll snap.deployments
  replicasDesired := t.replicasDesired.applyAll snap.replicasDesired
  replicasObserved := t.replicasObserved.applyAll snap.replicasObserved
  routes := t.routes.applyAll snap.routes
  tcpRoutes := t.tcpRoutes.applyAll snap.tcpRoutes
  certs := t.certs.applyAll snap.certs
  certBlobs := t.certBlobs.applyAll snap.certBlobs
  challengeTokens := t.challengeTokens.applyAll snap.challengeTokens
  tokens := t.tokens.applyAll snap.tokens
  joinTokens := t.joinTokens.applyAll snap.joinTokens
  subnets := t.subnets.applyAll snap.subnets
  rolloutPlans := t.rolloutPlans.applyAll snap.rolloutPlans
  replicaCounters := t.replicaCounters.applyAll snap.replicaCounters
  restartCounters := t.restartCounters.applyAll snap.restartCounters
  auditEvents := t.auditEvents ++ snap.auditEvents
  registryCredentials := t.registryCredentials.applyAll snap.registryCredentials

namespace Store

variable {α : Type} {keyFn : α → String}

def Covers (s t : Store α keyFn) : Prop := ∀ k, t.get k ≠ none → s.get k ≠ none

theorem applyAll_eq_iff {s t : Store α keyFn} {l : List α} (hl : l.Perm s.list) : t.applyAll l = s ↔ s.Covers t := by
  constructor
  · intro h k ht hs
    have hk := get_applyAll_perm s t l hl k
    rw [h, hs, Option.none_or] at hk
    exact ht hk.symm
  · intro h
    apply ext
    intro k
    rw [get_applyAll_perm s t l hl k]
    cases hs : s.get k with
    | some v => rfl
    | none =>
      rw [Option.none_or]
      by_contra ht
      exact h k ht hs

end Store

/-- Every key of `t` is also a key of `s`, and `t` holds no audit event and no cluster record `s` lacks. -/
structure State.Overwrites (s t : State) : Prop where
  cluster : s.cluster = none → t.cluster = none
  nodes : s.nodes.Covers t.nodes
  deployments : s.deployments.Covers t.deployments
  replicasDesired : s.replicasDesired.Covers t.replicasDesired
  replicasObserved : s.replicasObserved.Covers t.replicasObserved
  routes : s.routes.Covers t.routes
  tcpRoutes : s.tcpRoutes.Covers t.tcpRoutes
  certs : s.certs.Covers t.certs
  certBlobs : s.certBlobs.Covers t.certBlobs
  challengeTokens : s.challengeTokens.Covers t.challengeTokens
  tokens : s.tokens.Covers t.tokens
  joinTokens : s.joinTokens.Covers t.joinTokens
  subnets : s.subnets.Covers t.subnets
  rolloutPlans : s.rolloutPlans.Covers t.rolloutPlans
  replicaCounters : s.replicaCounters.Covers t.replicaCounters
  restartCounters : s.restartCounters.Covers t.restartCounters
  auditEvents : t.auditEvents = []
  registryCredentials : s.registryCredentials.Covers t.registryCredentials

theorem cluster_or_eq_iff {c d : Option ClusterMeta} : c.or d = c ↔ (c = none → d = none) := by
  cases c <;> simp

theorem State.restore_eq_iff {s t : State} {snap : FSMSnapshot} (h : s.Snapshots snap) :
    t.restore snap = s ↔ s.Overwrites t := by
  constructor
  · intro he
    have hf {β : Type} (f : State → β) : f (t.restore snap) = f s := congrArg f he
    constructor
    · exact cluster_or_eq_iff.mp (by rw [← h.cluster]; exact (hf State.cluster).trans h.cluster.symm)
    · exact (applyAll_eq_iff h.nodes).mp (hf State.nodes)
    · exact (applyAll_eq_iff h.deployments).mp (hf State.deployments)
    · exact (applyAll_eq_iff h.replicasDesired).mp (hf State.replicasDesired)
    · exact (applyAll_eq_iff h.replicasObserved).mp (hf State.replicasObserved)
    · exact (applyAll_eq_iff h.routes).mp (hf State.routes)
    · exact (applyAll_eq_iff h.tcpRoutes).mp (hf State.tcpRoutes)
    · exact (applyAll_eq_iff h.certs).mp (hf State.certs)
    · exact (applyAll_eq_iff h.certBlobs).mp (hf State.certBlobs)
    · exact (applyAll_eq_iff h.challengeTokens).mp (hf State.challengeTokens)
    · exact (applyAll_eq_iff h.tokens).mp (hf State.tokens)
    · exact (applyAll_eq_iff h.joinTokens).mp (hf State.joinTokens)
    · exact (applyAll_eq_iff h.subnets).mp (hf State.subnets)
    · exact (applyAll_eq_iff h.rolloutPlans).mp (hf State.rolloutPlans)
    · exact (applyAll_eq_iff h.replicaCounters).mp (hf State.replicaCounters)
    · exact (applyAll_eq_iff h.restartCounters).mp (hf State.restartCounters)
    · have ha : t.auditEvents ++ snap.auditEvents = s.auditEvents := hf State.auditEvents
      rw [h.auditEvents] at ha
      exact List.append_left_eq_self.mp ha
    · exact (applyAll_eq_iff h.registryCredentials).mp (hf State.registryCredentials)
  · intro ho
    have hc : snap.cluster.or t.cluster = s.cluster := by
      rw [h.cluster]
      exact cluster_or_eq_iff.mpr ho.cluster
    have ha : t.auditEvents ++ snap.auditEvents = s.auditEvents := by
      rw [ho.auditEvents, h.auditEvents, List.nil_append]
    simp only [State.restore, hc, ha, (applyAll_eq_iff h.nodes).mpr ho.nodes,
      (applyAll_eq_iff h.deployments).mpr ho.deployments,
      (applyAll_eq_iff h.replicasDesired).mpr ho.replicasDesired,
      (applyAll_eq_iff h.replicasObserved).mpr ho.replicasObserved,
      (applyAll_eq_iff h.routes).mpr ho.routes,
      (applyAll_eq_iff h.tcpRoutes).mpr ho.tcpRoutes,
      (applyAll_eq_iff h.certs).mpr ho.certs,
      (applyAll_eq_iff h.certBlobs).mpr ho.certBlobs,
      (applyAll_eq_iff h.challengeTokens).mpr ho.challengeTokens,
      (applyAll_eq_iff h.tokens).mpr ho.tokens,
      (applyAll_eq_iff h.joinTokens).mpr ho.joinTokens,
      (applyAll_eq_iff h.subnets).mpr ho.subnets,
      (applyAll_eq_iff h.rolloutPlans).mpr ho.rolloutPlans,
      (applyAll_eq_iff h.replicaCounters).mpr ho.replicaCounters,
      (applyAll_eq_iff h.restartCounters).mpr ho.restartCounters,
      (applyAll_eq_iff h.registryCredentials).mpr ho.registryCredentials]

theorem replay_append (s : State) (L₁ L₂ : List Log) : replay s (L₁ ++ L₂) = replay (replay s L₁) L₂ :=
  List.foldl_append

theorem restore_then_replay_iff (L₁ : List Log) (t : State) (snap : FSMSnapshot)
    (hsnap : (replay .new L₁).Snapshots snap) :
    (t.restore snap = replay .new L₁ ∧
      ∀ L₂, replay (t.restore snap) L₂ = replay .new (L₁ ++ L₂)) ↔ (replay .new L₁).Overwrites t := by
  rw [← State.restore_eq_iff hsnap]
  constructor
  · exact And.left
  · intro h
    refine ⟨h, ?_⟩
    intro L₂
    rw [h, replay_append]

def joinEntry (hostname : String) : Entry :=
  ⟨"operator", some 0, .nodeJoin ⟨hostname, "10.0.0.1:7000", [], [], ""⟩⟩

def reportEntry (state : ReplicaState) : Entry :=
  ⟨"node-a", some 0, .replicaObservedUpdate (some { id := "shop-web-0", state := state })⟩

theorem restore_lagging_node :
    let t := replay .new [⟨1, some (.single (reportEntry .pending))⟩]
    let L₁ : List Log := [⟨1, some (.single (reportEntry .pending))⟩, ⟨2, some (.single (joinEntry "b"))⟩,
      ⟨3, some (.single (reportEntry .running))⟩]
    t.replicasObserved.list.length = 1 ∧ t.restore (replay .new L₁).snapshot = replay .new L₁ ∧
      ∀ L₂, replay (t.restore (replay .new L₁).snapshot) L₂ = replay .new (L₁ ++ L₂) := by
  intro t L₁
  refine ⟨by decide, (restore_then_replay_iff L₁ t _ State.snapshots_snapshot).mpr ?_⟩
  constructor
  case replicasObserved =>
    intro k hk
    rw [show (replay .new L₁).replicasObserved = (t.replicasObserved.apply _) from rfl, get_apply]
    split
    · exact nofun
    · exact hk
  all_goals first | exact fun _ => rfl | rfl | exact fun k h => absurd (get_empty k) h

theorem restore_keeps_removed_node : (replay .new [⟨1, some (.single (joinEntry "b"))⟩]).restore
        (replay .new [⟨1, some (.single (joinEntry "b"))⟩,
          ⟨2, some (.single ⟨"operator", some 0, .nodeRemove "b"⟩)⟩]).snapshot ≠
      replay .new [⟨1, some (.single (joinEntry "b"))⟩,
        ⟨2, some (.single ⟨"operator", some 0, .nodeRemove "b"⟩)⟩] := by
  intro h
  have hb := congrArg (fun s : State => s.nodes.get "b") h
  revert hb
  decide

end Jaco
