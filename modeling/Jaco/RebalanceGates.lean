import Jaco.Rebalance
import Jaco.Transcript
import Jaco.SchedulerOffers

namespace Jaco.Rebalance

open Interleaving Relocation List

variable {K : Type} [Field K] [LinearOrder K]

def IsAudit : Payload → Prop
  | .auditAppend _ => True
  | _ => False

structure Read (R : World → Prop) (src : Source K) (c : MoveCandidate K) : Prop where
  replica : ∃ w, R w ∧ w.state.replicasDesired.get c.replica.id = some c.replica
  hot : c.replica.host = c.src
  away : c.dst ≠ c.src
  spec : ∃ w, R w ∧ c.spec = serviceSpec c.replica w
  footprint : c.footprint = src.replicaFootprint c.replica.id
  pressures : ∃ w, R w ∧ c.srcPressure = pressureOf (sampled src (w.listing w.state.nodes)) c.src ∧
    (c.dst, c.dstPressure) ∈ sampled src (w.listing w.state.nodes)
  count : ∃ w, R w ∧ c.perHostCount = (w.listing w.state.replicasDesired).countP (fun r =>
    r.host = c.dst && r.deployment = c.replica.deployment && r.service = c.replica.service)
  fits : c.dstResourceFits = dstResourceFits c.dstPressure c.footprint

structure Gated (cfg : Config K) (c : MoveCandidate K) : Prop where
  filter : hardFilter c = .none
  dstCap : composite (postMovePressure c).2 < cfg.dstCap
  relief : cfg.reliefFloor ≤ composite c.srcPressure - composite (postMovePressure c).1

structure Cooled (r : Rebalancer K) (now : Timestamp) (id dst : String) : Prop where
  replica : ∀ t ∈ r.lastReplicaMoveAt id, r.cfg.cooldownReplica ≤ now - t
  node : ∀ t ∈ r.lastNodeMoveAt dst, r.cfg.cooldownNode ≤ now - t

structure Passes (R : World → Prop) (src : Source K) (r : Rebalancer K) (now : Timestamp) (c : MoveCandidate K) :
    Prop where
  read : Read R src c
  gated : Gated r.cfg c
  cooled : Cooled r now c.replica.id c.dst

def Rebalancer.Agrees (r r' : Rebalancer K) : Prop :=
  r'.cfg = r.cfg ∧ r'.lastReplicaMoveAt = r.lastReplicaMoveAt ∧ r'.lastNodeMoveAt = r.lastNodeMoveAt

theorem gate_none_iff (r : Rebalancer K) (now : Timestamp) (c : MoveCandidate K) :
    (gate r now c).1 = .none ↔ (∀ t ∈ r.lastNodeMoveAt c.dst, r.cfg.cooldownNode ≤ now - t) ∧ Gated r.cfg c := by
  have hcooling : (r.lastNodeMoveAt c.dst).any (fun t => now - t < r.cfg.cooldownNode) = true ↔
      ¬ ∀ t ∈ r.lastNodeMoveAt c.dst, r.cfg.cooldownNode ≤ now - t := by
    cases r.lastNodeMoveAt c.dst with
    | none => simp
    | some t => simp
  rw [gate]
  split
  · rename_i h
    exact ⟨nofun, fun hall => absurd hall.1 (hcooling.1 h)⟩
  · rename_i h
    have hcooled := not_not.1 (fun hnot => h (hcooling.2 hnot))
    split
    · rename_i hfilter
      exact ⟨fun hnone => absurd hnone hfilter, fun hall => absurd hall.2.filter hfilter⟩
    · rename_i hfilter
      split
      · rename_i hcap
        exact ⟨nofun, fun hall => absurd hall.2.dstCap (not_lt.2 hcap)⟩
      · rename_i hcap
        split
        · rename_i hrelief
          exact ⟨nofun, fun hall => absurd hrelief (not_lt.2 hall.2.relief)⟩
        · rename_i hrelief
          exact ⟨fun _ => ⟨hcooled, not_not.1 hfilter, not_le.1 hcap, not_lt.1 hrelief⟩, fun _ => rfl⟩

section Survey

variable (F : Floats K) {R : World → Prop} {src : Source K} {r : Rebalancer K} {now : Timestamp}

theorem emitAudit_audits (type : AuditEventType) (payload : StringMap) :
    Within R (Allows IsAudit) (fun _ => True) (emitAudit type payload) :=
  within_look (fun _ => within_send (allows_single trivial))

variable {hotHost : String} {nodes : List Node} {placed : List ReplicaDesired}

section Keeps

variable {samples : List (String × Snapshot K)} {rep : ReplicaDesired} {Q : List (Scored K) → Prop}
  (hQ : ∀ l s, s.c.src = hotHost → Q l → Q (l ++ [s])) {survived : List (Scored K)} (hs : Q survived)

include hQ hs

theorem weighMove_keeps {spec : Option ServiceSpec} {dst : String × Snapshot K} :
    Within R (fun _ => True) Q (weighMove F src r now hotHost samples placed rep spec survived dst) := by
  rw [weighMove]
  split
  · exact within_ret hs
  · dsimp only
    split
    · exact within_bind_any (within_trivial _) (fun _ => within_ret hs)
    · exact within_ret (hQ _ _ rfl hs)

theorem weighReplica_keeps :
    Within R (fun _ => True) Q (weighReplica F src r now hotHost samples placed survived rep) := by
  rw [weighReplica]
  split
  · exact within_ret hs
  · refine within_look (fun spec => ?_)
    split
    · exact within_bind_any (within_trivial _) (fun _ => within_ret hs)
    · refine within_look (fun dsts => ?_)
      exact within_foldlM _ dsts survived hs (fun dst _ survived' hs' => weighMove_keeps F hQ hs')

end Keeps

variable
  (hnodes : ∃ w, R w ∧ nodes = w.listing w.state.nodes)
  (hplaced : ∃ w, R w ∧ placed = w.listing w.state.replicasDesired)

include hnodes hplaced

theorem weighMove_passes {rep : ReplicaDesired} {spec : Option ServiceSpec}
    (hrep : ∃ w, R w ∧ w.state.replicasDesired.get rep.id = some rep) (hhot : rep.host = hotHost)
    (hspec : ∃ w, R w ∧ spec = serviceSpec rep w)
    (hcooled : ∀ t ∈ r.lastReplicaMoveAt rep.id, r.cfg.cooldownReplica ≤ now - t) {dst : String × Snapshot K}
    (hdst : dst ∈ sampled src nodes) {survived : List (Scored K)} (hs : ∀ s ∈ survived, Passes R src r now s.c) :
    Within R (Allows IsAudit) (fun survived => ∀ s ∈ survived, Passes R src r now s.c)
      (weighMove F src r now hotHost (sampled src nodes) placed rep spec survived dst) := by
  rw [weighMove]
  split
  · exact within_ret hs
  · rename_i haway
    dsimp only
    split
    · exact within_bind_any (emitAudit_audits _ _) (fun _ => within_ret hs)
    · rename_i hgate
      obtain ⟨hnode, hgated⟩ := (gate_none_iff r now _).1 (not_not.1 hgate)
      obtain ⟨w, hw, rfl⟩ := hnodes
      obtain ⟨v, hv, rfl⟩ := hplaced
      exact within_ret (Runs.forall_mem_snoc hs
        ⟨⟨hrep, hhot, haway, hspec, rfl, ⟨w, hw, rfl, hdst⟩, ⟨v, hv, rfl⟩, rfl⟩, hgated, hcooled, hnode⟩)

theorem weighReplica_passes {rep : ReplicaDesired}
    (hrep : ∃ w, R w ∧ w.state.replicasDesired.get rep.id = some rep) {survived : List (Scored K)}
    (hs : ∀ s ∈ survived, Passes R src r now s.c) :
    Within R (Allows IsAudit) (fun survived => ∀ s ∈ survived, Passes R src r now s.c)
      (weighReplica F src r now hotHost (sampled src nodes) placed survived rep) := by
  rw [weighReplica]
  split
  · exact within_ret hs
  · rename_i hhot
    refine within_bind (within_read (Q := fun spec => ∃ w, R w ∧ spec = serviceSpec rep w) _
      (fun w hw => ⟨w, hw, rfl⟩)) (fun spec hspec => ?_)
    split
    · exact within_bind_any (emitAudit_audits _ _) (fun _ => within_ret hs)
    · rename_i hcooling
      have hcooled : ∀ t ∈ r.lastReplicaMoveAt rep.id, r.cfg.cooldownReplica ≤ now - t := by
        intro t ht
        rw [Option.mem_def] at ht
        simpa [ht] using hcooling
      refine within_bind (within_read (Q := fun dsts => ∀ dst ∈ dsts, dst ∈ sampled src nodes) _
        (fun w _ dst hdst => (perm_insertionSort _ _).mem_iff.1 hdst)) (fun dsts hdsts => ?_)
      exact within_foldlM _ dsts survived hs (fun dst hdst survived' hs' =>
        weighMove_passes F hnodes hplaced hrep (not_not.1 hhot) hspec hcooled (hdsts dst hdst) hs')

end Survey

theorem survey_passes (F : Floats K) {R : World → Prop} (src : Source K) (r : Rebalancer K) (now : Timestamp) :
    Within R (Allows IsAudit) (fun res => r.Agrees res.1 ∧ ∀ s ∈ res.2, Passes R src r now s.c)
      (survey F src r now) := by
  have hnone : ∀ r' : Rebalancer K, r.Agrees r' → r.Agrees (r', (none : Option (Scored K))).1 ∧
      ∀ s ∈ (r', (none : Option (Scored K))).2, Passes R src r now s.c :=
    fun r' h => ⟨h, fun s hs => by cases hs⟩
  refine within_bind (within_read (Q := fun nodes => ∃ w, R w ∧ nodes = w.listing w.state.nodes) _
    (fun w hw => ⟨w, hw, rfl⟩)) (fun nodes hnodes => ?_)
  dsimp only
  split
  · exact within_ret (hnone _ ⟨rfl, rfl, rfl⟩)
  · refine within_look (fun hosts => ?_)
    split
    · exact within_ret (hnone _ ⟨rfl, rfl, rfl⟩)
    · split
      · exact within_ret (hnone _ ⟨rfl, rfl, rfl⟩)
      · refine within_bind (within_read (Q := fun placed => ∃ w, R w ∧ placed = w.listing w.state.replicasDesired) _
          (fun w hw => ⟨w, hw, rfl⟩)) (fun placed hplaced => ?_)
        refine within_bind (within_read (Q := fun replicas => ∀ rep ∈ replicas,
          ∃ w, R w ∧ w.state.replicasDesired.get rep.id = some rep) _
          (fun w hw rep hrep => ⟨w, hw, (mem_listing w _ rep).1 hrep⟩)) (fun replicas hreplicas => ?_)
        refine within_bind (within_foldlM _ replicas [] nofun (fun rep hrep survived hs =>
            weighReplica_passes F hnodes hplaced (hreplicas rep hrep) hs)) (fun survived hs => ?_)
        refine within_ret ⟨⟨rfl, rfl, rfl⟩, fun s hmem => ?_⟩
        have hpass := hs s ((perm_insertionSort _ survived).mem_iff.1 (mem_of_mem_head? hmem))
        exact ⟨hpass.read, hpass.gated, hpass.cooled.replica, hpass.cooled.node⟩

section Cycle

variable (F : Floats K)

def movesIn (xs : List (Command × Fate)) : List (ReplicaDesired × Fate) :=
  xs.flatMap (fun x => (Scheduler.upsertsIn x.1).map (fun r => (r, x.2)))

theorem movesIn_append (xs ys : List (Command × Fate)) : movesIn (xs ++ ys) = movesIn xs ++ movesIn ys :=
  flatMap_append

theorem movesIn_audits {xs : List (Command × Fate)} (h : ∀ x ∈ xs, Allows IsAudit x.1) : movesIn xs = [] := by
  refine flatMap_eq_nil_iff.2 (fun x hx => ?_)
  have hnone : Scheduler.upsertsIn x.1 = [] := by
    refine filterMap_eq_nil_iff.2 (fun e he => ?_)
    have haudit := h x hx e he
    split
    · rename_i heq
      rw [heq] at haudit
      exact haudit.elim
    · rfl
  rw [hnone, map_nil]

def moved (c : MoveCandidate K) : ReplicaDesired := { c.replica with host := c.dst }

def reading (gs : List (Gap Others)) (c : Interleaving.Config World) : Timestamp :=
  (exec cluster (do let _ ← Program.read World.leader; clock) gs c).1

def Rebalancer.remember (r : Rebalancer K) (now : Timestamp) (c : MoveCandidate K) : Rebalancer K :=
  { r with
    lastReplicaMoveAt := Function.update r.lastReplicaMoveAt c.replica.id (some now)
    lastNodeMoveAt := Function.update r.lastNodeMoveAt c.dst (some now) }

theorem settleMove_spec (r : Rebalancer K) (now : Timestamp) (winner : Scored K) (gs : List (Gap Others))
    (c : Interleaving.Config World) :
    movesIn (record cluster (settleMove F r now winner) gs c) = [(moved winner.c, (nextGap gs.tail).fate)] ∧
      (exec cluster (settleMove F r now winner) gs c).1 =
        if (nextGap gs.tail).fate = .acked then r.remember now winner.c else r := by
  have hmoves : ∀ t fate, movesIn [(moveCommand winner.c t, fate)] = [(moved winner.c, fate)] := fun _ _ => rfl
  constructor
  · rw [settleMove, record_bind]
    have hcommit : ∃ t, record cluster (commitMove winner.c) gs c =
        [(moveCommand winner.c t, (nextGap gs.tail).fate)] :=
      ⟨_, rfl⟩
    obtain ⟨t, ht⟩ := hcommit
    rw [ht, movesIn_append, hmoves]
    refine append_right_eq_self.2 (movesIn_audits ?_)
    refine record_of_within (R := fun _ => True) (Q := fun _ => True) _ _ (fun _ _ => trivial) ?_
    split
    · exact within_ret trivial
    · exact within_bind_any (emitAudit_audits _ _) (fun _ => within_ret trivial)
  · rw [settleMove, exec_bind]
    have hanswer : (exec cluster (commitMove winner.c) gs c).1 = decide ((nextGap gs.tail).fate = .acked) :=
      settle_answer cluster _ _ _
    rw [hanswer]
    split
    · rename_i hnot
      rw [if_neg (by simpa using hnot)]
      rfl
    · rename_i hacked
      rw [if_pos (by simpa using hacked), exec_bind]
      rfl

def started (gs : List (Gap Others)) (c : Interleaving.Config World) : Interleaving.Config World :=
  cluster.arrive (nextGap gs.tail) (cluster.arrive (nextGap gs) c)

theorem cycle_cases (src : Source K) (r : Rebalancer K) (gs : List (Gap Others)) (c : Interleaving.Config World) :
    ((cluster.arrive (nextGap gs) c).now.leader = false ∧ record cluster (cycle F src r) gs c = [] ∧
        (exec cluster (cycle F src r) gs c).1 = r) ∨
      ((cluster.arrive (nextGap gs) c).now.leader = true ∧
        record cluster (cycle F src r) gs c =
          record cluster (cycleAt F src r (reading gs c)) gs.tail.tail (started gs c) ∧
        exec cluster (cycle F src r) gs c =
          exec cluster (cycleAt F src r (reading gs c)) gs.tail.tail (started gs c)) := by
  let c₁ := cluster.arrive (nextGap gs) c
  have hrecord : record cluster (cycle F src r) gs c =
      record cluster (if !c₁.now.leader then pure r else clock >>= cycleAt F src r) gs.tail c₁ := rfl
  have hexec : exec cluster (cycle F src r) gs c =
      exec cluster (if !c₁.now.leader then pure r else clock >>= cycleAt F src r) gs.tail c₁ := rfl
  rw [hrecord, hexec]
  cases c₁.now.leader with
  | true => exact .inr ⟨rfl, rfl, rfl⟩
  | false => exact .inl ⟨rfl, rfl, rfl⟩

variable (src : Source K) (r : Rebalancer K) (now : Timestamp) (gs : List (Gap Others)) (c : Interleaving.Config World)

theorem cycleAt_cases {r' : Rebalancer K} {winner : Option (Scored K)} {gs' : List (Gap Others)}
    {c' : Interleaving.Config World} (hsurvey : exec cluster (survey F src r now) gs c = ((r', winner), gs', c')) :
    (winner = none ∧ movesIn (record cluster (cycleAt F src r now) gs c) = [] ∧
        (exec cluster (cycleAt F src r now) gs c).1 = r') ∨
      ∃ s, winner = some s ∧
        movesIn (record cluster (cycleAt F src r now) gs c) = movesIn (record cluster (settleMove F r' now s) gs' c') ∧
        exec cluster (cycleAt F src r now) gs c = exec cluster (settleMove F r' now s) gs' c' := by
  have haudits : movesIn (record cluster (survey F src r now) gs c) = [] :=
    movesIn_audits (record_of_within (R := fun _ => True) gs c (fun _ _ => trivial) (survey_passes F src r now))
  rw [cycleAt, record_bind, exec_bind, movesIn_append, haudits, nil_append, hsurvey]
  cases winner with
  | none => exact .inl ⟨rfl, rfl, rfl⟩
  | some s => exact .inr ⟨s, rfl, rfl, rfl⟩

theorem cycleAt_spec {R : World → Prop} (hseen : ∀ s ∈ (exec cluster (survey F src r now) gs c).2.2.seen, R s) :
    let o := exec cluster (cycleAt F src r now) gs c
    let moves := movesIn (record cluster (cycleAt F src r now) gs c)
    (moves = [] ∧ r.Agrees o.1) ∨
      ∃ m fate, moves = [(moved m, fate)] ∧ Passes R src r now m ∧
        if fate = .acked then (r.remember now m).Agrees o.1 else r.Agrees o.1 := by
  intro o moves
  obtain ⟨hagrees, hpasses⟩ := exec_of_within gs c hseen (survey_passes F (R := R) src r now)
  rcases hsurvey : exec cluster (survey F src r now) gs c with ⟨⟨r', winner⟩, gs', c'⟩
  rw [hsurvey] at hagrees hpasses
  obtain ⟨hcfg, hreplica, hnode⟩ := hagrees
  rcases cycleAt_cases F src r now gs c hsurvey with ⟨-, hmoves, hmemory⟩ | ⟨s, rfl, hmoves, hexec⟩
  · refine .inl ⟨hmoves, ?_⟩
    rw [show o.1 = r' from hmemory]
    exact ⟨hcfg, hreplica, hnode⟩
  · obtain ⟨hrecord, hremembers⟩ := settleMove_spec F r' now s gs' c'
    refine .inr ⟨s.c, _, hmoves.trans hrecord, hpasses s rfl, ?_⟩
    rw [show o.1 = _ from (congrArg Prod.fst hexec).trans hremembers]
    split
    · exact ⟨hcfg, by rw [Rebalancer.remember, Rebalancer.remember, ← hreplica],
        by rw [Rebalancer.remember, Rebalancer.remember, ← hnode]⟩
    · exact ⟨hcfg, hreplica, hnode⟩

end Cycle

end Jaco.Rebalance
