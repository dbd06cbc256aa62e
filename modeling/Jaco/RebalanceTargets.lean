import Jaco.RebalanceGates
import Jaco.StickyHosts

namespace Jaco.Rebalance

open Interleaving Relocation Scheduler List

def declaredSpec (s : State) (rep : ReplicaDesired) : Option ServiceSpec :=
  (s.deployments.get rep.deployment).bind (fun d => d.services.find? (·.name = rep.service))

def crowd (s : State) (rep : ReplicaDesired) (dst : String) : Nat :=
  s.replicasDesired.list.countP (fun r => r.host = dst && r.deployment = rep.deployment && r.service = rep.service)

structure Movable (s : State) (rep : ReplicaDesired) (dst : String) : Prop where
  stored : s.replicasDesired.get rep.id = some rep
  source : ∃ n ∈ s.nodes.list, n.hostname = rep.host
  target : ∃ n ∈ s.nodes.list, n.hostname = dst
  away : dst ≠ rep.host
  affinity : antiAffinityOK (declaredSpec s rep) dst (crowd s rep dst) = true

def Tables (s : State) (v : World) : Prop :=
  v.state.nodes = s.nodes ∧ v.state.replicasDesired = s.replicasDesired ∧ v.state.deployments = s.deployments

theorem audit_writes {p : Payload} (h : IsAudit p) {part : Part} (hpart : part ≠ .auditEvents) : part ∉ writes p := by
  cases p with
  | auditAppend ev => simpa [writes] using hpart
  | _ => exact h.elim

variable {s : State} {v : World}

theorem tables_commit {c : Command} (hc : Allows IsAudit c) (hv : Tables s v) : Tables s (v.commit c) :=
  commit_keeps (Q := fun t => t.nodes = s.nodes ∧ t.replicasDesired = s.replicasDesired ∧ t.deployments = s.deployments)
    (fun idx t e he ht =>
      ⟨(applyEntry_agree idx t e .nodes (audit_writes he (by decide)) (by decide)).trans ht.1,
        (applyEntry_agree idx t e .replicasDesired (audit_writes he (by decide)) (by decide)).trans ht.2.1,
        (applyEntry_agree idx t e .deployments (audit_writes he (by decide)) (by decide)).trans ht.2.2⟩) c v hc hv

theorem tables_disturb {o : Others} (ho : Inert o) (hv : Tables s v) : Tables s (v.disturb o) := by
  rw [Tables, disturb_inert ho]
  exact hv

def Landed (s : State) (m : ReplicaDesired) (v : World) : Prop :=
  v.state.nodes = s.nodes ∧ v.state.deployments = s.deployments ∧
    ∃ k, v.state.replicasDesired.get m.id = some { m with raftIndex := k }

theorem landed_commit {m : ReplicaDesired} {c : Command} (hc : Allows IsAudit c)
    (hv : Landed s m v) : Landed s m (v.commit c) := by
  obtain ⟨k, hk⟩ := hv.2.2
  have hkept := tables_commit (s := v.state) hc ⟨rfl, rfl, rfl⟩
  exact ⟨hkept.1.trans hv.1, hkept.2.2.trans hv.2.1, k, by rw [hkept.2.1]; exact hk⟩

theorem landed_disturb {m : ReplicaDesired} {o : Others} (ho : Inert o) (hv : Landed s m v) :
    Landed s m (v.disturb o) := by
  rw [Landed, disturb_inert ho]
  exact hv

theorem landed_move {K : Type} (hv : Tables s v) (c : MoveCandidate K) (t : Timestamp) :
    Landed s (moved c) (v.commit (moveCommand c t)) := by
  have hcommit : (v.commit (moveCommand c t)).state = applyEntry (v.index + 1) v.state
      { identity := "scheduler/rebalance", ts := some t, payload := .replicaDesiredUpsert (some (moved c)) } :=
    commit_single v _
  rw [Landed, hcommit]
  refine ⟨(applyEntry_agree _ _ _ .nodes (by simp [writes]) (by decide)).trans hv.1,
    (applyEntry_agree _ _ _ .deployments (by simp [writes]) (by decide)).trans hv.2.2, v.index + 1, ?_⟩
  rw [get_upsertEntry v.state _ rfl, if_pos rfl]

section Sound

variable {K : Type} [Field K] [LinearOrder K] (F : Floats K) {s : State} {gs : List (Gap Others)}

theorem settleMove_lands (r : Rebalancer K) (now : Timestamp) (winner : Scored K) (hgs : Calm Inert gs)
    {c : Interleaving.Config World} (hc : Tables s c.now) (hfate : (nextGap gs.tail).fate ≠ .lost) :
    Landed s (moved winner.c) (exec cluster (settleMove F r now winner) gs c).2.2.now := by
  let c₁ := cluster.arrive (nextGap gs) c
  let c₂ := cluster.arrive (nextGap gs.tail) c₁
  have hrest := calm_suffix hgs (tail_suffix gs)
  have hc₂ : Tables s c₂.now :=
    arrive_keeps (fun _ _ => tables_disturb) (calm_nextGap hrest)
      (arrive_keeps (fun _ _ => tables_disturb) (calm_nextGap hgs) hc)
  let settled := cluster.settle (moveCommand winner.c c₁.now.now) c₂.now (nextGap gs.tail).fate
  have hcommit : exec cluster (commitMove winner.c) gs c =
      (settled.1, gs.tail.tail, { c₂ with now := settled.2 }) := rfl
  have hlanded : Landed s (moved winner.c) settled.2 := by
    have hmoved := landed_move hc₂ winner.c c₁.now.now
    change Landed s (moved winner.c) (cluster.settle _ c₂.now (nextGap gs.tail).fate).2
    generalize (nextGap gs.tail).fate = fate at hfate
    cases fate with
    | acked => exact hmoved
    | unacked => exact hmoved
    | lost => exact absurd rfl hfate
  rw [settleMove, exec_bind, hcommit]
  refine (exec_within (M := cluster) (A := Inert) (R := Landed s (moved winner.c)) (G := Allows IsAudit)
    (I := fun c => Landed s (moved winner.c) c.now) (Q := fun _ => True) (fun _ h => h)
    (fun g c hg hc => arrive_keeps (fun _ _ => landed_disturb) hg hc)
    (fun x c fate hx hc => settle_keeps cluster (fun _ _ => landed_commit) x c.now fate hx hc) ?_
    gs.tail.tail { c₂ with now := settled.2 } (calm_suffix hrest (tail_suffix gs.tail)) hlanded).1
  split
  · exact within_ret trivial
  · exact within_bind_any (emitAudit_audits _ _) (fun _ => within_ret trivial)

theorem tables_started {w : World} (hgs : Calm Inert gs) :
    Tables w.state (started gs ⟨w, []⟩).now ∧ ∀ v ∈ (started gs ⟨w, []⟩).seen, Tables w.state v := by
  have h₁ : Tables w.state (cluster.arrive (nextGap gs) ⟨w, []⟩).now :=
    arrive_keeps (fun _ _ => tables_disturb) (calm_nextGap hgs) ⟨rfl, rfl, rfl⟩
  have h₂ : Tables w.state (started gs ⟨w, []⟩).now :=
    arrive_keeps (fun _ _ => tables_disturb) (calm_nextGap (calm_suffix hgs (tail_suffix gs))) h₁
  refine ⟨h₂, fun v hv => ?_⟩
  rcases mem_cons.1 hv with rfl | hv
  · exact h₂
  · rw [mem_singleton.1 hv]
    exact h₁

theorem tables_survey (src : Source K) (r : Rebalancer K) (now : Timestamp) {w : World} (hgs : Calm Inert gs) :
    let o := exec cluster (survey F src r now) gs.tail.tail (started gs ⟨w, []⟩)
    (∀ v ∈ o.2.2.seen, Tables w.state v) ∧ Tables w.state o.2.2.now := by
  obtain ⟨hstart, hseen⟩ := tables_started (w := w) hgs
  exact seen_of_within (M := cluster) (fun _ _ => tables_disturb) (fun _ _ => tables_commit) (survey_passes F src r now)
    gs.tail.tail (calm_suffix hgs ((tail_suffix gs.tail).trans (tail_suffix gs))) (started gs ⟨w, []⟩) hstart hseen

theorem cycle_inert (src : Source K) (r : Rebalancer K) (w : World) (hgs : Calm Inert gs) {m : ReplicaDesired}
    {fate : Fate}
    (hm : (m, fate) ∈ movesIn (record cluster (cycle F src r) gs ⟨w, []⟩)) :
    ∃ c now, m = moved c ∧ Passes (Tables w.state) src r now c ∧
      (fate ≠ .lost → Landed w.state m (exec cluster (cycle F src r) gs ⟨w, []⟩).2.2.now) := by
  rcases cycle_cases F src r gs ⟨w, []⟩ with ⟨-, hrecord, -⟩ | ⟨-, hrecord, hexec⟩
  · rw [hrecord] at hm
    exact absurd hm not_mem_nil
  · rw [hrecord] at hm
    rw [hexec]
    let now := reading gs ⟨w, []⟩
    obtain ⟨hseen, hend⟩ := tables_survey F src r now (w := w) hgs
    have hpasses := (exec_of_within gs.tail.tail (started gs ⟨w, []⟩) hseen (survey_passes F src r now)).2
    have hsuffix := exec_rest cluster (survey F src r now) gs.tail.tail (started gs ⟨w, []⟩)
    rcases hsv : exec cluster (survey F src r now) gs.tail.tail (started gs ⟨w, []⟩) with ⟨⟨r', winner⟩, gs', c'⟩
    rw [hsv] at hpasses hend hsuffix
    rcases cycleAt_cases F src r now gs.tail.tail _ hsv with ⟨-, hmoves, -⟩ | ⟨s, rfl, hmoves, hexec'⟩
    · rw [hmoves] at hm
      exact absurd hm not_mem_nil
    · rw [hmoves, (settleMove_spec F r' now s gs' c').1, mem_singleton] at hm
      cases hm
      refine ⟨s.c, now, rfl, hpasses s rfl, fun hfate => ?_⟩
      have hrest : gs' <:+ gs := hsuffix.trans ((tail_suffix gs.tail).trans (tail_suffix gs))
      rw [hexec']
      exact settleMove_lands F r' now s (calm_suffix hgs hrest) hend hfate

end Sound

theorem mem_sampled {K : Type} {src : Source K} {nodes : List Node} {x : String} {snap : Snapshot K} :
    (x, snap) ∈ sampled src nodes ↔ (∃ n ∈ nodes, n.hostname = x) ∧ src.nodePressure x = some snap := by
  rw [sampled, mem_filterMap]
  constructor
  · rintro ⟨n, hn, hsome⟩
    obtain ⟨snap', hsnap, heq⟩ := Option.map_eq_some_iff.1 hsome
    cases heq
    exact ⟨⟨n, hn, rfl⟩, hsnap⟩
  · rintro ⟨⟨n, hn, rfl⟩, hsnap⟩
    exact ⟨n, hn, by rw [hsnap, Option.map_some]⟩

section Relief

variable {K : Type} [Field K] [LinearOrder K]

omit [Field K] in
theorem cpu_le_composite (s : Snapshot K) : s.cpu ≤ composite s := by
  rw [composite]
  split
  · rename_i h
    exact le_of_lt h
  · exact le_refl _

variable [IsStrictOrderedRing K]

theorem floor_pos : (0 : K) < (defaultConfig : Config K).reliefFloor := by
  norm_num [defaultConfig]

variable {c : MoveCandidate K}

theorem relief_of_unsampled (h : c.srcPressure = ⟨0, 0⟩) :
    composite c.srcPressure - composite (postMovePressure c).1 ≤ 0 := by
  have hpost : 0 ≤ (postMovePressure c).1.cpu := by
    simp only [postMovePressure]
    split
    · exact le_refl _
    · exact not_lt.1 ‹_›
  have hzero : composite c.srcPressure = 0 := by simp [h, composite]
  rw [hzero, sub_nonpos]
  exact hpost.trans (cpu_le_composite _)

omit [IsStrictOrderedRing K] in
theorem relief_of_weightless (h : c.footprint = ⟨0, 0⟩) (hcpu : 0 ≤ c.srcPressure.cpu)
    (hmemory : 0 ≤ c.srcPressure.memory) : composite c.srcPressure - composite (postMovePressure c).1 = 0 := by
  have hpost : (postMovePressure c).1 = c.srcPressure := by
    simp only [postMovePressure, h, sub_zero, if_neg (not_lt.2 hcpu), if_neg (not_lt.2 hmemory)]
  rw [hpost, sub_self]

theorem movable_of_passes {s : State} {src : Source K} {r : Rebalancer K} {now : Timestamp}
    (h : Passes (Tables s) src r now c) (hcfg : r.cfg = defaultConfig) : Movable s c.replica c.dst := by
  obtain ⟨hread, hgated, -⟩ := h
  obtain ⟨v, hv, hstored⟩ := hread.replica
  obtain ⟨u, hu, hsrc, hdst⟩ := hread.pressures
  obtain ⟨x, hx, hspec⟩ := hread.spec
  obtain ⟨y, hy, hcount⟩ := hread.count
  have hlisted : ∀ z, (∃ n ∈ u.listing u.state.nodes, n.hostname = z) → ∃ n ∈ s.nodes.list, n.hostname = z := by
    rintro z ⟨n, hn, hz⟩
    exact ⟨n, by rw [← hu.1]; exact (listing_perm u _).mem_iff.1 hn, hz⟩
  refine ⟨hv.2.1 ▸ hstored, ?_, hlisted _ (mem_sampled.1 hdst).1, hread.hot ▸ hread.away, ?_⟩
  · -- a host without a sample has no pressure to relieve
    rw [hread.hot]
    refine hlisted _ ?_
    cases hlookup : (sampled src (u.listing u.state.nodes)).lookup c.src with
    | none =>
      have hzero : c.srcPressure = ⟨0, 0⟩ := by rw [hsrc, pressureOf, hlookup, Option.getD_none]
      have hfloor := hgated.relief
      rw [hcfg] at hfloor
      exact absurd (hfloor.trans (relief_of_unsampled hzero)) (not_le.2 floor_pos)
    | some snap =>
      obtain ⟨before, after, hsplit, -⟩ := lookup_eq_some_iff.1 hlookup
      exact (mem_sampled.1 (hsplit ▸ mem_append_right before mem_cons_self)).1
  · have hfilter := hgated.filter
    have haffinity : antiAffinityOK c.spec c.dst c.perHostCount = true := by
      rw [hardFilter] at hfilter
      split at hfilter
      · cases hfilter
      · split at hfilter
        · cases hfilter
        · rename_i hok
          simpa using hok
    have hcrowd : c.perHostCount = crowd s c.replica c.dst := by
      rw [hcount, hy.2.1, (listing_perm y s.replicasDesired).countP_eq]
      rfl
    have hdeclared : c.spec = declaredSpec s c.replica := by
      rw [hspec, serviceSpec, hx.2.2]
      rfl
    rw [← hcrowd, ← hdeclared]
    exact haffinity

end Relief

end Jaco.Rebalance
