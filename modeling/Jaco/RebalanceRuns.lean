import Jaco.RebalanceGates

namespace Jaco.Rebalance

open Interleaving Runs List

variable {K : Type} [Field K] [LinearOrder K] (F : Floats K)

theorem exec_clock {α : Type} (p : Task α) (gs : List (Gap Others)) (c : Interleaving.Config World) :
    c.now.now ≤ (exec cluster p gs c).2.2.now.now := by
  refine exec_leads (L := fun v w : World => v.now ≤ w.now) (fun _ => Int.le_refl _)
    (fun _ _ _ => Int.le_trans) (fun _ _ => Int.le_refl _) (fun o w => ?_) p gs c
  exact Int.le_add_of_nonneg_right (Int.natCast_nonneg o.elapsed)

variable (src : Source K) (r : Rebalancer K) (gs : List (Gap Others)) (w : World)

theorem cycle_spec : let o := exec cluster (cycle F src r) gs ⟨w, []⟩
    let moves := movesIn (record cluster (cycle F src r) gs ⟨w, []⟩)
    let now := reading gs ⟨w, []⟩
    (moves = [] ∧ r.Agrees o.1) ∨
      ∃ m fate, moves = [(moved m, fate)] ∧ Passes (· ∈ o.2.2.seen) src r now m ∧ w.now ≤ now ∧ now ≤ o.2.2.now.now ∧
        if fate = .acked then (r.remember now m).Agrees o.1 else r.Agrees o.1 := by
  intro o moves now
  have hstart : w.now ≤ now := exec_clock (do let _ ← Program.read World.leader; clock) gs ⟨w, []⟩
  rcases cycle_cases F src r gs ⟨w, []⟩ with ⟨-, hrecord, hmemory⟩ | ⟨-, hrecord, hexec⟩
  · refine .inl ⟨congrArg movesIn hrecord, ?_⟩
    change r.Agrees (exec cluster (cycle F src r) gs ⟨w, []⟩).1
    rw [hmemory]
    exact ⟨rfl, rfl, rfl⟩
  · have hend : now ≤ o.2.2.now.now := by
      change now ≤ (exec cluster (cycle F src r) gs ⟨w, []⟩).2.2.now.now
      rw [hexec]
      exact exec_clock _ gs.tail.tail (started gs ⟨w, []⟩)
    have hseen : ∀ s ∈ (exec cluster (survey F src r now) gs.tail.tail (started gs ⟨w, []⟩)).2.2.seen,
        s ∈ (exec cluster (cycleAt F src r now) gs.tail.tail (started gs ⟨w, []⟩)).2.2.seen := by
      intro s hs
      rw [cycleAt, exec_bind]
      exact (exec_seen cluster _ _ _).subset hs
    have hspec := cycleAt_spec F src r now gs.tail.tail (started gs ⟨w, []⟩) hseen
    rw [← hrecord, ← hexec] at hspec
    rcases hspec with hnone | ⟨m, fate, hm, hpasses, hmemory⟩
    · exact .inl hnone
    · exact .inr ⟨m, fate, hm, hpasses, hstart, hend, hmemory⟩

theorem cycle_cfg : (exec cluster (cycle F src r) gs ⟨w, []⟩).1.cfg = r.cfg := by
  rcases cycle_spec F src r gs w with ⟨-, hagrees⟩ | ⟨m, fate, -, -, -, -, hagrees⟩
  · exact hagrees.1
  · split at hagrees
    · exact hagrees.1
    · exact hagrees.1

structure Turn (K : Type) where
  source : Source K
  gaps : List (Gap Others)

structure Report (K : Type) where
  «at» : Timestamp
  source : Source K
  seen : List World
  moves : List (ReplicaDesired × Fate)

structure Tenure (K : Type) where
  memory : Rebalancer K
  world : World
  reports : List (Report K) := []

def Tenure.step (s : Tenure K) (t : Turn K) : Tenure K :=
  let p := cycle F t.source s.memory
  let o := exec cluster p t.gaps ⟨s.world, []⟩
  ⟨o.1, o.2.2.now, s.reports ++
    [⟨reading t.gaps ⟨s.world, []⟩, t.source, o.2.2.seen, movesIn (record cluster p t.gaps ⟨s.world, []⟩)⟩]⟩

def Apart (cfg : Config K) (e f : Report K) : Prop :=
  ∀ m ∈ e.moves, m.2 = .acked → ∀ m' ∈ f.moves,
    (m'.1.id = m.1.id → cfg.cooldownReplica ≤ f.at - e.at) ∧ (m'.1.host = m.1.host → cfg.cooldownNode ≤ f.at - e.at)

structure Hysteresis (cfg : Config K) (reports : List (Report K)) : Prop where
  single : ∀ e ∈ reports, e.moves.length ≤ 1
  gated : ∀ e ∈ reports, ∀ m ∈ e.moves, ∃ c, m.1 = moved c ∧ Read (· ∈ e.seen) e.source c ∧ Gated cfg c
  apart : reports.Pairwise (Apart cfg)

def Holds (times : String → Option Timestamp) (key : String) (t : Timestamp) : Prop := ∃ u ∈ times key, t ≤ u

theorem holds_update {times : String → Option Timestamp} {key : String} {t : Timestamp} (k : String) {now : Timestamp}
    (hnow : t ≤ now) (h : key ≠ k → Holds times key t) : Holds (Function.update times k (some now)) key t := by
  by_cases hkey : key = k
  · exact ⟨now, by rw [hkey, Function.update_self]; rfl, hnow⟩
  · obtain ⟨u, hu, htu⟩ := h hkey
    exact ⟨u, by rw [Function.update_of_ne hkey]; exact hu, htu⟩

theorem distance_of_holds {times : String → Option Timestamp} {key : String} {t now : Timestamp} {cooldown : Int}
    (h : Holds times key t) (hcooled : ∀ u ∈ times key, cooldown ≤ now - u) : cooldown ≤ now - t := by
  obtain ⟨u, hu, htu⟩ := h
  have := hcooled u hu
  linarith

structure Tenure.Sound (cfg : Config K) (s : Tenure K) : Prop where
  config : s.memory.cfg = cfg
  hysteresis : Hysteresis cfg s.reports
  past : ∀ e ∈ s.reports, ∀ m ∈ e.moves, e.at ≤ s.world.now
  replica : ∀ e ∈ s.reports, ∀ m ∈ e.moves, m.2 = .acked → Holds s.memory.lastReplicaMoveAt m.1.id e.at
  node : ∀ e ∈ s.reports, ∀ m ∈ e.moves, m.2 = .acked → Holds s.memory.lastNodeMoveAt m.1.host e.at

theorem hysteresis_snoc {cfg : Config K} {reports : List (Report K)} (h : Hysteresis cfg reports) {e : Report K}
    (hsingle : e.moves.length ≤ 1)
    (hgated : ∀ m ∈ e.moves, ∃ c, m.1 = moved c ∧ Read (· ∈ e.seen) e.source c ∧ Gated cfg c)
    (hapart : ∀ f ∈ reports, Apart cfg f e) : Hysteresis cfg (reports ++ [e]) := by
  refine ⟨forall_mem_snoc h.single hsingle, forall_mem_snoc h.gated hgated,
    pairwise_append.2 ⟨h.apart, pairwise_singleton _ _, fun f hf => ?_⟩⟩
  exact forall_mem_singleton.2 (hapart f hf)

theorem sound_step (cfg : Config K) (s : Tenure K) (t : Turn K) (hs : s.Sound cfg) : (s.step F t).Sound cfg := by
  have hclock : s.world.now ≤ (s.step F t).world.now := exec_clock _ t.gaps ⟨s.world, []⟩
  let e : Report K := ⟨reading t.gaps ⟨s.world, []⟩, t.source,
    (exec cluster (cycle F t.source s.memory) t.gaps ⟨s.world, []⟩).2.2.seen,
    movesIn (record cluster (cycle F t.source s.memory) t.gaps ⟨s.world, []⟩)⟩
  have hreports : (s.step F t).reports = s.reports ++ [e] := rfl
  rcases cycle_spec F t.source s.memory t.gaps s.world with ⟨hnone, hcfg, hreplica, hnode⟩ |
    ⟨m, fate, hmoves, hpasses, hstart, hend, hmemory⟩
  · -- nothing was moved and nothing is remembered
    replace hnone : e.moves = [] := hnone
    have hold : ∀ f ∈ s.reports ++ [e], ∀ m ∈ f.moves, f ∈ s.reports := by
      intro f hf m hm
      rcases mem_append.1 hf with hf | hf
      · exact hf
      · rw [mem_singleton.1 hf, hnone] at hm
        exact absurd hm not_mem_nil
    refine ⟨hcfg.trans hs.config, ?_, ?_, ?_, ?_⟩
    · refine hysteresis_snoc hs.hysteresis (by rw [hnone]; exact Nat.zero_le 1) ?_ ?_
      · exact fun m hm => absurd (hnone ▸ hm) not_mem_nil
      · exact fun f _ m _ _ m' hm' => absurd (hnone ▸ hm') not_mem_nil
    · exact fun f hf m hm => (hs.past f (hold f hf m hm) m hm).trans hclock
    · intro f hf m hm hacked
      exact hreplica ▸ hs.replica f (hold f hf m hm) m hm hacked
    · intro f hf m hm hacked
      exact hnode ▸ hs.node f (hold f hf m hm) m hm hacked
  · replace hmoves : e.moves = [(moved m, fate)] := hmoves
    have hcfg : (s.step F t).memory.cfg = s.memory.cfg := by
      split at hmemory
      · exact hmemory.1
      · exact hmemory.1
    -- a move is older than this cycle's reading of the clock, or this cycle's own
    have hcases : ∀ f ∈ s.reports ++ [e], ∀ x ∈ f.moves, (f ∈ s.reports ∧ f.at ≤ e.at) ∨
        (f = e ∧ x = (moved m, fate)) := by
      intro f hf x hx
      rcases mem_append.1 hf with hf | hf
      · exact .inl ⟨hf, (hs.past f hf x hx).trans hstart⟩
      · rw [mem_singleton.1 hf, hmoves] at hx
        exact .inr ⟨mem_singleton.1 hf, mem_singleton.1 hx⟩
    have hheld : ∀ (key : ReplicaDesired → String) (before after : String → Option Timestamp),
        (after = if fate = .acked then Function.update before (key (moved m)) (some e.at) else before) →
        (∀ f ∈ s.reports, ∀ x ∈ f.moves, x.2 = .acked → Holds before (key x.1) f.at) →
        ∀ f ∈ s.reports ++ [e], ∀ x ∈ f.moves, x.2 = .acked → Holds after (key x.1) f.at := by
      rintro key before after rfl hbefore f hf x hx hacked
      rcases hcases f hf x hx with ⟨hold, hle⟩ | ⟨rfl, rfl⟩
      · split
        · exact holds_update _ hle (fun _ => hbefore f hold x hx hacked)
        · exact hbefore f hold x hx hacked
      · rw [if_pos hacked]
        exact holds_update _ (Int.le_refl _) (fun hne => absurd rfl hne)
    refine ⟨hcfg.trans hs.config, ?_, ?_, ?_, ?_⟩
    · refine hysteresis_snoc hs.hysteresis (by rw [hmoves]; exact Nat.le_refl 1) ?_ ?_
      · intro x hx
        rw [hmoves] at hx
        rw [mem_singleton.1 hx]
        exact ⟨m, rfl, hpasses.read, hs.config ▸ hpasses.gated⟩
      · intro f hf x hx hacked y hy
        rw [hmoves] at hy
        rw [mem_singleton.1 hy, ← hs.config]
        refine ⟨fun hid => ?_, fun hhost => ?_⟩
        · have hheld := hs.replica f hf x hx hacked
          rw [← hid] at hheld
          exact distance_of_holds hheld hpasses.cooled.replica
        · have hheld := hs.node f hf x hx hacked
          rw [← hhost] at hheld
          exact distance_of_holds hheld hpasses.cooled.node
    · intro f hf x hx
      rcases hcases f hf x hx with ⟨hold, -⟩ | ⟨rfl, -⟩
      · exact (hs.past f hold x hx).trans hclock
      · exact hend
    · refine hheld ReplicaDesired.id s.memory.lastReplicaMoveAt _ ?_ hs.replica
      split at hmemory
      · rename_i hacked
        exact hmemory.2.1.trans (if_pos hacked).symm
      · rename_i hfailed
        exact hmemory.2.1.trans (if_neg hfailed).symm
    · refine hheld ReplicaDesired.host s.memory.lastNodeMoveAt _ ?_ hs.node
      split at hmemory
      · rename_i hacked
        exact hmemory.2.2.trans (if_pos hacked).symm
      · rename_i hfailed
        exact hmemory.2.2.trans (if_neg hfailed).symm

end Jaco.Rebalance
