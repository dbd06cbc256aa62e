import Jaco.HotStreaks

namespace Jaco.Rebalance

open KeyedFolds List

variable {K : Type} [Field K] [LinearOrder K] (F : Floats K)

section Perm

variable {hosts hosts' : List (String × Snapshot K)} (hperm : hosts.Perm hosts') (hnodup : (hosts.map (·.1)).Nodup)

include hperm hnodup

theorem fold_perm (r : Rebalancer K) (now : Timestamp) : r.fold F now hosts = r.fold F now hosts' := by
  have hnodup' := (hperm.map (·.1)).nodup_iff.1 hnodup
  have hewmas : (r.fold F now hosts).pressureEWMA = (r.fold F now hosts').pressureEWMA := by
    funext k
    let g : String → Snapshot K → Option (EWMA K) → Option (EWMA K) := fun _ snap ewma =>
      some ((ewma.getD (newEWMA (5 * 60 * 10 ^ 9))).update F now (composite snap))
    refine (foldl_update g hnodup r.pressureEWMA k).trans ?_
    rw [lookup_perm hperm hnodup]
    exact (foldl_update g hnodup' r.pressureEWMA k).symm
  rw [Rebalancer.fold, Rebalancer.fold] at *
  exact congrArg (fun ewmas => { r with pressureEWMA := ewmas }) hewmas

omit F in
theorem countOver_perm (r : Rebalancer K) : r.countOver hosts = r.countOver hosts' := by
  have hnodup' := (hperm.map (·.1)).nodup_iff.1 hnodup
  have hcounts : (r.countOver hosts).consecutiveOverThreshold = (r.countOver hosts').consecutiveOverThreshold := by
    funext k
    let g : String → Snapshot K → Int → Int := fun host _ n =>
      if r.value host ≥ r.cfg.triggerThreshold then n + 1 else 0
    refine (foldl_update g hnodup r.consecutiveOverThreshold k).trans ?_
    rw [lookup_perm hperm hnodup]
    exact (foldl_update g hnodup' r.consecutiveOverThreshold k).symm
  exact congrArg (fun counts => { r with consecutiveOverThreshold := counts }) hcounts

omit F in
theorem candidate_perm (src : Source K) (hotHost : String) {placed placed' : List ReplicaDesired}
    (hplaced : placed.Perm placed') (rep : ReplicaDesired) (spec : Option ServiceSpec) (dst : String × Snapshot K) :
    candidate src hotHost hosts placed rep spec dst = candidate src hotHost hosts' placed' rep spec dst := by
  rw [candidate, candidate, pressureOf, pressureOf, lookup_perm hperm hnodup, hplaced.countP_eq]

end Perm

section Extremes

variable (r : Rebalancer K)

def hottest (hosts : List (String × Snapshot K)) : K := hosts.foldl (fun m s => max m (r.value s.1)) 0

attribute [local instance] atLeastTwo_ten

local instance atLeastTwo_eleven : Nat.AtLeastTwo 11 := inferInstance

def coldest (hosts : List (String × Snapshot K)) : K := hosts.foldl (fun m s => min m (r.value s.1)) (11 / 10)

structure Leads (hosts : List (String × Snapshot K)) (h : String) : Prop where
  positive : 0 < r.value h
  split : ∃ before snap after, hosts = before ++ (h, snap) :: after ∧ ∀ s ∈ before, r.value s.1 < r.value h
  top : ∀ s ∈ hosts, r.value s.1 ≤ r.value h

theorem extremes_snoc (hosts : List (String × Snapshot K)) (s : String × Snapshot K) : extremes r (hosts ++ [s]) =
      let x := extremes r hosts
      ⟨if x.hotEWMA < r.value s.1 then s.1 else x.hotHost, max x.hotEWMA (r.value s.1),
        min x.coldEWMA (r.value s.1)⟩ := by
  rw [extremes, foldl_append]
  change (let v := r.value s.1
    let x := if v > (extremes r hosts).hotEWMA then { extremes r hosts with hotHost := s.1, hotEWMA := v }
      else extremes r hosts
    if v < x.coldEWMA then { x with coldEWMA := v } else x) = _
  have hcold : ∀ c : K, (if r.value s.1 < c then r.value s.1 else c) = min c (r.value s.1) := by
    intro c
    rw [min_comm, min_def_lt]
  dsimp only
  by_cases hhot : (extremes r hosts).hotEWMA < r.value s.1
  · rw [if_pos hhot, if_pos hhot, max_eq_right hhot.le, ← hcold]
    split <;> rfl
  · rw [if_neg hhot, if_neg hhot, max_eq_left (not_lt.1 hhot), ← hcold]
    split <;> rfl

theorem extremes_spec (hosts : List (String × Snapshot K)) :
    (extremes r hosts).hotEWMA = hottest r hosts ∧ (extremes r hosts).coldEWMA = coldest r hosts ∧
      (Leads r hosts (extremes r hosts).hotHost ∧ (extremes r hosts).hotEWMA = r.value (extremes r hosts).hotHost ∨
        (extremes r hosts).hotHost = "" ∧ (extremes r hosts).hotEWMA = 0 ∧ ∀ s ∈ hosts, r.value s.1 ≤ 0) := by
  induction hosts using List.reverseRecOn with
  | nil => exact ⟨rfl, rfl, .inr ⟨rfl, rfl, nofun⟩⟩
  | append_singleton hosts s ih =>
    obtain ⟨hhot, hcold, hlead⟩ := ih
    rw [extremes_snoc]
    refine ⟨?_, ?_, ?_⟩
    · rw [hottest, foldl_append]
      exact congrArg (fun m => max m (r.value s.1)) hhot
    · rw [coldest, foldl_append]
      exact congrArg (fun m => min m (r.value s.1)) hcold
    · dsimp only
      have hbelow : ∀ s' ∈ hosts, r.value s'.1 ≤ (extremes r hosts).hotEWMA := by
        intro s' hs'
        rcases hlead with ⟨hl, he⟩ | ⟨-, he, hl⟩
        · rw [he]
          exact hl.top s' hs'
        · rw [he]
          exact hl s' hs'
      have hpos : 0 ≤ (extremes r hosts).hotEWMA := by
        rcases hlead with ⟨hl, he⟩ | ⟨-, he, -⟩
        · rw [he]
          exact hl.positive.le
        · exact he.ge
      by_cases hnew : (extremes r hosts).hotEWMA < r.value s.1
      · rw [if_pos hnew, max_eq_right hnew.le]
        refine .inl ⟨⟨hpos.trans_lt hnew, ⟨hosts, s.2, [], rfl, fun s' hs' => (hbelow s' hs').trans_lt hnew⟩, ?_⟩, rfl⟩
        exact Runs.forall_mem_snoc (fun s' hs' => (hbelow s' hs').trans hnew.le) le_rfl
      · rw [if_neg hnew, max_eq_left (not_lt.1 hnew)]
        rcases hlead with ⟨hl, he⟩ | ⟨hempty, he, hl⟩
        · obtain ⟨before, snap, after, hsplit, hbefore⟩ := hl.split
          refine .inl ⟨⟨hl.positive, ⟨before, snap, after ++ [s],
            (congrArg (· ++ [s]) hsplit).trans (append_assoc _ _ _), hbefore⟩, ?_⟩, he⟩
          exact Runs.forall_mem_snoc hl.top (he ▸ not_lt.1 hnew)
        · exact .inr ⟨hempty, he, Runs.forall_mem_snoc hl (he ▸ not_lt.1 hnew)⟩

variable {hosts hosts' : List (String × Snapshot K)}

theorem hottest_perm (hperm : hosts.Perm hosts') : hottest r hosts = hottest r hosts' := by
  refine hperm.foldl_eq' (fun x _ y _ m => ?_) 0
  rw [max_right_comm]

theorem coldest_perm (hperm : hosts.Perm hosts') : coldest r hosts = coldest r hosts' := by
  refine hperm.foldl_eq' (fun x _ y _ m => ?_) (11 / 10)
  rw [min_right_comm]

def Hottest (hosts : List (String × Snapshot K)) (h : String) : Prop :=
  (0 < r.value h ∧ h ∈ hosts.map (·.1) ∧ ∀ s ∈ hosts, r.value s.1 ≤ r.value h) ∨ (h = "" ∧ ∀ s ∈ hosts, r.value s.1 ≤ 0)

theorem hottest_of_perm (hperm : hosts.Perm hosts') {h : String} (hhot : Hottest r hosts' h) : Hottest r hosts h := by
  rcases hhot with ⟨hpos, hmem, htop⟩ | ⟨hempty, hnone⟩
  · exact .inl ⟨hpos, (hperm.map _).mem_iff.2 hmem, fun s hs => htop s (hperm.mem_iff.1 hs)⟩
  · exact .inr ⟨hempty, fun s hs => hnone s (hperm.mem_iff.1 hs)⟩

theorem hottest_hotHost (hosts : List (String × Snapshot K)) : Hottest r hosts (extremes r hosts).hotHost := by
  rcases (extremes_spec r hosts).2.2 with ⟨hlead, -⟩ | ⟨hempty, -, hnone⟩
  · obtain ⟨before, snap, after, hsplit, -⟩ := hlead.split
    refine .inl ⟨hlead.positive, ?_, hlead.top⟩
    exact mem_map.2 ⟨_, hsplit ▸ mem_append_right before mem_cons_self, rfl⟩
  · exact .inr ⟨hempty, hnone⟩

theorem hotHost_of_first {h : String} (hhot : Hottest r hosts h)
    (hfirst : h ∈ hosts.map (·.1) → ∃ snap rest, hosts = (h, snap) :: rest) : (extremes r hosts).hotHost = h := by
  rcases hhot with ⟨hpos, hmem, htop⟩ | ⟨rfl, hnone⟩
  · obtain ⟨snap, rest, rfl⟩ := hfirst hmem
    rcases (extremes_spec r ((h, snap) :: rest)).2.2 with ⟨hlead, -⟩ | ⟨-, -, hnone⟩
    · generalize (extremes r ((h, snap) :: rest)).hotHost = hot at hlead
      obtain ⟨before, snap', after, hsplit, hbefore⟩ := hlead.split
      cases before with
      | nil => exact (congrArg Prod.fst (List.cons.inj hsplit).1).symm
      | cons s before =>
        have hs : s = (h, snap) := (List.cons.inj hsplit).1.symm
        have hlower := hbefore s mem_cons_self
        rw [hs] at hlower
        have hmax := htop (hot, snap') (by rw [hsplit]; exact mem_append_right _ mem_cons_self)
        exact absurd hlower (not_lt.2 hmax)
    · exact absurd (hnone (h, snap) mem_cons_self) (not_le.2 hpos)
  · rcases (extremes_spec r hosts).2.2 with ⟨hlead, -⟩ | ⟨hempty, -, -⟩
    · obtain ⟨before, snap, after, hsplit, -⟩ := hlead.split
      exact absurd (hnone _ (hsplit ▸ mem_append_right before mem_cons_self)) (not_le.2 hlead.positive)
    · exact hempty

end Extremes

end Jaco.Rebalance
