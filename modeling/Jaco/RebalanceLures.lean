import Jaco.RebalanceTargets

namespace Jaco.Rebalance

open Interleaving Relocation Scheduler List

variable {K : Type} [Field K]

local instance atLeastTwo_ten : Nat.AtLeastTwo 10 := inferInstance

def lure (src dst id : String) : Source K where
  nodePressure x := if x = src then some ⟨9 / 10, 0⟩ else if x = dst then some ⟨0, 0⟩ else none
  replicaFootprint x := if x = id then ⟨1 / 2, 0⟩ else ⟨0, 0⟩

def primed : Rebalancer K := { cfg := defaultConfig, consecutiveOverThreshold := fun _ => 1 }

theorem eq_of_perm_pair {α : Type} {l : List α} {a b : α} (h : l.Perm [a, b]) : l = [a, b] ∨ l = [b, a] := by
  obtain ⟨x, y, rfl⟩ := length_eq_two.1 h.length_eq
  rcases perm_pair.1 h with h | h
  · exact .inl h
  · exact .inr h

variable {dst : String} {s : State} {rep : ReplicaDesired}

theorem sampled_lure {src : String} (id : String) (hne : dst ≠ src) {nodes : List Node}
    (hnodup : (nodes.map (·.hostname)).Nodup) (hsrc : ∃ n ∈ nodes, n.hostname = src)
    (hdst : ∃ n ∈ nodes, n.hostname = dst) :
    (sampled (lure (K := K) src dst id) nodes).Perm [(src, ⟨9 / 10, 0⟩), (dst, ⟨0, 0⟩)] := by
  have hsampled : sampled (lure (K := K) src dst id) nodes = (nodes.map (·.hostname)).filterMap
      (fun x => ((lure (K := K) src dst id).nodePressure x).map (fun snap => (x, snap))) := by
    rw [filterMap_map]
    rfl
  have hdistinct : (sampled (lure (K := K) src dst id) nodes).Nodup := by
    rw [hsampled]
    refine hnodup.filterMap (fun x y p hx hy => ?_)
    obtain ⟨a, -, hxa⟩ := Option.map_eq_some_iff.1 hx
    obtain ⟨b, -, hyb⟩ := Option.map_eq_some_iff.1 hy
    exact congrArg Prod.fst (hxa.trans hyb.symm)
  refine (perm_ext_iff_of_nodup hdistinct (by simp [hne.symm])).2 ?_
  rintro ⟨x, snap⟩
  rw [mem_sampled, mem_cons, mem_singleton, Prod.mk.injEq, Prod.mk.injEq]
  constructor
  · rintro ⟨-, hsnap⟩
    simp only [lure] at hsnap
    split at hsnap
    · rename_i hx
      exact .inl ⟨hx, (Option.some.inj hsnap).symm⟩
    · split at hsnap
      · rename_i hx
        exact .inr ⟨hx, (Option.some.inj hsnap).symm⟩
      · cases hsnap
  · rintro (⟨rfl, rfl⟩ | ⟨rfl, rfl⟩)
    · exact ⟨hsrc, by simp [lure]⟩
    · exact ⟨hdst, by simp [lure, hne]⟩

variable [LinearOrder K] [IsStrictOrderedRing K] (F : Floats K)

theorem primed_trigger {src : String} (hne : dst ≠ src) (now : Timestamp) {samples hosts : List (String × Snapshot K)}
    (hsamples : samples.Perm [(src, ⟨9 / 10, 0⟩), (dst, ⟨0, 0⟩)])
    (hhosts : hosts.Perm [(src, ⟨9 / 10, 0⟩), (dst, ⟨0, 0⟩)]) :
    extremes (primed.fold F now samples) hosts = ⟨src, 9 / 10, 0⟩ ∧
      ((primed.fold F now samples).countOver samples).consecutiveOverThreshold src = 2 ∧
      pressureOf samples src = ⟨9 / 10, 0⟩ := by
  have hpos : (0 : K) < 9 / 10 := by norm_num
  have hfold : (primed.fold F now samples).value src = 9 / 10 ∧ (primed.fold F now samples).value dst = 0 := by
    rcases eq_of_perm_pair hsamples with rfl | rfl <;> simp [primed, Rebalancer.fold, Rebalancer.value, newEWMA,
      EWMA.update, composite, hne, hne.symm, Function.update, not_lt.2 hpos.le]
  have hcfg : (primed.fold F now samples).cfg = defaultConfig := rfl
  have hcounts : (primed.fold F now samples).consecutiveOverThreshold = fun _ => 1 := rfl
  generalize primed.fold F now samples = r at hfold hcfg hcounts
  refine ⟨?_, ?_, ?_⟩
  · have hwarm : (9 / 10 : K) < 11 / 10 := by norm_num
    have hcold : (0 : K) < 11 / 10 := by norm_num
    rcases eq_of_perm_pair hhosts with rfl | rfl
    · simp [extremes, hfold, hpos, hwarm, not_lt.2 hpos.le]
    · simp [extremes, hfold, hpos, hcold, not_lt.2 hpos.le]
  · have hover : (85 / 100 : K) ≤ 9 / 10 := by norm_num
    rcases eq_of_perm_pair hsamples with rfl | rfl <;>
      simp [Rebalancer.countOver, hfold, hcfg, hcounts, defaultConfig, hover, hne.symm, Function.update]
  · rcases eq_of_perm_pair hsamples with rfl | rfl
    · simp [pressureOf]
    · have hbeq : (src == dst) = false := by simpa using hne.symm
      simp [pressureOf, lookup_cons, hbeq]

theorem lured_gate (h : Movable s rep dst) {r : Rebalancer K}
    (hcfg : r.cfg = defaultConfig) (hnode : r.lastNodeMoveAt = fun _ => none) (now : Timestamp)
    {samples : List (String × Snapshot K)} (hhot : pressureOf samples rep.host = ⟨9 / 10, 0⟩)
    {placed : List ReplicaDesired} (hplaced : placed.Perm s.replicasDesired.list) :
    (gate r now (candidate (lure rep.host dst rep.id) rep.host samples placed rep (declaredSpec s rep)
      (dst, ⟨0, 0⟩))).1 = .none := by
  have hfootprint : (lure (K := K) rep.host dst rep.id).replicaFootprint rep.id = ⟨1 / 2, 0⟩ := by simp [lure]
  have hcrowd : placed.countP (fun r => r.host = dst && r.deployment = rep.deployment && r.service = rep.service) =
      crowd s rep dst := hplaced.countP_eq _
  have hhalf : (0 : K) < 1 / 2 := by norm_num
  refine (gate_none_iff r now _).2 ⟨fun t ht => ?_, ?_, ?_, ?_⟩
  · rw [hnode] at ht
    cases ht
  · have hfits : dstResourceFits (⟨0, 0⟩ : Snapshot K) ⟨1 / 2, 0⟩ = true := by
      norm_num [dstResourceFits]
    simp only [hardFilter, candidate, hfootprint, hcrowd, hfits, h.affinity]
    rfl
  · simp only [candidate, hfootprint, postMovePressure, hcfg, defaultConfig, composite]
    norm_num
  · simp only [candidate, hfootprint, postMovePressure, hcfg, defaultConfig, composite, hhot]
    norm_num

theorem survey_finds (h : Movable s rep dst) (now : Timestamp) :
    Within (Tables s) (fun _ => True) (fun res => res.2 ≠ none) (survey F (lure rep.host dst rep.id) primed now) := by
  refine within_bind (within_read (Q := fun nodes => nodes.Perm s.nodes.list) _
    (fun w hw => hw.1 ▸ listing_perm w w.state.nodes)) (fun nodes hnodes => ?_)
  have hnodup : (nodes.map (·.hostname)).Nodup := (hnodes.map _).nodup_iff.2 s.nodes.nodup_list
  have hknown : ∀ x, (∃ n ∈ s.nodes.list, n.hostname = x) → ∃ n ∈ nodes, n.hostname = x := by
    rintro x ⟨n, hn, hx⟩
    exact ⟨n, hnodes.mem_iff.2 hn, hx⟩
  have hsamples := sampled_lure (K := K) rep.id h.away hnodup (hknown _ h.source) (hknown _ h.target)
  dsimp only
  rw [if_neg (by rw [hsamples.length_eq]; exact Nat.lt_irrefl 2)]
  refine within_bind (within_read (Q := fun hosts => hosts.Perm [(rep.host, ⟨9 / 10, 0⟩), (dst, ⟨0, 0⟩)]) _
    (fun w _ => (perm_insertionSort _ _).trans hsamples)) (fun hosts hhosts => ?_)
  obtain ⟨hextremes, hcount, hhot⟩ := primed_trigger F h.away now hsamples hhosts
  have hgap : ¬ (9 / 10 - 0 : K) < 25 / 100 := by norm_num
  rw [hextremes]
  dsimp only
  rw [hcount, if_neg (by exact Int.lt_irrefl 2), if_neg (by exact hgap)]
  refine within_bind (within_read (Q := fun placed => placed.Perm s.replicasDesired.list) _
    (fun w hw => hw.2.1 ▸ listing_perm w w.state.replicasDesired)) (fun placed hplaced => ?_)
  refine within_bind (within_read (Q := fun replicas => replicas.Perm s.replicasDesired.list) _
    (fun w hw => hw.2.1 ▸ listing_perm w w.state.replicasDesired)) (fun replicas hreplicas => ?_)
  have hgrows : ∀ (l : List (Scored K)) x, x.c.src = rep.host → l ≠ [] → l ++ [x] ≠ [] := fun _ _ _ _ => by simp
  refine within_bind (Q := (· ≠ [])) ?_ (fun survived hs => within_ret ?_)
  · refine within_foldlM_of_mem _ (hreplicas.mem_iff.2 (Store.mem_list_of_get h.stored)) (fun survived => ?_)
      (fun x _ survived hs => weighReplica_keeps F hgrows hs) []
    rw [weighReplica, if_neg (not_not.2 rfl)]
    refine within_bind (within_read (Q := fun spec => spec = declaredSpec s rep) _ (fun w hw => ?_))
      (fun spec hspec => ?_)
    · rw [serviceSpec, hw.2.2]
      rfl
    rw [if_neg (by exact Bool.false_ne_true)]
    refine within_bind (within_read (Q := fun dsts => (dst, (⟨0, 0⟩ : Snapshot K)) ∈ dsts) _
      (fun w _ => (perm_insertionSort _ _).mem_iff.2 (hsamples.mem_iff.2 (by simp)))) (fun dsts hdst => ?_)
    refine within_foldlM_of_mem _ hdst (fun survived' => ?_) (fun x _ survived' hs =>
      weighMove_keeps F hgrows hs) survived
    have hgate := lured_gate h (r := (primed.fold F now (sampled (lure rep.host dst rep.id) nodes)).countOver
      (sampled (lure rep.host dst rep.id) nodes)) rfl rfl now hhot hplaced
    rw [weighMove, if_neg h.away, hspec]
    dsimp only
    rw [if_neg (not_not.2 hgate)]
    exact within_ret (by simp)
  · intro hnone
    have hperm := perm_insertionSort (fun a b => better a b) survived
    rw [List.head?_eq_none_iff.1 hnone] at hperm
    exact hs hperm.symm.eq_nil

theorem lure_nonneg (src dst id x : String) (nodes : List Node) :
    0 ≤ (pressureOf (sampled (lure (K := K) src dst id) nodes) x).cpu ∧
      0 ≤ (pressureOf (sampled (lure (K := K) src dst id) nodes) x).memory := by
  rw [pressureOf]
  cases hlookup : (sampled (lure (K := K) src dst id) nodes).lookup x with
  | none => exact ⟨le_refl _, le_refl _⟩
  | some snap =>
    obtain ⟨before, after, hsplit, -⟩ := lookup_eq_some_iff.1 hlookup
    have hsample := (mem_sampled.1 (hsplit ▸ mem_append_right before mem_cons_self)).2
    simp only [lure] at hsample
    split at hsample
    · rw [← Option.some.inj hsample]
      exact ⟨by norm_num, le_refl _⟩
    · split at hsample
      · rw [← Option.some.inj hsample]
        exact ⟨le_refl _, le_refl _⟩
      · cases hsample

theorem lured_move {now : Timestamp} {c : MoveCandidate K} (hstored : s.replicasDesired.get rep.id = some rep)
    (h : Passes (Tables s) (lure rep.host dst rep.id) primed now c) : moved c = { rep with host := dst } := by
  obtain ⟨hread, hgated, -⟩ := h
  obtain ⟨v, hv, hcandidate⟩ := hread.replica
  obtain ⟨u, hu, hsrc, hdst⟩ := hread.pressures
  have hnonneg : 0 ≤ c.srcPressure.cpu ∧ 0 ≤ c.srcPressure.memory := by
    rw [hsrc]
    exact lure_nonneg _ _ _ _ _
  have hid : c.replica.id = rep.id := by
    by_contra hid
    have hweightless : c.footprint = ⟨0, 0⟩ := by
      rw [hread.footprint]
      simp [lure, hid]
    have hfloor := hgated.relief
    rw [relief_of_weightless hweightless hnonneg.1 hnonneg.2] at hfloor
    exact absurd hfloor (not_le.2 floor_pos)
  have hreplica : c.replica = rep := by
    rw [hv.2.1, hid, hstored] at hcandidate
    exact (Option.some.inj hcandidate).symm
  have hdstHost : c.dst = dst := by
    have hsample := (mem_sampled.1 hdst).2
    have haway := hread.away
    rw [← hread.hot, hreplica] at haway
    simp only [lure, if_neg haway] at hsample
    split at hsample
    · assumption
    · cases hsample
  rw [moved, hreplica, hdstHost]

theorem cycle_moves {w : World} (h : Movable w.state rep dst) :
    ∃ (src : Source K) (r : Rebalancer K) (gs : List (Gap Others)), r.cfg = defaultConfig ∧ Calm Inert gs ∧
      ({ rep with host := dst }, Fate.acked) ∈ movesIn (record cluster (cycle F src r) gs ⟨w, []⟩) := by
  let src : Source K := lure rep.host dst rep.id
  let gs : List (Gap Others) := [{ others := some {} }]
  have hgs : Calm Inert gs := by
    intro g hg e he
    rw [mem_singleton.1 hg] at he
    cases he
    rfl
  refine ⟨src, primed, gs, rfl, hgs, ?_⟩
  rcases cycle_cases F src primed gs ⟨w, []⟩ with ⟨hleader, -, -⟩ | ⟨-, hrecord, -⟩
  · cases hleader
  · let now := reading gs ⟨w, []⟩
    have hseen := (tables_survey F src primed now (w := w) hgs).1
    have hpasses := (exec_of_within gs.tail.tail (started gs ⟨w, []⟩) hseen (survey_passes F src primed now)).2
    have hfound := exec_of_within gs.tail.tail (started gs ⟨w, []⟩) hseen (survey_finds F h now)
    have hsuffix := exec_rest cluster (survey F src primed now) gs.tail.tail (started gs ⟨w, []⟩)
    rcases hsv : exec cluster (survey F src primed now) gs.tail.tail (started gs ⟨w, []⟩) with ⟨⟨r', winner⟩, gs', c'⟩
    rw [hsv] at hpasses hfound hsuffix
    rcases cycleAt_cases F src primed now gs.tail.tail _ hsv with ⟨hnone, -, -⟩ | ⟨s, rfl, hmoves, -⟩
    · exact absurd hnone hfound
    · have hgone : gs' = [] := suffix_nil.1 hsuffix
      rw [hrecord, hmoves, (settleMove_spec F r' now s gs' c').1, hgone, lured_move h.stored (hpasses s rfl)]
      exact mem_singleton.2 rfl

end Jaco.Rebalance
