import Jaco.RebalanceTies

namespace Jaco.Rebalance

open Interleaving KeyedFolds Scheduler List

variable {K : Type} [Field K] [LinearOrder K] (F : Floats K) {src : Source K} {r : Rebalancer K} {w : World}

theorem arrive_reordered {g : Gap Others} (hg : ∀ o ∈ g.others, Inert o ∧ o.elapsed = 0 ∧ o.leader = w.leader)
    {c : Interleaving.Config World} (hleader : c.now.leader = w.leader) (hnow : c.now.now = w.now) :
    (cluster.arrive g c).now.leader = w.leader ∧ (cluster.arrive g c).now.now = w.now := by
  rw [System.arrive]
  cases hothers : g.others with
  | none => exact ⟨hleader, hnow⟩
  | some o =>
    obtain ⟨-, helapsed, hleads⟩ := hg o (by rw [hothers]; rfl)
    refine ⟨hleads, ?_⟩
    change c.now.now + (o.elapsed : Int) = w.now
    rw [helapsed, hnow]
    exact Int.add_zero _

variable {gs : List (Gap Others)}

theorem chosen_reordered (hgs : Reorders w gs) : chosen F src r gs ⟨w, []⟩ = if w.leader then
      (exec cluster (survey F src r w.now) gs.tail.tail (started gs ⟨w, []⟩)).1.2 else none := by
  have hfirst := arrive_reordered (w := w) (calm_nextGap hgs) (c := ⟨w, []⟩) rfl rfl
  have hsecond := arrive_reordered (calm_nextGap (calm_suffix hgs (tail_suffix gs))) hfirst.1 hfirst.2
  rw [chosen, hfirst.1]
  have hreading : reading gs ⟨w, []⟩ = w.now := hsecond.2
  rw [hreading]

theorem inert_of_reorders (hgs : Reorders w gs) : Calm Inert gs :=
  fun g hg o ho => (hgs g hg o ho).1

theorem chosen_finds (hleader : w.leader = true) (hgs : Reorders w gs) :
    Finds F src r w.now w.state (fun _ => True) (chosen F src r gs ⟨w, []⟩) := by
  rw [chosen_reordered F hgs, if_pos hleader]
  exact exec_of_within _ _ (tables_survey F src r w.now (inert_of_reorders hgs)).1
    (survey_finds_move F (fun _ h => h) (fun _ _ _ _ => trivial))

def ordered (w : World) (order : String → Nat) : List (Gap Others) :=
  [{ others := some { leader := w.leader, order := order } }]

theorem ordered_reorders (order : String → Nat) : Reorders w (ordered w order) := by
  intro g hg o ho
  cases mem_singleton.1 hg
  cases ho
  exact ⟨rfl, rfl, rfl⟩

theorem ordered_finds (hleader : w.leader = true) (order : String → Nat) {P : List (String × Snapshot K) → Prop}
    (hP : ∀ v hosts, v.order = order → hosts.Perm (samples src w.state) → P (ranged hosts v)) :
    Finds F src r w.now w.state P (chosen F src r (ordered w order) ⟨w, []⟩) := by
  rw [chosen_reordered F (ordered_reorders order), if_pos hleader]
  refine exec_of_within (R := fun v => Tables w.state v ∧ v.order = order) _ _ ?_
    (survey_finds_move F (fun v hv => hv.1) (fun v hosts hv hperm => hP v hosts hv.2 hperm))
  have hstart : Tables w.state (started (ordered w order) ⟨w, []⟩).now ∧
      (started (ordered w order) ⟨w, []⟩).now.order = order :=
    ⟨⟨rfl, rfl, rfl⟩, rfl⟩
  refine (seen_of_within (M := cluster) (A := fun _ => False) (R := fun v => Tables w.state v ∧ v.order = order)
    (fun _ _ h _ => h.elim) (fun _ _ hc hv => ⟨tables_commit hc hv.1, hv.2⟩) (survey_passes F src r w.now) []
    nofun (started (ordered w order) ⟨w, []⟩) hstart ?_).1
  intro v hv
  rcases mem_cons.1 hv with rfl | hv
  · exact hstart
  · rw [mem_singleton.1 hv]
    exact ⟨⟨rfl, rfl, rfl⟩, rfl⟩

def favour (h d x : String) : Nat := if x = h then 0 else if x = d then 1 else 2

section Favoured

omit [Field K] [LinearOrder K]

theorem nodup_samples (s : State) : ((samples src s).map (·.1)).Nodup := by
  refine (((listing_perm { state := s, index := 0, now := 0 } s.nodes).filterMap _).map _).nodup_iff.1 ?_
  exact nodup_sampled src { state := s, index := 0, now := 0 }

variable {s : State} {v : World} {hosts : List (String × Snapshot K)} {h d : String}
  (hv : v.order = favour h d) (hperm : hosts.Perm (samples src s))

include hv hperm

theorem favoured_first (hmem : h ∈ (ranged hosts v).map (·.1)) : ∃ snap rest, ranged hosts v = (h, snap) :: rest := by
  obtain ⟨e, he, rfl⟩ := mem_map.1 hmem
  have hnodup : (hosts.map (·.1)).Nodup := (hperm.map _).nodup_iff.2 (nodup_samples s)
  obtain ⟨before, after, hsplit, hbefore⟩ := split_of_rank v.order hnodup ((perm_insertionSort _ _).mem_iff.1 he)
  cases before with
  | nil => exact ⟨e.2, after, hsplit⟩
  | cons b before =>
    obtain ⟨hrank, hne⟩ := hbefore b mem_cons_self
    rw [hv, favour, favour, if_neg hne, if_pos rfl] at hrank
    split at hrank
    · omega
    · omega

theorem favoured_second (hne : d ≠ h) : (ranged hosts v).Pairwise (fun a b => b.1 = d → a.1 = h) := by
  have hnodup : (hosts.map (·.1)).Nodup := (hperm.map _).nodup_iff.2 (nodup_samples s)
  have hkeys : (ranged hosts v).Pairwise (fun a b => a.1 ≠ b.1) :=
    pairwise_map.1 (((perm_insertionSort _ hosts).map _).nodup_iff.2 hnodup)
  have hsorted : (ranged hosts v).Pairwise (fun a b => v.order a.1 ≤ v.order b.1) := by
    have : Std.Total (fun a b : String × Snapshot K => v.order a.1 ≤ v.order b.1) := ⟨fun a b => Nat.le_total _ _⟩
    have : IsTrans (String × Snapshot K) (fun a b => v.order a.1 ≤ v.order b.1) := ⟨fun _ _ _ => Nat.le_trans⟩
    exact pairwise_insertionSort _ _
  refine (hkeys.and hsorted).imp (fun {a b} hab hb => ?_)
  obtain ⟨hdiffer, hrank⟩ := hab
  by_contra haway
  rw [hv, favour, favour, if_neg haway, hb, if_neg hne, if_pos rfl] at hrank
  split at hrank
  · rename_i had
    exact hdiffer (had.trans hb.symm)
  · omega

end Favoured

theorem best_is_chosen (hleader : w.leader = true) {h : String} {rep : ReplicaDesired} {dst : String × Snapshot K}
    (hhot : Hottest (pressed F src r w.now w.state) (samples src w.state) h)
    (htriggers : Triggers F src r w.now w.state h)
    (hbest : Best src r w.now w.state h rep dst) :
    pair F src r (ordered w (favour h dst.1)) w = some (rep, dst.1) := by
  have hfinds : Finds F src r w.now w.state _ _ := ordered_finds F hleader (favour h dst.1)
    (P := fun dsts => dsts.Pairwise (fun a b => b.1 = dst.1 → a.1 = h) ∧
      (extremes (pressed F src r w.now w.state) dsts).hotHost = h)
    (fun v hosts hv hperm => ⟨favoured_second hv hperm hbest.1.away, hotHost_of_first _ ?_ (favoured_first hv hperm)⟩)
  · rw [pair, first_destination F hfinds htriggers hbest]
    rfl
  · exact hottest_of_perm _ ((perm_insertionSort _ _).trans hperm) hhot

theorem host_is_chosen (hleader : w.leader = true) {h : String}
    (hhot : Hottest (pressed F src r w.now w.state) (samples src w.state) h) :
    ∀ p ∈ pair F src r (ordered w (favour h h)) w, p.1.host = h := by
  have hfinds : Finds F src r w.now w.state _ _ := ordered_finds F hleader (favour h h)
    (P := fun dsts => (extremes (pressed F src r w.now w.state) dsts).hotHost = h)
    (fun v hosts hv hperm => hotHost_of_first _
      (hottest_of_perm _ ((perm_insertionSort _ _).trans hperm) hhot) (favoured_first hv hperm))
  intro p hp
  obtain ⟨x, hx, rfl⟩ := Option.map_eq_some_iff.1 hp
  rw [hx] at hfinds
  obtain ⟨ranges, hranges, -, -, rep, dst, hbest, rfl⟩ := best_of_finds F hfinds
  exact hbest.1.host.trans hranges

theorem best_of_pair (hleader : w.leader = true) (hgs : Reorders w gs)
    {p : ReplicaDesired × String} (hp : pair F src r gs w = some p) :
    ∃ h dst, Hottest (pressed F src r w.now w.state) (samples src w.state) h ∧ Triggers F src r w.now w.state h ∧
      Best src r w.now w.state h p.1 dst ∧ dst.1 = p.2 := by
  obtain ⟨x, hx, rfl⟩ := Option.map_eq_some_iff.1 hp
  have hfinds : Finds F src r w.now w.state _ _ := chosen_finds F hleader hgs
  rw [hx] at hfinds
  obtain ⟨ranges, -, hperm, htriggers, rep, dst, hbest, rfl⟩ := best_of_finds F hfinds
  exact ⟨_, dst, hottest_of_perm _ hperm.symm (hottest_hotHost _ ranges), htriggers, hbest, rfl⟩

theorem pair_of_unrivalled (hleader : w.leader = true) (hunrivalled : Unrivalled F src r w.now w.state)
    {gs' : List (Gap Others)} (hgs : Reorders w gs) (hgs' : Reorders w gs') {p : ReplicaDesired × String}
    (hp : pair F src r gs w = some p) : pair F src r gs' w = some p := by
  obtain ⟨h, dst, hhot, htriggers, hbest, hdst⟩ := best_of_pair F hleader hgs hp
  obtain ⟨honly, hdsts⟩ := hunrivalled h p.1 dst hhot htriggers hbest
  have hfinds : Finds F src r w.now w.state _ _ := chosen_finds F hleader hgs'
  obtain ⟨x, hx⟩ := found_of_survives F hfinds (h := h)
    (fun ranges _ hperm => honly _ (hottest_of_perm _ hperm.symm (hottest_hotHost _ ranges))) htriggers hbest.1
  have hp' : pair F src r gs' w = some (x.c.replica, x.c.dst) := by rw [pair, hx]; rfl
  obtain ⟨h', dst', hhot', -, hbest', hdst'⟩ := best_of_pair F hleader hgs' hp'
  cases honly h' hhot'
  have hrep : x.c.replica = p.1 := by
    have hid : x.c.replica.id = p.1.id := id_of_better (hbest'.2 _ dst hbest.1) (hbest.2 _ dst' hbest'.1)
    have hstored := hbest'.1.stored
    rw [hid, hbest.1.stored] at hstored
    exact (Option.some.inj hstored).symm
  rw [hp']
  refine congrArg some (Prod.ext hrep ?_)
  have hsurvives := hbest'.1
  rw [show (x.c.replica, x.c.dst).1 = p.1 from hrep] at hsurvives
  exact hdst'.symm.trans ((hdsts dst' hsurvives).trans hdst)

theorem same_pair_iff (src : Source K) (r : Rebalancer K) (w : World) :
    (∀ gs gs', Reorders w gs → Reorders w gs' → pair F src r gs w = pair F src r gs' w) ↔
      (w.leader = true → Unrivalled F src r w.now w.state) := by
  constructor
  · intro hsame hleader h rep dst hhot htriggers hbest
    have hpair := best_is_chosen F hleader hhot htriggers hbest
    refine ⟨fun h' hhot' => ?_, fun dst' hsurvives' => ?_⟩
    · have hother := host_is_chosen F hleader hhot' (rep, dst.1) (by
        rw [hsame _ _ (ordered_reorders _) (ordered_reorders (favour h dst.1)), hpair]
        rfl)
      exact hother.symm.trans hbest.1.host
    · -- the score does not look at the destination
      have hbest' : Best src r w.now w.state h rep dst' := ⟨hsurvives', hbest.2⟩
      have hpair' := best_is_chosen F hleader hhot htriggers hbest'
      rw [hsame _ _ (ordered_reorders _) (ordered_reorders (favour h dst.1)), hpair] at hpair'
      exact (congrArg Prod.snd (Option.some.inj hpair')).symm
  · intro hunrivalled gs gs' hgs hgs'
    by_cases hleader : w.leader = true
    · have hsame := hunrivalled hleader
      cases hp : pair F src r gs w with
      | some p => rw [pair_of_unrivalled F hleader hsame hgs hgs' hp]
      | none =>
        cases hp' : pair F src r gs' w with
        | none => rfl
        | some p =>
          rw [pair_of_unrivalled F hleader hsame hgs' hgs hp'] at hp
          cases hp
    · rw [pair, pair, chosen_reordered F hgs, chosen_reordered F hgs', if_neg hleader, if_neg hleader]

namespace Tie

def crowded : World :=
  (Relocation.Traffic.Sample.joined "node-c" (1 / 10)).foldl (fun w c => w.commit c) Heat.start

def destination (order : String → Nat) : Option String :=
  (pair Sample.floats (Sample.pressures crowded) (Sample.warmed crowded) (ordered crowded order) crowded).map (·.2)

end Tie

open Tie in
theorem destination_by_map_order :
    destination (favour "node-a" "node-b") = some "node-b" ∧ destination (favour "node-a" "node-c") = some "node-c" ∧
      ¬ ∀ gs gs', Reorders crowded gs → Reorders crowded gs' →
        pair Sample.floats (Sample.pressures crowded) (Sample.warmed crowded) gs crowded =
          pair Sample.floats (Sample.pressures crowded) (Sample.warmed crowded) gs' crowded := by
  have hb : destination (favour "node-a" "node-b") = some "node-b" := by decide +kernel
  have hc : destination (favour "node-a" "node-c") = some "node-c" := by decide +kernel
  refine ⟨hb, hc, fun hsame => ?_⟩
  have hpairs := hsame _ _ (ordered_reorders (favour "node-a" "node-b")) (ordered_reorders (favour "node-a" "node-c"))
  rw [destination, hpairs] at hb
  exact absurd (hb.symm.trans hc) (by decide)

end Jaco.Rebalance
