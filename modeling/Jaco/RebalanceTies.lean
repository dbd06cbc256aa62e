import Jaco.RebalanceOrders

namespace Jaco.Rebalance

open Interleaving KeyedFolds Scheduler List

variable {K : Type} [Field K] [LinearOrder K] (F : Floats K)

section Statement

variable (src : Source K) (r : Rebalancer K)

def Reorders (w : World) (gs : List (Gap Others)) : Prop :=
  Calm (fun o => Inert o ∧ o.elapsed = 0 ∧ o.leader = w.leader) gs

def pair (gs : List (Gap Others)) (w : World) : Option (ReplicaDesired × String) :=
  (chosen F src r gs ⟨w, []⟩).map (fun x => (x.c.replica, x.c.dst))

variable (now : Timestamp) (s : State)

def samples : List (String × Snapshot K) := sampled src s.nodes.list

def pressed : Rebalancer K := r.fold F now (samples src s)

structure Triggers (h : String) : Prop where
  enough : 2 ≤ (samples src s).length
  due : r.cfg.consecutiveCycles ≤ ((pressed F src r now s).countOver (samples src s)).consecutiveOverThreshold h
  gap : r.cfg.imbalanceGap ≤
    hottest (pressed F src r now s) (samples src s) - coldest (pressed F src r now s) (samples src s)

def offer (h : String) (rep : ReplicaDesired) (dst : String × Snapshot K) : MoveCandidate K :=
  candidate src h (samples src s) s.replicasDesired.list rep (declaredSpec s rep) dst

structure Survives (h : String) (rep : ReplicaDesired) (dst : String × Snapshot K) : Prop where
  stored : s.replicasDesired.get rep.id = some rep
  host : rep.host = h
  cooled : ∀ t ∈ r.lastReplicaMoveAt rep.id, r.cfg.cooldownReplica ≤ now - t
  sampled : dst ∈ samples src s
  away : dst.1 ≠ h
  gate : (gate r now (offer src s h rep dst)).1 = .none

def scored (c : MoveCandidate K) : Scored K := ⟨c, score c⟩

def Best (h : String) (rep : ReplicaDesired) (dst : String × Snapshot K) : Prop :=
  Survives src r now s h rep dst ∧ ∀ rep' dst', Survives src r now s h rep' dst' →
    better (scored (offer src s h rep dst)) (scored (offer src s h rep' dst')) = true

/-- If there is a move to make, its source is the only host of the highest pressure, and its replica has nowhere else to
go. -/
def Unrivalled : Prop :=
  ∀ h rep dst, Hottest (pressed F src r now s) (samples src s) h → Triggers F src r now s h →
    Best src r now s h rep dst →
    (∀ h', Hottest (pressed F src r now s) (samples src s) h' → h' = h) ∧
      ∀ dst', Survives src r now s h rep dst' → dst'.1 = dst.1

end Statement

section Better

omit [Field K]

theorem better_iff (a b : Scored K) :
    better a b = true ↔ b.score < a.score ∨ a.score = b.score ∧ a.c.replica.id ≤ b.c.replica.id := by
  simp [better]

instance : Std.Total (fun a b : Scored K => better a b = true) where
  total a b := by
    simp only [better_iff]
    rcases lt_trichotomy a.score b.score with h | h | h
    · exact .inr (.inl h)
    · rcases le_total a.c.replica.id b.c.replica.id with hid | hid
      · exact .inl (.inr ⟨h, hid⟩)
      · exact .inr (.inr ⟨h.symm, hid⟩)
    · exact .inl (.inl h)

instance : IsTrans (Scored K) (fun a b => better a b = true) where
  trans a b c hab hbc := by
    rw [better_iff] at hab hbc ⊢
    rcases hab with hab | ⟨hab, hid⟩
    · rcases hbc with hbc | ⟨hbc, -⟩
      · exact .inl (hbc.trans hab)
      · exact .inl (hbc ▸ hab)
    · rcases hbc with hbc | ⟨hbc, hid'⟩
      · exact .inl (hab ▸ hbc)
      · exact .inr ⟨hab.trans hbc, hid.trans hid'⟩

theorem id_of_better {a b : Scored K} (hab : better a b = true) (hba : better b a = true) :
    a.c.replica.id = b.c.replica.id := by
  rw [better_iff] at hab hba
  rcases hab with hab | ⟨hscore, hid⟩
  · rcases hba with hba | ⟨hscore, -⟩
    · exact absurd hab hba.asymm
    · exact absurd hscore hab.ne
  · rcases hba with hba | ⟨-, hid'⟩
    · exact absurd hscore hba.ne
    · exact le_antisymm hid hid'

end Better

section Weighing

variable {R : World → Prop} {G : Command → Prop}

theorem within_foldlM_blocks {α β : Type} {B : α → List β → Prop} (f : List β → α → Task (List β)) (l : List α)
    (b : List β) (hstep : ∀ a ∈ l, ∀ b, Within R G (fun out => ∃ x, B a x ∧ out = b ++ x) (f b a)) :
    Within R G (fun out => ∃ xs, List.Forall₂ B l xs ∧ out = b ++ xs.flatten) (l.foldlM f b) := by
  induction l generalizing b with
  | nil => exact within_ret ⟨[], .nil, (append_nil b).symm⟩
  | cons a l ih =>
    rw [foldlM_cons]
    refine within_bind (hstep a mem_cons_self b) ?_
    rintro out ⟨x, hx, rfl⟩
    refine within_mono (ih (b ++ x) (fun a' ha' => hstep a' (mem_cons_of_mem a ha'))) ?_
    rintro out ⟨xs, hxs, rfl⟩
    exact ⟨x :: xs, .cons hx hxs, by rw [flatten_cons, append_assoc]⟩

variable (src : Source K) (r : Rebalancer K) (now : Timestamp) (s : State) (h : String)

def picked (c : String × Snapshot K → MoveCandidate K) (dst : String × Snapshot K) : Option (Scored K) :=
  if dst.1 = h then none else if (gate r now (c dst)).1 = .none then some (scored (c dst)) else none

def Cooling (rep : ReplicaDesired) : Prop := ∃ t ∈ r.lastReplicaMoveAt rep.id, now - t < r.cfg.cooldownReplica

inductive Adds (P : List (String × Snapshot K) → Prop) (rep : ReplicaDesired) : List (Scored K) → Prop where
  | none (hout : rep.host ≠ h ∨ Cooling r now rep) : Adds P rep []
  | some (hhost : rep.host = h) (hcooled : ¬ Cooling r now rep) {dsts : List (String × Snapshot K)} (hdsts : P dsts)
      (hperm : dsts.Perm (samples src s)) : Adds P rep (dsts.filterMap (picked r now h (offer src s h rep)))

variable {src r now s h}

variable {rep : ReplicaDesired} {P : List (String × Snapshot K) → Prop}

theorem weighMove_adds {hosts : List (String × Snapshot K)} {placed : List ReplicaDesired}
    {spec : Option ServiceSpec} (survived : List (Scored K)) (dst : String × Snapshot K) :
    Within R (fun _ => True) (fun out => ∃ x, x = (picked r now h (candidate src h hosts placed rep spec) dst).toList ∧
      out = survived ++ x) (weighMove F src r now h hosts placed rep spec survived dst) := by
  refine within_mono (Q := fun out => out = survived ++
    (picked r now h (candidate src h hosts placed rep spec) dst).toList) ?_ (fun out hout => ⟨_, rfl, hout⟩)
  rw [weighMove, picked]
  by_cases hself : dst.1 = h
  · rw [if_pos hself, if_pos hself]
    exact within_ret (append_nil survived).symm
  · rw [if_neg hself, if_neg hself]
    dsimp only
    by_cases hpass : (gate r now (candidate src h hosts placed rep spec dst)).1 = .none
    · rw [if_pos hpass, if_neg (not_not.2 hpass)]
      exact within_ret rfl
    · rw [if_neg hpass, if_pos hpass]
      exact within_bind_any (within_trivial _) (fun _ => within_ret (append_nil survived).symm)

theorem weighReplica_adds (hR : ∀ w, R w → Tables s w)
    {hosts : List (String × Snapshot K)} (hhosts : hosts.Perm (samples src s)) (hnodup : (hosts.map (·.1)).Nodup)
    (hP : ∀ w, R w → P (ranged hosts w)) {placed : List ReplicaDesired} (hplaced : placed.Perm s.replicasDesired.list)
    (survived : List (Scored K)) (rep : ReplicaDesired) :
    Within R (fun _ => True) (fun out => ∃ x, Adds src r now s h P rep x ∧ out = survived ++ x)
      (weighReplica F src r now h hosts placed survived rep) := by
  rw [weighReplica]
  split
  · rename_i haway
    exact within_ret ⟨[], .none (.inl haway), (append_nil survived).symm⟩
  · rename_i hhost
    refine within_bind (within_read (Q := fun spec => spec = declaredSpec s rep) _ (fun w hw => ?_)) ?_
    · rw [Relocation.serviceSpec, (hR w hw).2.2]
      rfl
    rintro spec rfl
    have hcooling : (r.lastReplicaMoveAt rep.id).any (fun t => now - t < r.cfg.cooldownReplica) = true ↔
        Cooling r now rep := by
      rw [Cooling]
      cases r.lastReplicaMoveAt rep.id with
      | none => simp
      | some t => simp
    split
    · rename_i hcool
      exact within_bind_any (within_trivial _) (fun _ =>
        within_ret ⟨[], .none (.inr (hcooling.1 hcool)), (append_nil survived).symm⟩)
    · rename_i hcool
      refine within_bind (within_read (Q := fun dsts => P dsts ∧ dsts.Perm hosts) _
        (fun w hw => ⟨hP w hw, perm_insertionSort _ _⟩)) ?_
      rintro dsts ⟨hdsts, hperm⟩
      refine within_mono (within_foldlM_blocks _ dsts survived (fun dst _ b => weighMove_adds F b dst)) ?_
      rintro out ⟨xs, hxs, rfl⟩
      have hoffer : candidate src h hosts placed rep (declaredSpec s rep) = offer src s h rep :=
        funext (fun dst => candidate_perm hhosts hnodup src h hplaced rep _ dst)
      have hblock : xs.flatten = dsts.filterMap (picked r now h (offer src s h rep)) := by
        rw [← hoffer]
        clear hdsts hperm
        induction hxs with
        | nil => rfl
        | cons hx _ ih =>
          rw [flatten_cons, hx, ih, filterMap_cons]
          cases picked r now h (candidate src h hosts placed rep (declaredSpec s rep)) _ <;> rfl
      exact ⟨_, .some (not_not.1 hhost) (fun hc => hcool (hcooling.2 hc)) hdsts (hperm.trans hhosts), by rw [hblock]⟩

inductive Finds (src : Source K) (r : Rebalancer K) (now : Timestamp) (s : State)
    (P : List (String × Snapshot K) → Prop) :
    Option (Scored K) → Prop where
  | idle {ranges : List (String × Snapshot K)} (hranges : P ranges) (hperm : ranges.Perm (samples src s))
      (hidle : ¬ Triggers F src r now s (extremes (pressed F src r now s) ranges).hotHost) : Finds src r now s P none
  | few (hfew : (samples src s).length < 2) : Finds src r now s P none
  | weighed {ranges : List (String × Snapshot K)} (hranges : P ranges) (hperm : ranges.Perm (samples src s))
      (htriggers : Triggers F src r now s (extremes (pressed F src r now s) ranges).hotHost)
        {replicas : List ReplicaDesired}
      (hreplicas : replicas.Perm s.replicasDesired.list) {blocks : List (List (Scored K))}
      (hblocks : List.Forall₂ (Adds src r now s (extremes (pressed F src r now s) ranges).hotHost P) replicas blocks) :
      Finds src r now s P (blocks.flatten.insertionSort (fun a b => better a b)).head?

theorem survey_finds_move (hR : ∀ w, R w → Tables s w)
    (hP : ∀ w hosts, R w → hosts.Perm (samples src s) → P (ranged hosts w)) :
    Within R (fun _ => True) (fun res => Finds F src r now s P res.2) (survey F src r now) := by
  refine within_bind (within_read (Q := fun nodes => nodes.Perm s.nodes.list) _
    (fun w hw => (hR w hw).1 ▸ listing_perm w w.state.nodes)) (fun nodes hnodes => ?_)
  have hhosts : (sampled src nodes).Perm (samples src s) := hnodes.filterMap _
  have hnodup : ((sampled src nodes).map (·.1)).Nodup := by
    have hsorted := nodup_sampled src { state := s, index := 0, now := 0 }
    refine ((hhosts.trans ?_).map _).nodup_iff.2 hsorted
    exact (listing_perm _ s.nodes).symm.filterMap _
  have hpressed : r.fold F now (sampled src nodes) = pressed F src r now s := fold_perm F hhosts hnodup r now
  have hcounted : (pressed F src r now s).countOver (sampled src nodes) =
      (pressed F src r now s).countOver (samples src s) :=
    countOver_perm hhosts hnodup _
  dsimp only
  rw [hpressed, hcounted]
  split
  · rename_i hfew
    exact within_ret (.few (hhosts.length_eq ▸ hfew))
  · rename_i hmany
    refine within_bind (within_read (Q := fun ranges => P ranges ∧ ranges.Perm (samples src s)) _
      (fun w hw => ⟨hP w _ hw hhosts, (perm_insertionSort _ _).trans hhosts⟩)) ?_
    rintro ranges ⟨hranges, hperm⟩
    obtain ⟨hhot, hcold, -⟩ := extremes_spec (pressed F src r now s) ranges
    rw [hottest_perm _ hperm] at hhot
    rw [coldest_perm _ hperm] at hcold
    split
    · rename_i hdue
      exact within_ret (.idle hranges hperm (fun htriggers => absurd htriggers.due (not_le.2 hdue)))
    · rename_i hdue
      rw [hhot, hcold]
      split
      · rename_i hgap
        exact within_ret (.idle hranges hperm (fun htriggers => absurd htriggers.gap (not_le.2 hgap)))
      · rename_i hgap
        have htriggers : Triggers F src r now s (extremes (pressed F src r now s) ranges).hotHost :=
          ⟨hhosts.length_eq ▸ not_lt.1 hmany, not_lt.1 hdue, not_lt.1 hgap⟩
        refine within_bind (within_read (Q := fun placed => placed.Perm s.replicasDesired.list) _
          (fun w hw => (hR w hw).2.1 ▸ listing_perm w w.state.replicasDesired)) (fun placed hplaced => ?_)
        refine within_bind (within_read (Q := fun replicas => replicas.Perm s.replicasDesired.list) _
          (fun w hw => (hR w hw).2.1 ▸ listing_perm w w.state.replicasDesired)) (fun replicas hreplicas => ?_)
        refine within_bind (within_foldlM_blocks _ replicas [] (fun rep _ survived =>
          weighReplica_adds F hR hhosts hnodup (fun w hw => hP w _ hw hhosts) hplaced survived rep)) ?_
        rintro survived ⟨blocks, hblocks, rfl⟩
        rw [nil_append]
        refine within_ret (.weighed hranges hperm htriggers hreplicas (hblocks.imp (fun rep x hx => ?_)))
        -- the gates read nothing of what the samples changed in the memory
        cases hx with
        | none hout => exact .none hout
        | some hhost hcooled hdsts hdperm =>
          have hcooled' : ¬ Cooling r now rep := hcooled
          exact Adds.some hhost hcooled' hdsts hdperm

theorem mem_survivors {replicas : List ReplicaDesired}
    (hreplicas : replicas.Perm s.replicasDesired.list) {blocks : List (List (Scored K))}
    (hblocks : List.Forall₂ (Adds src r now s h P) replicas blocks) (x : Scored K) :
    x ∈ blocks.flatten ↔ ∃ rep dst, Survives src r now s h rep dst ∧ x = scored (offer src s h rep dst) := by
  have hnot : ∀ rep, ¬ Cooling r now rep ↔ ∀ t ∈ r.lastReplicaMoveAt rep.id, r.cfg.cooldownReplica ≤ now - t := by
    intro rep
    rw [Cooling]
    simp only [not_exists, not_and, not_lt]
  constructor
  · intro hx
    obtain ⟨block, hblock, hx⟩ := mem_flatten.1 hx
    obtain ⟨rep, hrep, hadds⟩ := exists_left_of_forall₂ hblocks hblock
    cases hadds with
    | none hout => cases hx
    | some hhost hcooled hdsts hperm =>
      obtain ⟨dst, hdst, hpicked⟩ := mem_filterMap.1 hx
      rw [picked] at hpicked
      split at hpicked
      · cases hpicked
      · rename_i haway
        split at hpicked
        · rename_i hgate
          cases hpicked
          exact ⟨rep, dst, ⟨Store.mem_list.1 (hreplicas.mem_iff.1 hrep), hhost, (hnot rep).1 hcooled,
            hperm.mem_iff.1 hdst,
            haway, hgate⟩, rfl⟩
        · cases hpicked
  · rintro ⟨rep, dst, hsurvives, rfl⟩
    have hflip : List.Forall₂ (fun x rep => Adds src r now s h P rep x) blocks replicas := List.Forall₂.flip hblocks
    obtain ⟨block, hblock, hadds⟩ :=
      exists_left_of_forall₂ hflip (hreplicas.mem_iff.2 (Store.mem_list.2 hsurvives.stored))
    refine mem_flatten.2 ⟨block, hblock, ?_⟩
    cases hadds with
    | none hout =>
      rcases hout with hhost | hcooling
      · exact absurd hsurvives.host hhost
      · exact absurd hcooling ((hnot rep).2 hsurvives.cooled)
    | some hhost hcooled hdsts hperm =>
      refine mem_filterMap.2 ⟨dst, hperm.mem_iff.2 hsurvives.sampled, ?_⟩
      rw [picked, if_neg hsurvives.away, if_pos hsurvives.gate]

theorem best_of_finds {x : Scored K} (hfinds : Finds F src r now s P (some x)) :
    ∃ ranges, P ranges ∧ ranges.Perm (samples src s) ∧
      Triggers F src r now s (extremes (pressed F src r now s) ranges).hotHost ∧
      ∃ rep dst, Best src r now s (extremes (pressed F src r now s) ranges).hotHost rep dst ∧
        x = scored (offer src s (extremes (pressed F src r now s) ranges).hotHost rep dst) := by
  generalize hsome : some x = found at hfinds
  cases hfinds with
  | idle => cases hsome
  | few => cases hsome
  | weighed hranges hperm htriggers hreplicas hblocks =>
    obtain ⟨hmem, hbest⟩ := best_of_head _ hsome.symm
    obtain ⟨rep, dst, hsurvives, rfl⟩ := (mem_survivors hreplicas hblocks x).1 hmem
    refine ⟨_, hranges, hperm, htriggers, rep, dst, ⟨hsurvives, fun rep' dst' hsurvives' => ?_⟩, rfl⟩
    exact hbest _ ((mem_survivors hreplicas hblocks _).2 ⟨rep', dst', hsurvives', rfl⟩)

theorem found_of_survives {found : Option (Scored K)} (hfinds : Finds F src r now s P found)
    (honly : ∀ ranges, P ranges → ranges.Perm (samples src s) → (extremes (pressed F src r now s) ranges).hotHost = h)
    (htriggers : Triggers F src r now s h) {dst : String × Snapshot K}
    (hsurvives : Survives src r now s h rep dst) : ∃ x, found = some x := by
  cases hfinds with
  | idle hranges hperm hidle =>
    rw [honly _ hranges hperm] at hidle
    exact absurd htriggers hidle
  | few hfew => exact absurd hfew (not_lt.2 htriggers.enough)
  | weighed hranges hperm htriggers' hreplicas hblocks =>
    rw [honly _ hranges hperm] at hblocks
    have hmem := (mem_survivors hreplicas hblocks _).2 ⟨rep, dst, hsurvives, rfl⟩
    refine Option.ne_none_iff_exists'.1 (fun hnone => ?_)
    have hsort := (perm_insertionSort (fun a b : Scored K => better a b) _).mem_iff.2 hmem
    rw [List.head?_eq_none_iff.1 hnone] at hsort
    exact not_mem_nil hsort

theorem Adds.mono {P' : List (String × Snapshot K) → Prop} (hP : ∀ dsts, P dsts → P' dsts)
    {x : List (Scored K)} (hadds : Adds src r now s h P rep x) : Adds src r now s h P' rep x := by
  cases hadds with
  | none hout => exact .none hout
  | some hhost hcooled hdsts hperm => exact .some hhost hcooled (hP _ hdsts) hperm

theorem pairwise_survivors {dst : String} {replicas : List ReplicaDesired}
    (hreplicas : replicas.Perm s.replicasDesired.list) {blocks : List (List (Scored K))}
    (hblocks : List.Forall₂ (Adds src r now s h (fun dsts => dsts.Pairwise (fun a b => b.1 = dst → a.1 = h)))
      replicas blocks)
    (rep : ReplicaDesired) :
    blocks.flatten.Pairwise (fun a b => b.c.replica = rep → b.c.dst = dst → a.c.replica ≠ rep) := by
  have hpicked : ∀ rep (d : String × Snapshot K) x, picked r now h (offer src s h rep) d = some x →
      x.c.replica = rep ∧ x.c.dst = d.1 ∧ d.1 ≠ h := by
    intro rep d x hx
    rw [picked] at hx
    split at hx
    · cases hx
    · rename_i haway
      split at hx
      · cases hx
        exact ⟨rfl, rfl, haway⟩
      · cases hx
  have hreplica : ∀ rep x, Adds src r now s h (fun dsts => dsts.Pairwise (fun a b => b.1 = dst → a.1 = h)) rep x →
      ∀ a ∈ x, a.c.replica = rep := by
    intro rep x hadds a ha
    cases hadds with
    | none hout => cases ha
    | some hhost hcooled hdsts hperm =>
      obtain ⟨d, -, hd⟩ := mem_filterMap.1 ha
      exact (hpicked rep d a hd).1
  refine pairwise_flatten.2 ⟨fun block hblock => ?_, ?_⟩
  · obtain ⟨rep', -, hadds⟩ := exists_left_of_forall₂ hblocks hblock
    cases hadds with
    | none hout => exact .nil
    | some hhost hcooled hdsts hperm =>
      refine pairwise_filterMap.2 (hdsts.imp (fun {a b} hab x hx y hy _ hdst => ?_))
      obtain ⟨-, -, haway⟩ := hpicked rep' a x hx
      obtain ⟨-, hb, -⟩ := hpicked rep' b y hy
      exact absurd (hab (hb.symm.trans hdst)) haway
  · have hids : replicas.Pairwise (fun a b => a.id ≠ b.id) :=
      pairwise_map.1 ((hreplicas.map _).nodup_iff.2 s.replicasDesired.nodup_list)
    refine pairwise_of_forall₂ hblocks hids (fun a b x y hne hx hy u hu v hv hrep _ hrep' => hne ?_)
    rw [← hreplica a x hx u hu, ← hreplica b y hy v hv, hrep, hrep']

theorem first_destination {found : Option (Scored K)} {dst : String × Snapshot K} (hfinds : Finds F src r now s
      (fun dsts => dsts.Pairwise (fun a b => b.1 = dst.1 → a.1 = h) ∧
        (extremes (pressed F src r now s) dsts).hotHost = h) found)
    (htriggers : Triggers F src r now s h) (hbest : Best src r now s h rep dst) :
    found = some (scored (offer src s h rep dst)) := by
  obtain ⟨x, rfl⟩ := found_of_survives F hfinds (fun _ hranges _ => hranges.2) htriggers hbest.1
  generalize hsome : some x = found at hfinds ⊢
  cases hfinds with
  | idle => cases hsome
  | few => cases hsome
  | weighed hranges hperm _ hreplicas hblocks =>
    rw [hranges.2] at hblocks
    obtain ⟨hmem, hbestx⟩ := best_of_head _ hsome.symm
    obtain ⟨rep', dst', hsurvives, rfl⟩ := (mem_survivors hreplicas hblocks x).1 hmem
    have hthere : scored (offer src s h rep dst) ∈ List.flatten _ :=
      (mem_survivors hreplicas hblocks _).2 ⟨rep, dst, hbest.1, rfl⟩
    have hrep : rep' = rep := by
      have hid : rep'.id = rep.id := id_of_better (hbestx _ hthere) (hbest.2 rep' dst' hsurvives)
      have hstored := hsurvives.stored
      rw [hid, hbest.1.stored] at hstored
      exact (Option.some.inj hstored).symm
    obtain ⟨before, after, hsplit, hfirst⟩ := first_of_head _ hsome.symm
    have hpairs := pairwise_survivors hreplicas (hblocks.imp (fun _ _ hadds => hadds.mono (fun _ hdsts => hdsts.1))) rep
    rw [hsplit] at hthere hpairs
    rcases mem_append.1 hthere with hbefore | hthere
    · exact absurd (hbest.2 rep' dst' hsurvives) (hfirst _ hbefore)
    · rcases mem_cons.1 hthere with he | hafter
      · rw [← hsome, ← he]
      · have hx := (pairwise_cons.1 (pairwise_append.1 hpairs).2.1).1 _ hafter rfl rfl
        exact absurd hrep hx

end Weighing

end Jaco.Rebalance
