import Jaco.RaftConfiguration
import Jaco.Manifest
import Jaco.Runs

namespace Jaco.Membership

open RaftConfiguration Runs List

def maxVoters : Nat := 7

def target (members : Nat) : Nat :=
  if members = 0 then 0
  else if members ≥ maxVoters then maxVoters
  else if members % 2 = 1 then members
  else members - 1

def pickPromote (nonvoters : List String) (eligible : String → Bool) : String :=
  (sortNames (nonvoters.filter eligible)).headD ""

/-- The voters other than `self`, in the order in which they are picked for demotion. -/
def demotionOrder (voters : List String) (self : String) : List String :=
  (voters.filter (· ≠ self)).insertionSort (· ≥ ·)

def pickDemote (voters : List String) (self : String) : String := (demotionOrder voters self).headD ""

structure Reconciler where
  selfID : String
  promoteAfter : Int
  firstSeen : String → Option Timestamp := fun _ => none

structure Moment where
  now : Timestamp
  leader : Bool := true
  readable : Bool := true
  commits : Bool := true

structure Cluster where
  reconciler : Reconciler
  config : Configuration

def observe (firstSeen : String → Option Timestamp) (c : Configuration) (now : Timestamp) : String → Option Timestamp :=
  fun id => if id ∈ c.servers.map (·.id) then some ((firstSeen id).getD now) else none

def eligible (r : Reconciler) (now : Timestamp) (id : String) : Bool :=
  match r.firstSeen id with
  | some seenAt => now - seenAt ≥ r.promoteAfter
  | none => false

def tick (s : Cluster) (m : Moment) : Cluster :=
  if !m.leader then { s with reconciler := { s.reconciler with firstSeen := fun _ => none } }
  else if !m.readable then s
  else
    let r := { s.reconciler with firstSeen := observe s.reconciler.firstSeen s.config m.now }
    let voters := sortNames s.config.voters
    let nonvoters := sortNames s.config.nonvoters
    let aim := target s.config.servers.length
    if voters.length < aim then
      let pick := pickPromote nonvoters (eligible r m.now)
      if pick = "" then ⟨r, s.config⟩
      else
        match s.config.address pick with
        | none => ⟨r, s.config⟩
        | some addr =>
          if addr = "" then ⟨r, s.config⟩
          else ⟨r, if m.commits then s.config.addVoter pick addr else s.config⟩
    else if voters.length > aim then
      let pick := pickDemote voters r.selfID
      if pick = "" then ⟨r, s.config⟩
      else ⟨r, if m.commits then s.config.demoteVoter pick else s.config⟩
    else ⟨r, s.config⟩

theorem target_le (n : Nat) : target n ≤ n := by
  unfold target maxVoters
  split_ifs <;> omega

theorem target_pos {n : Nat} (h : 0 < n) : 0 < target n := by
  unfold target maxVoters
  split_ifs <;> omega

theorem mem_sorted {l : List String} {x : String} : x ∈ sortNames l ↔ x ∈ l := (perm_insertionSort _ l).mem_iff

theorem length_sorted (l : List String) : (sortNames l).length = l.length := (perm_insertionSort _ l).length_eq

theorem headD_mem {l : List String} (h : l ≠ []) : l.headD "" ∈ l := by
  cases l with
  | nil => exact absurd rfl h
  | cons x l => exact mem_cons_self

theorem mem_demotionOrder {voters : List String} {self v : String} :
    v ∈ demotionOrder voters self ↔ v ∈ voters ∧ v ≠ self := by
  rw [demotionOrder, (perm_insertionSort _ _).mem_iff, mem_filter, decide_eq_true_eq]

theorem pickPromote_mem {nonvoters : List String} {ok : String → Bool} (h : ∃ id ∈ nonvoters, ok id = true) :
    pickPromote nonvoters ok ∈ nonvoters ∧ ok (pickPromote nonvoters ok) = true := by
  obtain ⟨id, hid, hok⟩ := h
  have hne : sortNames (nonvoters.filter ok) ≠ [] := ne_nil_of_mem (mem_sorted.2 (mem_filter.2 ⟨hid, hok⟩))
  exact mem_filter.1 (mem_sorted.1 (headD_mem hne))

theorem pickDemote_mem {voters : List String} {self : String} (h : ∃ v ∈ voters, v ≠ self) :
    pickDemote voters self ∈ voters ∧ pickDemote voters self ≠ self := by
  obtain ⟨v, hv, hne⟩ := h
  have horder : demotionOrder voters self ≠ [] := ne_nil_of_mem (mem_demotionOrder.2 ⟨hv, hne⟩)
  exact mem_demotionOrder.1 (headD_mem horder)

def distance (c : Configuration) : Nat := ((c.voters.length : Int) - target c.servers.length).natAbs

section Tick

variable (s : Cluster) (m : Moment)

def stamped : Reconciler := { s.reconciler with firstSeen := observe s.reconciler.firstSeen s.config m.now }

theorem exists_other_voter (hmore : target s.config.servers.length < s.config.voters.length) :
    ∃ v ∈ s.config.voters, v ≠ s.reconciler.selfID := by
  have hmembers := s.config.length_voters_nonvoters
  have hpos := target_pos (n := s.config.servers.length) (by omega)
  by_contra hnone
  push Not at hnone
  have hsub : s.config.voters ⊆ [s.reconciler.selfID] := fun v hv => mem_singleton.2 (hnone v hv)
  have hlen := (s.config.nodup_voters.subperm hsub).length_le
  rw [length_singleton] at hlen
  omega

variable (hleader : m.leader = true) (hread : m.readable = true)

include hleader hread

theorem tick_promote (hcommits : m.commits = true) (hless : s.config.voters.length < target s.config.servers.length)
    (hpast : ∃ id ∈ s.config.nonvoters, eligible (stamped s m) m.now id = true) :
    ∃ id ∈ s.config.nonvoters, ∃ addr, addr ≠ "" ∧ tick s m = ⟨stamped s m, s.config.addVoter id addr⟩ := by
  obtain ⟨id, hid, hok⟩ := hpast
  have hpick := pickPromote_mem ⟨id, mem_sorted.2 hid, hok⟩
  have hmem := mem_sorted.1 hpick.1
  obtain ⟨srv, hsrv, hname⟩ := mem_map.1 hmem
  have hsrv := (mem_filter.1 hsrv).1
  have haddr : s.config.address (pickPromote (sortNames s.config.nonvoters) (eligible (stamped s m) m.now)) =
      some srv.address := by
    rw [← hname]
    exact s.config.address_of_mem hsrv
  have hname' : pickPromote (sortNames s.config.nonvoters) (eligible (stamped s m) m.now) ≠ "" :=
    hname ▸ (s.config.named srv hsrv).1
  refine ⟨_, hmem, srv.address, (s.config.named srv hsrv).2, ?_⟩
  unfold tick
  simp only [hleader, hread, Bool.not_true, Bool.false_eq_true, if_false, length_sorted, if_pos hless]
  change (if pickPromote (sortNames s.config.nonvoters) (eligible (stamped s m) m.now) = "" then _ else _) = _
  rw [if_neg hname']
  change (match s.config.address (pickPromote (sortNames s.config.nonvoters) (eligible (stamped s m) m.now)) with
    | none => _ | some addr => _) = _
  rw [haddr]
  dsimp only
  rw [if_neg (s.config.named srv hsrv).2, hcommits, if_pos rfl]
  rfl

theorem tick_demote (hcommits : m.commits = true) (hmore : target s.config.servers.length < s.config.voters.length) :
    ∃ id ∈ s.config.voters, id ≠ s.reconciler.selfID ∧ tick s m = ⟨stamped s m, s.config.demoteVoter id⟩ := by
  obtain ⟨v, hv, hne⟩ := exists_other_voter s hmore
  have hpick := pickDemote_mem ⟨v, mem_sorted.2 hv, hne⟩
  have hmem := mem_sorted.1 hpick.1
  refine ⟨_, hmem, hpick.2, ?_⟩
  unfold tick
  simp only [hleader, hread, Bool.not_true, Bool.false_eq_true, if_false, length_sorted, if_neg (Nat.not_lt.2 hmore.le),
    gt_iff_lt, if_pos hmore, if_neg (s.config.voter_ne_empty hmem), hcommits, if_true]
  rfl

theorem tick_settled (hsettled : s.config.voters.length = target s.config.servers.length) :
    tick s m = ⟨stamped s m, s.config⟩ := by
  unfold tick
  simp only [hleader, hread, Bool.not_true, Bool.false_eq_true, if_false, length_sorted, hsettled, lt_irrefl]
  rfl

end Tick

variable {c : Configuration} {id : String} {s : Cluster} {t : Timestamp}

theorem distance_addVoter {addr : String} (haddr : addr ≠ "") (hid : id ∈ c.nonvoters)
    (hless : c.voters.length < target c.servers.length) : distance (c.addVoter id addr) + 1 = distance c := by
  obtain ⟨hperm, hmembers⟩ := c.voters_addVoter haddr hid
  have hlen := hperm.length_eq
  rw [length_cons] at hlen
  unfold distance
  rw [hmembers, hlen]
  omega

theorem length_demoteVoter (hid : id ∈ c.voters) : (c.demoteVoter id).voters.length + 1 = c.voters.length := by
  have herase : c.voters.filter (· ≠ id) = c.voters.erase id := by
    rw [c.nodup_voters.erase_eq_filter]
    exact filter_congr (fun v _ => by rw [Bool.eq_iff_iff]; simp)
  rw [c.voters_demoteVoter, herase]
  exact length_erase_add_one hid

theorem distance_demoteVoter (hid : id ∈ c.voters)
    (hmore : target c.servers.length < c.voters.length) : distance (c.demoteVoter id) + 1 = distance c := by
  have hlen := length_demoteVoter hid
  unfold distance
  rw [c.servers_demoteVoter]
  omega

def tickAt (s : Cluster) (t : Timestamp) : Cluster := tick s { now := t }

theorem firstSeen_stamped (hid : id ∈ s.config.nonvoters) (m : Moment) :
    (stamped s m).firstSeen id = some ((s.reconciler.firstSeen id).getD m.now) := by
  obtain ⟨srv, hsrv, rfl⟩ := mem_map.1 hid
  exact if_pos (mem_map_of_mem (mem_filter.1 hsrv).1)

theorem exists_nonvoter (hless : c.voters.length < target c.servers.length) : ∃ id, id ∈ c.nonvoters := by
  have hmembers := c.length_voters_nonvoters
  have htarget := target_le c.servers.length
  exact exists_mem_of_length_pos (by omega)

/-- The leader keeps its vote, and the voters stay as they are or come one closer to their target. -/
def Approaches (s : Cluster) (t : Timestamp) : Prop :=
  s.reconciler.selfID ∈ (tickAt s t).config.voters ∧
    ((tickAt s t).config = s.config ∨ distance (tickAt s t).config + 1 = distance s.config)

/-- At `t` every nonvoter has been seen for the delay, if the first tick that sees it is at `first`. -/
def late (s : Cluster) (first t : Timestamp) : Bool :=
  s.config.nonvoters.all (fun id => s.reconciler.promoteAfter ≤ t - (s.reconciler.firstSeen id).getD first)

theorem eligible_of_late (h : late s t t = true) (hid : id ∈ s.config.nonvoters) :
    eligible (stamped s { now := t }) t id = true := by
  rw [eligible, firstSeen_stamped hid]
  exact all_eq_true.1 h id hid

theorem pickPromote_none {nonvoters : List String} {ok : String → Bool} (h : ¬ ∃ id ∈ nonvoters, ok id = true) :
    pickPromote nonvoters ok = "" := by
  have hnone : nonvoters.filter ok = [] := filter_eq_nil_iff.2 (fun id hid hok => h ⟨id, hid, hok⟩)
  rw [pickPromote, hnone]
  rfl

theorem tick_under (hless : s.config.voters.length < target s.config.servers.length) :
    (∃ id ∈ s.config.nonvoters, ∃ addr, addr ≠ "" ∧
      tickAt s t = ⟨stamped s { now := t }, s.config.addVoter id addr⟩) ∨
    tickAt s t = ⟨stamped s { now := t }, s.config⟩ ∧ late s t t = false := by
  by_cases hpast : ∃ id ∈ s.config.nonvoters, eligible (stamped s { now := t }) t id = true
  · exact .inl (tick_promote s { now := t } rfl rfl rfl hless hpast)
  · have hpick : pickPromote (sortNames s.config.nonvoters) (eligible (stamped s { now := t }) t) = "" :=
      pickPromote_none (fun ⟨id, hid, hok⟩ => hpast ⟨id, mem_sorted.1 hid, hok⟩)
    refine .inr ⟨?_, ?_⟩
    · unfold tickAt tick
      simp only [Bool.not_true, Bool.false_eq_true, if_false, length_sorted, if_pos hless]
      exact if_pos hpick
    · obtain ⟨v, hv⟩ := exists_nonvoter hless
      rw [Bool.eq_false_iff]
      exact fun hlate => hpast ⟨v, hv, eligible_of_late hlate hv⟩

theorem approaches (hself : s.reconciler.selfID ∈ s.config.voters) :
    Approaches s t ∧ (tickAt s t).reconciler.selfID = s.reconciler.selfID ∧
      (tickAt s t).config.servers.length = s.config.servers.length := by
  unfold Approaches
  rcases lt_trichotomy s.config.voters.length (target s.config.servers.length) with hless | hsettled | hmore
  · rcases tick_under (t := t) hless with ⟨id, hid, addr, haddr, htick⟩ | ⟨htick, -⟩
    · obtain ⟨hperm, hmembers⟩ := s.config.voters_addVoter haddr hid
      rw [htick]
      exact ⟨⟨hperm.mem_iff.2 (mem_cons_of_mem id hself), .inr (distance_addVoter haddr hid hless)⟩, rfl, hmembers⟩
    · rw [htick]
      exact ⟨⟨hself, .inl rfl⟩, rfl, rfl⟩
  · rw [show tickAt s t = _ from tick_settled s { now := t } rfl rfl hsettled]
    exact ⟨⟨hself, .inl rfl⟩, rfl, rfl⟩
  · obtain ⟨id, hid, hne, htick⟩ := tick_demote s { now := t } rfl rfl rfl hmore
    rw [show tickAt s t = _ from htick]
    refine ⟨⟨?_, .inr (distance_demoteVoter hid hmore)⟩, rfl, s.config.servers_demoteVoter id⟩
    rw [s.config.voters_demoteVoter]
    exact mem_filter.2 ⟨hself, decide_eq_true hne.symm⟩

theorem ticks_approach (hself : s.reconciler.selfID ∈ s.config.voters) (ts : List Timestamp) :
    Along tickAt Approaches s ts ∧ (run tickAt s ts).config.servers.length = s.config.servers.length := by
  induction ts generalizing s with
  | nil => exact ⟨trivial, rfl⟩
  | cons t ts ih =>
    obtain ⟨happroach, hid, hmembers⟩ := approaches (t := t) hself
    obtain ⟨halong, hlen⟩ := ih (s := tickAt s t) (by rw [hid]; exact happroach.1)
    exact ⟨⟨happroach, halong⟩, hlen.trans hmembers⟩

theorem distance_eq_zero {c : Configuration} (h : c.voters.length = target c.servers.length) : distance c = 0 := by
  rw [distance, h, Int.sub_self, Int.natAbs_zero]

theorem distance_of_over (ts : List Timestamp) (hmore : target s.config.servers.length ≤ s.config.voters.length) :
    distance (run tickAt s ts).config ≤ distance s.config - ts.length := by
  induction ts generalizing s with
  | nil => exact le_refl _
  | cons t ts ih =>
    rw [run_cons, length_cons]
    rcases hmore.eq_or_lt with hsettled | hmore
    · have htick := tick_settled s { now := t } rfl rfl hsettled.symm
      have hconfig : (tickAt s t).config = s.config := by rw [tickAt, htick]
      have hrun := ih (s := tickAt s t) (by rw [hconfig]; exact hsettled.le)
      rw [hconfig] at hrun
      have hzero := distance_eq_zero hsettled.symm
      omega
    · obtain ⟨id, hid, -, htick⟩ := tick_demote s { now := t } rfl rfl rfl hmore
      have hconfig : (tickAt s t).config = s.config.demoteVoter id := congrArg Cluster.config htick
      have hlen := length_demoteVoter hid
      have hstep := distance_demoteVoter hid hmore
      have hrun := ih (s := tickAt s t) (by rw [hconfig, s.config.servers_demoteVoter]; omega)
      rw [hconfig] at hrun
      omega

/-- A nonvoter that is left keeps its stamp, so what is late before the tick is late after it. -/
theorem late_stamped {first : Timestamp} {config : Configuration}
    (hstamp : ∀ id ∈ s.config.nonvoters, (stamped s { now := t }).firstSeen id =
      some ((s.reconciler.firstSeen id).getD first))
    (hsub : config.nonvoters ⊆ s.config.nonvoters) {u : Timestamp} (hu : late s first u = true) :
    late ⟨stamped s { now := t }, config⟩ first u = true := by
  rw [late, all_eq_true]
  intro id hid
  rw [hstamp id (hsub hid)]
  exact all_eq_true.1 hu id (hsub hid)

/-- What a nonvoter is stamped with by the next tick does not change after it. -/
theorem distance_of_under (ts : List Timestamp) (first : Timestamp)
    (hless : s.config.voters.length ≤ target s.config.servers.length)
    (hfirst : ∀ id ∈ s.config.nonvoters, ∀ t ∈ ts.head?,
      (s.reconciler.firstSeen id).getD t = (s.reconciler.firstSeen id).getD first) :
    distance (run tickAt s ts).config ≤ distance s.config - (ts.filter (late s first)).length := by
  induction ts generalizing s with
  | nil => exact le_refl _
  | cons t ts ih =>
    have hstamp : ∀ id ∈ s.config.nonvoters, (stamped s { now := t }).firstSeen id =
        some ((s.reconciler.firstSeen id).getD first) := by
      intro id hid
      rw [firstSeen_stamped hid, ← hfirst id hid t rfl]
    have hlate : late s t t = late s first t := by
      rw [Bool.eq_iff_iff, late, late, all_eq_true, all_eq_true]
      exact forall₂_congr (fun id hid => by rw [hfirst id hid t rfl])
    have hrest : ∀ config : Configuration, config.nonvoters ⊆ s.config.nonvoters →
        (tickAt s t) = ⟨stamped s { now := t }, config⟩ → config.voters.length ≤ target config.servers.length →
        distance (run tickAt (tickAt s t) ts).config ≤ distance config - (ts.filter (late s first)).length := by
      intro config hsub htick hle
      have hmono : ∀ u, late s first u = true → late (tickAt s t) first u = true :=
        fun u hu => htick ▸ late_stamped hstamp hsub hu
      have hcount := (monotone_filter_right ts hmono).length_le
      have hrun := ih (s := tickAt s t) (by rw [htick]; exact hle) (by
        rw [htick]
        intro id hid u _
        rw [hstamp id (hsub hid)]
        rfl)
      rw [show (tickAt s t).config = config from congrArg Cluster.config htick] at hrun
      omega
    rw [run_cons]
    rcases hless.eq_or_lt with hsettled | hless
    · have hrun := hrest s.config (Subset.refl _) (tick_settled s { now := t } rfl rfl hsettled) hsettled.le
      have hzero := distance_eq_zero hsettled
      omega
    · rcases tick_under (t := t) hless with ⟨id, hid, addr, haddr, htick⟩ | ⟨htick, hearly⟩
      · obtain ⟨hperm, hmembers⟩ := s.config.voters_addVoter haddr hid
        have hstep := distance_addVoter haddr hid hless
        have hrun := hrest _ (fun _ hv => s.config.nonvoters_addVoter hv) htick (by
          rw [hmembers, hperm.length_eq, length_cons]
          omega)
        have hcount := (filter_sublist (p := late s first) (l := t :: ts)).length_le
        rw [filter_cons]
        split
        · rw [length_cons]
          omega
        · omega
      · rw [filter_cons, if_neg (by rw [← hlate, hearly]; decide)]
        exact hrest s.config (Subset.refl _) htick hless.le

theorem ticks_reach_target (s : Cluster) (hself : s.reconciler.selfID ∈ s.config.voters) (first : Timestamp)
    (ts : List Timestamp) :
    Along tickAt Approaches s (first :: ts) ∧
      (distance s.config ≤ ((first :: ts).filter (late s first)).length →
        (run tickAt s (first :: ts)).config.voters.length = target s.config.servers.length) := by
  obtain ⟨halong, hmembers⟩ := ticks_approach hself (first :: ts)
  refine ⟨halong, fun hlen => ?_⟩
  have hzero : distance (run tickAt s (first :: ts)).config = 0 := by
    rcases le_total s.config.voters.length (target s.config.servers.length) with hless | hmore
    · have hrun := distance_of_under (first :: ts) first hless (fun id _ t ht => by cases ht; rfl)
      omega
    · have hcount := (filter_sublist (p := late s first) (l := first :: ts)).length_le
      have hrun := distance_of_over (first :: ts) hmore
      omega
  rw [distance, Int.natAbs_eq_zero, Int.sub_eq_zero, hmembers] at hzero
  exact_mod_cast hzero

namespace Sample

def trio : Cluster where
  reconciler := { selfID := "a", promoteAfter := 3 }
  config :=
    { servers := [⟨"a", "a:7000", .voter⟩, ⟨"b", "b:7000", .nonvoter⟩, ⟨"c", "c:7000", .nonvoter⟩]
      nodup := by decide
      named := by decide }

end Sample

theorem trio_reaches_three_voters : (run tickAt Sample.trio [0, 1, 3, 4]).config.voters.length = 3 :=
  (ticks_reach_target Sample.trio (by decide) 0 [1, 3, 4]).2 (by decide +kernel)

end Jaco.Membership
