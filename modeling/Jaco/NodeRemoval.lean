import Jaco.Membership
import Jaco.Admission

namespace Jaco.NodeRemoval

open RaftConfiguration Jaco.Membership List

def removeString (xs : List String) (v : String) : List String := xs.filter (· ≠ v)

/-- The loop of `prepareForRemoval`: the configurations it asks raft for, and the one it leaves behind. -/
def demoteExcess (commits : Configuration → Bool) (self : String) :
    Nat → List String → Configuration → List Configuration × Except Status Configuration
  | 0, _, c => ([], .ok c)
  | n + 1, voters, c =>
    let pick := pickDemote voters self
    if pick = "" then ([], .ok c)
    else
      let c' := c.demoteVoter pick
      if !commits c' then ([c'], .error ⟨.internal, "raft_demote_failed", ""⟩)
      else
        let (issued, result) := demoteExcess commits self n (removeString voters pick) c'
        (c' :: issued, result)

def prepareForRemoval (commits : Configuration → Bool) (readable : Bool) (self leaver : String) (c : Configuration) :
    List Configuration × Except Status Configuration :=
  if !readable then ([], .ok c)
  else
    let rest := c.servers.filter (·.id ≠ leaver)
    let voters := (rest.filter (·.suffrage = .voter)).map (·.id)
    demoteExcess commits self (voters.length - target rest.length) voters c

/-- The configuration changes of `NodeRemove` with `force`, in the order in which raft is asked for them. -/
def changes (commits : Configuration → Bool) (readable : Bool) (self leaver : String) (c : Configuration) :
    List Configuration :=
  match prepareForRemoval commits readable self leaver c with
  | (issued, .error _) => issued
  | (issued, .ok c') => issued ++ [c'.removeServer leaver]

theorem demotionOrder_nodup {voters : List String} (self : String) (h : voters.Nodup) :
    (demotionOrder voters self).Nodup :=
  (perm_insertionSort _ _).nodup_iff.2 (h.sublist filter_sublist)

theorem demotionOrder_tail {voters : List String} {self pick : String} {rest : List String} (hnodup : voters.Nodup)
    (h : demotionOrder voters self = pick :: rest) : demotionOrder (removeString voters pick) self = rest := by
  have hnot : pick ∉ rest := (nodup_cons.1 (h ▸ demotionOrder_nodup self hnodup)).1
  have hsorted : (pick :: rest).Pairwise (· ≥ ·) := by
    rw [← h]
    exact pairwise_insertionSort _ _
  have hfilter : (pick :: rest).filter (· ≠ pick) = rest := by
    rw [filter_cons_of_neg (by simp)]
    exact filter_eq_self.2 (fun v hv => decide_eq_true (fun he => hnot (he ▸ hv)))
  have hperm : (demotionOrder (removeString voters pick) self).Perm rest := by
    have hleft : ((removeString voters pick).filter (· ≠ self)).Perm
        ((demotionOrder voters self).filter (· ≠ pick)) := by
      rw [removeString, filter_comm]
      exact ((perm_insertionSort _ _).filter _).symm
    rw [h, hfilter] at hleft
    exact (perm_insertionSort _ _).trans hleft
  exact hperm.eq_of_pairwise (fun a b _ _ hab hba => le_antisymm hba hab)
    (pairwise_insertionSort _ _) (pairwise_cons.1 hsorted).2

def demoteAll (c : Configuration) (ids : List String) : Configuration := ids.foldl Configuration.demoteVoter c

theorem voters_demoteAll (c : Configuration) (ids : List String) :
    (demoteAll c ids).voters = c.voters.filter (· ∉ ids) := by
  induction ids generalizing c with
  | nil => simp [demoteAll]
  | cons id ids ih =>
    have hstep : demoteAll c (id :: ids) = demoteAll (c.demoteVoter id) ids := rfl
    rw [hstep, ih, c.voters_demoteVoter, filter_filter]
    refine filter_congr (fun v _ => ?_)
    rw [Bool.eq_iff_iff]
    simp [and_comm]

section Issued

variable (commits : Configuration → Bool) (self leaver : String)

def finish : List Configuration × Except Status Configuration → List Configuration
  | (issued, .error _) => issued
  | (issued, .ok c) => issued ++ [c.removeServer leaver]

theorem changes_eq (readable : Bool) (c : Configuration) :
    changes commits readable self leaver c = finish leaver (prepareForRemoval commits readable self leaver c) := by
  unfold changes finish
  split <;> simp_all

theorem prefix_cons_iff {α : Type} {P : List α → Prop} (x : α) (xs : List α) :
    (∀ l, l <+: x :: xs → l ≠ [] → P l) ↔ P [x] ∧ ∀ l, l <+: xs → l ≠ [] → P (x :: l) := by
  constructor
  · intro h
    exact ⟨h [x] (prefix_cons_inj x |>.2 nil_prefix) (cons_ne_nil x []),
      fun l hl _ => h (x :: l) ((prefix_cons_inj x).2 hl) (cons_ne_nil x l)⟩
  · rintro ⟨hone, hmore⟩ l hl hne
    rcases List.prefix_cons_iff.1 hl with rfl | ⟨l', rfl, hl'⟩
    · exact absurd rfl hne
    · cases l' with
      | nil => exact hone
      | cons y l' => exact hmore _ hl' (cons_ne_nil y l')

theorem demoteExcess_nil (n : Nat) {voters : List String} (c : Configuration)
    (horder : demotionOrder voters self = []) :
    demoteExcess commits self n voters c = ([], .ok c) := by
  cases n with
  | zero => rfl
  | succ n =>
    have hpick : pickDemote voters self = "" := by rw [pickDemote, horder]; rfl
    rw [demoteExcess, hpick]
    exact if_pos rfl

theorem demoteExcess_cons (n : Nat) {voters rest : List String} {pick : String} (c : Configuration)
    (horder : demotionOrder voters self = pick :: rest) (hne : pick ≠ "") :
    demoteExcess commits self (n + 1) voters c =
      if commits (c.demoteVoter pick) = false then
        ([c.demoteVoter pick], .error ⟨.internal, "raft_demote_failed", ""⟩)
      else
        (c.demoteVoter pick :: (demoteExcess commits self n (removeString voters pick) (c.demoteVoter pick)).1,
          (demoteExcess commits self n (removeString voters pick) (c.demoteVoter pick)).2) := by
  have hpick : pickDemote voters self = pick := by rw [pickDemote, horder]; rfl
  rw [demoteExcess, hpick]
  refine (if_neg hne).trans ?_
  dsimp only
  cases commits (c.demoteVoter pick) with
  | false => rfl
  | true => rfl

theorem finish_demoteExcess (n : Nat) (voters : List String) (c : Configuration) (hnodup : voters.Nodup)
    (hnamed : ∀ v ∈ voters, v ≠ "") :
    (∀ c' ∈ finish leaver (demoteExcess commits self n voters c), commits c' = true) ↔
      (∀ l, l <+: (demotionOrder voters self).take n → l ≠ [] → commits (demoteAll c l) = true) ∧
        commits ((demoteAll c ((demotionOrder voters self).take n)).removeServer leaver) = true := by
  induction n generalizing voters c with
  | zero => simp [demoteExcess, finish, demoteAll]
  | succ n ih =>
    cases horder : demotionOrder voters self with
    | nil => simp [demoteExcess_nil commits self (n + 1) c horder, finish, demoteAll]
    | cons pick rest =>
      have hpick : pick ∈ voters :=
        (mem_demotionOrder.1 (horder ▸ mem_cons_self : pick ∈ demotionOrder voters self)).1
      have hsub : ∀ v ∈ removeString voters pick, v ≠ "" := fun v hv => hnamed v (mem_filter.1 hv).1
      have hrest := ih (removeString voters pick) (c.demoteVoter pick) (hnodup.sublist filter_sublist) hsub
      have hstep : ∀ l, demoteAll c (pick :: l) = demoteAll (c.demoteVoter pick) l := fun _ => rfl
      rw [demotionOrder_tail hnodup horder] at hrest
      rw [demoteExcess_cons commits self n c horder (hnamed pick hpick), take_succ_cons, prefix_cons_iff]
      simp only [hstep]
      change _ ↔ (commits (c.demoteVoter pick) = true ∧ _) ∧ _
      by_cases hcommit : commits (c.demoteVoter pick) = true
      · rw [if_neg (by rw [hcommit]; exact Bool.false_ne_true.symm), and_iff_right hcommit, ← hrest]
        cases hr : demoteExcess commits self n (removeString voters pick) (c.demoteVoter pick) with
        | mk issued result =>
          cases result with
          | error e => simp [finish, hcommit]
          | ok c' => simp [finish, hcommit]
      · rw [Bool.not_eq_true] at hcommit
        rw [if_pos hcommit]
        simp [finish, hcommit]

end Issued

theorem split_perm {V l : List String} (hV : V.Nodup) (hl : l.Nodup) (hsub : ∀ v ∈ l, v ∈ V) :
    V.Perm (l ++ V.filter (· ∉ l)) := by
  refine (perm_ext_iff_of_nodup hV ?_).2 (fun v => ?_)
  · rw [nodup_append]
    refine ⟨hl, hV.sublist filter_sublist, ?_⟩
    rintro a ha b hb rfl
    exact of_decide_eq_true (mem_filter.1 hb).2 ha
  · rw [mem_append, mem_filter, decide_eq_true_eq]
    by_cases hv : v ∈ l
    · exact ⟨fun _ => Or.inl hv, fun _ => hsub v hv⟩
    · exact ⟨fun h => Or.inr ⟨h, hv⟩, fun h => h.elim (fun h => absurd h hv) (fun h => h.1)⟩

theorem majority_without {V l : List String} (hV : V.Nodup) (hl : l.Nodup) (hsub : ∀ v ∈ l, v ∈ V)
    (live : String → Bool) : (V.filter (· ∉ l)).length < 2 * (V.filter (· ∉ l)).countP live ↔
      V.length + 2 * l.countP live < 2 * V.countP live + l.length := by
  have hperm := split_perm hV hl hsub
  have hlen := hperm.length_eq
  have hcount := hperm.countP_eq live
  rw [length_append] at hlen
  rw [countP_append] at hcount
  omega

variable (live : String → Bool) (self leaver : String) (c : Configuration)

def demoted : List String :=
  (demotionOrder (c.removeServer leaver).voters self).take
    ((c.removeServer leaver).voters.length - target (c.removeServer leaver).servers.length)

/-- Going down the demoted voters, the live ones never outnumber the dead ones by the margin that the live voters
have, and in the end also not by the margin without the leaver. -/
def KeepsMargin : Prop :=
  (∀ l, l <+: demoted self leaver c → l ≠ [] →
    c.voters.length + 2 * l.countP live < 2 * c.voters.countP live + l.length) ∧
  (c.removeServer leaver).voters.length + 2 * (demoted self leaver c).countP live <
    2 * (c.removeServer leaver).voters.countP live + (demoted self leaver c).length

theorem demoted_nodup : (demoted self leaver c).Nodup :=
  (demotionOrder_nodup self (c.removeServer leaver).nodup_voters).sublist (take_sublist _ _)

theorem mem_of_demoted {v : String} (h : v ∈ demoted self leaver c) : v ∈ (c.removeServer leaver).voters :=
  (mem_demotionOrder.1 (mem_of_mem_take h)).1

theorem voters_subset {v : String} (h : v ∈ (c.removeServer leaver).voters) : v ∈ c.voters := by
  rw [c.voters_removeServer] at h
  exact (mem_filter.1 h).1

theorem readable_changes_iff :
    (∀ c' ∈ changes (fun c => decide (c.LiveMajority live)) true self leaver c, c'.LiveMajority live) ↔
      KeepsMargin live self leaver c := by
  have hnodup := (c.removeServer leaver).nodup_voters
  have hall := finish_demoteExcess (fun c => decide (c.LiveMajority live)) self leaver
    ((c.removeServer leaver).voters.length - target (c.removeServer leaver).servers.length)
    (c.removeServer leaver).voters c hnodup (fun v hv => (c.removeServer leaver).voter_ne_empty hv)
  simp only [decide_eq_true_eq] at hall
  rw [changes_eq]
  refine Iff.trans hall (and_congr ?_ ?_)
  · refine forall_congr' (fun l => forall_congr' (fun hl => imp_congr_right (fun _ => ?_)))
    have hnodup' : l.Nodup := (demoted_nodup self leaver c).sublist hl.sublist
    have hsub : ∀ v ∈ l, v ∈ c.voters :=
      fun v hv => voters_subset leaver c (mem_of_demoted self leaver c (hl.subset hv))
    rw [Configuration.LiveMajority, voters_demoteAll]
    exact majority_without c.nodup_voters hnodup' hsub live
  · have hvoters : ((demoteAll c (demoted self leaver c)).removeServer leaver).voters =
        (c.removeServer leaver).voters.filter (· ∉ demoted self leaver c) := by
      rw [Configuration.voters_removeServer, voters_demoteAll, Configuration.voters_removeServer]
      exact filter_comm _ _ _
    change ((demoteAll c (demoted self leaver c)).removeServer leaver).LiveMajority live ↔ _
    rw [Configuration.LiveMajority, hvoters]
    exact majority_without hnodup (demoted_nodup self leaver c) (fun v => mem_of_demoted self leaver c) live

theorem changes_keep_majority_iff (readable : Bool)
    (hmajority : c.voters.length < 2 * (c.voters.filter (· ≠ leaver)).countP live) :
    (∀ c' ∈ changes (fun c => decide (c.LiveMajority live)) readable self leaver c, c'.LiveMajority live) ↔
      (readable = true → KeepsMargin live self leaver c) := by
  cases readable with
  | true => simp only [readable_changes_iff, forall_const]
  | false =>
    simp only [Bool.false_eq_true, false_implies, iff_true]
    intro c' hc'
    rw [changes_eq, prepareForRemoval, Bool.not_false, if_pos rfl, finish, nil_append, mem_singleton] at hc'
    rw [hc', Configuration.LiveMajority, c.voters_removeServer]
    exact lt_of_le_of_lt (length_filter_le _ _) hmajority

namespace Sample

def trio : Configuration where
  servers := [⟨"a", "a:7000", .voter⟩, ⟨"b", "b:7000", .voter⟩, ⟨"c", "c:7000", .voter⟩]
  nodup := by decide
  named := by decide

end Sample

theorem all_alive_keeps_margin : KeepsMargin (fun _ => true) "a" "c" Sample.trio :=
  (changes_keep_majority_iff (fun _ => true) "a" "c" Sample.trio true (by decide)).1 (by decide +kernel) rfl

theorem removing_the_dead_loses_quorum : let live := fun v => decide (v ≠ "c")
    live "a" = true ∧
      2 * (Sample.trio.voters.filter (· ≠ "c")).countP live > Sample.trio.voters.length ∧
      ¬ ∀ c' ∈ changes (fun c => decide (c.LiveMajority live)) true "a" "c" Sample.trio, c'.LiveMajority live := by
  decide +kernel

end Jaco.NodeRemoval
