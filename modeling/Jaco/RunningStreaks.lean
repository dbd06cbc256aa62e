import Jaco.HealthPolls
import Jaco.Streaks

namespace Jaco.RestartPolicy

open Runs Streaks List

abbrev Poll := Timestamp × Except String Inspection

def Poll.saw (x : Poll) : Bool :=
  match x.2 with
  | .ok { state := some st, .. } => st.status = "running"
  | _ => false

def Poll.blind (x : Poll) : Bool :=
  match x.2 with
  | .error _ => true
  | .ok { state := none, .. } => true
  | .ok { state := some st, .. } => st.status = "exited"

def Poll.mark (x : Poll) : Mark := if x.saw then .hit else if x.blind then .idle false else .reset

theorem Poll.hot_mark (x : Poll) : x.mark.hot = x.saw := by
  rw [Poll.mark]
  split
  · rename_i h
    rw [h]
    rfl
  · rename_i h
    split
    · exact (Bool.eq_false_iff.2 h).symm
    · exact (Bool.eq_false_iff.2 h).symm

section Watching

variable {replicaID : String}

def Bare (hasHealthcheck : Bool) (x : Poll) : Prop :=
  hasHealthcheck = true → ∀ info st, x.2 = .ok info → info.state = some st → st.health = none

theorem poll_bare (x : Poll) (rw : ReplicaWatcher replicaID) (h : Bare rw.hasHealthcheck x) :
    (poll x.1 x.2 rw).2.consecutiveRunning = x.mark.tally rw.consecutiveRunning ∧
      ((poll x.1 x.2 rw).1.state = .running ↔
        x.mark = .hit ∧ healthyConsecutiveCount ≤ x.mark.tally rw.consecutiveRunning) := by
  obtain ⟨now, result⟩ := x
  rcases result with err | ⟨_ | st, networks⟩
  · exact ⟨rfl, by simp [poll, Poll.mark, Poll.saw, Poll.blind]⟩
  · exact ⟨rfl, by simp [poll, classify, Poll.mark, Poll.saw, Poll.blind]⟩
  · have hhealth : (if rw.hasHealthcheck then st.health else none) = none := by
      split
      · rename_i hdeclared
        exact h hdeclared _ st rfl rfl
      · rfl
    by_cases hexited : st.status = "exited"
    · simp [poll, classify, Poll.mark, Poll.saw, Poll.blind, hexited, Mark.tally]
    · by_cases hrunning : st.status = "running"
      · have hmark : Poll.mark (now, .ok ⟨some st, networks⟩) = .hit := by simp [Poll.mark, Poll.saw, hrunning]
        rw [hmark]
        simp only [poll, classify, hhealth, if_neg hexited, if_pos hrunning, Mark.tally, true_and]
        split
        · rename_i hcount
          exact ⟨rfl, fun _ => hcount, fun _ => rfl⟩
        · rename_i hcount
          exact ⟨rfl, by simp, fun hle => absurd hle hcount⟩
      · simp [poll, classify, Poll.mark, Poll.saw, Poll.blind, hexited, hrunning, hhealth, Mark.tally]

variable (replicaID) (containerID : String) (hasHealthcheck : Bool)

def watch (polls : List Poll) : ReplicaWatcher replicaID :=
  run (fun rw x => (poll x.1 x.2 rw).2) { containerID := containerID, hasHealthcheck := hasHealthcheck } polls

theorem watch_snoc (polls : List Poll) (x : Poll) : watch replicaID containerID hasHealthcheck (polls ++ [x]) =
      (poll x.1 x.2 (watch replicaID containerID hasHealthcheck polls)).2 :=
  run_append _ _ polls [x]

variable {polls : List Poll}

theorem watch_bare (h : ∀ x ∈ polls, Bare hasHealthcheck x) :
    (watch replicaID containerID hasHealthcheck polls).hasHealthcheck = hasHealthcheck ∧
      (watch replicaID containerID hasHealthcheck polls).consecutiveRunning = streak (polls.map Poll.mark) := by
  induction polls using List.reverseRecOn with
  | nil => exact ⟨rfl, rfl⟩
  | append_singleton polls x ih =>
    obtain ⟨hflag, hcount⟩ := ih (fun y hy => h y (mem_append_left _ hy))
    have hx : Bare (watch replicaID containerID hasHealthcheck polls).hasHealthcheck x := by
      rw [hflag]
      exact h x (mem_append_right _ (mem_singleton_self x))
    rw [watch_snoc, map_append, map_singleton, streak_snoc, ← hcount]
    refine ⟨?_, (poll_bare x _ hx).1⟩
    have hkept : ∀ result (rw : ReplicaWatcher replicaID),
        (poll x.1 result rw).2.hasHealthcheck = rw.hasHealthcheck := by
      intro result rw
      cases result <;> rfl
    exact (hkept x.2 _).trans hflag

def RunningEarned (polls : List Poll) : Prop :=
  ∀ before x after, polls = before ++ x :: after →
    (poll x.1 x.2 (watch replicaID containerID hasHealthcheck before)).1.state = .running →
    Sustained healthyConsecutiveCount ((before ++ [x]).map Poll.saw)

theorem reports_running_iff (h : ∀ x ∈ polls, Bare hasHealthcheck x) (x : Poll) (hx : Bare hasHealthcheck x) :
    (poll x.1 x.2 (watch replicaID containerID hasHealthcheck polls)).1.state = .running ↔
      x.mark = .hit ∧ healthyConsecutiveCount ≤ streak ((polls ++ [x]).map Poll.mark) := by
  obtain ⟨hflag, hcount⟩ := watch_bare replicaID containerID hasHealthcheck h
  rw [map_append, map_singleton, streak_snoc, ← hcount]
  exact (poll_bare x _ (by rw [hflag]; exact hx)).2

theorem map_hot (polls : List Poll) : (polls.map Poll.mark).map Mark.hot = polls.map Poll.saw := by
  rw [map_map]
  exact map_congr_left (fun x _ => x.hot_mark)

def Uncovered (polls : List Poll) : Prop :=
  ∀ before x y after, polls = before ++ x :: y :: after → x.saw = true → y.blind = false

theorem unbroken_of_uncovered (h : Uncovered polls) : Unbroken (polls.map Poll.mark) := by
  refine unbroken_of_pairs (fun before a b after hsplit ha hb => ?_)
  obtain ⟨before', rest, rfl, -, hrest⟩ := map_eq_append_iff.1 hsplit
  obtain ⟨x, rest, rfl, rfl, htail⟩ := map_eq_cons_iff.1 hrest
  obtain ⟨y, after', rfl, rfl, -⟩ := map_eq_cons_iff.1 htail
  have hblind := h before' x y after' rfl (x.hot_mark.symm.trans ha)
  rw [Poll.mark, hblind] at hb
  split at hb
  · cases hb
  · cases hb

theorem earned_of_uncovered (hbare : ∀ x ∈ polls, Bare hasHealthcheck x) (h : Uncovered polls) :
    RunningEarned replicaID containerID hasHealthcheck polls := by
  rintro before x after rfl hrunning
  have hx : Bare hasHealthcheck x := hbare x (mem_append_right _ mem_cons_self)
  obtain ⟨-, hcount⟩ := (reports_running_iff replicaID containerID hasHealthcheck
    (fun y hy => hbare y (mem_append_left _ hy)) x hx).1 hrunning
  have hthere : Uncovered (before ++ [x]) := by
    intro before' x' y' after' hsplit
    refine h before' x' y' (after' ++ after) ?_
    rw [show before ++ x :: after = (before ++ [x]) ++ after by simp, hsplit]
    simp
  have hsustained := sustained_streak (unbroken_of_uncovered hthere)
  rw [map_hot] at hsustained
  exact sustained_of_le hcount hsustained

def up : Poll := (0, .ok { state := some { status := "running" } })

theorem bare_up : Bare hasHealthcheck up := by
  intro _ info st hinfo hst
  cases hinfo
  cases hst
  rfl

theorem uncovered_up (h : Uncovered polls) (n : Nat) : Uncovered (polls ++ List.replicate n up) := by
  induction n with
  | zero => rwa [replicate_zero, append_nil]
  | succ n ih =>
    rw [replicate_succ', ← append_assoc]
    intro before x y after hsplit hx
    cases after using List.reverseRecOn with
    | nil =>
      have hlast : [up] = [y] := (append_inj' (hsplit.trans (append_assoc before [x] [y]).symm) rfl).2
      rw [← singleton_inj.1 hlast]
      decide
    | append_singleton after z =>
      have hinit := append_inj' (hsplit.trans (append_assoc before (x :: y :: after) [z]).symm) rfl
      exact ih before x y after hinit.1 hx

theorem running_earned_iff (polls : List Poll) (hbare : ∀ x ∈ polls, Bare hasHealthcheck x) :
    (∀ first rest, polls = first ++ rest → ∀ n,
      RunningEarned replicaID containerID hasHealthcheck (first ++ List.replicate n up)) ↔ Uncovered polls := by
  constructor
  · intro h before x y after hsplit hx
    by_contra hblind
    rw [Bool.not_eq_false] at hblind
    have hmark : x.mark = .hit := by rw [Poll.mark, if_pos hx]
    have hidle : y.mark = .idle false := by
      have hy : y.saw = false := by
        obtain ⟨t, _ | ⟨_ | st, networks⟩⟩ := y
        · rfl
        · rfl
        · have hexited : st.status = "exited" := by simpa [Poll.blind] using hblind
          simp [Poll.saw, hexited]
      rw [Poll.mark, hy, hblind]
      rfl
    have hcounted : streak ((before ++ [x]).map Poll.mark) ≠ 0 := by
      rw [map_append, map_singleton, hmark, streak_snoc]
      exact Nat.succ_ne_zero _
    obtain ⟨hcount, hnot⟩ := early_of_idle hcounted 4
    have hmarks : (before ++ [x]).map Poll.mark ++ Mark.idle false :: List.replicate 4 Mark.hit =
        (before ++ [x, y] ++ List.replicate 3 up ++ [up]).map Poll.mark := by
      have hup : up.mark = .hit := by decide
      simp [hidle, hup, List.replicate]
    rw [hmarks, map_hot] at hnot
    rw [hmarks] at hcount
    have hfirst := h (before ++ [x, y]) after (by rw [hsplit]; simp) 4
    refine hnot (hfirst (before ++ [x, y] ++ List.replicate 3 up) up [] (by simp [List.replicate]) ?_)
    refine (reports_running_iff replicaID containerID hasHealthcheck (fun z hz => ?_) up (bare_up hasHealthcheck)).2
      ⟨by decide, hcount⟩
    rcases mem_append.1 hz with hz | hz
    · refine hbare z ?_
      rw [hsplit, show before ++ x :: y :: after = before ++ [x, y] ++ after by simp]
      exact mem_append_left _ hz
    · rw [eq_of_mem_replicate hz]
      exact bare_up hasHealthcheck
  · rintro h first rest rfl n
    refine earned_of_uncovered replicaID containerID hasHealthcheck (fun x hx => ?_) (uncovered_up ?_ n)
    · rcases mem_append.1 hx with hx | hx
      · exact hbare x (mem_append_left _ hx)
      · rw [eq_of_mem_replicate hx]
        exact bare_up hasHealthcheck
    · intro before x y after hsplit
      refine h before x y (after ++ rest) ?_
      rw [hsplit]
      simp

end Watching

namespace Probed

def sees (status : String) : Poll := (0, .ok { state := some { status := status } })

def failed : Poll := (0, .error "Cannot connect to the Docker daemon")

end Probed

open Probed in
theorem restarting_container_earns :
    RunningEarned "shop-web-0" "c1" false ([sees "running", sees "restarting", failed] ++ List.replicate 5 up) := by
  refine (running_earned_iff "shop-web-0" "c1" false [sees "running", sees "restarting", failed] ?_).2 ?_ _ [] ?_ 5
  · rintro x - hdeclared
    cases hdeclared
  · intro before x y after hsplit
    rcases before with _ | ⟨a, _ | ⟨b, before⟩⟩
    · cases hsplit
      decide
    · cases hsplit
      decide
    · have hlength := congrArg List.length hsplit
      simp only [length_cons, length_nil, length_append] at hlength
      omega
  · rfl

open Probed in
theorem exited_within_the_row :
    ¬ RunningEarned "shop-web-0" "c1" false (List.replicate 4 up ++ [sees "exited", up]) := by
  intro h
  obtain ⟨earlier, he⟩ := h (List.replicate 4 up ++ [sees "exited"]) up [] rfl (by decide)
  have hsaw : (List.replicate 4 up ++ [sees "exited"] ++ [up]).map Poll.saw =
      [true, true, true, true] ++ ([false, true] : List Bool) := by decide
  rw [hsaw] at he
  have hlast := congrArg (fun l : List Bool => l.reverse[1]?) he
  simp [healthyConsecutiveCount, List.replicate] at hlast

end Jaco.RestartPolicy
