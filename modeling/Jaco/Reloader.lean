import Jaco.Entities

namespace Jaco.Reloader

open List

def debounceWindow : Int := 200 * 10 ^ 6

inductive Feed where
  | routes | tcpRoutes | replicasObserved | certs | certBlobs | challengeTokens

/-- An event as the loop receives it. When the timer is due at the same moment, `timerFirst` is what `select` picks. -/
structure Arrival where
  time : Timestamp
  feed : Feed
  timerFirst : Bool := true

inductive Step where
  | received (a : Arrival)
  | rebuilt (time : Timestamp)

structure Loop where
  pending : Bool := false
  timer : Option Timestamp := none
  log : List Step := []

namespace Loop

def fire (s : Loop) (due : Timestamp) : Loop :=
  { pending := false, timer := none, log := if s.pending then s.log ++ [.rebuilt due] else s.log }

def elapse (s : Loop) (ready : Timestamp → Bool) : Loop :=
  match s.timer with
  | none => s
  | some due => if ready due then s.fire due else s

def receive (s : Loop) (a : Arrival) : Loop :=
  let s := s.elapse (fun due => due < a.time || (due = a.time && a.timerFirst))
  { pending := true, timer := some (a.time + debounceWindow), log := s.log ++ [.received a] }

end Loop

open Loop

structure Timeline where
  start : Timestamp
  arrivals : List Arrival
  now : Timestamp
  sorted : arrivals.Pairwise (·.time ≤ ·.time)
  past : ∀ a ∈ arrivals, a.time ≤ now

def Timeline.run (x : Timeline) : Loop :=
  (x.arrivals.foldl receive { log := [.rebuilt x.start] }).elapse (· ≤ x.now)

def Prompt (B : Int) (x : Timeline) : Prop :=
  ∀ before a after, x.run.log = before ++ .received a :: after → a.time + B ≤ x.now →
    ∃ r, .rebuilt r ∈ after ∧ r ≤ a.time + B

def Follows (a b : Arrival) : Prop :=
  b.time < a.time + debounceWindow ∨ b.time = a.time + debounceWindow ∧ b.timerFirst = false

instance (a b : Arrival) : Decidable (Follows a b) :=
  inferInstanceAs (Decidable (b.time < a.time + debounceWindow ∨ b.time = a.time + debounceWindow ∧
    b.timerFirst = false))

def ShortBursts (B : Int) (x : Timeline) : Prop :=
  ∀ burst, burst <:+: x.arrivals → burst.IsChain Follows → ∀ a ∈ burst.head?, ∀ b ∈ burst.getLast?,
    a.time + B ≤ x.now → b.time + debounceWindow ≤ a.time + B

section Trace

variable (now : Timestamp)

def trace : List Arrival → List Step
  | [] => []
  | [a] => .received a :: if a.time + debounceWindow ≤ now then [.rebuilt (a.time + debounceWindow)] else []
  | a :: b :: rest =>
    .received a :: ((if Follows a b then [] else [.rebuilt (a.time + debounceWindow)]) ++ trace (b :: rest))

theorem receive_armed (log : List Step) (a b : Arrival) : receive ⟨true, some (a.time + debounceWindow), log⟩ b =
      ⟨true, some (b.time + debounceWindow),
        log ++ (if Follows a b then [] else [.rebuilt (a.time + debounceWindow)]) ++ [.received b]⟩ := by
  have hready : (decide (a.time + debounceWindow < b.time) ||
      (decide (a.time + debounceWindow = b.time) && b.timerFirst)) = !decide (Follows a b) := by
    rcases lt_trichotomy (a.time + debounceWindow) b.time with hlt | heq | hgt
    · simp [Follows, hlt, hlt.not_gt, hlt.ne']
    · simp [Follows, heq]
    · simp [Follows, hgt, hgt.not_gt, hgt.ne']
  rw [receive, elapse]
  dsimp only
  rw [hready]
  by_cases h : Follows a b
  · simp [h]
  · simp [h, fire]

theorem foldl_receive (rest : List Arrival) (log : List Step) (a : Arrival) :
    ((rest.foldl receive ⟨true, some (a.time + debounceWindow), log ++ [.received a]⟩).elapse (· ≤ now)).log =
      log ++ trace now (a :: rest) := by
  induction rest generalizing log a with
  | nil =>
    simp only [foldl_nil, elapse, trace]
    by_cases h : a.time + debounceWindow ≤ now
    · simp [h, fire]
    · simp [h]
  | cons b rest ih =>
    rw [foldl_cons, receive_armed, ih, trace]
    simp only [append_assoc, cons_append, nil_append]

theorem run_log (x : Timeline) : x.run.log = .rebuilt x.start :: trace x.now x.arrivals := by
  rw [Timeline.run]
  cases x.arrivals with
  | nil => rfl
  | cons a rest => exact foldl_receive x.now rest [.rebuilt x.start] a

theorem mem_trace_rebuilt {l : List Arrival} {r : Timestamp} (h : .rebuilt r ∈ trace now l) :
    ∃ a ∈ l, r = a.time + debounceWindow := by
  induction l using trace.induct with
  | case1 => cases h
  | case2 a =>
    refine ⟨a, mem_singleton_self a, ?_⟩
    rw [trace] at h
    split at h
    · simpa using h
    · simp at h
  | case3 a b rest ih =>
    rw [trace, mem_cons, mem_append] at h
    rcases h with h | h | h
    · cases h
    · refine ⟨a, mem_cons_self, ?_⟩
      split at h
      · cases h
      · simpa using h
    · obtain ⟨c, hc, hr⟩ := ih h
      exact ⟨c, mem_cons_of_mem a hc, hr⟩

variable {now}

theorem burst_before_rebuild {l burst : List Arrival} {b : Arrival} {r : Timestamp}
    (hsorted : l.Pairwise (·.time ≤ ·.time)) (hburst : burst <+: l) (hchain : burst.IsChain Follows)
    (hb : b ∈ burst.getLast?) (h : .rebuilt r ∈ trace now l) : b.time + debounceWindow ≤ r := by
  induction burst generalizing l with
  | nil => cases hb
  | cons a burst ih =>
    obtain ⟨rest, rfl⟩ := hburst
    cases burst with
    | nil =>
      cases hb
      obtain ⟨c, hc, rfl⟩ := mem_trace_rebuilt now h
      refine Int.add_le_add_right ?_ _
      rcases mem_cons.1 hc with rfl | hc
      · exact le_refl _
      · exact rel_of_pairwise_cons hsorted hc
    | cons c burst =>
      rw [isChain_cons_cons] at hchain
      refine ih (List.Pairwise.of_cons hsorted) (prefix_append _ _) hchain.2 ?_ ?_
      · rw [List.getLast?_cons_cons] at hb
        exact hb
      · change .rebuilt r ∈ trace now (a :: c :: (burst ++ rest)) at h
        rw [trace, if_pos hchain.1, nil_append, mem_cons] at h
        exact h.resolve_left (by simp)

theorem rebuild_ends_burst (a : Arrival) (rest : List Arrival) : ∃ burst, burst <+: a :: rest ∧
    burst.IsChain Follows ∧ burst.head? = some a ∧ ∃ b ∈ burst.getLast?,
      (b.time + debounceWindow ≤ now → .rebuilt (b.time + debounceWindow) ∈ trace now (a :: rest)) := by
  induction rest generalizing a with
  | nil =>
    refine ⟨[a], prefix_refl _, isChain_singleton a, rfl, a, rfl, fun hnow => ?_⟩
    rw [trace, if_pos hnow]
    simp
  | cons c rest ih =>
    by_cases hfollows : Follows a c
    · obtain ⟨burst, hprefix, hchain, hhead, b, hb, hfires⟩ := ih c
      cases burst with
      | nil => cases hhead
      | cons c' burst =>
        cases hhead
        refine ⟨a :: c :: burst, ?_, ?_, rfl, b, ?_, fun hnow => ?_⟩
        · exact cons_prefix_cons.2 ⟨rfl, hprefix⟩
        · exact isChain_cons_cons.2 ⟨hfollows, hchain⟩
        · rw [List.getLast?_cons_cons]
          exact hb
        · rw [trace, mem_cons, mem_append]
          exact Or.inr (Or.inr (hfires hnow))
    · refine ⟨[a], ⟨c :: rest, rfl⟩, isChain_singleton a, rfl, a, rfl, fun _ => ?_⟩
      rw [trace, if_neg hfollows]
      simp

theorem trace_suffix {l l' : List Arrival} (h : l' <:+ l) : trace now l' <:+ trace now l := by
  induction l using trace.induct with
  | case1 => rw [suffix_nil.1 h]
  | case2 a =>
    rcases suffix_cons_iff.1 h with rfl | h
    · exact suffix_refl _
    · rw [suffix_nil.1 h]
      exact nil_suffix
  | case3 a b rest ih =>
    rcases suffix_cons_iff.1 h with rfl | h
    · exact suffix_refl _
    · rw [trace, ← cons_append]
      exact (ih h).trans (suffix_append _ _)

theorem received_split {l : List Arrival} {before after : List Step} {a : Arrival}
    (h : trace now l = before ++ .received a :: after) :
    ∃ rest, a :: rest <:+ l ∧ trace now (a :: rest) = .received a :: after := by
  induction l using trace.induct generalizing before with
  | case1 => simp [trace] at h
  | case2 c =>
    cases before with
    | nil =>
      have hc : c = a := by
        rw [trace] at h
        injection h with h
        injection h
      subst hc
      exact ⟨[], suffix_refl _, h⟩
    | cons x before =>
      rw [trace, cons_append, List.cons.injEq] at h
      obtain ⟨-, h⟩ := h
      have hmem : Step.received a ∈ before ++ .received a :: after := by simp
      rw [← h] at hmem
      split at hmem <;> simp at hmem
  | case3 c b rest ih =>
    cases before with
    | nil =>
      have hc : c = a := by
        rw [trace] at h
        injection h with h
        injection h
      subst hc
      exact ⟨b :: rest, suffix_refl _, h⟩
    | cons x before =>
      rw [trace, cons_append, List.cons.injEq] at h
      obtain ⟨-, h⟩ := h
      have hrest : ∃ before', trace now (b :: rest) = before' ++ .received a :: after := by
        split at h
        · exact ⟨before, h⟩
        · cases before with
          | nil =>
            injection h with h
            cases h
          | cons y before =>
            rw [singleton_append, cons_append, List.cons.injEq] at h
            exact ⟨before, h.2⟩
      obtain ⟨before', hbefore⟩ := hrest
      obtain ⟨rest', hsuffix, htrace⟩ := ih hbefore
      exact ⟨rest', hsuffix.trans (suffix_cons c _), htrace⟩

end Trace

theorem shortBursts_of_prompt {B : Int} {x : Timeline} (h : Prompt B x) : ShortBursts B x := by
  intro burst hinfix hchain a ha b hb hnow
  obtain ⟨l, hprefix, hsuffix⟩ := infix_iff_prefix_suffix.1 hinfix
  obtain ⟨mid, rfl⟩ : ∃ mid, burst = a :: mid := List.head?_eq_some_iff.1 ha
  obtain ⟨rest, rfl⟩ := hprefix
  have htail : trace x.now _ <:+ trace x.now _ := trace_suffix hsuffix
  obtain ⟨before, hlog⟩ := htail
  obtain ⟨after, htrace⟩ : ∃ after, trace x.now (a :: mid ++ rest) = .received a :: after := by
    rw [cons_append]
    cases mid ++ rest <;> exact ⟨_, by rw [trace]⟩
  have hsplit : x.run.log = .rebuilt x.start :: before ++ .received a :: after := by
    rw [run_log, ← hlog, htrace]
    rfl
  obtain ⟨r, hr, hle⟩ := h _ a after hsplit hnow
  have hmem : .rebuilt r ∈ trace x.now (a :: mid ++ rest) := by
    rw [htrace]
    exact mem_cons_of_mem _ hr
  exact (burst_before_rebuild (x.sorted.sublist hsuffix.sublist) (prefix_append _ _) hchain hb hmem).trans hle

theorem prompt_of_shortBursts {B : Int} {x : Timeline} (h : ShortBursts B x) : Prompt B x := by
  intro before a after hlog hnow
  rw [run_log] at hlog
  cases before with
  | nil => cases hlog
  | cons first before =>
    obtain ⟨rest, hsuffix, htrace⟩ := received_split (List.cons.inj hlog).2
    obtain ⟨burst, hprefix, hchain, hhead, b, hb, hfires⟩ := @rebuild_ends_burst x.now a rest
    have hend := h burst (infix_iff_prefix_suffix.2 ⟨_, hprefix, hsuffix⟩) hchain a hhead b hb hnow
    refine ⟨b.time + debounceWindow, ?_, hend⟩
    have hmem := hfires (hend.trans hnow)
    rw [htrace] at hmem
    exact (mem_cons.1 hmem).resolve_left (by simp)

theorem prompt_iff_shortBursts (B : Int) (x : Timeline) : Prompt B x ↔ ShortBursts B x :=
  ⟨shortBursts_of_prompt, prompt_of_shortBursts⟩

def observedAt (i : Nat) : Arrival := ⟨(i : Int) * 10 ^ 8, .replicasObserved, true⟩

theorem observedAt_le {i j : Nat} (h : i ≤ j) : (observedAt i).time ≤ (observedAt j).time :=
  Int.mul_le_mul_of_nonneg_right (by exact_mod_cast h) (by norm_num)

def steady (n : Nat) : Timeline where
  start := 0
  arrivals := (List.range (n + 1)).map observedAt
  now := (observedAt n).time
  sorted := pairwise_map.2 (pairwise_lt_range.imp (fun h => observedAt_le h.le))
  past := by
    intro a ha
    obtain ⟨i, hi, rfl⟩ := mem_map.1 ha
    exact observedAt_le (Nat.lt_succ_iff.1 (mem_range.1 hi))

theorem steady_chain (n : Nat) : (steady n).arrivals.IsChain Follows := by
  change ((List.range (n + 1)).map observedAt).IsChain Follows
  rw [isChain_map, isChain_range_succ]
  intro i _
  left
  change ((i + 1 : Nat) : Int) * 10 ^ 8 < (i : Int) * 10 ^ 8 + 200 * 10 ^ 6
  push_cast
  linarith

theorem no_bound_is_kept : ¬ ∃ B : Int, ∀ x : Timeline, Prompt B x := by
  rintro ⟨B, h⟩
  let n := B.toNat
  have hfirst : (steady n).arrivals.head? = some (observedAt 0) := by
    change ((List.range (n + 1)).map observedAt).head? = _
    rw [range_succ_eq_map]
    rfl
  have hlast : (steady n).arrivals.getLast? = some (observedAt n) := by
    change ((List.range (n + 1)).map observedAt).getLast? = _
    rw [range_succ, map_append]
    exact List.getLast?_concat
  have hB : B ≤ (n : Int) * 10 ^ 8 := by
    have hn := Int.self_le_toNat B
    have hpos : (0 : Int) ≤ (n : Int) := Int.natCast_nonneg n
    linarith
  have hold : (observedAt 0).time + B ≤ (steady n).now := by
    change ((0 : Nat) : Int) * 10 ^ 8 + B ≤ (n : Int) * 10 ^ 8
    push_cast
    linarith
  have hend := shortBursts_of_prompt (h (steady n)) _ (infix_refl _) (steady_chain n) _ hfirst _ hlast hold
  change (n : Int) * 10 ^ 8 + 200 * 10 ^ 6 ≤ ((0 : Nat) : Int) * 10 ^ 8 + B at hend
  push_cast at hend
  linarith

end Jaco.Reloader
