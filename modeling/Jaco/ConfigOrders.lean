import Jaco.IngressBuilder

namespace Jaco.Caddy

open Grouping TlsPolicies List

theorem longerFirst_iff {a b : Route} : longerFirst a b = true ↔
      b.path.utf8ByteSize < a.path.utf8ByteSize ∨ a.path.utf8ByteSize = b.path.utf8ByteSize ∧ a.path ≤ b.path := by
  rw [longerFirst]
  by_cases h : a.path.utf8ByteSize = b.path.utf8ByteSize
  · simp [h]
  · simp [h]

instance : Std.Total (fun a b : Route => longerFirst a b = true) where
  total a b := by
    rw [longerFirst_iff, longerFirst_iff]
    rcases Nat.lt_trichotomy a.path.utf8ByteSize b.path.utf8ByteSize with h | h | h
    · exact .inr (.inl h)
    · exact (String.le_total a.path b.path).imp (fun hle => .inr ⟨h, hle⟩) (fun hle => .inr ⟨h.symm, hle⟩)
    · exact .inl (.inl h)

instance : IsTrans Route (fun a b => longerFirst a b = true) where
  trans a b c hab hbc := by
    rw [longerFirst_iff] at hab hbc ⊢
    rcases hab with hab | ⟨hab, hle⟩
    · exact .inl (by omega)
    · rcases hbc with hbc | ⟨hbc, hle'⟩
      · exact .inl (by omega)
      · exact .inr ⟨hab.trans hbc, hle.trans hle'⟩

theorem path_of_longerFirst {a b : Route} (hab : longerFirst a b = true) (hba : longerFirst b a = true) :
    a.path = b.path := by
  rw [longerFirst_iff] at hab hba
  rcases hab with hab | ⟨hab, hle⟩
  · omega
  · rcases hba with hba | ⟨-, hle'⟩
    · omega
    · exact hle.antisymm hle'

section Blocks

variable {l l' : List Route}

theorem pathRoutes_perm (h : l.Perm l') (hpaths : ∀ a ∈ l, ∀ b ∈ l, a.path = b.path → a = b) :
    pathRoutes l = pathRoutes l' := by
  refine insertionSort_perm (h.filter _) (fun a ha b hb hab hba => ?_)
  exact hpaths a (mem_filter.1 ha).1 b (mem_filter.1 hb).1 (path_of_longerFirst hab hba)

theorem catchAll_perm (h : l.Perm l') (hnodup : l.Nodup) (hpaths : ∀ a ∈ l, ∀ b ∈ l, a.path = b.path → a = b) :
    catchAll l = catchAll l' := by
  rw [catchAll, catchAll, eq_of_perm_of_unique (h.filter _) (hnodup.filter _) (fun a ha b hb => ?_)]
  obtain ⟨ha, hempty⟩ := mem_filter.1 ha
  obtain ⟨hb, hempty'⟩ := mem_filter.1 hb
  exact hpaths a ha b hb ((of_decide_eq_true hempty).trans (of_decide_eq_true hempty').symm)

theorem path_of_pathRoutes_nil (h : pathRoutes l = []) {a : Route} (ha : a ∈ l) : a.path = "" := by
  by_contra hne
  have hmem : a ∈ pathRoutes l := (perm_insertionSort _ _).mem_iff.2 (mem_filter.2 ⟨ha, decide_eq_true hne⟩)
  rw [h] at hmem
  cases hmem

theorem buildDomainRoute_perm (up : Route → List String) (h : l.Perm l') (hnodup : l.Nodup)
    (hpaths : ∀ a ∈ l, ∀ b ∈ l, a.path = b.path → a = b) : buildDomainRoute up l = buildDomainRoute up l' := by
  have hsorted := pathRoutes_perm h hpaths
  have hlast := catchAll_perm h hnodup hpaths
  cases hcase : pathRoutes l with
  | nil =>
    rw [eq_of_perm_of_unique h hnodup (fun a ha b hb => ?_)]
    exact hpaths a ha b hb ((path_of_pathRoutes_nil hcase ha).trans (path_of_pathRoutes_nil hcase hb).symm)
  | cons p ps =>
    rw [hcase] at hsorted
    simp only [buildDomainRoute, hcase, ← hsorted, hlast]

end Blocks

section Order

variable {l : List Route} (hnodup : l.Nodup) (hpaths : ∀ a ∈ l, ∀ b ∈ l, a.path = b.path → a = b)

include hnodup hpaths

theorem catchAll_toList : (catchAll l).toList = l.filter (fun r => r.path = "") := by
  have hunique : ∀ a ∈ l.filter (fun r => r.path = ""), ∀ b ∈ l.filter (fun r => r.path = ""), a = b := by
    intro a ha b hb
    obtain ⟨ha, hempty⟩ := mem_filter.1 ha
    obtain ⟨hb, hempty'⟩ := mem_filter.1 hb
    exact hpaths a ha b hb ((of_decide_eq_true hempty).trans (of_decide_eq_true hempty').symm)
  rw [catchAll]
  rcases nil_or_singleton (hnodup.filter _) hunique with hfilter | ⟨a, hfilter⟩
  · rw [hfilter]
    rfl
  · rw [hfilter]
    rfl

theorem evaluated_append : evaluated l = pathRoutes l ++ l.filter (fun r => r.path = "") := by
  rw [evaluated, catchAll_toList hnodup hpaths]
  split
  · rename_i hnone
    have hall : l.filter (fun r => r.path = "") = l :=
      filter_eq_self.2 (fun r hr => decide_eq_true (path_of_pathRoutes_nil hnone hr))
    have hlast := catchAll_toList hnodup hpaths
    rw [hall] at hlast
    rw [hnone, nil_append, hall, ← hlast]
    cases catchAll l <;> rfl
  · rfl

theorem evaluated_eq_insertionSort : evaluated l = l.insertionSort (fun a b => longerFirst a b) := by
  have hperm : (evaluated l).Perm l := by
    rw [evaluated_append hnodup hpaths]
    refine ((perm_insertionSort _ _).append_right _).trans ?_
    have hsplit := filter_append_perm (fun r : Route => decide (r.path ≠ "")) l
    have hneg : (l.filter (fun r => !decide (r.path ≠ ""))) = l.filter (fun r => decide (r.path = "")) :=
      filter_congr (fun r _ => by simp)
    rwa [hneg] at hsplit
  refine (hperm.trans (perm_insertionSort _ _).symm).eq_of_pairwise (fun a b ha hb hab hba => ?_) ?_
    (pairwise_insertionSort _ _)
  · exact hpaths a (hperm.mem_iff.1 ha) b ((perm_insertionSort _ _).mem_iff.1 hb) (path_of_longerFirst hab hba)
  · rw [evaluated_append hnodup hpaths]
    refine pairwise_append.2 ⟨pairwise_insertionSort _ _, ?_, fun a ha b hb => ?_⟩
    · refine List.Pairwise.imp_of_mem (fun {a b} ha hb _ => ?_) (hnodup.filter _)
      have ha := of_decide_eq_true (mem_filter.1 ha).2
      have hb := of_decide_eq_true (mem_filter.1 hb).2
      exact longerFirst_iff.2 (.inr ⟨by rw [ha, hb], by rw [ha, hb]⟩)
    · have ha : a.path ≠ "" := of_decide_eq_true (mem_filter.1 ((perm_insertionSort _ _).mem_iff.1 ha)).2
      have hb : b.path = "" := of_decide_eq_true (mem_filter.1 hb).2
      refine longerFirst_iff.2 (.inl ?_)
      rw [hb]
      exact Nat.pos_of_ne_zero (fun h => ha (String.utf8ByteSize_eq_zero_iff.1 h))

end Order

theorem domains_perm {routes routes' : List Route} (h : routes.Perm routes') : domains routes = domains routes' := by
  refine Scheduler.sortNames_perm ?_
  refine (perm_ext_iff_of_nodup (nodup_firstOn _ _) (nodup_firstOn _ _)).2 (fun d => ?_)
  rw [mem_map_firstOn, mem_map_firstOn]
  simp only [h.mem_iff]

theorem healthyByService_perm (now : Timestamp) {replicas replicas' : List ReplicaObservedView}
    (h : replicas.Perm replicas')
    (hids : ∀ a ∈ replicas, ∀ b ∈ replicas, a.id = b.id → a = b) (key : String) :
    healthyByService now replicas key = healthyByService now replicas' key := by
  have : Std.Total (fun a b : ReplicaObservedView => a.id ≤ b.id) := ⟨fun a b => String.le_total a.id b.id⟩
  have : IsTrans ReplicaObservedView (fun a b => a.id ≤ b.id) := ⟨fun _ _ _ => le_trans⟩
  refine insertionSort_perm (h.filter _) (fun a ha b hb hab hba => ?_)
  exact hids a (mem_filter.1 ha).1 b (mem_filter.1 hb).1 (hab.antisymm hba)

theorem byPort_perm {l l' : List TCPRoute} (h : l.Perm l')
    (hports : ∀ a ∈ l, ∀ b ∈ l, a.publishedPort = b.publishedPort → a = b) : byPort l = byPort l' := by
  have : Std.Total (fun a b : TCPRoute => a.publishedPort ≤ b.publishedPort) := ⟨fun a b => le_total _ _⟩
  have : IsTrans TCPRoute (fun a b => a.publishedPort ≤ b.publishedPort) := ⟨fun _ _ _ => le_trans⟩
  exact insertionSort_perm h (fun a ha b hb hab hba => hports a ha b hb (hab.antisymm hba))

end Jaco.Caddy
