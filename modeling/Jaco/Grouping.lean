import Mathlib

namespace Jaco.Grouping

open List

variable {α κ β : Type} [DecidableEq κ]

def push (k : κ) (v : β) : List (κ × List β) → List (κ × List β)
  | [] => [(k, [v])]
  | (k', vs) :: rest => if k' = k then (k', vs ++ [v]) :: rest else (k', vs) :: push k v rest

def groupOn (key : α → κ) (val : α → β) (l : List α) : List (κ × List β) :=
  l.foldl (fun acc x => push (key x) (val x) acc) []

variable (k : κ) (v : β) (acc : List (κ × List β))

theorem keys_push : (push k v acc).map Prod.fst =
      if k ∈ acc.map Prod.fst then acc.map Prod.fst else acc.map Prod.fst ++ [k] := by
  induction acc with
  | nil => simp [push]
  | cons e rest ih =>
    obtain ⟨k', vs⟩ := e
    by_cases hk : k' = k
    · simp [push, hk]
    · have hk' : k ≠ k' := fun h => hk h.symm
      simp only [push, hk, ↓reduceIte, map_cons, ih, mem_cons, hk', false_or]
      split <;> simp

theorem nodup_push (h : (acc.map Prod.fst).Nodup) : ((push k v acc).map Prod.fst).Nodup := by
  rw [keys_push]
  by_cases hk : k ∈ acc.map Prod.fst
  · rwa [if_pos hk]
  · rw [if_neg hk]
    exact nodup_append'.mpr ⟨h, nodup_singleton k, by simpa using hk⟩

theorem mem_push (h : (acc.map Prod.fst).Nodup) (k' : κ) (v' : β) : (∃ vs, (k', vs) ∈ push k v acc ∧ v' ∈ vs) ↔
      (k' = k ∧ v' = v) ∨ ∃ vs, (k', vs) ∈ acc ∧ v' ∈ vs := by
  induction acc with
  | nil => simp [push]
  | cons e rest ih =>
    obtain ⟨k₀, vs₀⟩ := e
    rw [map_cons, nodup_cons] at h
    by_cases hk : k₀ = k
    · subst hk
      simp only [push, ↓reduceIte, mem_cons, Prod.mk.injEq]
      constructor
      · rintro ⟨vs, ⟨rfl, rfl⟩ | hm, hv⟩
        · rcases mem_append.mp hv with hv | hv
          · exact .inr ⟨vs₀, .inl ⟨rfl, rfl⟩, hv⟩
          · exact .inl ⟨rfl, mem_singleton.mp hv⟩
        · exact .inr ⟨vs, .inr hm, hv⟩
      · rintro (⟨rfl, rfl⟩ | ⟨vs, ⟨rfl, rfl⟩ | hm, hv⟩)
        · exact ⟨_, .inl ⟨rfl, rfl⟩, by simp⟩
        · exact ⟨_, .inl ⟨rfl, rfl⟩, mem_append_left _ hv⟩
        · exact ⟨vs, .inr hm, hv⟩
    · simp only [push, hk, ↓reduceIte, mem_cons, or_and_right, exists_or, ih h.2]
      exact or_left_comm

theorem groupOn_concat (key : α → κ) (val : α → β) (l : List α) (x : α) :
    groupOn key val (l ++ [x]) = push (key x) (val x) (groupOn key val l) := by
  simp [groupOn, foldl_append]

theorem nodup_groupOn (key : α → κ) (val : α → β) (l : List α) : ((groupOn key val l).map Prod.fst).Nodup := by
  induction l using List.reverseRecOn with
  | nil => simp [groupOn]
  | append_singleton l x ih =>
    rw [groupOn_concat]
    exact nodup_push _ _ _ ih

theorem mem_groupOn (key : α → κ) (val : α → β) (l : List α) (k : κ) (v : β) :
    (∃ vs, (k, vs) ∈ groupOn key val l ∧ v ∈ vs) ↔ ∃ x ∈ l, key x = k ∧ val x = v := by
  induction l using List.reverseRecOn with
  | nil => simp [groupOn]
  | append_singleton l x ih =>
    rw [groupOn_concat, mem_push _ _ _ (nodup_groupOn key val l), ih]
    simp only [mem_append, mem_singleton, or_and_right, exists_or, exists_eq_left]
    rw [or_comm]
    exact or_congr_right ⟨fun h => ⟨h.1.symm, h.2.symm⟩, fun h => ⟨h.1.symm, h.2.symm⟩⟩

theorem mem_keys_groupOn (key : α → κ) (val : α → β) (l : List α) (k : κ) :
    k ∈ (groupOn key val l).map Prod.fst ↔ ∃ x ∈ l, key x = k := by
  induction l using List.reverseRecOn generalizing k with
  | nil => simp [groupOn]
  | append_singleton l x ih =>
    rw [groupOn_concat, keys_push]
    by_cases hx : key x ∈ (groupOn key val l).map Prod.fst
    · rw [if_pos hx, ih]
      constructor
      · rintro ⟨y, hy, hk⟩
        exact ⟨y, mem_append_left _ hy, hk⟩
      · rintro ⟨y, hy, rfl⟩
        rcases mem_append.mp hy with hy | hy
        · exact ⟨y, hy, rfl⟩
        · rw [mem_singleton.mp hy]
          exact (ih _).mp hx
    · rw [if_neg hx, mem_append, ih]
      simp [or_and_right, exists_or, eq_comm]

theorem group_of_push {k k' : κ} {v : β} {vs : List β} {acc : List (κ × List β)} (hnodup : (acc.map Prod.fst).Nodup)
    (h : (k', vs) ∈ push k v acc) :
    k' ≠ k ∧ (k', vs) ∈ acc ∨ k' = k ∧ ((∃ ws, (k, ws) ∈ acc ∧ vs = ws ++ [v]) ∨ k ∉ acc.map Prod.fst ∧ vs = [v]) := by
  induction acc with
  | nil =>
    cases mem_singleton.1 h
    exact .inr ⟨rfl, .inr ⟨not_mem_nil, rfl⟩⟩
  | cons e rest ih =>
    obtain ⟨k₀, vs₀⟩ := e
    rw [map_cons, nodup_cons] at hnodup
    by_cases hk : k₀ = k
    · rw [push, if_pos hk] at h
      rcases mem_cons.1 h with heq | hrest
      · cases heq
        exact .inr ⟨hk, .inl ⟨vs₀, by rw [hk]; exact mem_cons_self, rfl⟩⟩
      · refine .inl ⟨fun hk' => hnodup.1 ?_, mem_cons_of_mem _ hrest⟩
        rw [hk, ← hk']
        exact mem_map.2 ⟨_, hrest, rfl⟩
    · rw [push, if_neg hk] at h
      rcases mem_cons.1 h with heq | hrest
      · cases heq
        exact .inl ⟨hk, mem_cons_self⟩
      · rcases ih hnodup.2 hrest with ⟨hne, hmem⟩ | ⟨heq, ⟨ws, hws, hvs⟩ | ⟨hfresh, hvs⟩⟩
        · exact .inl ⟨hne, mem_cons_of_mem _ hmem⟩
        · exact .inr ⟨heq, .inl ⟨ws, mem_cons_of_mem _ hws, hvs⟩⟩
        · refine .inr ⟨heq, .inr ⟨fun hmem => ?_, hvs⟩⟩
          rcases mem_cons.1 hmem with h0 | h0
          · exact hk h0.symm
          · exact hfresh h0

variable {key : α → κ} {l : List α} {x : α}

theorem group_eq {val : α → β} {k : κ} {vs : List β} (h : (k, vs) ∈ groupOn key val l) :
    vs = (l.filter (fun x => key x = k)).map val := by
  induction l using List.reverseRecOn generalizing vs with
  | nil => cases h
  | append_singleton l x ih =>
    rw [groupOn_concat] at h
    rw [filter_append, map_append]
    rcases group_of_push (nodup_groupOn key val l) h with ⟨hne, hmem⟩ | ⟨heq, ⟨ws, hws, rfl⟩ | ⟨hfresh, rfl⟩⟩
    · have hx : ¬ key x = k := fun hx => hne hx.symm
      rw [← ih hmem]
      simp [hx]
    · subst heq
      rw [← ih hws]
      simp
    · subst heq
      have hnone : l.filter (fun y => key y = key x) = [] := by
        refine filter_eq_nil_iff.2 (fun y hy hkey => hfresh ?_)
        exact (mem_keys_groupOn key val l (key x)).2 ⟨y, hy, of_decide_eq_true hkey⟩
      rw [hnone]
      simp

theorem groupOn_eq_map (key : α → κ) (val : α → β) (l : List α) : groupOn key val l =
      ((groupOn key val l).map Prod.fst).map (fun k => (k, (l.filter (fun x => key x = k)).map val)) := by
  rw [map_map]
  conv_lhs => rw [← map_id (groupOn key val l)]
  refine map_congr_left (fun g hg => ?_)
  exact Prod.ext rfl (group_eq hg)

def firstOn (key : α → κ) : List α → List α
  | [] => []
  | x :: xs => x :: (firstOn key xs).filter (fun y => key y ≠ key x)

theorem mem_of_mem_firstOn (h : x ∈ firstOn key l) : x ∈ l := by
  induction l with
  | nil => cases h
  | cons y ys ih =>
    rcases mem_cons.1 h with rfl | h
    · exact mem_cons_self
    · exact mem_cons_of_mem y (ih (mem_filter.1 h).1)

theorem mem_map_firstOn (key : α → κ) (l : List α) (k : κ) : k ∈ (firstOn key l).map key ↔ ∃ x ∈ l, key x = k := by
  constructor
  · intro h
    obtain ⟨x, hx, rfl⟩ := mem_map.1 h
    exact ⟨x, mem_of_mem_firstOn hx, rfl⟩
  · rintro ⟨x, hx, rfl⟩
    induction l with
    | nil => cases hx
    | cons y ys ih =>
      by_cases hk : key x = key y
      · rw [firstOn, map_cons, hk]
        exact mem_cons_self
      · have hxs : x ∈ ys := (mem_cons.1 hx).resolve_left (fun he => hk (he ▸ rfl))
        obtain ⟨z, hz, hzx⟩ := mem_map.1 (ih hxs)
        refine mem_map.2 ⟨z, mem_cons_of_mem y (mem_filter.2 ⟨hz, ?_⟩), hzx⟩
        rw [hzx]
        exact decide_eq_true hk

theorem mem_firstOn_iff : x ∈ firstOn key l ↔ l.find? (fun y => key y = key x) = some x := by
  induction l with
  | nil => exact ⟨nofun, nofun⟩
  | cons y ys ih =>
    rw [firstOn, mem_cons, mem_filter, ih, List.find?_cons]
    by_cases h : key y = key x
    · simp only [h, decide_true, Option.some.injEq, not_true_eq_false, ne_eq, decide_false, Bool.false_eq_true,
        and_false, or_false]
      exact eq_comm
    · have hne : x ≠ y := fun hxy => h (hxy ▸ rfl)
      simp [h, hne, Ne.symm h]

theorem nodup_firstOn (key : α → κ) (l : List α) : ((firstOn key l).map key).Nodup := by
  induction l with
  | nil => exact nodup_nil
  | cons x xs ih =>
    rw [firstOn, map_cons, nodup_cons]
    refine ⟨fun hmem => ?_, ih.sublist (List.Sublist.map key filter_sublist)⟩
    obtain ⟨y, hy, hkey⟩ := mem_map.1 hmem
    exact of_decide_eq_true (mem_filter.1 hy).2 hkey

theorem split_flatten {F : κ → List α → Prop} (tag : α → κ) (htag : ∀ k g, F k g → ∀ x ∈ g, tag x = k) {keys : List κ}
    {groups : List (List α)} (h : List.Forall₂ F keys groups) (hnodup : keys.Nodup) {before after : List α}
    (hsplit : groups.flatten = before ++ x :: after) :
    tag x ∈ keys ∧ ∃ g rest, F (tag x) g ∧ g = before.filter (fun y => tag y = tag x) ++ x :: rest := by
  induction h generalizing before with
  | nil => simp at hsplit
  | @cons k g keys groups hk _ ih =>
    obtain ⟨hnew, hnodup⟩ := nodup_cons.1 hnodup
    rw [flatten_cons] at hsplit
    have hlater : ∀ before', groups.flatten = before' ++ x :: after → before = g ++ before' →
        tag x ∈ k :: keys ∧ ∃ g rest, F (tag x) g ∧ g = before.filter (fun y => tag y = tag x) ++ x :: rest := by
      intro before' hrest hbefore
      obtain ⟨hmem, g', rest, hF, hg'⟩ := ih hnodup hrest
      refine ⟨mem_cons_of_mem k hmem, g', rest, hF, ?_⟩
      have hnone : g.filter (fun y => tag y = tag x) = [] := by
        refine filter_eq_nil_iff.2 (fun y hy hyx => hnew ?_)
        rw [← htag k g hk y hy, of_decide_eq_true hyx]
        exact hmem
      rw [hbefore, filter_append, hnone, nil_append]
      exact hg'
    rcases append_eq_append_iff.1 hsplit with ⟨before', hbefore, hrest⟩ | ⟨tail, hg, htail⟩
    · exact hlater before' hrest hbefore
    · cases tail with
      | nil =>
        rw [append_nil] at hg
        exact hlater [] htail.symm (hg ▸ (append_nil _).symm)
      | cons y tail =>
        rw [cons_append, List.cons.injEq] at htail
        obtain ⟨rfl, -⟩ := htail
        have hx : tag x = k := htag k g hk x (hg ▸ mem_append_right _ mem_cons_self)
        have hall : before.filter (fun y => tag y = tag x) = before := by
          refine filter_eq_self.2 (fun y hy => decide_eq_true ?_)
          rw [hx]
          exact htag k g hk y (hg ▸ mem_append_left _ hy)
        rw [hall, hx]
        exact ⟨mem_cons_self, g, tail, hk, hg⟩

theorem insertionSort_perm {r : α → α → Prop} [DecidableRel r] [Std.Total r] [IsTrans α r] {l' : List α}
    (h : l.Perm l') (hanti : ∀ a ∈ l, ∀ b ∈ l, r a b → r b a → a = b) : l.insertionSort r = l'.insertionSort r := by
  have hperm := (l.perm_insertionSort r).trans (h.trans (l'.perm_insertionSort r).symm)
  refine hperm.eq_of_pairwise (fun a b ha hb => ?_) (l.pairwise_insertionSort r) (l'.pairwise_insertionSort r)
  exact hanti a ((l.perm_insertionSort r).mem_iff.1 ha) b (h.mem_iff.2 ((l'.perm_insertionSort r).mem_iff.1 hb))

theorem nil_or_singleton (hnodup : l.Nodup) (hunique : ∀ a ∈ l, ∀ b ∈ l, a = b) : l = [] ∨ ∃ a, l = [a] := by
  match l, hnodup with
  | [], _ => exact .inl rfl
  | [a], _ => exact .inr ⟨a, rfl⟩
  | a :: b :: rest, hnodup =>
    have hab := hunique a mem_cons_self b (mem_cons_of_mem a mem_cons_self)
    rw [hab] at hnodup
    exact absurd mem_cons_self (nodup_cons.1 hnodup).1

theorem eq_of_perm_of_unique {l' : List α} (h : l.Perm l') (hnodup : l.Nodup) (hunique : ∀ a ∈ l, ∀ b ∈ l, a = b) :
    l = l' := by
  rcases nil_or_singleton hnodup hunique with rfl | ⟨a, rfl⟩
  · exact (nil_perm.1 h).symm
  · exact singleton_perm.1 h

end Jaco.Grouping
