import Mathlib
import Jaco.ExceptLists

namespace Jaco.KeyedFolds

open List Function

section Lookup

variable {κ β γ : Type} [BEq κ] [LawfulBEq κ]

variable {l : List (κ × γ)}

theorem lookup_iff_mem (hnodup : (l.map (·.1)).Nodup) {k : κ} {v : γ} : l.lookup k = some v ↔ (k, v) ∈ l := by
  induction l with
  | nil => simp
  | cons e l ih =>
    rw [map_cons, nodup_cons] at hnodup
    rw [lookup_cons, mem_cons]
    by_cases hk : k = e.1
    · rw [beq_iff_eq.2 hk]
      constructor
      · intro hv
        exact .inl (Prod.ext hk (Option.some.inj hv).symm)
      · rintro (he | hmem)
        · rw [← he]
        · exact absurd (mem_map_of_mem hmem) (hk ▸ hnodup.1)
    · rw [beq_eq_false_iff_ne.2 hk]
      refine (ih hnodup.2).trans ⟨.inr, ?_⟩
      rintro (he | hmem)
      · exact absurd (congrArg Prod.fst he) hk
      · exact hmem

theorem lookup_perm {l' : List (κ × γ)} (hperm : l.Perm l') (hnodup : (l.map (·.1)).Nodup) (k : κ) :
    l.lookup k = l'.lookup k := by
  ext v
  rw [lookup_iff_mem hnodup, lookup_iff_mem ((hperm.map _).nodup_iff.1 hnodup), hperm.mem_iff]

variable [DecidableEq κ]

theorem foldl_update (g : κ → γ → β → β) (hnodup : (l.map (·.1)).Nodup) (f : κ → β) (k : κ) :
    l.foldl (fun f e => update f e.1 (g e.1 e.2 (f e.1))) f k =
      match l.lookup k with
      | none => f k
      | some v => g k v (f k) := by
  induction l generalizing f with
  | nil => rfl
  | cons e l ih =>
    rw [map_cons, nodup_cons] at hnodup
    rw [foldl_cons, ih hnodup.2, lookup_cons]
    by_cases hk : k = e.1
    · have hgone : l.lookup k = none := by
        refine lookup_eq_none_iff.2 (fun p hp => ?_)
        rw [bne_iff_ne]
        rintro rfl
        exact hnodup.1 (hk ▸ mem_map_of_mem hp)
      rw [hgone, hk, update_self, beq_self_eq_true]
    · rw [update_of_ne hk, beq_eq_false_iff_ne.2 hk]

end Lookup

section Head

variable {α : Type} (r : α → α → Prop) [DecidableRel r]

theorem head?_orderedInsert (a : α) (l : List α) : (l.orderedInsert r a).head? =
    match l.head? with
      | none => some a
      | some b => if r a b then some a else some b := by
  cases l with
  | nil => rfl
  | cons b l =>
    rw [orderedInsert_cons]
    by_cases hr : r a b
    · simp [hr]
    · simp [hr]

variable {l : List α} {x : α}

theorem first_of_head (h : (l.insertionSort r).head? = some x) :
    ∃ before after, l = before ++ x :: after ∧ ∀ b ∈ before, ¬ r b x := by
  induction l generalizing x with
  | nil => cases h
  | cons a l ih =>
    rw [insertionSort_cons, head?_orderedInsert] at h
    cases hhead : (l.insertionSort r).head? with
    | none =>
      rw [hhead] at h
      cases h
      exact ⟨[], l, rfl, nofun⟩
    | some y =>
      rw [hhead] at h
      dsimp only at h
      split at h
      · cases h
        exact ⟨[], l, rfl, nofun⟩
      · rename_i hlater
        cases h
        obtain ⟨before, after, rfl, hbefore⟩ := ih hhead
        refine ⟨a :: before, after, rfl, fun b hb => ?_⟩
        rcases mem_cons.1 hb with rfl | hb
        · exact hlater
        · exact hbefore b hb

theorem best_of_head [Std.Total r] [IsTrans α r] (h : (l.insertionSort r).head? = some x) : x ∈ l ∧ ∀ y ∈ l, r x y := by
  have hperm := perm_insertionSort r l
  have hsorted := pairwise_insertionSort r l
  cases hsort : l.insertionSort r with
  | nil =>
    rw [hsort] at h
    cases h
  | cons z rest =>
    rw [hsort] at h hperm hsorted
    cases h
    refine ⟨hperm.mem_iff.1 mem_cons_self, fun y hy => ?_⟩
    rcases mem_cons.1 (hperm.mem_iff.2 hy) with rfl | hy
    · exact (Std.Total.total y y).elim id id
    · exact (pairwise_cons.1 hsorted).1 y hy

theorem split_of_rank {κ : Type} {key : α → κ} (rank : κ → Nat) (hnodup : (l.map key).Nodup) (hx : x ∈ l) :
    ∃ before after, l.insertionSort (fun a b => rank (key a) ≤ rank (key b)) = before ++ x :: after ∧
      ∀ b ∈ before, rank (key b) ≤ rank (key x) ∧ key b ≠ key x := by
  let sorted := l.insertionSort (fun a b => rank (key a) ≤ rank (key b))
  have hperm : sorted.Perm l := perm_insertionSort _ l
  obtain ⟨before, after, hsplit⟩ := append_of_mem (hperm.mem_iff.2 hx)
  refine ⟨before, after, hsplit, fun b hb => ⟨?_, ?_⟩⟩
  · have hsorted : sorted.Pairwise (fun a b => rank (key a) ≤ rank (key b)) := by
      have : Std.Total (fun a b : α => rank (key a) ≤ rank (key b)) := ⟨fun a b => Nat.le_total _ _⟩
      have : IsTrans α (fun a b => rank (key a) ≤ rank (key b)) := ⟨fun _ _ _ => Nat.le_trans⟩
      exact pairwise_insertionSort _ _
    rw [hsplit, pairwise_append] at hsorted
    exact hsorted.2.2 b hb x mem_cons_self
  · have hkeys := (hperm.map key).nodup_iff.2 hnodup
    rw [hsplit, map_append, map_cons] at hkeys
    intro he
    exact (disjoint_of_nodup_append hkeys) (mem_map_of_mem hb) (he ▸ mem_cons_self)

end Head

theorem pairwise_of_forall₂ {α β : Type} {B : α → β → Prop} {S : α → α → Prop} {T : β → β → Prop} {l : List α}
    {xs : List β} (hpairs : List.Forall₂ B l xs) (hl : l.Pairwise S)
    (h : ∀ a b x y, S a b → B a x → B b y → T x y) : xs.Pairwise T := by
  induction hpairs with
  | nil => exact .nil
  | cons hx hrest ih =>
    obtain ⟨hhead, htail⟩ := pairwise_cons.1 hl
    refine pairwise_cons.2 ⟨fun y hy => ?_, ih htail⟩
    obtain ⟨b, hb, hby⟩ := exists_left_of_forall₂ hrest hy
    exact h _ b _ y (hhead b hb) hx hby

section Memo

variable {α κ β : Type} [DecidableEq κ] (key : α → κ) (f : α → β)

/-- The values of `f` along a list, where a value already computed under an element's key is used again. -/
def memoMap : (κ → Option β) → List α → List (α × β)
  | _, [] => []
  | cache, a :: rest =>
    match cache (key a) with
    | some b => (a, b) :: memoMap cache rest
    | none => (a, f a) :: memoMap (update cache (key a) (some (f a))) rest

theorem mem_memoMap (seen : List α) {l : List α} {cache : κ → Option β}
    (hcache : ∀ k, cache k = (seen.find? (fun a => key a = k)).map f) {a : α} {b : β}
    (h : (a, b) ∈ memoMap key f cache l) :
    a ∈ l ∧ ∃ q, (seen ++ l).find? (fun x => key x = key a) = some q ∧ b = f q := by
  induction l generalizing seen cache with
  | nil => cases h
  | cons x l ih =>
    have hsplit : seen ++ x :: l = (seen ++ [x]) ++ l := by simp
    rw [memoMap] at h
    cases hx : cache (key x) with
    | some v =>
      rw [hx] at h
      obtain ⟨q, hq, hv⟩ := Option.map_eq_some_iff.1 ((hcache _).symm.trans hx)
      rcases mem_cons.1 h with heq | h
      · cases heq
        exact ⟨mem_cons_self, q, by rw [List.find?_append, hq]; rfl, hv.symm⟩
      · have hseen : ∀ k, cache k = ((seen ++ [x]).find? (fun a => key a = k)).map f := by
          intro k
          rw [hcache, List.find?_append]
          by_cases hk : key x = k
          · rw [← hk, hq]
            rfl
          · simp [hk]
        obtain ⟨ha, hfirst⟩ := ih _ hseen h
        exact ⟨mem_cons_of_mem x ha, hsplit ▸ hfirst⟩
    | none =>
      rw [hx] at h
      have hnone : seen.find? (fun a => key a = key x) = none := Option.map_eq_none_iff.1 ((hcache _).symm.trans hx)
      rcases mem_cons.1 h with heq | h
      · cases heq
        exact ⟨mem_cons_self, a, by rw [List.find?_append, hnone]; simp, rfl⟩
      · have hseen : ∀ k, update cache (key x) (some (f x)) k = ((seen ++ [x]).find? (fun a => key a = k)).map f := by
          intro k
          rw [List.find?_append]
          by_cases hk : key x = k
          · rw [← hk, update_self, hnone]
            simp
          · rw [update_of_ne (fun h => hk h.symm), hcache]
            simp [hk]
        obtain ⟨ha, hfirst⟩ := ih _ hseen h
        exact ⟨mem_cons_of_mem x ha, hsplit ▸ hfirst⟩

end Memo

end Jaco.KeyedFolds
