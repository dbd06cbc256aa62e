import Jaco.ReplicaStarts

namespace Jaco.NetworkOrder

open List

open Reconciler (networkName)

structure Ent where
  name : String
  priority : Int

def ent (entry : String × Option Int) : Ent := ⟨entry.1, entry.2.getD 0⟩

def Ent.hasPrio (e : Ent) : Bool := e.priority ≠ 0

def less (a b : Ent) : Bool :=
  if a.hasPrio || b.hasPrio then b.priority < a.priority else a.name < b.name

def Stays (a b : Ent) : Prop := less b a = false

instance : DecidableRel Stays := fun a b => inferInstanceAs (Decidable (less b a = false))

def networksFromCompose (networks : List (String × Option Int)) (deployment : String) : List String :=
  Reconciler.networksFromCompose (((networks.map ent).insertionSort Stays).map Ent.name) deployment

/-- The attach order the source's comment states: by descending priority, then by name. -/
def rank (e : Ent) : Int ×ₗ String := toLex (-e.priority, e.name)

def attachOrder (networks : List (String × Option Int)) (deployment : String) : List String :=
  Reconciler.networksFromCompose (((networks.map ent).insertionSort (rank · ≤ rank ·)).map Ent.name) deployment

def sortKey (e : Ent) : Int ×ₗ String := toLex (-e.priority, if e.priority = 0 then e.name else "")

theorem stays_iff (a b : Ent) : Stays a b ↔ sortKey a ≤ sortKey b := by
  rw [Stays, less, sortKey, sortKey, Prod.Lex.toLex_le_toLex]
  by_cases ha : a.priority = 0 <;> by_cases hb : b.priority = 0
  · simp only [Ent.hasPrio, ha, hb, ne_eq, not_true_eq_false, decide_false, Bool.or_self, Bool.false_eq_true,
      if_false, if_true, decide_eq_false_iff_not, not_lt, lt_irrefl, false_or, true_and]
  · simp [Ent.hasPrio, ha, hb]
    omega
  · simp [Ent.hasPrio, ha, hb]
    omega
  · simp [Ent.hasPrio, ha, hb]
    omega

instance : Std.Total Stays where
  total a b := by simpa only [stays_iff] using le_total (sortKey a) (sortKey b)

instance : IsTrans Ent Stays where
  trans a b c := by simpa only [stays_iff] using le_trans

instance : Std.Total (rank · ≤ rank ·) := ⟨fun a b => le_total (rank a) (rank b)⟩

instance : IsTrans Ent (rank · ≤ rank ·) := ⟨fun _ _ _ => le_trans⟩

theorem stays_of_rank_le {a b : Ent} (h : rank a ≤ rank b) : Stays a b := by
  rw [stays_iff, sortKey, sortKey, Prod.Lex.toLex_le_toLex]
  refine (Prod.Lex.toLex_le_toLex.1 h).imp_right (fun ⟨hprio, hname⟩ => ⟨hprio, ?_⟩)
  rw [neg_inj.1 hprio]
  split
  · exact hname
  · exact le_rfl

theorem takeWhile_length {α : Type} {r : α → α → Prop} [DecidableRel r] [IsTrans α r] {l : List α}
    (h : l.Pairwise r) (a : α) :
    (l.takeWhile (fun b => decide ¬ r a b)).length = l.countP (fun b => decide ¬ r a b) := by
  induction l with
  | nil => rfl
  | cons b l ih =>
    obtain ⟨hhead, htail⟩ := pairwise_cons.1 h
    by_cases hab : r a b
    · have hnone : l.countP (fun c => decide ¬ r a c) = 0 :=
        countP_eq_zero.2 (fun c hc => by simpa using IsTrans.trans a b c hab (hhead c hc))
      rw [takeWhile_cons_of_neg (by simpa using hab), countP_cons_of_neg (by simpa using hab), hnone]
      rfl
    · simp only [takeWhile_cons, countP_cons, hab, not_false_eq_true, decide_true, if_true, length_cons, ih htail]

theorem getElem?_insertionSort_cons {α : Type} {r : α → α → Prop} [DecidableRel r] [Std.Total r] [IsTrans α r]
    (a : α) (l : List α) : ((a :: l).insertionSort r)[l.countP (fun b => decide ¬ r a b)]? = some a := by
  rw [insertionSort_cons, orderedInsert_eq_take_drop, ← (l.perm_insertionSort r).countP_eq,
    ← takeWhile_length (l.pairwise_insertionSort r) a, List.getElem?_append_right le_rfl, Nat.sub_self]
  rfl

section Order

variable {networks : List (String × Option Int)} {deployment : String}

def PrioritiesApart (networks : List (String × Option Int)) (deployment : String) : Prop :=
  ∀ a ∈ networks.map ent, ∀ b ∈ networks.map ent, a.priority = b.priority → a.priority ≠ 0 →
    networkName deployment a.name = networkName deployment b.name

theorem sorted_names_eq (h : PrioritiesApart networks deployment) {l l' : List Ent} (hperm : l.Perm l')
    (hmem : ∀ e ∈ l, e ∈ networks.map ent) (hl : l.Pairwise Stays) (hl' : l'.Pairwise Stays) :
    l.map (fun e => networkName deployment e.name) = l'.map (fun e => networkName deployment e.name) := by
  -- entries are compared with their docker names beside the key they are sorted by
  let keyed (e : Ent) : (Int ×ₗ String) × String := (sortKey e, networkName deployment e.name)
  have hsorted : ∀ {k : List Ent}, k.Pairwise Stays → (k.map keyed).Pairwise (fun x y => x.1 ≤ y.1) := fun hk =>
    pairwise_map.2 (hk.imp (fun {a b} hab => (stays_iff a b).1 hab))
  have hkeys : l.map keyed = l'.map keyed := by
    refine (hperm.map _).eq_of_pairwise ?_ (hsorted hl) (hsorted hl')
    intro x y hx hy hxy hyx
    obtain ⟨a, ha, rfl⟩ := mem_map.1 hx
    obtain ⟨b, hb, rfl⟩ := mem_map.1 hy
    have hkey : sortKey a = sortKey b := le_antisymm hxy hyx
    obtain ⟨hprio, hname⟩ := Prod.mk.inj (toLex.injective hkey)
    refine Prod.ext hkey ?_
    by_cases hzero : a.priority = 0
    · rw [if_pos hzero, if_pos (neg_inj.1 hprio ▸ hzero)] at hname
      exact congrArg (networkName deployment) hname
    · exact h a (hmem a ha) b (hmem b (hperm.mem_iff.2 hb)) (neg_inj.1 hprio) hzero
  simpa [keyed, Function.comp_def] using congrArg (List.map Prod.snd) hkeys

theorem names_eq {l l' : List Ent} (h : l.map (fun e => networkName deployment e.name) =
    l'.map (fun e => networkName deployment e.name)) :
    Reconciler.networksFromCompose (l.map Ent.name) deployment =
      Reconciler.networksFromCompose (l'.map Ent.name) deployment := by
  have hlen : l = [] ↔ l' = [] := by
    rw [← map_eq_nil_iff (f := fun e => networkName deployment e.name), h, map_eq_nil_iff]
  by_cases hnil : l = []
  · rw [hnil, hlen.1 hnil]
  · simpa [Reconciler.networksFromCompose, hnil, mt hlen.2 hnil, Function.comp_def] using h

theorem getElem?_networksFromCompose (deployment : String) {a : String × Option Int} (ha : a ∈ networks) :
    ∃ order : List (String × Option Int), order.Perm networks ∧
    (networksFromCompose order deployment)[(networks.map ent).countP
      (fun e => decide ¬ Stays (ent a) e)]? = some (networkName deployment a.1) := by
  refine ⟨a :: networks.erase a, (perm_cons_erase ha).symm, ?_⟩
  have hcount : (networks.map ent).countP (fun e => decide ¬ Stays (ent a) e) =
      ((networks.erase a).map ent).countP (fun e => decide ¬ Stays (ent a) e) := by
    have hself : Stays (ent a) (ent a) := (stays_iff _ _).2 le_rfl
    rw [((perm_cons_erase ha).map ent).countP_eq, map_cons, countP_cons]
    simp [hself]
  have hfirst := getElem?_insertionSort_cons (r := Stays) (ent a) ((networks.erase a).map ent)
  have hne : ((a :: networks.erase a).map ent).insertionSort Stays ≠ [] := fun hnil => by
    simpa using ((perm_insertionSort Stays _).symm.trans (List.Perm.of_eq hnil)).length_eq
  rw [networksFromCompose, Reconciler.networksFromCompose, if_neg (by simpa using hne), hcount, List.getElem?_map,
    List.getElem?_map, map_cons, hfirst]
  rfl

end Order

theorem attach_order_iff (networks : List (String × Option Int)) (deployment : String) :
    (∀ order, order.Perm networks → networksFromCompose order deployment = attachOrder networks deployment) ↔
      PrioritiesApart networks deployment := by
  constructor
  · intro h _ hmem _ hmem' hprio hne
    obtain ⟨a, ha, rfl⟩ := mem_map.1 hmem
    obtain ⟨b, hb, rfl⟩ := mem_map.1 hmem'
    obtain ⟨order, hperm, hfirst⟩ := getElem?_networksFromCompose deployment ha
    obtain ⟨order', hperm', hfirst'⟩ := getElem?_networksFromCompose deployment hb
    -- both come right after the entries of higher priority
    have hkey : sortKey (ent a) = sortKey (ent b) := by
      rw [sortKey, sortKey, ← hprio, if_neg hne, if_neg hne]
    have hsame : ∀ e : Ent, Stays (ent a) e ↔ Stays (ent b) e := by
      intro e
      rw [stays_iff, stays_iff, hkey]
    simp only [hsame] at hfirst
    rw [h order hperm] at hfirst
    rw [h order' hperm', hfirst] at hfirst'
    exact Option.some.inj hfirst'
  · intro h order hperm
    refine names_eq (sorted_names_eq h ?_ ?_ (pairwise_insertionSort _ _)
      ((pairwise_insertionSort _ _).imp stays_of_rank_le))
    · exact (perm_insertionSort _ _).trans ((hperm.map ent).trans (perm_insertionSort _ _).symm)
    · exact fun e he => (hperm.map ent).mem_iff.1 ((perm_insertionSort _ _).mem_iff.1 he)

theorem equal_priorities_keep_map_order :
    networksFromCompose [("front", some 100), ("back", some 100)] "shop" = ["jaco_shop_front", "jaco_shop_back"] ∧
      networksFromCompose [("back", some 100), ("front", some 100)] "shop" = ["jaco_shop_back", "jaco_shop_front"] := by
  decide +kernel

end Jaco.NetworkOrder
