import Mathlib

namespace Jaco

open Std List

/-- A map whose records carry their own key, so a record can only sit where `keyFn` puts it. -/
structure Store (α : Type) (keyFn : α → String) where
  byKey : ExtTreeMap String α
  keyed : ∀ k v, byKey[k]? = some v → keyFn v = k

namespace Store

variable {α : Type} {keyFn : α → String}

def get (s : Store α keyFn) (k : String) : Option α := s.byKey[k]?

variable {s : Store α keyFn} {v : α} {owner : α → String} {o : String}

theorem ext {t : Store α keyFn} (h : ∀ k, s.get k = t.get k) : s = t := by
  obtain ⟨m, hm⟩ := s
  obtain ⟨n, hn⟩ := t
  have he : m = n := ExtTreeMap.ext_getElem? h
  subst he
  rfl

instance [DecidableEq α] : DecidableEq (Store α keyFn) := fun s t =>
  decidable_of_iff (s.byKey = t.byKey)
    ⟨fun h => by cases s; cases t; cases h; rfl, fun h => congrArg byKey h⟩

theorem get_key {k : String} (h : s.get k = some v) : keyFn v = k :=
  s.keyed k v h

def empty : Store α keyFn where
  byKey := ∅
  keyed := by intro k v h; simp at h

@[simp] theorem get_empty (k : String) : (empty : Store α keyFn).get k = none := by
  simp [empty, get]

def apply (s : Store α keyFn) (v : α) : Store α keyFn where
  byKey := s.byKey.insert (keyFn v) v
  keyed := by
    intro k w h
    rw [ExtTreeMap.getElem?_insert] at h
    split at h
    · rename_i hk
      cases h
      exact LawfulEqCmp.eq_of_compare hk
    · exact s.keyed k w h

theorem get_apply (s : Store α keyFn) (v : α) (k : String) :
    (s.apply v).get k = if keyFn v = k then some v else s.get k := by
  simp [apply, get, ExtTreeMap.getElem?_insert]

@[simp] theorem get_apply_self (s : Store α keyFn) (v : α) : (s.apply v).get (keyFn v) = some v := by
  simp [get_apply]

def remove (s : Store α keyFn) (k : String) : Store α keyFn where
  byKey := s.byKey.erase k
  keyed := by
    intro j w h
    rw [ExtTreeMap.getElem?_erase] at h
    split at h
    · cases h
    · exact s.keyed j w h

theorem get_remove (s : Store α keyFn) (j k : String) : (s.remove j).get k = if j = k then none else s.get k := by
  simp [remove, get, ExtTreeMap.getElem?_erase]

theorem eq_or_get_of_apply {w : α} {k : String} (h : (s.apply w).get k = some v) : v = w ∨ s.get k = some v := by
  rw [get_apply] at h
  split at h
  · exact .inl (Option.some.inj h).symm
  · exact .inr h

theorem get_of_remove {j k : String} (h : (s.remove j).get k = some v) : s.get k = some v := by
  rw [get_remove] at h
  split at h
  · cases h
  · exact h

def list (s : Store α keyFn) : List α := s.byKey.toList.map Prod.snd

/-- One iteration over the map: every record once, in an order that is not determined. -/
structure Listing (s : Store α keyFn) where
  items : List α
  perm : items.Perm s.list

def listing (s : Store α keyFn) : s.Listing := ⟨s.list, List.Perm.refl _⟩

def ranked (rank : String → Nat) (s : Store α keyFn) : s.Listing where
  items := s.list.insertionSort (fun a b => rank (keyFn a) ≤ rank (keyFn b))
  perm := List.perm_insertionSort _ _

theorem mem_list : v ∈ s.list ↔ s.get (keyFn v) = some v := by
  simp only [list, mem_map, Prod.exists, exists_eq_right, get]
  constructor
  · rintro ⟨k, hk⟩
    have hv := ExtTreeMap.mem_toList_iff_getElem?_eq_some.mp hk
    rwa [s.keyed k v hv]
  · intro h
    exact ⟨_, ExtTreeMap.mem_toList_iff_getElem?_eq_some.mpr h⟩

theorem Listing.mem_items (l : s.Listing) (v : α) : v ∈ l.items ↔ s.get (keyFn v) = some v := by
  rw [l.perm.mem_iff, mem_list]

theorem mem_list_of_get {k : String} (h : s.get k = some v) : v ∈ s.list := by
  rw [mem_list, get_key h]
  exact h

theorem nodup_list (s : Store α keyFn) : (s.list.map keyFn).Nodup := by
  have he : s.list.map keyFn = s.byKey.toList.map Prod.fst := by
    simp only [list, map_map]
    apply map_congr_left
    rintro ⟨k, v⟩ h
    exact s.keyed k v (ExtTreeMap.mem_toList_iff_getElem?_eq_some.mp h)
  rw [he, ExtTreeMap.map_fst_toList_eq_keys]
  exact ExtTreeMap.nodup_keys

theorem find?_of_perm {l : List α} (h : l.Perm s.list) (k : String) : l.find? (fun v => keyFn v = k) = s.get k := by
  cases hfind : l.find? (fun v => keyFn v = k) with
  | some v =>
    have hv := mem_list.1 (h.mem_iff.1 (mem_of_find?_eq_some hfind))
    have hkey := List.find?_some hfind
    rw [decide_eq_true_eq] at hkey
    rw [← hkey, hv]
  | none =>
    cases hget : s.get k with
    | none => rfl
    | some v =>
      have hv := List.find?_eq_none.1 hfind v (h.mem_iff.2 (mem_list_of_get hget))
      exact absurd (decide_eq_true (get_key hget)) hv

theorem countP_list (s : Store α keyFn) (p : α → Bool) {ks : List String} (hks : ks.Nodup)
    (hall : ∀ v ∈ s.list, p v = true → keyFn v ∈ ks) : s.list.countP p = ks.countP (fun k => (s.get k).any p) := by
  have hperm : ((s.list.filter p).map keyFn).Perm (ks.filter (fun k => (s.get k).any p)) := by
    refine (perm_ext_iff_of_nodup ((filter_sublist.map _).nodup s.nodup_list) (hks.filter _)).2 (fun k => ?_)
    simp only [mem_map, mem_filter, Option.any_eq_true]
    constructor
    · rintro ⟨v, ⟨hv, hp⟩, rfl⟩
      exact ⟨hall v hv hp, v, mem_list.1 hv, hp⟩
    · rintro ⟨-, v, hget, hp⟩
      exact ⟨v, ⟨mem_list_of_get hget, hp⟩, get_key hget⟩
  rw [countP_eq_length_filter, countP_eq_length_filter, ← hperm.length_eq, length_map]

theorem list_empty_apply (v : α) : ((empty : Store α keyFn).apply v).list = [v] := rfl

def applyAll (s : Store α keyFn) (l : List α) : Store α keyFn := l.foldl apply s

@[simp] theorem applyAll_nil (s : Store α keyFn) : s.applyAll [] = s := rfl

@[simp] theorem applyAll_cons (s : Store α keyFn) (v : α) (l : List α) :
    s.applyAll (v :: l) = (s.apply v).applyAll l := rfl

theorem get_applyAll_of_notMem (s : Store α keyFn) (l : List α) (k : String)
    (h : ∀ v ∈ l, keyFn v ≠ k) : (s.applyAll l).get k = s.get k := by
  induction l generalizing s with
  | nil => rfl
  | cons v l ih =>
    rw [applyAll_cons, ih _ (fun w hw => h w (mem_cons_of_mem _ hw)), get_apply, if_neg (h v mem_cons_self)]

theorem get_applyAll_of_mem (s : Store α keyFn) (l : List α) (v : α) (hv : v ∈ l)
    (hn : (l.map keyFn).Nodup) : (s.applyAll l).get (keyFn v) = some v := by
  induction l generalizing s with
  | nil => cases hv
  | cons w l ih =>
    rw [map_cons, nodup_cons] at hn
    rw [applyAll_cons]
    rcases mem_cons.mp hv with rfl | hv
    · rw [get_applyAll_of_notMem, get_apply_self]
      intro u hu he
      exact hn.1 (mem_map.mpr ⟨u, hu, he⟩)
    · exact ih _ hv hn.2

theorem exists_get_applyAll (s : Store α keyFn) (l : List α) (k : String) (h : ∃ v ∈ l, keyFn v = k) :
    ∃ v ∈ l, (s.applyAll l).get k = some v := by
  induction l generalizing s with
  | nil => simp at h
  | cons w l ih =>
    rw [applyAll_cons]
    by_cases hl : ∃ v ∈ l, keyFn v = k
    · obtain ⟨v, hv, hk⟩ := ih (s.apply w) hl
      exact ⟨v, mem_cons_of_mem _ hv, hk⟩
    · have hw : keyFn w = k := by simpa [hl] using h
      refine ⟨w, mem_cons_self, ?_⟩
      rw [get_applyAll_of_notMem _ _ _ (fun v hv he => hl ⟨v, hv, he⟩), ← hw, get_apply_self]

theorem get_applyAll_perm (s t : Store α keyFn) (l : List α) (hl : l.Perm s.list) (k : String) :
    (t.applyAll l).get k = (s.get k).or (t.get k) := by
  have hn : (l.map keyFn).Nodup := (hl.map keyFn).nodup_iff.mpr s.nodup_list
  cases hk : s.get k with
  | none =>
    rw [get_applyAll_of_notMem, Option.none_or]
    intro v hv he
    have hs := mem_list.mp (hl.mem_iff.mp hv)
    rw [he, hk] at hs
    cases hs
  | some v =>
    have hv : v ∈ l := hl.mem_iff.mpr (mem_list_of_get hk)
    have h := get_applyAll_of_mem t l v hv hn
    rwa [get_key hk] at h

def removeOver (p : α → Bool) (s : Store α keyFn) (l : List α) : Store α keyFn :=
  l.foldl (fun t v => if p v then t.remove (keyFn v) else t) s

theorem get_removeOver (p : α → Bool) (s : Store α keyFn) (l : List α) (k : String) :
    (removeOver p s l).get k = if ∃ v ∈ l, p v = true ∧ keyFn v = k then none else s.get k := by
  induction l generalizing s with
  | nil => simp [removeOver]
  | cons v l ih =>
    have he : removeOver p s (v :: l) = removeOver p (if p v then s.remove (keyFn v) else s) l := rfl
    have hstep : (if p v then s.remove (keyFn v) else s).get k =
        if p v = true ∧ keyFn v = k then none else s.get k := by
      cases hp : p v <;> simp [get_remove]
    rw [he, ih, hstep]
    simp only [mem_cons, exists_eq_or_imp]
    by_cases hv : p v = true ∧ keyFn v = k
    · rw [if_pos hv, if_pos (Or.inl hv), ite_self]
    · rw [if_neg hv]
      exact if_congr (or_iff_right hv).symm rfl rfl

def removeWhere (s : Store α keyFn) (p : α → Bool) : Store α keyFn := removeOver p s s.list

theorem get_removeWhere (s : Store α keyFn) (p : α → Bool) (k : String) :
    (s.removeWhere p).get k = (s.get k).filter (fun v => !p v) := by
  rw [removeWhere, get_removeOver]
  cases hk : s.get k with
  | none =>
    rw [Option.filter_none]
    split <;> rfl
  | some v =>
    have hm : (∃ w ∈ s.list, p w = true ∧ keyFn w = k) ↔ p v = true := by
      constructor
      · rintro ⟨w, hw, hp, rfl⟩
        rw [mem_list, hk] at hw
        cases hw
        exact hp
      · intro hp
        exact ⟨v, mem_list_of_get hk, hp, get_key hk⟩
    simp only [hm, Option.filter_some]
    cases p v <;> rfl

theorem get_of_removeWhere {p : α → Bool} {k : String} (h : (s.removeWhere p).get k = some v) : s.get k = some v := by
  rw [get_removeWhere] at h
  exact (Option.filter_eq_some_iff.1 h).1

def replaceOwned (s : Store α keyFn) (owner : α → String) (o : String) (l : List α) : Store α keyFn :=
  (s.removeWhere (fun v => owner v = o && keyFn v ∉ l.map keyFn)).applyAll l

theorem get_replaceOwned_of_notMem (s : Store α keyFn) (owner : α → String) (o : String) (l : List α) (k : String)
    (h : ∀ v ∈ l, keyFn v ≠ k) : (s.replaceOwned owner o l).get k = (s.get k).filter (fun v => owner v ≠ o) := by
  rw [replaceOwned, get_applyAll_of_notMem _ _ _ h, get_removeWhere]
  cases hk : s.get k with
  | none => rfl
  | some v =>
    have hv : keyFn v ∉ l.map keyFn := by
      rw [get_key hk]
      simpa using h
    rw [Option.filter_some, Option.filter_some, decide_eq_true hv, Bool.and_true, decide_not]

def KeepsForeign (owner : α → String) (o : String) (s t : Store α keyFn) : Prop :=
  ∀ k v, s.get k = some v → owner v ≠ o → t.get k = some v

theorem exists_get_replaceOwned (s : Store α keyFn) (owner : α → String) (o : String) {l : List α} {k : String}
    (h : ∃ v ∈ l, keyFn v = k) : ∃ v ∈ l, (s.replaceOwned owner o l).get k = some v :=
  exists_get_applyAll _ l k h

theorem keepsForeign_replaceOwned_iff (s : Store α keyFn) (owner : α → String) (o : String) (l : List α)
    (hl : ∀ v ∈ l, owner v = o) :
    KeepsForeign owner o s (s.replaceOwned owner o l) ↔ ∀ v ∈ l, ∀ w, s.get (keyFn v) = some w → owner w = o := by
  constructor
  · intro h v hv w hw
    by_contra ho
    obtain ⟨u, hu, hk⟩ := exists_get_replaceOwned s owner o ⟨v, hv, rfl⟩
    have he : u = w := Option.some.inj (hk.symm.trans (h _ w hw ho))
    exact ho (he ▸ hl u hu)
  · intro h k v hk ho
    have hnot : ∀ w ∈ l, keyFn w ≠ k := by
      rintro w hw rfl
      exact ho (h w hw v hk)
    rw [get_replaceOwned_of_notMem _ _ _ _ _ hnot, hk]
    simp [ho]

theorem owned_replaceOwned_iff (s : Store α keyFn) (owner : α → String) (o : String) (l : List α) :
    (∀ v, ((s.replaceOwned owner o l).get (keyFn v) = some v ∧ owner v = o) ↔ v ∈ l) ↔
      (∀ v ∈ l, owner v = o) ∧ ∀ v ∈ l, ∀ w ∈ l, keyFn v = keyFn w → v = w := by
  constructor
  · intro h
    refine ⟨fun v hv => ((h v).2 hv).2, fun v hv w hw hk => ?_⟩
    have hgetv := ((h v).2 hv).1
    have hgetw := ((h w).2 hw).1
    rw [hk, hgetw] at hgetv
    exact (Option.some.inj hgetv).symm
  · rintro ⟨howner, hkeys⟩ v
    constructor
    · rintro ⟨hget, hv⟩
      by_cases hin : ∃ w ∈ l, keyFn w = keyFn v
      · obtain ⟨u, hu, hgetu⟩ := exists_get_replaceOwned s owner o hin
        rw [hgetu] at hget
        rwa [← Option.some.inj hget]
      · rw [get_replaceOwned_of_notMem s owner o l (keyFn v) (fun w hw hk => hin ⟨w, hw, hk⟩),
          Option.filter_eq_some_iff] at hget
        exact absurd hv (by simpa using hget.2)
    · intro hv
      obtain ⟨u, hu, hgetu⟩ := exists_get_replaceOwned s owner o ⟨v, hv, rfl⟩
      have huv : u = v := hkeys u hu v hv (get_key hgetu)
      rw [huv] at hgetu
      exact ⟨hgetu, howner v hv⟩

def Free (owner : α → String) (o : String) (s : Store α keyFn) : Prop := ∀ k v, s.get k = some v → owner v ≠ o

theorem free_removeWhere_owner (owner : α → String) (o : String) (s : Store α keyFn) :
    Free owner o (s.removeWhere (fun v => owner v = o)) := by
  intro k w hw
  rw [get_removeWhere, Option.filter_eq_some_iff] at hw
  simpa using hw.2

end Store

end Jaco
