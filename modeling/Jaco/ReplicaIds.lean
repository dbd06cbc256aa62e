import Jaco.Placement

/-!
Which replica ids coincide. An id is three parts with dashes between them, and every part may hold a dash.
-/

namespace Jaco.ReplicaIds

open Placement List

section Joined

theorem dash_toList (a b : String) : (a ++ "-" ++ b).toList = a.toList ++ '-' :: b.toList := by
  simp

theorem joined_eq_iff (a b c e : String) :
    a ++ "-" ++ b = c ++ "-" ++ e ↔ (a = c ∧ b = e) ∨ (∃ x, c = a ++ "-" ++ x ∧ b = x ++ "-" ++ e) ∨
      ∃ x, a = c ++ "-" ++ x ∧ e = x ++ "-" ++ b := by
  have hsplit : ∀ {a b c e : String} (t : List Char), c.toList = a.toList ++ t →
      '-' :: b.toList = t ++ '-' :: e.toList →
      (a = c ∧ b = e) ∨ ∃ x, c = a ++ "-" ++ x ∧ b = x ++ "-" ++ e := by
    intro a b c e t hc hb
    cases t with
    | nil =>
      rw [append_nil] at hc
      exact .inl ⟨String.toList_inj.1 hc.symm, String.toList_inj.1 (List.cons.inj hb).2⟩
    | cons y t =>
      obtain ⟨rfl, -⟩ := List.cons.inj hb
      refine .inr ⟨String.ofList t, String.toList_inj.1 ?_, String.toList_inj.1 ?_⟩
      · rw [dash_toList, String.toList_ofList]
        exact hc
      · rw [dash_toList, String.toList_ofList]
        exact (List.cons.inj hb).2
  constructor
  · intro h
    have hl := congrArg String.toList h
    rw [dash_toList, dash_toList] at hl
    rcases append_eq_append_iff.1 hl with ⟨t, hc, hb⟩ | ⟨t, ha, he⟩
    · rcases hsplit t hc hb with h | h
      · exact .inl h
      · exact .inr (.inl h)
    · rcases hsplit t ha he with ⟨h₁, h₂⟩ | h
      · exact .inl ⟨h₁.symm, h₂.symm⟩
      · exact .inr (.inr h)
  · rintro (⟨rfl, rfl⟩ | ⟨x, rfl, rfl⟩ | ⟨x, rfl, rfl⟩)
    · rfl
    · simp only [String.append_assoc]
    · simp only [String.append_assoc]

theorem joined_ne_left (a b : String) : a ≠ a ++ "-" ++ b := by
  intro h
  have hlen := congrArg List.length (congrArg String.toList h)
  rw [dash_toList, length_append, length_cons] at hlen
  omega

end Joined

inductive Place where
  | index (i : Nat)
  | host (h : String)
  deriving DecidableEq

def Place.label : Place → String
  | .index i => toString i
  | .host h => sanitizeHost h

structure Seat where
  deployment : String
  service : String
  place : Place
  deriving DecidableEq

def Seat.id (t : Seat) : String :=
  match t.place with
  | .index i => replicaID t.deployment t.service i
  | .host h => replicaIDForHost t.deployment t.service h

theorem Seat.id_eq (t : Seat) : t.id = t.deployment ++ "-" ++ t.service ++ "-" ++ t.place.label := by
  unfold Seat.id
  cases t.place <;> rfl

structure Fleet where
  numbered : Set (String × String × Nat)
  global : Set (String × String)
  hosts : Set String

namespace Fleet

variable (F : Fleet)

def Has (t : Seat) : Prop :=
  match t.place with
  | .index i => ∃ n, (t.deployment, t.service, n) ∈ F.numbered ∧ i < n
  | .host h => (t.deployment, t.service) ∈ F.global ∧ h ∈ F.hosts

variable {F} in
theorem has_index {d s : String} {n i : Nat} (hn : (d, s, n) ∈ F.numbered) (hi : i < n) : F.Has ⟨d, s, .index i⟩ :=
  ⟨n, hn, hi⟩

variable {F} in
theorem has_host {d s h : String} (hds : (d, s) ∈ F.global) (hh : h ∈ F.hosts) : F.Has ⟨d, s, .host h⟩ := ⟨hds, hh⟩

def Label (d s l : String) : Prop := ∃ p, F.Has ⟨d, s, p⟩ ∧ p.label = l

structure Spelled : Prop where
  hosts : ∀ d s, (d, s) ∈ F.global → ∀ h ∈ F.hosts, ∀ h' ∈ F.hosts, sanitizeHost h = sanitizeHost h' → h = h'
  numerals : ∀ d s n i, (d, s, n) ∈ F.numbered → i < n → (d, s) ∈ F.global → ∀ h ∈ F.hosts, sanitizeHost h ≠ toString i
  dashes : ∀ d s x l, F.Label d (x ++ "-" ++ s) l → ¬ F.Label (d ++ "-" ++ x) s l
  tails : ∀ d s d' s' x, d' ++ "-" ++ s' = d ++ "-" ++ s ++ "-" ++ x → (d, s) ∈ F.global → ∀ h ∈ F.hosts, ∀ l,
    sanitizeHost h = x ++ "-" ++ l → ¬ F.Label d' s' l

def Distinct : Prop := ∀ t t', F.Has t → F.Has t' → t.id = t'.id → t = t'

end Fleet

section Labels

theorem not_dash_mem_toString (i : Nat) : '-' ∉ (toString i).toList := by
  rw [Nat.toString_eq_ofList_toDigits, String.toList_ofList]
  intro h
  have := Nat.isDigit_of_mem_toDigits (by decide) (by decide) h
  exact absurd this (by decide)

theorem toString_injective {i j : Nat} (h : toString i = toString j) : i = j := by
  rw [← GoStrings.digitsValue_toString i, h, GoStrings.digitsValue_toString]

theorem numeral_ne_joined (i : Nat) (x l : String) : toString i ≠ x ++ "-" ++ l := by
  intro h
  refine not_dash_mem_toString i ?_
  rw [h, dash_toList]
  exact mem_append_right _ mem_cons_self

variable {F : Fleet} (hF : F.Spelled)

include hF

theorem place_of_label {d s : String} {p p' : Place} (h : F.Has ⟨d, s, p⟩) (h' : F.Has ⟨d, s, p'⟩)
    (hl : p.label = p'.label) : p = p' := by
  cases p with
  | index i =>
    obtain ⟨n, hn, hi⟩ := h
    cases p' with
    | index j => rw [toString_injective hl]
    | host h' => exact absurd hl.symm (hF.numerals d s n i hn hi h'.1 _ h'.2)
  | host g =>
    cases p' with
    | index j =>
      obtain ⟨n, hn, hj⟩ := h'
      exact absurd hl (hF.numerals d s n j hn hj h.1 g h.2)
    | host g' => rw [hF.hosts d s h.1 g h.2 g' h'.2 hl]

theorem seat_of_joined {d s d' s' : String} {p p' : Place} (h : F.Has ⟨d, s, p⟩) (h' : F.Has ⟨d', s', p'⟩)
    (hjoin : d ++ "-" ++ s = d' ++ "-" ++ s') (hl : p.label = p'.label) : (⟨d, s, p⟩ : Seat) = ⟨d', s', p'⟩ := by
  rcases (joined_eq_iff d s d' s').1 hjoin with ⟨rfl, rfl⟩ | ⟨x, rfl, rfl⟩ | ⟨x, rfl, rfl⟩
  · rw [place_of_label hF h h' hl]
  · exact absurd ⟨p', h', hl.symm⟩ (hF.dashes d s' x _ ⟨p, h, rfl⟩)
  · exact absurd ⟨p, h, rfl⟩ (hF.dashes d' s x _ ⟨p', h', hl.symm⟩)

theorem label_not_tailed {d s d' s' x : String} {p p' : Place} (h : F.Has ⟨d, s, p⟩) (h' : F.Has ⟨d', s', p'⟩)
    (hjoin : d' ++ "-" ++ s' = d ++ "-" ++ s ++ "-" ++ x) : p.label ≠ x ++ "-" ++ p'.label := by
  cases p with
  | index i => exact numeral_ne_joined i x _
  | host g => exact fun hl => hF.tails d s d' s' x hjoin h.1 g h.2 _ hl ⟨p', h', rfl⟩

theorem distinct_of_spelled : F.Distinct := by
  rintro ⟨d, s, p⟩ ⟨d', s', p'⟩ h h' hid
  rw [Seat.id_eq, Seat.id_eq] at hid
  rcases (joined_eq_iff _ _ _ _).1 hid with ⟨hjoin, hl⟩ | ⟨x, hjoin, hl⟩ | ⟨x, hjoin, hl⟩
  · exact seat_of_joined hF h h' hjoin hl
  · exact absurd hl (label_not_tailed hF h h' hjoin)
  · exact absurd hl (label_not_tailed hF h' h hjoin)

end Labels

theorem spelled_of_distinct {F : Fleet} (hF : F.Distinct) : F.Spelled := by
  constructor
  · intro d s hds h hh h' hh' heq
    have hid : (⟨d, s, .host h⟩ : Seat).id = (⟨d, s, .host h'⟩ : Seat).id := by
      rw [Seat.id_eq, Seat.id_eq]
      simp only [Place.label, heq]
    cases hF _ _ (Fleet.has_host hds hh) (Fleet.has_host hds hh') hid
    rfl
  · intro d s n i hn hi hds h hh heq
    have hid : (⟨d, s, .host h⟩ : Seat).id = (⟨d, s, .index i⟩ : Seat).id := by
      rw [Seat.id_eq, Seat.id_eq]
      simp only [Place.label, heq]
    cases hF _ _ (Fleet.has_host hds hh) (Fleet.has_index hn hi) hid
  · rintro d s x l ⟨p, hp, hl⟩ ⟨p', hp', hl'⟩
    have hid : (⟨d, x ++ "-" ++ s, p⟩ : Seat).id = (⟨d ++ "-" ++ x, s, p'⟩ : Seat).id := by
      rw [Seat.id_eq, Seat.id_eq]
      simp only [hl, hl', String.append_assoc]
    exact joined_ne_left d x (congrArg Seat.deployment (hF _ _ hp hp' hid))
  · rintro d s d' s' x hjoin hds h hh l hl ⟨p, hp, rfl⟩
    have hid : (⟨d, s, .host h⟩ : Seat).id = (⟨d', s', p⟩ : Seat).id := by
      rw [Seat.id_eq, Seat.id_eq]
      simp only [hjoin, Place.label, hl, String.append_assoc]
    have hseat := hF _ _ (Fleet.has_host hds hh) hp hid
    cases hseat
    exact joined_ne_left _ x hjoin

end Jaco.ReplicaIds
