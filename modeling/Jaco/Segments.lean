import Mathlib

namespace Jaco.Segments

open List

variable {α : Type} {sep : α} {w v a b : List α}

theorem prefix_append_sep (hw : sep ∉ w) : w <+: a ++ sep :: b ↔ w <+: a := by
  induction w generalizing a with
  | nil => simp
  | cons x w ih =>
    rw [mem_cons, not_or] at hw
    cases a with
    | nil =>
      simp only [nil_append, cons_prefix_cons, prefix_nil, reduceCtorEq, iff_false, not_and]
      exact fun hx => absurd hx.symm hw.1
    | cons y a => simp only [cons_append, cons_prefix_cons, ih hw.2]

theorem infix_append_sep (hw : sep ∉ w) : w <:+: a ++ sep :: b ↔ w <:+: a ∨ w <:+: b := by
  induction a with
  | nil =>
    have hprefix : w <+: sep :: b ↔ w = [] := (prefix_append_sep (a := []) hw).trans prefix_nil
    rw [nil_append, infix_cons_iff, hprefix, infix_nil]
  | cons x a ih =>
    have hprefix : w <+: x :: (a ++ sep :: b) ↔ w <+: x :: a := prefix_append_sep (a := x :: a) hw
    rw [cons_append, infix_cons_iff, ih, hprefix, infix_cons_iff, or_assoc]

theorem prefix_closed (hw : sep ∉ w) (ha : sep ∉ a) : w ++ [sep] <+: a ++ sep :: b ↔ w = a := by
  constructor
  · intro h
    have hwa : w <+: a := (prefix_append_sep hw).1 ((prefix_append w [sep]).trans h)
    obtain ⟨rest, rfl⟩ := hwa
    rw [append_assoc, prefix_append_right_inj] at h
    cases rest with
    | nil => exact (append_nil w).symm
    | cons x rest =>
      obtain rfl : sep = x := (cons_prefix_cons.1 h).1
      exact absurd (mem_append_right w mem_cons_self) ha
  · rintro rfl
    exact ⟨b, by simp⟩

theorem not_prefix_closed (ha : sep ∉ a) : ¬ w ++ [sep] <+: a := fun h =>
  ha (h.subset (mem_append_right w (mem_singleton_self sep)))

theorem not_infix_opened (ha : sep ∉ a) : ¬ sep :: v <:+: a := fun h => ha (h.subset mem_cons_self)

theorem infix_opened (ha : sep ∉ a) : sep :: v <:+: a ++ sep :: b ↔ v <+: b ∨ sep :: v <:+: b := by
  induction a with
  | nil => rw [nil_append, infix_cons_iff, cons_prefix_cons, eq_self_iff_true, true_and]
  | cons x a ih =>
    rw [mem_cons, not_or] at ha
    rw [cons_append, infix_cons_iff, cons_prefix_cons, ih ha.2]
    simp [ha.1]

theorem enclosed_infix (hw : sep ∉ w) (ha : sep ∉ a) {c : List α} (hc : sep ∉ c) :
    sep :: (w ++ [sep]) <:+: c ++ sep :: (a ++ sep :: b) ↔ w = a ∨ sep :: (w ++ [sep]) <:+: a ++ sep :: b := by
  rw [infix_opened hc, prefix_closed hw ha]

end Jaco.Segments
