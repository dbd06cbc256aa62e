import Mathlib.Data.List.Forall2

namespace Jaco

open List

variable {ε α β γ : Type}

variable {f : α → Except ε β} {l : List α} {ys : List β} {g : β → γ} {h : α → γ}

theorem forall₂_of_mapM (h : l.mapM f = .ok ys) : List.Forall₂ (fun x y => f x = .ok y) l ys := by
  induction l generalizing ys with
  | nil =>
    rw [mapM_nil] at h
    cases h
    exact .nil
  | cons x l ih =>
    rw [mapM_cons] at h
    cases hx : f x with
    | error e =>
      rw [hx] at h
      cases h
    | ok z =>
      cases hl : l.mapM f with
      | error e =>
        rw [hx, hl] at h
        cases h
      | ok zs =>
        rw [hx, hl] at h
        cases h
        exact .cons hx (ih hl)

theorem exists_left_of_forall₂ {R : α → β → Prop} (h : List.Forall₂ R l ys) {y : β} (hy : y ∈ ys) : ∃ x ∈ l, R x y := by
  induction h with
  | nil => cases hy
  | cons hxy _ ih =>
    rcases mem_cons.1 hy with rfl | hy
    · exact ⟨_, mem_cons_self, hxy⟩
    · obtain ⟨x, hx, hxy⟩ := ih hy
      exact ⟨x, mem_cons_of_mem _ hx, hxy⟩

theorem forall₂_mem_left {R : α → β → Prop} (h : List.Forall₂ R l ys) :
    List.Forall₂ (fun x y => x ∈ l ∧ R x y) l ys := by
  induction h with
  | nil => exact .nil
  | cons hxy _ ih =>
    refine .cons ⟨mem_cons_self, hxy⟩ (ih.imp ?_)
    intro x y h
    exact ⟨mem_cons_of_mem _ h.1, h.2⟩

theorem exists_of_mem_mapM (f : α → Except ε β) (l : List α) (ys : List β) (h : l.mapM f = .ok ys) (y : β)
    (hy : y ∈ ys) : ∃ x ∈ l, f x = .ok y :=
  exists_left_of_forall₂ (forall₂_of_mapM h) hy

theorem mem_mapM_of_mem (f : α → Except ε β) (l : List α) (ys : List β) (h : l.mapM f = .ok ys) (x : α)
    (hx : x ∈ l) : ∃ y ∈ ys, f x = .ok y :=
  exists_left_of_forall₂ (forall₂_of_mapM h).flip hx

theorem map_eq_of_forall₂ (hall : List.Forall₂ (fun x y => g y = h x) l ys) : ys.map g = l.map h := by
  induction hall with
  | nil => rfl
  | cons hxy _ ih => rw [map_cons, map_cons, hxy, ih]

theorem map_of_mapM (hl : l.mapM f = .ok ys) (hf : ∀ x y, f x = .ok y → g y = h x) : ys.map g = l.map h :=
  map_eq_of_forall₂ ((forall₂_of_mapM hl).imp hf)

theorem mapM_ok (hf : ∀ x ∈ l, ∃ y, f x = .ok y ∧ g y = h x) : ∃ ys, l.mapM f = .ok ys ∧ ys.map g = l.map h := by
  induction l with
  | nil => exact ⟨[], rfl, rfl⟩
  | cons x l ih =>
    obtain ⟨y, hy, hgy⟩ := hf x mem_cons_self
    obtain ⟨ys, hys, hmap⟩ := ih (fun x' hx' => hf x' (mem_cons_of_mem x hx'))
    refine ⟨y :: ys, ?_, ?_⟩
    · rw [mapM_cons, hy, hys]
      rfl
    · rw [map_cons, map_cons, hgy, hmap]

theorem error_of_mapM {e : ε} (h : l.mapM f = .error e) : ∃ x ∈ l, f x = .error e := by
  induction l with
  | nil => cases h
  | cons x l ih =>
    rw [mapM_cons] at h
    cases hx : f x with
    | error e' =>
      rw [hx] at h
      cases h
      exact ⟨x, mem_cons_self, hx⟩
    | ok z =>
      cases hl : l.mapM f with
      | error e' =>
        rw [hx, hl] at h
        cases h
        obtain ⟨x', hx', he⟩ := ih hl
        exact ⟨x', mem_cons_of_mem x hx', he⟩
      | ok zs =>
        rw [hx, hl] at h
        cases h

end Jaco
