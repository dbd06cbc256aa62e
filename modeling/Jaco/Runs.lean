import Mathlib

namespace Jaco.Runs

variable {S E : Type} (step : S → E → S)

def run (s : S) (es : List E) : S := es.foldl step s

def Along (P : S → E → Prop) (s : S) : List E → Prop
  | [] => True
  | e :: es => P s e ∧ Along P (step s e) es

instance decidableAlong (P : S → E → Prop) [∀ s e, Decidable (P s e)] :
    ∀ (s : S) (es : List E), Decidable (Along step P s es)
  | _, [] => isTrue trivial
  | s, e :: es => @instDecidableAnd _ _ _ (decidableAlong P (step s e) es)

@[simp] theorem run_nil (s : S) : run step s [] = s := rfl

@[simp] theorem run_cons (s : S) (e : E) (es : List E) : run step s (e :: es) = run step (step s e) es := rfl

theorem forall_mem_snoc {P : E → Prop} {l : List E} {e : E} (h : ∀ x ∈ l, P x) (he : P e) : ∀ x ∈ l ++ [e], P x :=
  List.forall_mem_append.2 ⟨h, List.forall_mem_singleton.2 he⟩

theorem run_append (s : S) (es fs : List E) : run step s (es ++ fs) = run step (run step s es) fs :=
  List.foldl_append

variable (P : S → E → Prop) (s : S)

@[simp] theorem along_nil : Along step P s [] := trivial

@[simp] theorem along_cons (e : E) (es : List E) :
    Along step P s (e :: es) ↔ P s e ∧ Along step P (step s e) es := Iff.rfl

theorem along_append (es fs : List E) :
    Along step P s (es ++ fs) ↔ Along step P s es ∧ Along step P (run step s es) fs := by
  induction es generalizing s with
  | nil => simp
  | cons e es ih => simp only [List.cons_append, along_cons, run_cons, ih, and_assoc]

theorem along_iff_split (es : List E) :
    Along step P s es ↔ ∀ pre e post, es = pre ++ e :: post → P (run step s pre) e := by
  induction es generalizing s with
  | nil => simp
  | cons e es ih =>
    rw [along_cons, ih]
    constructor
    · rintro ⟨he, hes⟩ pre f post h
      cases pre with
      | nil =>
        cases h
        exact he
      | cons g pre =>
        cases h
        exact hes pre f post rfl
    · intro h
      exact ⟨h [] e es rfl, fun pre f post hp => h (e :: pre) f post (by rw [hp]; rfl)⟩

theorem along_of_forall {P : E → Prop} {es : List E} (h : ∀ e ∈ es, P e) (s : S) :
    Along step (fun _ e => P e) s es := by
  induction es generalizing s with
  | nil => trivial
  | cons e es ih =>
    exact ⟨h e List.mem_cons_self, ih (fun f hf => h f (List.mem_cons_of_mem _ hf)) _⟩

theorem along_congr (P Q : S → E → Prop) (h : ∀ s e, P s e ↔ Q s e) (s : S) (es : List E) :
    Along step P s es ↔ Along step Q s es := by
  induction es generalizing s with
  | nil => simp
  | cons e es ih => rw [along_cons, along_cons, h, ih]

theorem along_of_invariant (Inv : S → Prop) (G P : S → E → Prop)
    (hstep : ∀ s e, Inv s → G s e → Inv (step s e) ∧ P s e) (s : S) (es : List E) (hs : Inv s)
    (hg : Along step G s es) : Inv (run step s es) ∧ Along step P s es := by
  induction es generalizing s with
  | nil => exact ⟨hs, trivial⟩
  | cons e es ih =>
    obtain ⟨hge, hges⟩ := hg
    obtain ⟨hinv, hp⟩ := hstep s e hs hge
    obtain ⟨hend, hes⟩ := ih (step s e) hinv hges
    exact ⟨hend, hp, hes⟩

theorem run_invariant (Inv : S → Prop) (hstep : ∀ s e, Inv s → Inv (step s e)) {s : S} (hs : Inv s) (es : List E) :
    Inv (run step s es) := by
  induction es generalizing s with
  | nil => exact hs
  | cons e es ih => exact ih (hstep s e hs)

theorem getElem?_modify_cases {α : Type} {l : List α} {i j : Nat} {f : α → α} {x : α}
    (h : (l.modify i f)[j]? = some x) :
    (i = j ∧ ∃ a, l[j]? = some a ∧ x = f a) ∨ (i ≠ j ∧ l[j]? = some x) := by
  rw [List.getElem?_modify] at h
  by_cases hij : i = j
  · simp only [if_pos hij, Option.map_eq_map, Option.map_eq_some_iff] at h
    obtain ⟨a, ha, hx⟩ := h
    exact Or.inl ⟨hij, a, ha, hx.symm⟩
  · simp only [if_neg hij, id_map'] at h
    exact Or.inr ⟨hij, h⟩

end Jaco.Runs
