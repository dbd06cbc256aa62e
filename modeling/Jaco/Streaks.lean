import Jaco.Runs

namespace Jaco.Streaks

open Runs List

/-- What an event does to the counter. An idle event leaves it alone, hot or not. -/
inductive Mark where
  | hit
  | idle (hot : Bool)
  | reset
  deriving DecidableEq

namespace Mark

def tally (n : Nat) : Mark → Nat
  | hit => n + 1
  | idle _ => n
  | reset => 0

def hot : Mark → Bool
  | hit => true
  | idle hot => hot
  | reset => false

end Mark

open Mark

def streak (ms : List Mark) : Nat := run tally 0 ms

def Sustained (n : Nat) (hots : List Bool) : Prop := ∃ earlier, hots = earlier ++ List.replicate n true

def Unbroken (ms : List Mark) : Prop := Along tally (fun n m => m = .idle false → n = 0) 0 ms

theorem streak_snoc (ms : List Mark) (m : Mark) : streak (ms ++ [m]) = m.tally (streak ms) :=
  run_append tally 0 ms [m]

theorem unbroken_snoc (ms : List Mark) (m : Mark) :
    Unbroken (ms ++ [m]) ↔ Unbroken ms ∧ (m = .idle false → streak ms = 0) := by
  rw [Unbroken, along_append]
  simp only [along_cons, along_nil, and_true]
  exact Iff.rfl

theorem sustained_zero (hots : List Bool) : Sustained 0 hots := ⟨hots, (append_nil hots).symm⟩

theorem sustained_succ (n : Nat) (hots : List Bool) (b : Bool) :
    Sustained (n + 1) (hots ++ [b]) ↔ b = true ∧ Sustained n hots := by
  simp only [Sustained, replicate_succ', ← append_assoc]
  constructor
  · rintro ⟨earlier, he⟩
    obtain ⟨hhots, hb⟩ := append_inj' he rfl
    exact ⟨singleton_inj.1 hb, earlier, hhots⟩
  · rintro ⟨rfl, earlier, rfl⟩
    exact ⟨earlier, rfl⟩

theorem sustained_of_le {m n : Nat} (h : m ≤ n) {hots : List Bool} (hn : Sustained n hots) : Sustained m hots := by
  obtain ⟨earlier, rfl⟩ := hn
  obtain ⟨k, rfl⟩ := Nat.exists_eq_add_of_le' h
  exact ⟨earlier ++ List.replicate k true, by rw [append_assoc, replicate_append_replicate]⟩

theorem sustained_streak {ms : List Mark} (h : Unbroken ms) : Sustained (streak ms) (ms.map hot) := by
  induction ms using List.reverseRecOn with
  | nil => exact sustained_zero []
  | append_singleton ms m ih =>
    obtain ⟨hms, hm⟩ := (unbroken_snoc ms m).1 h
    rw [streak_snoc, map_append]
    cases m with
    | hit => exact (sustained_succ _ _ _).2 ⟨rfl, ih hms⟩
    | idle hot =>
      cases hot with
      | true => exact sustained_of_le (Nat.le_succ _) ((sustained_succ _ _ _).2 ⟨rfl, ih hms⟩)
      | false =>
        rw [tally, hm rfl]
        exact sustained_zero _
    | reset => exact sustained_zero _

theorem unbroken_of_pairs {ms : List Mark}
    (h : ∀ before a b after, ms = before ++ a :: b :: after → a.hot = true → b ≠ .idle false) : Unbroken ms := by
  induction ms using List.reverseRecOn with
  | nil => trivial
  | append_singleton ms m ih =>
    have hms : Unbroken ms := by
      refine ih (fun before a b after hsplit => h before a b (after ++ [m]) ?_)
      rw [hsplit, append_assoc]
      rfl
    refine (unbroken_snoc ms m).2 ⟨hms, fun hm => ?_⟩
    cases ms using List.reverseRecOn with
    | nil => rfl
    | append_singleton ms a =>
      by_contra hne
      obtain ⟨k, hk⟩ := Nat.exists_eq_succ_of_ne_zero hne
      have hsustained := sustained_streak hms
      rw [hk, map_append] at hsustained
      have hhot : a.hot = true := ((sustained_succ k _ a.hot).1 hsustained).1
      exact h ms a m [] (by rw [append_assoc]; rfl) hhot hm

theorem streak_hits (ms : List Mark) (n : Nat) : streak (ms ++ List.replicate n .hit) = streak ms + n := by
  induction n with
  | zero => rw [replicate_zero, append_nil, Nat.add_zero]
  | succ n ih => rw [replicate_succ', ← append_assoc, streak_snoc, ih]; rfl

theorem early_of_idle {ms : List Mark} (h : streak ms ≠ 0) (n : Nat) :
    n + 1 ≤ streak (ms ++ .idle false :: List.replicate n .hit) ∧
      ¬ Sustained (n + 1) ((ms ++ idle false :: List.replicate n hit).map hot) := by
  have hsplit : ms ++ idle false :: List.replicate n hit = (ms ++ [.idle false]) ++ List.replicate n .hit := by
    simp
  constructor
  · have hkept : streak (ms ++ [.idle false]) = streak ms := streak_snoc ms _
    rw [hsplit, streak_hits, hkept]
    omega
  · rw [hsplit, map_append, map_append, map_replicate]
    rintro ⟨earlier, he⟩
    rw [Nat.add_comm, ← replicate_append_replicate, ← append_assoc] at he
    have hlast := (append_inj' (append_inj' he rfl).1 rfl).2
    exact absurd hlast (by decide)

section Trace

variable {S E β : Type} (step : S → E → S)

def trace (f : S → E → β) (s : S) : List E → List β
  | [] => []
  | e :: es => f s e :: trace f (step s e) es

theorem trace_append (f : S → E → β) (s : S) (es fs : List E) :
    trace step f s (es ++ fs) = trace step f s es ++ trace step f (run step s es) fs := by
  induction es generalizing s with
  | nil => rfl
  | cons e es ih => exact congrArg (f s e :: ·) (ih (step s e))

theorem map_trace {γ : Type} (g : β → γ) (f : S → E → β) (s : S) (es : List E) :
    (trace step f s es).map g = trace step (fun s e => g (f s e)) s es := by
  induction es generalizing s with
  | nil => rfl
  | cons e es ih => exact congrArg (g (f s e) :: ·) (ih (step s e))

end Trace

end Jaco.Streaks
