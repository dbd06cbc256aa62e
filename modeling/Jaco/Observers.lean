import Jaco.Transcript

namespace Jaco.Interleaving

variable {σ τ κ γ α β : Type}

def Program.comap (f : τ → σ) : Program σ κ α → Program τ κ α
  | .ret a => .ret a
  | .look k => .look (fun t => (k (f t)).comap f)
  | .submit c k => .submit c (fun answer => (k answer).comap f)

structure Observes (N : System τ κ γ) (M : System σ κ γ) (f : τ → σ) : Prop where
  commit : ∀ c t, f (N.commit c t) = M.commit c (f t)
  disturb : ∀ e t, f (N.disturb e t) = M.disturb e (f t)

def Config.map (f : τ → σ) (c : Config τ) : Config σ := ⟨f c.now, c.seen.map f⟩

variable {N : System τ κ γ} {M : System σ κ γ} {f : τ → σ}

theorem map_arrive (h : Observes N M f) (g : Gap γ) (c : Config τ) : (N.arrive g c).map f = M.arrive g (c.map f) := by
  cases hothers : g.others with
  | none =>
    simp only [System.arrive, hothers, Config.map]
    rfl
  | some e =>
    simp only [System.arrive, hothers, Config.map, Option.map_some, Option.getD_some, List.map_cons, h.disturb]

theorem settle_comap (h : Observes N M f) (c : κ) (t : τ) (fate : Fate) :
    (N.settle c t fate).1 = (M.settle c (f t) fate).1 ∧ f (N.settle c t fate).2 = (M.settle c (f t) fate).2 := by
  cases fate with
  | acked => exact ⟨rfl, h.commit c t⟩
  | unacked => exact ⟨rfl, h.commit c t⟩
  | lost => exact ⟨rfl, rfl⟩

theorem exec_comap (h : Observes N M f) (p : Program σ κ α) (gs : List (Gap γ)) (c : Config τ) :
    exec M p gs (c.map f) =
      ((exec N (p.comap f) gs c).1, (exec N (p.comap f) gs c).2.1, (exec N (p.comap f) gs c).2.2.map f) := by
  induction p generalizing gs c with
  | ret a => rfl
  | look k ih =>
    have harrive := map_arrive h (nextGap gs) c
    have hnow : (M.arrive (nextGap gs) (c.map f)).now = f (N.arrive (nextGap gs) c).now := by rw [← harrive]; rfl
    rw [exec, hnow, ← harrive]
    exact ih _ gs.tail _
  | submit x k ih =>
    have harrive := map_arrive h (nextGap gs) c
    have hnow : (M.arrive (nextGap gs) (c.map f)).now = f (N.arrive (nextGap gs) c).now := by rw [← harrive]; rfl
    obtain ⟨hanswer, hstate⟩ := settle_comap h x (N.arrive (nextGap gs) c).now (nextGap gs).fate
    rw [exec, hnow, ← harrive]
    dsimp only
    rw [← hanswer, ← hstate]
    exact ih (N.settle x (N.arrive (nextGap gs) c).now (nextGap gs).fate).1 gs.tail
      ⟨(N.settle x (N.arrive (nextGap gs) c).now (nextGap gs).fate).2, (N.arrive (nextGap gs) c).seen⟩

theorem within_comap {R : σ → Prop} {G : κ → Prop} {Q : α → Prop} (f : τ → σ) {p : Program σ κ α}
    (h : Within R G Q p) : Within (fun t => R (f t)) G Q (p.comap f) := by
  induction p with
  | ret a => exact h
  | look k ih => exact fun t ht => ih (f t) (h (f t) ht)
  | submit c k ih => exact ⟨h.1, fun answer => ih answer (h.2 answer)⟩

end Jaco.Interleaving
