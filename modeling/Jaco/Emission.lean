import Jaco.Interleaving

/-!
Runs of one program whose submissions all commit and are acknowledged, with what it submitted. The
environment still moves the state before each access.
-/

namespace Jaco.Interleaving

open List

variable {σ κ γ α β : Type} (M : System σ κ γ)

structure Outcome (σ κ γ α : Type) where
  answer : α
  emitted : List κ
  rest : List γ
  now : σ

def System.meet (gs : List γ) (s : σ) : σ := (gs.head?.map (fun e => M.disturb e s)).getD s

def follow : Program σ κ α → List γ → σ → Outcome σ κ γ α
  | .ret a, gs, s => ⟨a, [], gs, s⟩
  | .look k, gs, s => follow (k (M.meet gs s)) gs.tail (M.meet gs s)
  | .submit c k, gs, s =>
    let o := follow (k true) gs.tail (M.commit c (M.meet gs s))
    { o with emitted := c :: o.emitted }

theorem follow_bind (p : Program σ κ α) (f : α → Program σ κ β) (gs : List γ) (s : σ) : follow M (p >>= f) gs s =
      { follow M (f (follow M p gs s).answer) (follow M p gs s).rest (follow M p gs s).now with
        emitted := (follow M p gs s).emitted ++
          (follow M (f (follow M p gs s).answer) (follow M p gs s).rest (follow M p gs s).now).emitted } := by
  change follow M (p.bind f) gs s = _
  induction p generalizing gs s with
  | ret a => rfl
  | look k ih => exact ih _ gs.tail _
  | submit c k ih =>
    have h := ih true gs.tail (M.commit c (M.meet gs s))
    simp only [Program.bind, follow, h, cons_append]

theorem follow_read_bind (f : σ → α) (k : α → Program σ κ β) (s : σ) :
    follow M (Program.read f >>= k) [] s = follow M (k (f s)) [] s := rfl

theorem follow_rest (p : Program σ κ α) (gs : List γ) (s : σ) : (follow M p gs s).rest <:+ gs := by
  induction p generalizing gs s with
  | ret a => exact suffix_refl gs
  | look k ih => exact (ih _ gs.tail _).trans (tail_suffix gs)
  | submit c k ih => exact (ih _ gs.tail _).trans (tail_suffix gs)

variable (A : γ → Prop)

def Solo (P : σ → Prop) (p : Program σ κ α) (Q : α → List κ → σ → Prop) : Prop :=
  ∀ gs s, (∀ e ∈ gs, A e) → P s → Q (follow M p gs s).answer (follow M p gs s).emitted (follow M p gs s).now

variable {M A}

variable {P : σ → Prop} {Q : α → List κ → σ → Prop} {p : Program σ κ α}

theorem solo_ret {a : α} (h : ∀ s, P s → Q a [] s) : Solo M A P (pure a) Q :=
  fun _ s _ hs => h s hs

theorem solo_mono {P' : σ → Prop} {Q' : α → List κ → σ → Prop} (h : Solo M A P p Q)
    (hp : ∀ s, P' s → P s) (hq : ∀ a cs s, Q a cs s → Q' a cs s) : Solo M A P' p Q' :=
  fun gs s hgs hs => hq _ _ _ (h gs s hgs (hp s hs))

theorem solo_bind {R : α → List κ → σ → Prop} {f : α → Program σ κ β} {Q : β → List κ → σ → Prop} (hp : Solo M A P p R)
    (hf : ∀ a cs, Solo M A (R a cs) (f a) (fun b ds => Q b (cs ++ ds))) : Solo M A P (p >>= f) Q := by
  intro gs s hgs hs
  rw [follow_bind]
  exact hf _ _ _ _ (fun e he => hgs e ((follow_rest M p gs s).subset he)) (hp gs s hgs hs)

theorem solo_pure {φ : Prop} (h : φ → Solo M A P p Q) : Solo M A (fun s => φ ∧ P s) p Q :=
  fun gs s hgs hs => h hs.1 gs s hgs hs.2

theorem solo_exists {ι : Type} {P : ι → σ → Prop}
    (h : ∀ i, Solo M A (P i) p Q) : Solo M A (fun s => ∃ i, P i s) p Q := by
  rintro gs s hgs ⟨i, hs⟩
  exact h i gs s hgs hs

theorem solo_or {P' : σ → Prop} (h : Solo M A P p Q) (h' : Solo M A P' p Q) : Solo M A (fun s => P s ∨ P' s) p Q := by
  rintro gs s hgs (hs | hs)
  · exact h gs s hgs hs
  · exact h' gs s hgs hs

theorem meet_keeps (hP : ∀ e s, A e → P s → P (M.disturb e s)) {gs : List γ} {s : σ}
    (hgs : ∀ e ∈ gs, A e) (hs : P s) : P (M.meet gs s) := by
  cases gs with
  | nil => exact hs
  | cons e gs => exact hP e s (hgs e mem_cons_self) hs

theorem solo_read_bind (hP : ∀ e s, A e → P s → P (M.disturb e s)) (f : σ → α)
    {k : α → Program σ κ β} {Q : β → List κ → σ → Prop} (h : ∀ v, P v → Solo M A P (k (f v)) Q) :
    Solo M A P (Program.read f >>= k) Q := by
  intro gs s hgs hs
  have hmeet := meet_keeps hP hgs hs
  exact h _ hmeet gs.tail _ (fun e he => hgs e (mem_of_mem_tail he)) hmeet

theorem solo_send (hP : ∀ e s, A e → P s → P (M.disturb e s)) (c : κ)
    {Q : Bool → List κ → σ → Prop} (h : ∀ v, P v → Q true [c] (M.commit c v)) : Solo M A P (Program.send c) Q :=
  fun _ _ hgs hs => h _ (meet_keeps hP hgs hs)

theorem solo_of_within {R : σ → Prop} {G : κ → Prop} {Q : α → Prop} (hR : ∀ e s, A e → R s → R (M.disturb e s))
    (hG : ∀ c s, G c → R s → R (M.commit c s)) (h : Within R G Q p) :
    Solo M A R p (fun a _ s => Q a ∧ R s) := by
  intro gs s hgs hs
  induction p generalizing gs s with
  | ret a => exact ⟨h, hs⟩
  | look k ih =>
    have hmeet := meet_keeps hR hgs hs
    exact ih _ (h _ hmeet) gs.tail _ (fun e he => hgs e (mem_of_mem_tail he)) hmeet
  | submit c k ih =>
    exact ih true (h.2 true) gs.tail _ (fun e he => hgs e (mem_of_mem_tail he)) (hG c _ h.1 (meet_keeps hR hgs hs))

theorem eventually_silent (debt : ℕ → ℕ) (out : ℕ → List κ) (n₀ : ℕ)
    (h : ∀ n, n₀ ≤ n → debt (n + 1) + (out n).length ≤ debt n) : ∃ N, ∀ n, N ≤ n → out n = [] := by
  have hanti : ∀ m n, n₀ ≤ m → m ≤ n → debt n ≤ debt m := by
    intro m n hm hmn
    induction n, hmn using Nat.le_induction with
    | base => exact le_refl (debt m)
    | succ n hmn ih =>
      have := h n (hm.trans hmn)
      omega
  -- past the least value it reaches the quantity is constant, so nothing is left to pay with
  obtain ⟨N, hN, hmin⟩ : ∃ N, n₀ ≤ N ∧ ∀ n, n₀ ≤ n → debt N ≤ debt n := by
    have hex : ∃ d, ∃ n, n₀ ≤ n ∧ debt n = d := ⟨_, n₀, le_refl n₀, rfl⟩
    classical
    obtain ⟨N, hN, hd⟩ := Nat.find_spec hex
    exact ⟨N, hN, fun n hn => hd ▸ Nat.find_min' hex ⟨n, hn, rfl⟩⟩
  refine ⟨N, fun n hn => ?_⟩
  have hstep := h n (hN.trans hn)
  have hnext := hmin (n + 1) (by omega)
  have hle := hanti N n hN hn
  exact eq_nil_of_length_eq_zero (by omega)

end Jaco.Interleaving
