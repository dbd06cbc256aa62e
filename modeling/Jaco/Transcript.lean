import Jaco.Interleaving

namespace Jaco.Interleaving

open List

variable {σ κ γ α β : Type} (M : System σ κ γ)

def record : Program σ κ α → List (Gap γ) → Config σ → List (κ × Fate)
  | .ret _, _, _ => []
  | .look k, gs, c =>
    let c := M.arrive (nextGap gs) c
    record (k c.now) gs.tail c
  | .submit x k, gs, c =>
    let c := M.arrive (nextGap gs) c
    let (answer, s) := M.settle x c.now (nextGap gs).fate
    (x, (nextGap gs).fate) :: record (k answer) gs.tail { c with now := s }

theorem record_bind (p : Program σ κ α) (f : α → Program σ κ β) (gs : List (Gap γ)) (c : Config σ) :
    record M (p >>= f) gs c =
      record M p gs c ++ record M (f (exec M p gs c).1) (exec M p gs c).2.1 (exec M p gs c).2.2 := by
  change record M (p.bind f) gs c = _
  induction p generalizing gs c with
  | ret a => rfl
  | look k ih => exact ih _ gs.tail _
  | submit x k ih => exact congrArg (_ :: ·) (ih _ gs.tail _)

theorem settle_answer (x : κ) (s : σ) (fate : Fate) : (M.settle x s fate).1 = decide (fate = .acked) := by
  cases fate <;> rfl

variable {M}

variable {R : σ → Prop}

theorem record_of_within {G : κ → Prop} {Q : α → Prop} {p : Program σ κ α} (gs : List (Gap γ))
    (c : Config σ) (hR : ∀ s ∈ (exec M p gs c).2.2.seen, R s) (h : Within R G Q p) :
    ∀ x ∈ record M p gs c, G x.1 := by
  induction p generalizing gs c with
  | ret a => exact nofun
  | look k ih =>
    refine ih _ gs.tail _ hR (h _ (hR _ ?_))
    exact (exec_seen M (k (M.arrive (nextGap gs) c).now) gs.tail (M.arrive (nextGap gs) c)).subset mem_cons_self
  | submit x k ih =>
    exact forall_mem_cons.2 ⟨h.1, ih _ gs.tail _ hR (h.2 _)⟩

theorem exec_leads {L : σ → σ → Prop} (hrefl : ∀ s, L s s) (htrans : ∀ s t u, L s t → L t u → L s u)
    (hcommit : ∀ x s, L s (M.commit x s)) (hdisturb : ∀ e s, L s (M.disturb e s)) (p : Program σ κ α)
    (gs : List (Gap γ)) (c : Config σ) : L c.now (exec M p gs c).2.2.now := by
  have harrive : ∀ (g : Gap γ) (c : Config σ), L c.now (M.arrive g c).now := by
    rintro ⟨others, fate⟩ c
    cases others with
    | none => exact hrefl c.now
    | some e => exact hdisturb e c.now
  induction p generalizing gs c with
  | ret a => exact hrefl c.now
  | look k ih => exact htrans _ _ _ (harrive (nextGap gs) c) (ih _ gs.tail _)
  | submit x k ih =>
    have hsettle : ∀ (s : σ) (fate : Fate), L s (M.settle x s fate).2 := by
      intro s fate
      cases fate with
      | acked => exact hcommit x s
      | unacked => exact hcommit x s
      | lost => exact hrefl s
    let c₁ := M.arrive (nextGap gs) c
    let settled := M.settle x c₁.now (nextGap gs).fate
    exact htrans _ _ _ (harrive (nextGap gs) c)
      (htrans _ _ _ (hsettle c₁.now (nextGap gs).fate) (ih settled.1 gs.tail { c₁ with now := settled.2 }))

theorem within_trivial (p : Program σ κ α) : Within R (fun _ => True) (fun _ => True) p := by
  induction p with
  | ret a => trivial
  | look k ih => exact fun s _ => ih s
  | submit x k ih => exact ⟨trivial, ih⟩

theorem within_foldlM_of_mem {I : β → Prop} (f : β → α → Program σ κ β) {l : List α} {a : α} (ha : a ∈ l)
    (hreach : ∀ b, Within R (fun _ => True) I (f b a))
    (hkeep : ∀ x ∈ l, ∀ b, I b → Within R (fun _ => True) I (f b x)) (b : β) :
    Within R (fun _ => True) I (l.foldlM f b) := by
  induction l generalizing b with
  | nil => exact absurd ha not_mem_nil
  | cons x l ih =>
    have hrest : ∀ y ∈ l, ∀ b, I b → Within R (fun _ => True) I (f b y) := fun y hy => hkeep y (mem_cons_of_mem x hy)
    rw [foldlM_cons]
    rcases mem_cons.1 ha with rfl | ha
    · exact within_bind (hreach b) (fun b' hb' => within_foldlM f l b' hb' hrest)
    · exact within_bind_any (within_trivial _) (fun b' => ih ha hrest b')

theorem within_mono {G : κ → Prop} {Q Q' : α → Prop} {p : Program σ κ α} (h : Within R G Q p)
    (hQ : ∀ a, Q a → Q' a) : Within R G Q' p := by
  induction p with
  | ret a => exact hQ a h
  | look k ih => exact fun s hs => ih s (h s hs)
  | submit x k ih => exact ⟨h.1, fun b => ih b (h.2 b)⟩

theorem within_foldlM_all {L : β → β → Prop} (hrefl : ∀ b, L b b)
    (htrans : ∀ a b c, L a b → L b c → L a c) {C : α → β → Prop} (hC : ∀ a b b', L b b' → C a b → C a b')
    (f : β → α → Program σ κ β) {l : List α}
    (hf : ∀ b, ∀ a ∈ l, Within R (fun _ => True) (fun b' => L b b' ∧ C a b') (f b a)) (b : β) :
    Within R (fun _ => True) (fun b' => L b b' ∧ ∀ a ∈ l, C a b') (l.foldlM f b) := by
  induction l generalizing b with
  | nil => exact within_ret ⟨hrefl b, nofun⟩
  | cons x l ih =>
    rw [foldlM_cons]
    refine within_bind (hf b x mem_cons_self) (fun b₁ hb₁ => ?_)
    refine within_mono (ih (fun b a ha => hf b a (mem_cons_of_mem x ha)) b₁) (fun b₂ hb₂ => ?_)
    refine ⟨htrans b b₁ b₂ hb₁.1 hb₂.1, fun a ha => ?_⟩
    rcases mem_cons.1 ha with rfl | ha
    · exact hC a b₁ b₂ hb₂.1 hb₁.2
    · exact hb₂.2 a ha

section Calm

variable {A : γ → Prop} {R : σ → Prop} {G H : κ → Prop} (hdisturb : ∀ e s, A e → R s → R (M.disturb e s))

include hdisturb in
theorem arrive_keeps {g : Gap γ} (hg : ∀ e ∈ g.others, A e) {c : Config σ} (hc : R c.now) : R (M.arrive g c).now := by
  obtain ⟨others, fate⟩ := g
  cases others with
  | none => exact hc
  | some e => exact hdisturb e c.now (hg e rfl) hc

variable {p : Program σ κ α}

include hdisturb in
theorem seen_of_within (hcommit : ∀ x s, G x → R s → R (M.commit x s)) {Q : α → Prop}
    (h : Within R G Q p) (gs : List (Gap γ)) (hgs : Calm A gs) (c : Config σ) (hc : R c.now)
    (hseen : ∀ s ∈ c.seen, R s) :
    (∀ s ∈ (exec M p gs c).2.2.seen, R s) ∧ R (exec M p gs c).2.2.now := by
  induction p generalizing gs c with
  | ret a => exact ⟨hseen, hc⟩
  | look k ih =>
    have harrive := arrive_keeps hdisturb (calm_nextGap hgs) hc
    refine ih _ (h _ harrive) gs.tail (calm_suffix hgs (tail_suffix gs)) _ harrive (fun s hs => ?_)
    rcases mem_cons.1 hs with rfl | hs
    · exact harrive
    · exact hseen s hs
  | submit x k ih =>
    have harrive := arrive_keeps hdisturb (calm_nextGap hgs) hc
    have hsettle := settle_keeps M hcommit x _ (nextGap gs).fate h.1 harrive
    refine ih _ (h.2 _) gs.tail (calm_suffix hgs (tail_suffix gs)) _ hsettle (fun s hs => ?_)
    rcases mem_cons.1 hs with rfl | hs
    · exact harrive
    · exact hseen s hs

theorem exec_of_silent {Z : σ → Prop} (hZ : ∀ e s, A e → Z s → Z (M.disturb e s)) (h : Silent p)
    (gs : List (Gap γ)) (hgs : Calm A gs) (c : Config σ) (hc : Z c.now) : Z (exec M p gs c).2.2.now := by
  induction p generalizing gs c with
  | ret a => exact hc
  | look k ih =>
    exact ih _ (h _) gs.tail (calm_suffix hgs (tail_suffix gs)) _ (arrive_keeps hZ (calm_nextGap hgs) hc)
  | submit x k ih => exact h.elim

include hdisturb in
theorem exec_of_closing {Z : σ → Prop} (hG : ∀ x s, G x → R s → R (M.commit x s)) (hZ : ∀ s, R s → Z s)
    (hH : ∀ x s, H x → R s → Z (M.commit x s)) (hZd : ∀ e s, A e → Z s → Z (M.disturb e s))
    (h : Closing R G H p) (gs : List (Gap γ)) (hgs : Calm A gs) (c : Config σ) (hc : R c.now) :
    Z (exec M p gs c).2.2.now := by
  induction p generalizing gs c with
  | ret a => exact hZ _ hc
  | look k ih =>
    have harrive := arrive_keeps hdisturb (calm_nextGap hgs) hc
    exact ih _ (h _ harrive) gs.tail (calm_suffix hgs (tail_suffix gs)) _ harrive
  | submit x k ih =>
    have harrive := arrive_keeps hdisturb (calm_nextGap hgs) hc
    have hrest := calm_suffix hgs (tail_suffix gs)
    rcases h with ⟨hx, hk⟩ | ⟨hx, hk⟩
    · exact ih _ (hk _) gs.tail hrest _ (settle_keeps M hG x _ (nextGap gs).fate hx harrive)
    · refine exec_of_silent hZd (hk _) gs.tail hrest _ ?_
      cases (nextGap gs).fate with
      | acked => exact hH x _ hx harrive
      | unacked => exact hH x _ hx harrive
      | lost => exact hZ _ harrive

end Calm

end Jaco.Interleaving
