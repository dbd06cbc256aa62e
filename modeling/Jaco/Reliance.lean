import Jaco.Interleaving

/-!
What a program achieves while others move the state between its accesses, in a relation it relies on.
-/

namespace Jaco.Interleaving

variable {τ σ κ κ' α β : Type}

def Program.mapCommand (h : κ → κ') : Program σ κ α → Program σ κ' α
  | .ret a => .ret a
  | .look k => .look (fun s => (k s).mapCommand h)
  | .submit c k => .submit (h c) (fun b => (k b).mapCommand h)

structure Reliance (τ σ κ : Type) where
  view : τ → σ
  commit : κ → τ → τ
  others : τ → τ → Prop
  refl : ∀ s, others s s
  trans : ∀ s t u, others s t → others t u → others s u

variable (M : Reliance τ σ κ) (G : κ → τ → Prop)

/-- Every submission meets `G` in the state it is made in, and the program ends in `Q`. -/
def Secure (Q : α → τ → Prop) : Program σ κ α → τ → Prop
  | .ret a, s => ∀ t, M.others s t → Q a t
  | .look k, s => ∀ t, M.others s t → Secure Q (k (M.view t)) t
  | .submit c k, s => ∀ t, M.others s t →
      G c t ∧ Secure Q (k true) (M.commit c t) ∧ Secure Q (k false) (M.commit c t) ∧ Secure Q (k false) t

variable {M G}

variable {Q : α → τ → Prop} {p : Program σ κ α} {s : τ}

theorem secure_others {t : τ} (h : Secure M G Q p s) (hst : M.others s t) : Secure M G Q p t := by
  cases p with
  | ret a => exact fun u hu => h u (M.trans s t u hst hu)
  | look k => exact fun u hu => h u (M.trans s t u hst hu)
  | submit c k => exact fun u hu => h u (M.trans s t u hst hu)

theorem secure_bind {Q : β → τ → Prop} {f : α → Program σ κ β}
    (h : Secure M G (fun a t => Secure M G Q (f a) t) p s) : Secure M G Q (p >>= f) s := by
  change Secure M G Q (p.bind f) s
  induction p generalizing s with
  | ret a => exact h s (M.refl s)
  | look k ih => exact fun t ht => ih _ (h t ht)
  | submit c k ih =>
    intro t ht
    obtain ⟨hc, hacked, hunacked, hlost⟩ := h t ht
    exact ⟨hc, ih true hacked, ih false hunacked, ih false hlost⟩

theorem secure_mono {Q' : α → τ → Prop} (hQ : ∀ a s, Q a s → Q' a s) (h : Secure M G Q p s) : Secure M G Q' p s := by
  induction p generalizing s with
  | ret a => exact fun t ht => hQ a t (h t ht)
  | look k ih => exact fun t ht => ih _ (h t ht)
  | submit c k ih =>
    intro t ht
    obtain ⟨hc, hacked, hunacked, hlost⟩ := h t ht
    exact ⟨hc, ih true hacked, ih false hunacked, ih false hlost⟩

theorem secure_ret {a : α} (h : ∀ t, M.others s t → Q a t) : Secure M G Q (pure a : Program σ κ α) s := h

theorem secure_read {Q : β → τ → Prop} {f : σ → α} {g : α → Program σ κ β}
    (h : ∀ t, M.others s t → Secure M G Q (g (f (M.view t))) t) : Secure M G Q (Program.read f >>= g) s := h

theorem secure_send {Q : β → τ → Prop} {c : κ} {g : Bool → Program σ κ β} (h : ∀ t, M.others s t →
      G c t ∧ Secure M G Q (g true) (M.commit c t) ∧ Secure M G Q (g false) (M.commit c t) ∧ Secure M G Q (g false) t) :
    Secure M G Q (Program.send c >>= g) s := h

def Reliance.through (M : Reliance τ σ κ') (h : κ → κ') : Reliance τ σ κ where
  view := M.view
  commit c := M.commit (h c)
  others := M.others
  refl := M.refl
  trans := M.trans

theorem secure_mapCommand {M : Reliance τ σ κ'} {G : κ' → τ → Prop} {h : κ → κ'}
    (hp : Secure (M.through h) (fun c => G (h c)) Q p s) :
    Secure M G Q (p.mapCommand h) s := by
  induction p generalizing s with
  | ret a => exact hp
  | look k ih => exact fun t ht => ih _ (hp t ht)
  | submit c k ih =>
    intro t ht
    obtain ⟨hc, hacked, hunacked, hlost⟩ := hp t ht
    exact ⟨hc, ih true hacked, ih false hunacked, ih false hlost⟩

end Jaco.Interleaving
