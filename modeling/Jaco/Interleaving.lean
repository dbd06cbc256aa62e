import Jaco.Runs

/-!
Programs that share a state with others. Every read of the shared state and every submission of a
command is one atomic access, and whatever the others do happens between two accesses.
-/

namespace Jaco.Interleaving

open List

inductive Program (σ κ α : Type) where
  | ret (a : α)
  | look (k : σ → Program σ κ α)
  | submit (c : κ) (k : Bool → Program σ κ α)

namespace Program

variable {σ κ α β : Type}

def bind : Program σ κ α → (α → Program σ κ β) → Program σ κ β
  | ret a, f => f a
  | look k, f => look (fun s => (k s).bind f)
  | submit c k, f => submit c (fun b => (k b).bind f)

instance : Monad (Program σ κ) where
  pure := ret
  bind := bind

def read (f : σ → α) : Program σ κ α := look (fun s => ret (f s))

def send (c : κ) : Program σ κ Bool := submit c ret

def finished : Program σ κ α → Bool
  | ret _ => true
  | _ => false

end Program

open Program

/-- What becomes of a submission: committed and acknowledged, committed with the answer lost, or refused. -/
inductive Fate where
  | acked | unacked | lost
  deriving DecidableEq

structure System (σ κ γ : Type) where
  commit : κ → σ → σ
  disturb : γ → σ → σ

variable {σ κ γ α β : Type} (M : System σ κ γ)

def System.settle (c : κ) (s : σ) : Fate → Bool × σ
  | .acked => (true, M.commit c s)
  | .unacked => (false, M.commit c s)
  | .lost => (false, s)

section Solo

structure Config (σ : Type) where
  now : σ
  seen : List σ

structure Gap (γ : Type) where
  others : Option γ := none
  fate : Fate := .acked

def System.arrive (g : Gap γ) (c : Config σ) : Config σ :=
  let s := (g.others.map (fun e => M.disturb e c.now)).getD c.now
  { now := s, seen := s :: c.seen }

def nextGap (gs : List (Gap γ)) : Gap γ := gs.headD {}

def exec : Program σ κ α → List (Gap γ) → Config σ → α × List (Gap γ) × Config σ
  | .ret a, gs, c => (a, gs, c)
  | .look k, gs, c =>
    let c := M.arrive (nextGap gs) c
    exec (k c.now) gs.tail c
  | .submit x k, gs, c =>
    let c := M.arrive (nextGap gs) c
    let (answer, s) := M.settle x c.now (nextGap gs).fate
    exec (k answer) gs.tail { c with now := s }

theorem exec_bind (p : Program σ κ α) (f : α → Program σ κ β) (gs : List (Gap γ)) (c : Config σ) :
    exec M (p >>= f) gs c = exec M (f (exec M p gs c).1) (exec M p gs c).2.1 (exec M p gs c).2.2 := by
  change exec M (p.bind f) gs c = _
  induction p generalizing gs c with
  | ret a => rfl
  | look k ih => exact ih _ gs.tail _
  | submit x k ih => exact ih _ gs.tail _

theorem exec_rest (p : Program σ κ α) (gs : List (Gap γ)) (c : Config σ) : (exec M p gs c).2.1 <:+ gs := by
  induction p generalizing gs c with
  | ret a => exact suffix_refl gs
  | look k ih => exact (ih _ gs.tail _).trans (tail_suffix gs)
  | submit x k ih => exact (ih _ gs.tail _).trans (tail_suffix gs)

theorem exec_seen (p : Program σ κ α) (gs : List (Gap γ)) (c : Config σ) : c.seen <:+ (exec M p gs c).2.2.seen := by
  induction p generalizing gs c with
  | ret a => exact suffix_refl c.seen
  | look k ih =>
    have harrive : c.seen <:+ (M.arrive (nextGap gs) c).seen := suffix_cons _ c.seen
    exact harrive.trans (ih _ gs.tail _)
  | submit x k ih =>
    let c' : Config σ :=
      { M.arrive (nextGap gs) c with now := (M.settle x (M.arrive (nextGap gs) c).now (nextGap gs).fate).2 }
    have harrive : c.seen <:+ c'.seen := suffix_cons _ c.seen
    exact harrive.trans (ih _ gs.tail c')

variable (A : γ → Prop)

def Calm (gs : List (Gap γ)) : Prop := ∀ g ∈ gs, ∀ e ∈ g.others, A e

theorem calm_nextGap {A : γ → Prop} {gs : List (Gap γ)} (h : Calm A gs) : ∀ e ∈ (nextGap gs).others, A e := by
  cases gs with
  | nil => intro e he; cases he
  | cons g gs => exact h g mem_cons_self

theorem calm_suffix {A : γ → Prop} {gs hs : List (Gap γ)} (h : Calm A gs) (hsuf : hs <:+ gs) : Calm A hs :=
  fun g hg => h g (hsuf.subset hg)

def Acked (gs : List (Gap γ)) : Prop := ∀ g ∈ gs, g.fate = .acked

theorem acked_nextGap {gs : List (Gap γ)} (h : Acked gs) : (nextGap gs).fate = .acked := by
  cases gs with
  | nil => rfl
  | cons g gs => exact h g mem_cons_self

/-- From `P`, while the others keep to `A` and every submission is acknowledged, the program ends in `Q`. -/
def Triple (P : Config σ → Prop) (p : Program σ κ α) (Q : α → Config σ → Prop) : Prop :=
  ∀ gs c, Calm A gs → Acked gs → P c → Q (exec M p gs c).1 (exec M p gs c).2.2

def Steady (P : Config σ → Prop) : Prop := ∀ g c, (∀ e ∈ g.others, A e) → P c → P (M.arrive g c)

variable {M A}

variable {P : Config σ → Prop} {Q : α → Config σ → Prop} {p : Program σ κ α}

theorem triple_ret {a : α} (h : ∀ c, P c → Q a c) : Triple M A P (pure a) Q :=
  fun _ c _ _ hc => h c hc

theorem triple_mono {P' : Config σ → Prop} {Q' : α → Config σ → Prop}
    (h : Triple M A P p Q) (hp : ∀ c, P' c → P c) (hq : ∀ a c, Q a c → Q' a c) : Triple M A P' p Q' :=
  fun gs c hgs hacked hc => hq _ _ (h gs c hgs hacked (hp c hc))

theorem triple_bind {R : α → Config σ → Prop} {f : α → Program σ κ β} {Q : β → Config σ → Prop} (hp : Triple M A P p R)
    (hf : ∀ a, Triple M A (R a) (f a) Q) : Triple M A P (p >>= f) Q := by
  intro gs c hgs hacked hc
  rw [exec_bind]
  have hrest := exec_rest M p gs c
  exact hf _ _ _ (calm_suffix hgs hrest) (fun g hg => hacked g (hrest.subset hg)) (hp gs c hgs hacked hc)

theorem triple_and {P' : Config σ → Prop} {Q' : α → Config σ → Prop} (h : Triple M A P p Q) (h' : Triple M A P' p Q') :
    Triple M A (fun c => P c ∧ P' c) p (fun a c => Q a c ∧ Q' a c) :=
  fun gs c hgs hacked hc => ⟨h gs c hgs hacked hc.1, h' gs c hgs hacked hc.2⟩

theorem triple_pure {φ : Prop} (h : φ → Triple M A P p Q) : Triple M A (fun c => φ ∧ P c) p Q :=
  fun gs c hgs hacked hc => h hc.1 gs c hgs hacked hc.2

theorem triple_assume {φ : Prop} (hφ : ∀ c, P c → φ) (h : φ → Triple M A P p Q) : Triple M A P p Q :=
  fun gs c hgs hacked hc => h (hφ c hc) gs c hgs hacked hc

theorem triple_exists {ι : Type} {P : ι → Config σ → Prop}
    (h : ∀ i, Triple M A (P i) p Q) : Triple M A (fun c => ∃ i, P i c) p Q := by
  rintro gs c hgs hacked ⟨i, hc⟩
  exact h i gs c hgs hacked hc

theorem triple_seen (T : σ → Prop) (p : Program σ κ α) :
    Triple M A (fun c => ∃ s ∈ c.seen, T s) p (fun _ c => ∃ s ∈ c.seen, T s) := by
  rintro gs c _ _ ⟨s, hs, ht⟩
  exact ⟨s, (exec_seen M p gs c).subset hs, ht⟩

theorem triple_read (f : σ → α) (hP : Steady M A P) :
    Triple M A P (read f) (fun a c => P c ∧ a = f c.now ∧ c.now ∈ c.seen) := by
  intro gs c hgs _ hc
  exact ⟨hP _ c (calm_nextGap hgs) hc, rfl, mem_cons_self⟩

theorem triple_send {Q : Bool → Config σ → Prop} (x : κ) (hP : Steady M A P)
    (hQ : ∀ c, P c → Q true { c with now := M.commit x c.now }) : Triple M A P (send x) Q := by
  intro gs c hgs hacked hc
  have hsent := hQ _ (hP _ c (calm_nextGap hgs) hc)
  simp only [send, exec, acked_nextGap hacked]
  exact hsent

theorem triple_foldlM {I : List α → β → Config σ → Prop} (f : β → α → Program σ κ β) (l : List α) (b : β)
    (hstep : ∀ pre a post b, l = pre ++ a :: post → Triple M A (I pre b) (f b a) (I (pre ++ [a]))) :
    Triple M A (I [] b) (l.foldlM f b) (I l) := by
  suffices h : ∀ pre post b, l = pre ++ post → Triple M A (I pre b) (post.foldlM f b) (I l) from h [] l b rfl
  intro pre post
  induction post generalizing pre with
  | nil =>
    intro b hl
    rw [append_nil] at hl
    subst hl
    exact triple_ret (fun c hc => hc)
  | cons a post ih =>
    intro b hl
    rw [foldlM_cons]
    refine triple_bind (hstep pre a post b hl) (fun b' => ih (pre ++ [a]) b' ?_)
    rw [hl, append_assoc, singleton_append]

end Solo

section Concurrent

structure Pool (σ κ : Type) where
  now : σ
  threads : List (Program σ κ Unit)

inductive Move (σ κ γ : Type) where
  | act (i : Nat) (fate : Fate)
  | other (e : γ)
  | start (p : Program σ κ Unit)

def Pool.step (p : Pool σ κ) : Move σ κ γ → Pool σ κ
  | .act i fate =>
    match p.threads[i]? with
    | some (.look k) => { p with threads := p.threads.set i (k p.now) }
    | some (.submit c k) =>
      let (answer, s) := M.settle c p.now fate
      { now := s, threads := p.threads.set i (k answer) }
    | _ => p
  | .other e => { p with now := M.disturb e p.now }
  | .start t => { p with threads := p.threads ++ [t] }

def Pool.submitted (p : Pool σ κ) : Move σ κ γ → Option κ
  | .act i _ =>
    match p.threads[i]? with
    | some (.submit c _) => some c
    | _ => none
  | _ => none

variable (R : σ → Prop) (G : κ → Prop)

/-- Whatever it reads from states in `R`, the program submits only commands in `G` and returns in `Q`. -/
def Within (Q : α → Prop) : Program σ κ α → Prop
  | .ret a => Q a
  | .look k => ∀ s, R s → Within Q (k s)
  | .submit c k => G c ∧ ∀ answer, Within Q (k answer)

variable {R G}

variable {Q : α → Prop} {p : Program σ κ α} {f : α → Program σ κ β} {H : κ → Prop}

theorem within_weaken {G' : κ → Prop} (h : Within R G Q p) (hg : ∀ c, G c → G' c) : Within R G' Q p := by
  induction p with
  | ret a => exact h
  | look k ih => exact fun s hs => ih s (h s hs)
  | submit c k ih => exact ⟨hg c h.1, fun b => ih b (h.2 b)⟩

theorem within_ret {a : α} (h : Q a) : Within R G Q (pure a : Program σ κ α) := h

theorem within_bind {Q' : β → Prop}
    (hp : Within R G Q p) (hf : ∀ a, Q a → Within R G Q' (f a)) : Within R G Q' (p >>= f) := by
  change Within R G Q' (p.bind f)
  induction p with
  | ret a => exact hf a hp
  | look k ih => exact fun s hs => ih s (hp s hs)
  | submit c k ih => exact ⟨hp.1, fun b => ih b (hp.2 b)⟩

theorem within_read (f : σ → α) (h : ∀ s, R s → Q (f s)) : Within R G Q (read f : Program σ κ α) := h

theorem within_read_any (f : σ → α) : Within R G (fun _ => True) (read f : Program σ κ α) :=
  within_read f (fun _ _ => trivial)

theorem within_bind_any {Q : β → Prop}
    (hp : Within R G (fun _ => True) p) (hf : ∀ a, Within R G Q (f a)) : Within R G Q (p >>= f) :=
  within_bind hp (fun a _ => hf a)

theorem within_look {g : σ → α} {Q : β → Prop} (h : ∀ a, Within R G Q (f a)) : Within R G Q (read g >>= f) :=
  within_bind_any (within_read_any g) h

theorem within_send {c : κ} (h : G c) : Within R G (fun _ => True) (send c : Program σ κ Bool) :=
  ⟨h, fun _ => trivial⟩

theorem within_foldlM {I : β → Prop} (f : β → α → Program σ κ β) (l : List α) (b : β) (hb : I b)
    (hstep : ∀ a ∈ l, ∀ b, I b → Within R G I (f b a)) : Within R G I (l.foldlM f b) := by
  induction l generalizing b with
  | nil => exact within_ret hb
  | cons a l ih =>
    rw [foldlM_cons]
    exact within_bind (hstep a mem_cons_self b hb)
      (fun b' hb' => ih b' hb' (fun a' ha' => hstep a' (mem_cons_of_mem a ha')))

theorem exec_within {M : System σ κ γ} {A : γ → Prop} {I : Config σ → Prop}
    (hR : ∀ c, I c → R c.now) (hI : Steady M A I)
    (hG : ∀ x c fate, G x → I c → I { c with now := (M.settle x c.now fate).2 })
    (h : Within R G Q p) (gs : List (Gap γ)) (c : Config σ) (hgs : Calm A gs) (hc : I c) :
    I (exec M p gs c).2.2 ∧ Q (exec M p gs c).1 := by
  induction p generalizing gs c with
  | ret a => exact ⟨hc, h⟩
  | look k ih =>
    have hc' := hI _ c (calm_nextGap hgs) hc
    exact ih _ (h _ (hR _ hc')) gs.tail _ (calm_suffix hgs (tail_suffix gs)) hc'
  | submit x k ih =>
    have hc' := hI _ c (calm_nextGap hgs) hc
    exact ih _ (h.2 _) gs.tail _ (calm_suffix hgs (tail_suffix gs)) (hG x _ _ h.1 hc')

theorem triple_of_within {M : System σ κ γ} {A : γ → Prop} {I : Config σ → Prop} (hI : Steady M A I)
    (hG : ∀ x c fate, G x → I c → I { c with now := (M.settle x c.now fate).2 })
    (h : Within (fun _ => True) G Q p) : Triple M A I p (fun _ => I) :=
  fun gs c hgs _ hc => (exec_within (fun _ _ => trivial) hI hG h gs c hgs hc).1

def Silent : Program σ κ α → Prop
  | .ret _ => True
  | .look k => ∀ s, Silent (k s)
  | .submit _ _ => False

/-- Commands in `G`, and perhaps one in `H` after which nothing is submitted. -/
def Closing (R : σ → Prop) (G H : κ → Prop) : Program σ κ α → Prop
  | .ret _ => True
  | .look k => ∀ s, R s → Closing R G H (k s)
  | .submit c k => (G c ∧ ∀ answer, Closing R G H (k answer)) ∨ (H c ∧ ∀ answer, Silent (k answer))

theorem closing_bind (hp : Within R G Q p) (hf : ∀ a, Q a → Closing R G H (f a)) : Closing R G H (p >>= f) := by
  change Closing R G H (p.bind f)
  induction p with
  | ret a => exact hf a hp
  | look k ih => exact fun s hs => ih s (hp s hs)
  | submit c k ih => exact Or.inl ⟨hp.1, fun b => ih b (hp.2 b)⟩

theorem closing_bind_any
    (hp : Within R G (fun _ => True) p) (hf : ∀ a, Closing R G H (f a)) : Closing R G H (p >>= f) :=
  closing_bind hp (fun a _ => hf a)

theorem closing_ret {a : α} : Closing R G H (pure a : Program σ κ α) := trivial

theorem closing_last {c : κ} (hc : H c) {f : Bool → Program σ κ α} (hf : ∀ answer, Silent (f answer)) :
    Closing R G H (send c >>= f) := Or.inr ⟨hc, hf⟩

theorem closing_of_silent (h : Silent p) : Closing R G H p := by
  induction p with
  | ret a => trivial
  | look k ih => exact fun s _ => ih s (h s)
  | submit c k ih => exact h.elim

theorem exec_of_within {M : System σ κ γ} (gs : List (Gap γ)) (c : Config σ)
    (hR : ∀ s ∈ (exec M p gs c).2.2.seen, R s) (h : Within R G Q p) : Q (exec M p gs c).1 := by
  induction p generalizing gs c with
  | ret a => exact h
  | look k ih =>
    refine ih _ gs.tail _ hR (h _ (hR _ ?_))
    exact (exec_seen M (k (M.arrive (nextGap gs) c).now) gs.tail (M.arrive (nextGap gs) c)).subset mem_cons_self
  | submit x k ih => exact ih _ gs.tail _ hR (h.2 _)

def Fair (R : σ → Prop) (G : κ → Prop) : Move σ κ γ → Prop
  | .act _ _ => True
  | .other e => ∀ s, R s → R (M.disturb e s)
  | .start t => Within R G (fun _ => True) t

def Pool.Kept (R : σ → Prop) (G : κ → Prop) (p : Pool σ κ) : Prop :=
  R p.now ∧ ∀ t ∈ p.threads, Within R G (fun _ => True) t

theorem settle_keeps (hG : ∀ c s, G c → R s → R (M.commit c s)) (c : κ) (s : σ) (fate : Fate) (hc : G c)
    (hs : R s) : R (M.settle c s fate).2 := by
  cases fate with
  | acked => exact hG c s hc hs
  | unacked => exact hG c s hc hs
  | lost => exact hs

theorem within_set {p : Pool σ κ} (hp : p.Kept R G) (i : Nat) {t : Program σ κ Unit}
    (ht : Within R G (fun _ => True) t) : ∀ u ∈ p.threads.set i t, Within R G (fun _ => True) u := by
  intro u hu
  rcases mem_or_eq_of_mem_set hu with h | h
  · exact hp.2 u h
  · exact h ▸ ht

theorem kept_step (hG : ∀ c s, G c → R s → R (M.commit c s)) (p : Pool σ κ) (m : Move σ κ γ) (hp : p.Kept R G)
    (hm : Fair M R G m) : (p.step M m).Kept R G ∧ ∀ c ∈ p.submitted m, G c := by
  cases m with
  | other e => exact ⟨⟨hm p.now hp.1, hp.2⟩, fun c hc => by cases hc⟩
  | start t =>
    exact ⟨⟨hp.1, Runs.forall_mem_snoc hp.2 hm⟩, fun c hc => by cases hc⟩
  | act i fate =>
    cases ht : p.threads[i]? with
    | none =>
      simp only [Pool.step, Pool.submitted, ht]
      exact ⟨hp, fun c hc => by cases hc⟩
    | some t =>
      have hw : Within R G (fun _ => True) t := hp.2 t (mem_of_getElem? ht)
      cases t with
      | ret a =>
        simp only [Pool.step, Pool.submitted, ht]
        exact ⟨hp, fun c hc => by cases hc⟩
      | look k =>
        simp only [Pool.step, Pool.submitted, ht]
        exact ⟨⟨hp.1, within_set hp i (hw p.now hp.1)⟩, fun c hc => by cases hc⟩
      | submit x k =>
        simp only [Pool.step, Pool.submitted, ht]
        refine ⟨⟨settle_keeps M hG x p.now fate hw.1 hp.1, within_set hp i (hw.2 _)⟩, fun c hc => ?_⟩
        cases hc
        exact hw.1

theorem kept_run (hG : ∀ c s, G c → R s → R (M.commit c s)) (p : Pool σ κ) (ms : List (Move σ κ γ))
    (hp : p.Kept R G) (hms : ∀ m ∈ ms, Fair M R G m) :
    (Runs.run (Pool.step M) p ms).Kept R G ∧
      Runs.Along (Pool.step M) (fun q m => ∀ c ∈ q.submitted m, G c) p ms := by
  refine Runs.along_of_invariant (Pool.step M) (Pool.Kept R G) (fun _ m => Fair M R G m) _
    (fun q m hq hm => kept_step M hG q m hq hm) p ms hp ?_
  rw [Runs.along_iff_split]
  intro pre m post h
  exact hms m (h ▸ mem_append_right pre mem_cons_self)

end Concurrent

end Jaco.Interleaving
