import Jaco.LockRuns

namespace Jaco.CertLease

open Lease Runs List

variable (name : String)

structure Inv (w : World) : Prop where
  holder : ∀ c ∈ w.calls, w.NodeHolds c → (recordOf w.fsm name).holder = some c.node
  lease : ∀ n, (recordOf w.fsm name).holder = some n → w.leases n = (recordOf w.fsm name).deadline
  flight : ∀ sub ∈ w.flight, sub.ts ≤ w.now ∧ sub.node ≠ ""
  calls : ∀ c ∈ w.calls, c.node ≠ ""
  renewers : ∀ n ∈ w.renewers, n ≠ ""

/-- Nodes are named, no `Unlock` takes effect while a node holds the lock, a verdict is read from a state that is
current for this lock, and the other commands are about something else. -/
def Regular (w : World) : Event → Prop
  | .lock node => node ≠ ""
  | .commit i _ => ∀ sub, w.flight[i]? = some sub → sub.isUnlock = true → ∀ c ∈ w.calls, ¬ w.NodeHolds c
  | .finish _ seen => seen.certs.get name = w.fsm.certs.get name
  | .other _ e => isAbout name e.payload = false
  | _ => True

theorem inv_start (s : State) (now : Timestamp) : Inv name (start name s now) := by
  refine ⟨by simp [start], ?_, by simp [start], by simp [start], by simp [start]⟩
  intro n hn
  exact if_pos hn

theorem Inv.mono {w w' : World} (h : Inv name w) (hrec : recordOf w'.fsm name = recordOf w.fsm name)
    (hlease : w'.leases = w.leases) (hnow : w.now ≤ w'.now)
    (hheld : ∀ c ∈ w'.calls, c.phase = .held → c ∈ w.calls)
    (hflight : ∀ sub ∈ w'.flight, sub.ts ≤ w'.now ∧ sub.node ≠ "") (hcalls : ∀ c ∈ w'.calls, c.node ≠ "")
    (hren : ∀ n ∈ w'.renewers, n ≠ "") : Inv name w' := by
  refine ⟨?_, ?_, hflight, hcalls, hren⟩
  · intro c hc hold
    obtain ⟨hp, d, hd, hlt⟩ := hold
    rw [hrec]
    refine h.holder c (hheld c hc hp) ⟨hp, d, ?_, lt_of_le_of_lt hnow hlt⟩
    rw [← hlease]
    exact hd
  · intro n hn
    rw [hrec] at hn ⊢
    rw [hlease]
    exact h.lease n hn

theorem flight_later {w : World} (h : Inv name w) (t : Timestamp) (ht : w.now ≤ t) :
    ∀ sub ∈ w.flight, sub.ts ≤ t ∧ sub.node ≠ "" := by
  intro sub hs
  obtain ⟨h₁, h₂⟩ := h.flight sub hs
  exact ⟨le_trans h₁ ht, h₂⟩

theorem entry_of_not_unlock (sub : Submission) (h : sub.isUnlock = false) :
    sub.entry name = lockEntry name sub.node sub.ts := by
  cases sub with
  | lock call node ts => rfl
  | renew node ts => rfl
  | unlock node ts => cases h

variable (w : World) (i idx : Nat) (sub : Submission)

theorem commit_calls_held (c : Call)
    (hc : c ∈ (w.commit name i idx sub).calls) (hp : c.phase = .held) : c ∈ w.calls := by
  cases sub with
  | lock call node ts => exact mem_movePhase_held _ _ _ _ _ (by decide) hc hp
  | renew node ts => exact hc
  | unlock node ts => exact hc

theorem movePhase_calls_node {calls : List Call} (h : ∀ c ∈ calls, c.node ≠ "") (i : Nat) (old new : Phase) :
    ∀ c ∈ movePhase calls i old new, c.node ≠ "" := by
  intro c hc
  obtain ⟨d, hd, he⟩ := node_of_mem_movePhase _ _ _ _ _ hc
  rw [← he]
  exact h d hd

theorem commit_calls_node (h : ∀ c ∈ w.calls, c.node ≠ "") : ∀ c ∈ (w.commit name i idx sub).calls, c.node ≠ "" := by
  cases sub with
  | lock call node ts => exact movePhase_calls_node h _ _ _
  | renew node ts | unlock node ts => exact h

theorem inv_commit_unlock (h : Inv name w)
    (hu : sub.isUnlock = true) (hfree : ∀ c ∈ w.calls, ¬ w.NodeHolds c) : Inv name (w.commit name i idx sub) := by
  have hrec : recordOf (w.commit name i idx sub).fsm name = free := by
    cases sub with
    | unlock node ts => exact recordOf_unlock w.fsm idx name ts
    | lock call node ts => cases hu
    | renew node ts => cases hu
  have hlease : (w.commit name i idx sub).leases = w.leases := by
    simp [World.commit, World.granted, hu]
  refine ⟨?_, ?_, ?_, commit_calls_node name w i idx sub h.calls, h.renewers⟩
  · intro c hc hold
    obtain ⟨hp, d, hd, hlt⟩ := hold
    rw [hlease] at hd
    exact absurd ⟨hp, d, hd, hlt⟩ (hfree c (commit_calls_held name w i idx sub c hc hp))
  · intro n hn
    rw [hrec] at hn
    cases hn
  · intro s hs
    exact h.flight s (mem_of_mem_eraseIdx hs)

theorem inv_commit_lock (h : Inv name w)
    (hf : w.flight[i]? = some sub) (hu : sub.isUnlock = false) : Inv name (w.commit name i idx sub) := by
  obtain ⟨hts, hnode⟩ := h.flight sub (mem_of_getElem? hf)
  have hrec : recordOf (w.commit name i idx sub).fsm name =
      acquire (recordOf w.fsm name) sub.node sub.ts (sub.ts + lockTTL) := by
    have he : (w.commit name i idx sub).fsm = applyEntry idx w.fsm (sub.entry name) := rfl
    rw [he, entry_of_not_unlock name sub hu]
    exact recordOf_lock _ _ _ _ _ hnode
  have hflight : ∀ s ∈ (w.commit name i idx sub).flight, s.ts ≤ w.now ∧ s.node ≠ "" :=
    fun s hs => h.flight s (mem_of_mem_eraseIdx hs)
  cases hheld : heldAgainst (recordOf w.fsm name) sub.node sub.ts with
  | true =>
    have hlease : (w.commit name i idx sub).leases = w.leases := by
      simp [World.commit, World.granted, grants_eq, hheld]
    refine Inv.mono name h ?_ hlease (le_refl _) (commit_calls_held name w i idx sub) hflight
      (commit_calls_node name w i idx sub h.calls) h.renewers
    rw [hrec, acquire_of_held _ _ _ _ hheld]
  | false =>
    have hlease : (w.commit name i idx sub).leases = Function.update w.leases sub.node (some (sub.ts + lockTTL)) := by
      simp [World.commit, World.granted, grants_eq, hheld, hu]
    rw [acquire_of_not_held _ _ _ _ hheld] at hrec
    refine ⟨?_, ?_, hflight, commit_calls_node name w i idx sub h.calls, h.renewers⟩
    · intro c hc hold
      obtain ⟨hp, d, hd, hlt⟩ := hold
      rw [hrec]
      by_contra hne
      have hcn : c.node ≠ sub.node := fun he => hne (by rw [he])
      rw [hlease, Function.update_of_ne hcn] at hd
      have hold : w.NodeHolds c := ⟨hp, d, hd, hlt⟩
      have hholder := h.holder c (commit_calls_held name w i idx sub c hc hp) hold
      have hdeadline : (recordOf w.fsm name).deadline = some d := (h.lease c.node hholder).symm.trans hd
      have hexp := expired_of_taken _ _ _ _ _ hheld hholder hdeadline hcn
      exact absurd (le_trans hexp hts) (not_le_of_gt hlt)
    · intro n hn
      rw [hrec] at hn ⊢
      cases hn
      rw [hlease, Function.update_self]

theorem inv_finish (w : World) (call : Nat) (c : Call) (seen : State) (h : Inv name w)
    (hc : w.calls[call]? = some c) (hseen : seen.certs.get name = w.fsm.certs.get name) :
    Inv name (w.finish name call c seen) := by
  have hnode := h.calls c (mem_of_getElem? hc)
  have hcalls := movePhase_calls_node h.calls call .applied
  unfold World.finish
  split
  · rename_i hres
    have hholder : (recordOf w.fsm name).holder = some c.node := by
      have hr := ((lockResult_acquired_iff seen name c.node none hnode).mp hres).2
      rwa [recordOf, hseen] at hr
    refine ⟨?_, h.lease, h.flight, hcalls .held, ?_⟩
    · intro d hd hold
      rcases mem_movePhase _ _ _ _ _ hd with hd | ⟨e, he, -, rfl⟩
      · exact h.holder d hd hold
      · rw [hc] at he
        cases he
        exact hholder
    · exact forall_mem_cons.2 ⟨hnode, h.renewers⟩
  · exact Inv.mono name h rfl rfl (le_refl _) (fun d hd hp => mem_movePhase_held _ _ _ _ _ (by decide) hd hp) h.flight
      (hcalls .refused) h.renewers

theorem inv_unlock (w : World) (call : Nat) (c : Call) (h : Inv name w) (hc : w.calls[call]? = some c) :
    Inv name (w.unlock call c) := by
  have hmem : ∀ d ∈ (w.unlock call c).calls, ∃ e ∈ w.calls, e.node = d.node ∧ (d.phase = .held → d = e) := by
    intro d hd
    rcases mem_movePhase _ _ _ _ _ hd with hd | ⟨e, he, -, rfl⟩
    · obtain ⟨e, he, rfl⟩ := mem_map.mp hd
      by_cases hp : e.node = c.node ∧ e.phase = .held
      · rw [if_pos hp]
        exact ⟨e, he, rfl, fun hd => by cases hd⟩
      · rw [if_neg hp]
        exact ⟨e, he, rfl, fun _ => rfl⟩
    · obtain ⟨f, hf, rfl⟩ := mem_map.mp (mem_of_getElem? he)
      refine ⟨f, hf, ?_, fun hd => by cases hd⟩
      split <;> rfl
  refine Inv.mono name h rfl rfl (le_refl _) ?_ ?_ ?_ ?_
  · intro d hd hp
    obtain ⟨e, he, -, heq⟩ := hmem d hd
    rw [heq hp]
    exact he
  · exact forall_mem_cons.2 ⟨⟨le_refl _, h.calls c (mem_of_getElem? hc)⟩, h.flight⟩
  · intro d hd
    obtain ⟨e, he, hn, -⟩ := hmem d hd
    rw [← hn]
    exact h.calls e he
  · intro n hn
    exact h.renewers n (mem_of_mem_filter hn)

theorem inv_step (w : World) (e : Event) (h : Inv name w) (hr : Regular name w e) : Inv name (step name w e) := by
  cases e with
  | advance d =>
    have hnow : w.now ≤ w.now + d := Int.le_add_of_nonneg_right (Int.natCast_nonneg d)
    exact Inv.mono name h rfl rfl hnow (fun _ hc _ => hc) (flight_later name h _ hnow) h.calls h.renewers
  | lock node =>
    refine Inv.mono name h rfl rfl (le_refl _) ?_ ?_ ?_ h.renewers
    · intro c hc hp
      rcases mem_append.mp hc with hc | hc
      · exact hc
      · rw [mem_singleton.mp hc] at hp
        cases hp
    · exact forall_mem_cons.2 ⟨⟨le_refl _, hr⟩, h.flight⟩
    · exact forall_mem_snoc h.calls hr
  | commit i idx =>
    simp only [step]
    cases hf : w.flight[i]? with
    | none => exact h
    | some sub =>
      cases hu : sub.isUnlock with
      | true => exact inv_commit_unlock name w i idx sub h hu (hr sub hf hu)
      | false => exact inv_commit_lock name w i idx sub h hf hu
  | lose i =>
    exact Inv.mono name h rfl rfl (le_refl _) (fun _ hc _ => hc)
      (fun sub hs => h.flight sub (mem_of_mem_eraseIdx hs)) h.calls h.renewers
  | giveUp call =>
    exact Inv.mono name h rfl rfl (le_refl _) (fun c hc hp => mem_movePhase_held _ _ _ _ _ (by decide) hc hp) h.flight
      (movePhase_calls_node h.calls _ _ _) h.renewers
  | finish call seen =>
    simp only [step]
    cases hc : w.calls[call]? with
    | none => exact h
    | some c =>
      dsimp only
      split
      · exact inv_finish name w call c seen h hc hr
      · exact h
  | unlock call =>
    simp only [step]
    cases hc : w.calls[call]? with
    | none => exact h
    | some c =>
      dsimp only
      split
      · exact inv_unlock name w call c h hc
      · exact h
  | renew node =>
    simp only [step]
    split
    · rename_i hm
      refine Inv.mono name h rfl rfl (le_refl _) (fun _ hc _ => hc) ?_ h.calls h.renewers
      exact forall_mem_cons.2 ⟨⟨le_refl _, h.renewers node hm⟩, h.flight⟩
    · exact h
  | other idx e =>
    exact Inv.mono name h (recordOf_other w.fsm idx e name hr) rfl (le_refl _) (fun _ hc _ => hc) h.flight h.calls
      h.renewers

theorem nodeExclusion_of_inv (w : World) (h : Inv name w) : w.NodeExclusion := by
  intro c hc d hd hc' hd'
  have he := (h.holder c hc hc').symm.trans (h.holder d hd hd')
  exact Option.some.inj he

theorem nodes_exclude_each_other (s : State) (now : Timestamp) (events : List Event)
    (h : Along (step name) (Regular name) (start name s now) events) :
    (run (step name) (start name s now) events).NodeExclusion := by
  have hrun := along_of_invariant (step name) (Inv name) (Regular name) (fun _ _ => True)
    (fun w e hi hr => ⟨inv_step name w e hi hr, trivial⟩) (start name s now) events (inv_start name s now) h
  exact nodeExclusion_of_inv name _ hrun.1

def lockedBy (node : String) (now : Timestamp) : State := applyEntry 1 .new (lockEntry "issue" node now)

def handover : List Event :=
  [.lock "a", .commit 0 1, .finish 0 (lockedBy "a" 0), .unlock 0, .commit 0 2, .lock "b", .commit 0 3,
    .finish 1 (lockedBy "b" 0)]

theorem handover_excludes : (run (step "issue") (start "issue" .new 0) handover).NodeExclusion := by
  apply nodes_exclude_each_other
  refine ⟨show "a" ≠ "" by decide, ?_, rfl, trivial, ?_, show "b" ≠ "" by decide, ?_, ?_, trivial⟩
  · intro sub hf hu
    cases hf
    cases hu
  · intro sub _ _ c hc hold
    rw [mem_singleton.mp hc] at hold
    exact absurd hold.1 (by decide)
  · intro sub hf hu
    cases hf
    cases hu
  · change (lockedBy "b" 0).certs.get "issue" = _
    decide +kernel

def reentry : List Event :=
  [.lock "a", .commit 0 1, .finish 0 (lockedBy "a" 0), .lock "a", .commit 0 2, .finish 1 (lockedBy "a" 0)]

def lateUnlock : List Event :=
  [.lock "a", .commit 0 1, .finish 0 (lockedBy "a" 0), .advance 300000000000, .lock "b", .commit 0 2,
    .finish 1 (lockedBy "b" lockTTL), .unlock 0, .commit 0 3, .lock "c", .commit 0 4,
    .finish 2 (lockedBy "c" lockTTL)]

theorem reentry_and_late_unlock : (Along (step "issue") (Regular "issue") (start "issue" .new 0) reentry ∧
      ¬ (run (step "issue") (start "issue" .new 0) reentry).CallExclusion) ∧
    ¬ (run (step "issue") (start "issue" .new 0) lateUnlock).NodeExclusion := by
  refine ⟨⟨⟨show "a" ≠ "" by decide, ?_, rfl, show "a" ≠ "" by decide, ?_, ?_, trivial⟩, ?_⟩, ?_⟩
  · intro sub hf hu
    cases hf
    cases hu
  · intro sub hf hu
    cases hf
    cases hu
  · change (lockedBy "a" 0).certs.get "issue" = _
    decide +kernel
  · intro h
    exact absurd (h 0 1 ⟨"a", .held⟩ ⟨"a", .held⟩ (by decide +kernel) (by decide +kernel)
      ⟨Or.inl rfl, lockTTL, by decide +kernel⟩
      ⟨Or.inl rfl, lockTTL, by decide +kernel⟩) (by decide)
  · intro h
    exact absurd (h ⟨"b", .held⟩ (by decide +kernel) ⟨"c", .held⟩ (by decide +kernel)
      ⟨rfl, lockTTL + lockTTL, by decide +kernel⟩
      ⟨rfl, lockTTL + lockTTL, by decide +kernel⟩) (by decide)

end Jaco.CertLease
