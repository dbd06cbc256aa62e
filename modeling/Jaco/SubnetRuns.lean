import Jaco.SubnetSlots

/-!
Runs of servers that gain and lose the lead. Each serves subnet requests from the part of the log it has applied,
and what it has submitted may still reach the log after another server leads.
-/

namespace Jaco.Ipam

open Interleaving Runs List

abbrev Allocation := Task (Except IPAMError (Option Subnet))

/-- Who holds an allocator's lock: nobody, a call on its way to or from raft, or one that waits for raft. -/
inductive Serving where
  | free
  | running (sent : Bool) (p : Allocation)
  | waiting (ticket : Nat) (k : Bool → Allocation)

def Serving.drafting : Serving → Bool
  | .running sent _ => !sent
  | _ => false

structure Server where
  pool : AddressPool := {}
  leads : Bool := false
  applied : Nat := 0
  asked : List EnsureSubnetRequest := []
  serving : Serving := .free

structure Cluster where
  servers : List Server
  log : List Command := []
  pending : List (Nat × Command) := []
  landed : List (Nat × Nat) := []
  issued : Nat := 0
  now : Timestamp := 0
  order : String → Nat := fun _ => 0

def replay (log : List Command) : World :=
  log.foldl (fun w c => w.commit c) { state := .new, index := 0, now := 0 }

namespace Cluster

def boot (pools : List AddressPool) : Cluster := { servers := pools.map (fun pool => { pool := pool }) }

def view (c : Cluster) (srv : Server) : World :=
  { replay (c.log.take srv.applied) with now := c.now, leader := srv.leads, order := c.order }

def update (c : Cluster) (i : Nat) (f : Server → Server) : Cluster := { c with servers := c.servers.modify i f }

inductive Event where
  | lead (i : Nat) (leads : Bool)
  | ask (i : Nat) (req : EnsureSubnetRequest)
  | enter (i : Nat) (j : Nat)
  | act (i : Nat)
  | commit (ticket : Nat)
  | lose (ticket : Nat)
  | apply (i : Nat)
  | answer (i : Nat) (ok : Bool)
  | restart (i : Nat) (applied : Nat)
  | other (x : Command)
  | elapse (time : Nat) (order : String → Nat)

def enterAt (srv : Server) (j : Nat) : Server :=
  match srv.serving, srv.asked[j]? with
  | .free, some req => { srv with asked := srv.asked.eraseIdx j, serving := .running false (allocate srv.pool req) }
  | _, _ => srv

def actAt (c : Cluster) (i : Nat) (srv : Server) : Cluster :=
  match srv.serving with
  | .running _ (.ret _) => c.update i (fun srv => { srv with serving := .free })
  | .running sent (.look k) => c.update i (fun srv => { srv with serving := .running sent (k (c.view srv)) })
  | .running _ (.submit x k) =>
    { c.update i (fun srv => { srv with serving := .waiting c.issued k }) with
      pending := c.pending ++ [(c.issued, x)]
      issued := c.issued + 1 }
  | _ => c

def answerAt (c : Cluster) (ok : Bool) (srv : Server) : Server :=
  match srv.serving with
  | .waiting ticket k =>
    -- raft reports success once this server has applied the entry; it reports failure whenever it gives up waiting
    if ok && !c.landed.any (fun l => l.1 = ticket && l.2 ≤ srv.applied) then srv
    else { srv with serving := .running true (k ok) }
  | _ => srv

def step (c : Cluster) : Event → Cluster
  | .lead i leads => c.update i (fun srv => { srv with leads := leads })
  | .ask i req => c.update i (fun srv => if srv.leads then { srv with asked := srv.asked ++ [req] } else srv)
  | .enter i j => c.update i (fun srv => enterAt srv j)
  | .act i =>
    match c.servers[i]? with
    | some srv => c.actAt i srv
    | none => c
  | .commit ticket =>
    match c.pending.find? (·.1 = ticket) with
    | some p =>
      { c with
        log := c.log ++ [p.2]
        pending := c.pending.filter (·.1 ≠ ticket)
        landed := c.landed ++ [(ticket, c.log.length + 1)] }
    | none => c
  | .lose ticket => { c with pending := c.pending.filter (·.1 ≠ ticket) }
  | .apply i =>
    c.update i (fun srv => if srv.applied < c.log.length then { srv with applied := srv.applied + 1 } else srv)
  | .answer i ok => c.update i (c.answerAt ok)
  | .restart i applied =>
    c.update i (fun srv =>
      { srv with leads := false, applied := min applied c.log.length, asked := [], serving := .free })
  | .other x => if Allows NoAllocation x then { c with log := c.log ++ [x] } else c
  | .elapse time order => { c with now := c.now + time, order := order }

def Distinct (c : Cluster) : Prop :=
  ∀ l, l <+: c.log → ∀ key key' sn sn', (replay l).state.subnets.get key = some sn →
    (replay l).state.subnets.get key' = some sn' → key ≠ key' → sn.cidr ≠ sn'.cidr

/-- An allocation starts only when no other is before its submission, none is on its way into the log, and the
server has applied every allocation of the log. -/
def Meets (c : Cluster) : Event → Prop
  | .enter i _ =>
    (∀ srv ∈ c.servers, srv.serving.drafting = false) ∧ c.pending = [] ∧
      ∀ srv ∈ c.servers[i]?, ∀ x ∈ c.log.drop srv.applied, Allows NoAllocation x
  | _ => True

instance (c : Cluster) : (e : Event) → Decidable (c.Meets e)
  | .enter i _ => inferInstanceAs (Decidable ((∀ srv ∈ c.servers, srv.serving.drafting = false) ∧ c.pending = [] ∧
      ∀ srv ∈ c.servers[i]?, ∀ x ∈ c.log.drop srv.applied, Allows NoAllocation x))
  | .lead _ _ | .ask _ _ | .act _ | .commit _ | .lose _ | .apply _ | .answer _ _ | .restart _ _ | .other _
  | .elapse _ _ => isTrue trivial

theorem replay_append (l m : List Command) :
    replay (l ++ m) = m.foldl (fun w c => w.commit c) (replay l) := foldl_append

theorem foldl_fewer (w : World) {m : List Command} (h : ∀ x ∈ m, Allows NoAllocation x) :
    Fewer (m.foldl (fun w c => w.commit c) w).state w.state := by
  induction m generalizing w with
  | nil => exact fewer_refl w.state
  | cons x m ih =>
    exact fewer_trans (ih (w.commit x) (fun y hy => h y (mem_cons_of_mem x hy)))
      (commit_fewer w x (h x mem_cons_self))

theorem replay_fewer {log : List Command} {a : Nat} (h : ∀ x ∈ log.drop a, Allows NoAllocation x) :
    Fewer (replay log).state (replay (log.take a)).state := by
  have hlog := replay_append (log.take a) (log.drop a)
  rw [take_append_drop] at hlog
  rw [hlog]
  exact foldl_fewer _ h

def Drafts (s : State) (p : Allocation) : Prop :=
  ∀ t, Fewer t s → Closing (fun w : World => Fewer t w.state) (fun _ => False) (Unused t) p

def ServerSound (c : Cluster) (srv : Server) : Prop :=
  match srv.serving with
  | .free => True
  | .running true p => Silent p
  | .running false p =>
    c.pending = [] ∧ Drafts (replay c.log).state p ∧ ∀ x ∈ c.log.drop srv.applied, Allows NoAllocation x
  | .waiting _ k => ∀ answer, Silent (k answer)

structure Sound (c : Cluster) : Prop where
  slotted : ∀ l, l <+: c.log → Slotted (replay l).state
  servers : ∀ (i : Nat) srv, c.servers[i]? = some srv → c.ServerSound srv
  alone : ∀ (i j : Nat) srv srv', c.servers[i]? = some srv → c.servers[j]? = some srv' → srv.serving.drafting = true →
    srv'.serving.drafting = true → i = j
  pending : c.pending = [] ∨ ∃ t x, c.pending = [(t, x)] ∧ Unused (replay c.log).state x

variable {c : Cluster} {srv : Server}

theorem distinct_of_sound (h : c.Sound) : c.Distinct := by
  intro l hl key key' sn sn' hsn hsn' hne he
  exact hne ((h.slotted l hl).apart key key' sn sn' hsn hsn' (congrArg thirdOctet he))

theorem drafting_cases (h : c.ServerSound srv) (hd : srv.serving.drafting = true) :
    ∃ p, srv.serving = .running false p ∧ c.pending = [] ∧ Drafts (replay c.log).state p ∧
      ∀ x ∈ c.log.drop srv.applied, Allows NoAllocation x := by
  cases hs : srv.serving with
  | free => simp [hs, Serving.drafting] at hd
  | waiting t k => simp [hs, Serving.drafting] at hd
  | running sent p =>
    cases sent with
    | true => simp [hs, Serving.drafting] at hd
    | false =>
      rw [ServerSound, hs] at h
      exact ⟨p, rfl, h⟩

theorem serverSound_of_not_drafting {d : Cluster} (h : c.ServerSound srv)
    (hd : srv.serving.drafting = false) : d.ServerSound srv := by
  unfold ServerSound at h ⊢
  split
  · trivial
  · rename_i p hs
    rw [hs] at h
    exact h
  · rename_i p hs
    rw [hs] at hd
    cases hd
  · rename_i t k hs
    rw [hs] at h
    exact h

theorem sound_update (h : c.Sound) {i : Nat} {f : Server → Server}
    (hf : ∀ srv, c.servers[i]? = some srv → c.ServerSound (f srv))
    (halone : ∀ srv, c.servers[i]? = some srv → (f srv).serving.drafting = true →
      ∀ (j : Nat) srv', c.servers[j]? = some srv' → srv'.serving.drafting = true → i = j) : (c.update i f).Sound where
  slotted := h.slotted
  pending := h.pending
  servers j srv hsrv := by
    rcases getElem?_modify_cases hsrv with ⟨hij, a, ha, rfl⟩ | ⟨-, hsrv⟩
    · exact hf a (hij ▸ ha)
    · exact h.servers j srv hsrv
  alone j j' srv srv' hsrv hsrv' hd hd' := by
    rcases getElem?_modify_cases hsrv with ⟨hj, a, ha, rfl⟩ | ⟨-, hold⟩ <;>
      rcases getElem?_modify_cases hsrv' with ⟨hj', a', ha', rfl⟩ | ⟨-, hold'⟩
    · exact hj.symm.trans hj'
    · exact hj.symm.trans (halone a (hj ▸ ha) hd j' srv' hold' hd')
    · exact (hj'.symm.trans (halone a' (hj' ▸ ha') hd' j srv hold hd)).symm
    · exact h.alone j j' srv srv' hold hold' hd hd'

theorem sound_update_keeping (h : c.Sound) {i : Nat} {f : Server → Server}
    (hf : ∀ srv, c.servers[i]? = some srv → c.ServerSound (f srv) ∧
      ((f srv).serving.drafting = true → srv.serving.drafting = true)) : (c.update i f).Sound :=
  sound_update h (fun srv hsrv => (hf srv hsrv).1)
    (fun srv hsrv hd j srv' hsrv' hd' => h.alone i j srv srv' hsrv hsrv' ((hf srv hsrv).2 hd) hd')

theorem serverSound_congr {srv' : Server} (h : c.ServerSound srv)
    (hs : srv'.serving = srv.serving) (ha : srv.applied ≤ srv'.applied) : c.ServerSound srv' := by
  unfold ServerSound at h ⊢
  rw [hs]
  split
  · trivial
  · rename_i p hp
    rw [hp] at h
    exact h
  · rename_i p hp
    rw [hp] at h
    exact ⟨h.1, h.2.1, fun x hx => h.2.2 x (drop_subset_drop_left c.log ha hx)⟩
  · rename_i t k hp
    rw [hp] at h
    exact h

theorem sound_enter (h : c.Sound) {i j : Nat} (hmeets : c.Meets (.enter i j)) :
    (c.update i (fun srv => enterAt srv j)).Sound := by
  obtain ⟨hidle, hpending, hcaught⟩ := hmeets
  refine sound_update h (fun srv hsrv => ?_) (fun srv hsrv hd j' srv' hsrv' hd' => ?_)
  · unfold enterAt
    split
    · exact ⟨hpending, fun t _ => allocate_closing t srv.pool _, hcaught srv hsrv⟩
    · exact h.servers i srv hsrv
  · rw [hidle srv' (mem_of_getElem? hsrv')] at hd'
    cases hd'

theorem drafts_look {s : State} {k : World → Allocation} (h : Drafts s (.look k)) {w : World} (hw : Fewer s w.state) :
    Drafts s (k w) :=
  fun t ht => h t ht w (fewer_trans ht hw)

theorem sound_submitted (h : c.Sound) (hidle : ∀ srv ∈ c.servers, srv.serving.drafting = false)
    (hpending : c.pending = []) {x : Command} (hx : Unused (replay c.log).state x) (t issued : Nat) :
    { c with pending := c.pending ++ [(t, x)], issued := issued }.Sound where
  slotted := h.slotted
  alone := h.alone
  servers i srv hsrv := serverSound_of_not_drafting (h.servers i srv hsrv) (hidle srv (mem_of_getElem? hsrv))
  pending := .inr ⟨t, x, by rw [hpending]; rfl, hx⟩

theorem idle_of_alone (h : c.Sound) {i : Nat} (hsrv : c.servers[i]? = some srv)
    (hd : srv.serving.drafting = true) {f : Server → Server} (hf : (f srv).serving.drafting = false) :
    ∀ srv' ∈ (c.update i f).servers, srv'.serving.drafting = false := by
  intro srv' hmem
  obtain ⟨j, hj⟩ := mem_iff_getElem?.1 hmem
  rcases getElem?_modify_cases hj with ⟨hij, a, ha, rfl⟩ | ⟨hij, hold⟩
  · rw [← hij, hsrv] at ha
    cases ha
    exact hf
  · cases hd' : srv'.serving.drafting with
    | false => rfl
    | true => exact absurd (h.alone i j srv srv' hsrv hold hd hd') hij

theorem sound_act (h : c.Sound) (i : Nat) (srv : Server) (hsrv : c.servers[i]? = some srv) : (c.actAt i srv).Sound := by
  have hs := h.servers i srv hsrv
  have heq : ∀ srv', c.servers[i]? = some srv' → srv' = srv := fun srv' h' => Option.some.inj (h'.symm.trans hsrv)
  unfold actAt
  split
  · exact sound_update_keeping h (fun _ _ => ⟨trivial, fun hd => by cases hd⟩)
  · rename_i sent k hp
    refine sound_update_keeping h (fun srv' hsrv' => ?_)
    rw [heq srv' hsrv']
    unfold ServerSound at hs ⊢
    rw [hp] at hs ⊢
    cases sent with
    | true => exact ⟨hs _, fun hd => hd⟩
    | false => exact ⟨⟨hs.1, drafts_look hs.2.1 (replay_fewer hs.2.2), hs.2.2⟩, fun hd => hd⟩
  · rename_i sent x k hp
    unfold ServerSound at hs
    rw [hp] at hs
    cases sent with
    | true => exact hs.elim
    | false =>
      obtain ⟨hpending, hdrafts, -⟩ := hs
      rcases hdrafts _ (fewer_refl _) with ⟨hno, -⟩ | ⟨hunused, hsilent⟩
      · exact hno.elim
      · have hmid : (c.update i (fun srv => { srv with serving := .waiting c.issued k })).Sound :=
          sound_update_keeping h (fun _ _ => ⟨hsilent, fun hd => by cases hd⟩)
        exact sound_submitted hmid (idle_of_alone h hsrv (by rw [hp]; rfl) rfl) hpending hunused c.issued _
  · exact h

theorem sound_answer (h : c.Sound) (i : Nat) (ok : Bool) : (c.update i (c.answerAt ok)).Sound := by
  refine sound_update_keeping h (fun srv hsrv => ?_)
  have hs := h.servers i srv hsrv
  unfold answerAt
  split
  · rename_i t k hp
    split
    · exact ⟨hs, fun hd => hd⟩
    · rw [ServerSound, hp] at hs
      exact ⟨hs ok, fun hd => by cases hd⟩
  · exact ⟨hs, fun hd => hd⟩

theorem sound_quiet (h : c.Sound) {i : Nat} {f : Server → Server}
    (hf : ∀ srv, (f srv).serving = srv.serving ∧ (c.servers[i]? = some srv → c.ServerSound (f srv))) :
    (c.update i f).Sound :=
  sound_update_keeping h (fun srv hsrv => ⟨(hf srv).2 hsrv, fun hd => (hf srv).1 ▸ hd⟩)

theorem idle_of_pending (h : c.Sound) (hp : c.pending ≠ []) :
    ∀ (i : Nat) srv, c.servers[i]? = some srv → srv.serving.drafting = false := by
  intro i srv hsrv
  cases hd : srv.serving.drafting with
  | false => rfl
  | true =>
    obtain ⟨p, -, hnil, -⟩ := drafting_cases (h.servers i srv hsrv) hd
    exact absurd hnil hp

theorem sound_commit (h : c.Sound) (ticket : Nat) : (c.step (.commit ticket)).Sound := by
  simp only [step]
  split
  · rename_i p hfind
    rcases h.pending with hnil | ⟨t, x, hone, hunused⟩
    · rw [hnil] at hfind
      cases hfind
    · have hidle := idle_of_pending h (by rw [hone]; exact cons_ne_nil _ _)
      have hmem := mem_of_find?_eq_some hfind
      rw [hone, mem_singleton] at hmem
      have hticket : t = ticket := by
        have := List.find?_some hfind
        rw [hmem] at this
        exact of_decide_eq_true this
      refine ⟨fun l hl => ?_, fun i srv hsrv => ?_, h.alone, .inl ?_⟩
      · rcases prefix_concat_iff.1 hl with rfl | hl
        · rw [replay_append, hmem]
          exact slotted_allocate (h.slotted c.log (prefix_refl _)) hunused
        · exact h.slotted l hl
      · exact serverSound_of_not_drafting (h.servers i srv hsrv) (hidle i srv hsrv)
      · rw [hone, hticket]
        simp
  · exact h

theorem sound_lose (h : c.Sound) (ticket : Nat) : (c.step (.lose ticket)).Sound := by
  rcases h.pending with hnil | ⟨t, x, hone, hunused⟩
  · have he : c.step (.lose ticket) = c := by
      change { c with pending := c.pending.filter (·.1 ≠ ticket) } = c
      rw [hnil, filter_nil, ← hnil]
    rw [he]
    exact h
  · have hidle := idle_of_pending h (by rw [hone]; exact cons_ne_nil _ _)
    refine ⟨h.slotted, fun i srv hsrv => serverSound_of_not_drafting (h.servers i srv hsrv) (hidle i srv hsrv),
      h.alone, ?_⟩
    change c.pending.filter (·.1 ≠ ticket) = [] ∨ ∃ t' x', c.pending.filter (·.1 ≠ ticket) = [(t', x')] ∧ _
    rw [hone]
    by_cases ht : t = ticket
    · exact .inl (by simp [ht])
    · exact .inr ⟨t, x, by simp [ht], hunused⟩

theorem sound_other (h : c.Sound) (x : Command) (hx : Allows NoAllocation x) :
    { c with log := c.log ++ [x] }.Sound := by
  have hfewer : Fewer (replay (c.log ++ [x])).state (replay c.log).state := by
    rw [replay_append]
    exact commit_fewer (replay c.log) x hx
  refine ⟨fun l hl => ?_, fun i srv hsrv => ?_, h.alone, ?_⟩
  · rcases prefix_concat_iff.1 hl with rfl | hl
    · exact slotted_fewer hfewer (h.slotted c.log (prefix_refl _))
    · exact h.slotted l hl
  · cases hd : srv.serving.drafting with
    | false => exact serverSound_of_not_drafting (h.servers i srv hsrv) hd
    | true =>
      obtain ⟨p, hp, hpending, hdrafts, hcaught⟩ := drafting_cases (h.servers i srv hsrv) hd
      rw [ServerSound, hp]
      refine ⟨hpending, fun t ht => hdrafts t (fewer_trans ht hfewer), fun y hy => ?_⟩
      rw [drop_append] at hy
      rcases mem_append.1 hy with hy | hy
      · exact hcaught y hy
      · rw [mem_singleton.1 (mem_of_mem_drop hy)]
        exact hx
  · rcases h.pending with hnil | ⟨t, y, hone, hunused⟩
    · exact .inl hnil
    · exact .inr ⟨t, y, hone, unused_fewer hfewer hunused⟩

theorem sound_step (h : c.Sound) (e : Event) (hmeets : c.Meets e) : (c.step e).Sound := by
  cases e with
  | lead i leads =>
    exact sound_quiet h (fun srv => ⟨rfl, fun hsrv => serverSound_congr (h.servers i srv hsrv) rfl le_rfl⟩)
  | ask i req =>
    refine sound_quiet h (fun srv => ?_)
    cases srv.leads with
    | true => exact ⟨rfl, fun hsrv => serverSound_congr (h.servers i srv hsrv) rfl le_rfl⟩
    | false => exact ⟨rfl, fun hsrv => h.servers i srv hsrv⟩
  | enter i j => exact sound_enter h hmeets
  | act i =>
    simp only [step]
    split
    · rename_i srv hsrv
      exact sound_act h i srv hsrv
    · exact h
  | commit ticket => exact sound_commit h ticket
  | lose ticket => exact sound_lose h ticket
  | apply i =>
    refine sound_quiet h (fun srv => ?_)
    split
    · exact ⟨rfl, fun hsrv => serverSound_congr (h.servers i srv hsrv) rfl (Nat.le_succ srv.applied)⟩
    · exact ⟨rfl, fun hsrv => h.servers i srv hsrv⟩
  | answer i ok => exact sound_answer h i ok
  | restart i applied => exact sound_update_keeping h (fun _ _ => ⟨trivial, fun hd => by cases hd⟩)
  | other x =>
    simp only [step]
    split
    · rename_i hx
      exact sound_other h x hx
    · exact h
  | elapse time order => exact { h with }

theorem sound_boot (pools : List AddressPool) : (boot pools).Sound := by
  have hfree : ∀ (i : Nat) srv, (boot pools).servers[i]? = some srv → srv.serving = .free := by
    intro i srv hsrv
    obtain ⟨pool, -, rfl⟩ := mem_map.1 (mem_of_getElem? hsrv)
    rfl
  refine ⟨fun l hl => ?_, fun i srv hsrv => ?_, fun i j srv srv' hsrv _ hd => ?_, .inl rfl⟩
  · rw [prefix_nil.1 hl]
    exact ⟨fun key sn hsn => (by cases hsn), fun key key' sn sn' hsn => (by cases hsn)⟩
  · rw [ServerSound, hfree i srv hsrv]
    trivial
  · rw [hfree i srv hsrv] at hd
    cases hd

theorem subnets_stay_distinct (pools : List AddressPool) (es : List Event)
    (hmeets : Along step Meets (boot pools) es) : ∀ fs, fs <+: es → (run step (boot pools) fs).Distinct := by
  rintro fs ⟨gs, rfl⟩
  have hfs := ((along_append step Meets (boot pools) fs gs).1 hmeets).1
  have hsound := (along_of_invariant step Sound Meets (fun _ _ => True)
    (fun c e hc he => ⟨sound_step hc e he, trivial⟩) (boot pools) fs (sound_boot pools) hfs).1
  exact distinct_of_sound hsound

theorem handover_after_apply : let es : List Event :=
      [.lead 0 true, .ask 0 ⟨"a", "default", "h1"⟩, .enter 0 0, .act 0, .act 0, .act 0, .act 0, .lead 0 false,
        .lead 1 true, .ask 1 ⟨"b", "default", "h1"⟩, .commit 0, .apply 1, .enter 1 0, .act 1, .act 1, .act 1, .act 1,
        .commit 1]
    let c := run step (boot [{}, {}]) es
    c.log.length = 2 ∧ c.Distinct := by
  refine ⟨by decide +kernel, ?_⟩
  exact subnets_stay_distinct _ _ (by decide +kernel) _ (prefix_refl _)

theorem new_leader_reuses_a_subnet : ¬ (run step (boot [{}, {}])
      [.lead 0 true, .ask 0 ⟨"a", "default", "h1"⟩, .enter 0 0, .act 0, .act 0, .act 0, .act 0, .lead 0 false,
        .lead 1 true, .ask 1 ⟨"b", "default", "h1"⟩, .enter 1 0, .act 1, .act 1, .commit 0, .act 1, .act 1,
        .commit 1]).Distinct := by
  intro h
  refine h _ (prefix_refl _) (subnetKey "a" "default" "h1") (subnetKey "b" "default" "h1")
    ⟨"a", "default", "10.244.0.0/24", some 0, "h1"⟩ ⟨"b", "default", "10.244.0.0/24", some 0, "h1"⟩ ?_ ?_ ?_ rfl
  · decide +kernel
  · decide +kernel
  · decide +kernel

end Cluster

end Jaco.Ipam
