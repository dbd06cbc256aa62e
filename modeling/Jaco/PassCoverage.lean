import Jaco.StickyHosts

namespace Jaco.Scheduler

open Interleaving Placement Rollout List

section Coverage

variable {P : Parsers} {R : World → Prop}

def Grows (round round' : Round) : Prop := round.batch ⊆ round'.batch ∧ round.services ⊆ round'.services

def Pends (name : String) (round : Round) : Prop := ∃ reason now, markDeploymentPending name reason now ∈ round.batch

def Attends (deployment service : String) (round : Round) : Prop :=
  ∃ sp ∈ round.services, sp.deployment = deployment ∧ sp.service = service

def Reaches (deployment service : String) (round : Round) : Prop :=
  Pends deployment round ∨ Attends deployment service round

theorem grows_refl (round : Round) : Grows round round := ⟨List.Subset.refl _, List.Subset.refl _⟩

theorem grows_trans (a b c : Round) (h : Grows a b) (h' : Grows b c) : Grows a c :=
  ⟨List.Subset.trans h.1 h'.1, List.Subset.trans h.2 h'.2⟩

theorem reaches_grows (deployment service : String) {round round' : Round} (h : Grows round round')
    (hr : Reaches deployment service round) : Reaches deployment service round' := by
  rcases hr with ⟨reason, now, hmem⟩ | ⟨sp, hsp, hnames⟩
  · exact .inl ⟨reason, now, h.1 hmem⟩
  · exact .inr ⟨sp, h.2 hsp, hnames⟩

theorem reconcileService_names {dep : Deployment} {svc : ServiceSpec} {nodes : List Node} {project : Project}
    {specHash : Bytes} :
    Within R (fun _ => True) (fun sp => sp.deployment = dep.name ∧ sp.service = svc.name)
      (reconcileService dep svc nodes project specHash) := by
  refine within_look (fun now => ?_)
  dsimp only
  split
  · exact within_ret ⟨rfl, rfl⟩
  · refine within_look (fun current => ?_)
    split
    · exact within_ret ⟨rfl, rfl⟩
    · exact within_bind_any (within_trivial _) (fun step => within_ret ⟨rfl, rfl⟩)

theorem reconcileDeclared_reaches (dep : Deployment) (nodes : List Node) (project : Project) (round : Round)
    (svc : ServiceSpec) :
    Within R (fun _ => True) (fun round' => Grows round round' ∧ Reaches dep.name svc.name round')
      (reconcileDeclared P dep nodes project round svc) := by
  unfold reconcileDeclared
  split
  · refine within_look (fun now => within_ret ⟨⟨subset_append_left _ _, List.Subset.refl _⟩, ?_⟩)
    exact .inl ⟨_, now, mem_append_right _ (mem_singleton_self _)⟩
  · refine within_bind reconcileService_names (fun sp hsp => ?_)
    refine within_ret ⟨⟨subset_append_left _ _, subset_append_left _ _⟩, ?_⟩
    exact .inr ⟨sp, mem_append_right _ (mem_singleton_self sp), hsp⟩

theorem reconcileDeployment_reaches (nodes : List Node) (aborted : List String) (round : Round) (dep : Deployment) :
    Within R (fun _ => True) (fun round' => Grows round round' ∧
      (dep.name ∉ aborted → ∀ svc ∈ dep.services, Reaches dep.name svc.name round'))
      (reconcileDeployment P nodes aborted round dep) := by
  unfold reconcileDeployment
  split
  · rename_i haborted
    exact within_ret ⟨grows_refl round, fun hnot => absurd haborted hnot⟩
  · split
    · refine within_look (fun now => within_ret ⟨⟨subset_append_left _ _, List.Subset.refl _⟩, ?_⟩)
      exact fun _ svc _ => .inl ⟨_, now, mem_append_right _ (mem_singleton_self _)⟩
    · refine within_look (fun stale => within_look (fun now => ?_))
      refine within_mono (within_foldlM_all grows_refl grows_trans
        (C := fun svc round => Reaches dep.name svc.name round)
        (fun svc b b' h => reaches_grows dep.name svc.name h) _
          (fun b svc _ => reconcileDeclared_reaches dep nodes _ b svc) _) ?_
      exact fun round' h => ⟨⟨List.Subset.trans (subset_append_left _ _) h.1.1, h.1.2⟩, fun _ => h.2⟩

theorem reckon_reaches {deployment service : String} (aborted : List String) (hnot : deployment ∉ aborted)
    (hstored : ∀ w, R w → ∃ dep, w.state.deployments.get deployment = some dep ∧ service ∈ dep.services.map (·.name)) :
    Within R (fun _ => True) (Reaches deployment service) (reckon P aborted) := by
  refine within_bind (Q := fun deps => ∃ dep ∈ deps, dep.name = deployment ∧ service ∈ dep.services.map (·.name)) ?_
    (fun deps hdeps => ?_)
  · refine within_read _ (fun w hw => ?_)
    obtain ⟨dep, hget, hservice⟩ := hstored w hw
    have hname : dep.name = deployment := Store.get_key hget
    exact ⟨dep, (mem_listing w _ dep).2 (hname ▸ hget), hname, hservice⟩
  · obtain ⟨dep, hdep, rfl, hservice⟩ := hdeps
    obtain ⟨svc, hsvc, rfl⟩ := mem_map.1 hservice
    refine within_look (fun nodes => ?_)
    refine within_mono (within_foldlM_all grows_refl grows_trans
      (C := fun dep round => dep.name ∉ aborted → ∀ svc ∈ dep.services, Reaches dep.name svc.name round)
      (fun dep b b' h hr hnot svc hsvc => reaches_grows dep.name svc.name h (hr hnot svc hsvc)) _
      (fun b dep _ => reconcileDeployment_reaches nodes aborted b dep) _) ?_
    exact fun round h => h.2 dep hdep hnot svc hsvc

end Coverage

section Timeouts

variable {R : World → Prop}

theorem timedOut_of_le {now later : Timestamp} (h : now ≤ later) {plan : RolloutPlan}
    (hplan : timedOut later plan = false) :
    timedOut now plan = false := by
  unfold timedOut at hplan ⊢
  cases hstep : plan.lastStepAt with
  | none => simp
  | some t =>
    simp only [hstep, Option.any_some, Bool.and_eq_false_iff, decide_eq_false_iff_not, not_not] at hplan ⊢
    exact hplan.imp_right (lt_of_le_of_lt (sub_le_sub_right h t))

def Timely (later : Timestamp) (deployment : String) (s : State) : Prop :=
  ∀ plan ∈ s.rolloutPlans.list, plan.deployment = deployment → timedOut later plan = false

instance (later : Timestamp) (deployment : String) (s : State) : Decidable (Timely later deployment s) :=
  inferInstanceAs (Decidable (∀ plan ∈ _, _ → _))

theorem checkTimeouts_spares {later : Timestamp} {deployment : String}
    (hR : ∀ w, R w → w.now ≤ later ∧ Timely later deployment w.state) :
    Within R (fun _ => True) (fun aborted => deployment ∉ aborted) checkTimeouts := by
  refine within_bind (Q := (· ≤ later)) (within_read _ (fun w hw => (hR w hw).1)) (fun now hnow => ?_)
  refine within_bind (Q := fun plans => ∀ plan ∈ plans, plan.deployment = deployment → timedOut later plan = false)
    (within_read _ (fun w hw plan hplan => (hR w hw).2 plan ((listing_perm w _).mem_iff.1 hplan)))
      (fun plans hplans => ?_)
  have hspared : ∀ aborted, deployment ∉ aborted →
      Within R (fun _ => True) (fun aborted => deployment ∉ aborted) (abortTimedOut now aborted plans) := by
    induction plans with
    | nil => exact fun aborted haborted => within_ret haborted
    | cons plan plans ih =>
      intro aborted haborted
      have hrest := ih (fun plan' h => hplans plan' (mem_cons_of_mem plan h))
      rw [abortTimedOut]
      split
      · rename_i htimed
        refine within_bind_any (within_trivial _) (fun ok => ?_)
        split
        · refine hrest _ (fun hmem => ?_)
          rcases mem_append.1 hmem with hmem | hmem
          · exact haborted hmem
          · have hlate := timedOut_of_le hnow (hplans plan mem_cons_self (mem_singleton.1 hmem).symm)
            exact Bool.false_ne_true (hlate.symm.trans htimed)
        · exact within_ret haborted
      · exact hrest aborted haborted
  exact hspared [] not_mem_nil

theorem timely_entry {later : Timestamp} {deployment : String} (idx : Nat) (s : State) (e : Entry)
    (he : Aborts R e.payload) (hs : Timely later deployment s) : Timely later deployment (applyEntry idx s e) := by
  obtain ⟨identity, ts, payload⟩ := e
  cases he with
  | rollback name revision =>
    have hplans := applyEntry_agree idx s ⟨identity, ts, .deploymentRollback name revision⟩ .rolloutPlans
      (by simp [writes]) (by decide)
    rw [Timely, show (applyEntry idx s _).rolloutPlans = s.rolloutPlans from hplans]
    exact hs
  | plan plan key hstate h =>
    intro plan' hplan' hdeployment
    have hget : (s.rolloutPlans.apply plan).get plan'.key = some plan' := Store.mem_list.1 hplan'
    rw [Store.get_apply] at hget
    split at hget
    · cases hget
      simp [timedOut, hstate]
    · exact hs plan' (Store.mem_list.2 hget) hdeployment

end Timeouts

section Clock

def spent (gs : List (Gap Others)) : Nat := (gs.map (fun g => (g.others.map (·.elapsed)).getD 0)).sum

theorem arrive_spends (gs : List (Gap Others)) (c : Config World) :
    (cluster.arrive (nextGap gs) c).now.now + spent gs.tail = c.now.now + spent gs := by
  cases gs with
  | nil => rfl
  | cons g gs =>
    obtain ⟨others, fate⟩ := g
    cases others with
    | none => simp [nextGap, System.arrive, spent]
    | some o =>
      have hnow : (cluster.arrive (nextGap (⟨some o, fate⟩ :: gs)) c).now.now = c.now.now + (o.elapsed : Int) := rfl
      rw [hnow]
      simp [spent, Int.add_assoc]

theorem seen_now {α : Type} (p : Task α) (gs : List (Gap Others)) (c : Config World) :
    ∀ v ∈ (exec cluster p gs c).2.2.seen, v ∈ c.seen ∨ v.now ≤ c.now.now + spent gs := by
  have harrive : ∀ (gs : List (Gap Others)) (c : Config World),
      (cluster.arrive (nextGap gs) c).now.now ≤ c.now.now + spent gs := by
    intro gs c
    rw [← arrive_spends]
    exact Int.le_add_of_nonneg_right (Int.natCast_nonneg _)
  induction p generalizing gs c with
  | ret a => exact fun v hv => .inl hv
  | look k ih =>
    intro v hv
    rcases ih _ gs.tail _ v hv with hseen | hle
    · rcases mem_cons.1 hseen with rfl | hseen
      · exact .inr (harrive gs c)
      · exact .inl hseen
    · exact .inr (arrive_spends gs c ▸ hle)
  | submit x k ih =>
    intro v hv
    have hsettle : ∀ (u : World) (fate : Fate), (cluster.settle x u fate).2.now = u.now := by
      intro u fate
      cases fate <;> rfl
    rcases ih _ gs.tail _ v hv with hseen | hle
    · rcases mem_cons.1 hseen with rfl | hseen
      · exact .inr (harrive gs c)
      · exact .inl hseen
    · rw [← arrive_spends gs c, ← hsettle (cluster.arrive (nextGap gs) c).now (nextGap gs).fate]
      exact .inr hle

end Clock

section Pass

structure Intact (w : World) (s : State) : Prop where
  frame : Framed w.state s
  present : ∀ n, (w.state.deployments.get n).isSome → (s.deployments.get n).isSome

def Aloof (o : Others) : Prop :=
  o.leader = true ∧ ∀ c ∈ o.commands, Allows (fun p => RolloutStep p ∧ Part.rolloutPlans ∉ writes p) c

theorem present_entry {idx : Nat} {s : State} {e : Entry} (he : RolloutStep e.payload) {n : String}
    (hs : (s.deployments.get n).isSome) : ((applyEntry idx s e).deployments.get n).isSome := by
  have hput : ∀ d : Deployment, ((s.deployments.apply d).get n).isSome := by
    intro d
    rw [Store.get_apply]
    split
    · rfl
    · exact hs
  rw [applyEntry_deployments]
  by_cases hw : Part.deployments ∈ writes e.payload
  · obtain ⟨identity, ts, payload⟩ := e
    cases payload with
    | deploymentApply da => exact absurd rfl (he.1.2 da.deployment)
    | deploymentDelete name => exact absurd (by simp [writes]) he.1.1
    | deploymentRollback name revision | deploymentStatusUpdate u =>
      simp only [mutate]
      split
      · exact hs
      · exact hput _
    | _ => simp [writes] at hw
  · rw [show (mutate s e.ts idx e.payload).deployments = s.deployments from mutate_agree s e.ts idx
      e.payload .deployments hw]
    exact hs

variable {w : World}

theorem intact_refl (w : World) : Intact w w.state := ⟨framed_refl w.state, fun _ h => h⟩

theorem intact_entry (idx : Nat) (s : State) (e : Entry) (he : RolloutStep e.payload) (hs : Intact w s) :
    Intact w (applyEntry idx s e) :=
  ⟨framed_entry idx s e he hs.frame, fun n hn => present_entry he (hs.present n hn)⟩

theorem intact_disturb (o : Others) (v : World) (ho : Aloof o) (hv : Intact w v.state) : Intact w (v.disturb o).state :=
  disturb_keeps intact_entry o v (fun c hc => allows_mono (fun _ h => h.1) (ho.2 c hc)) hv

theorem intact_commit (c : Command) (v : World) (hc : Allows RolloutStep c) (hv : Intact w v.state) :
    Intact w (v.commit c).state :=
  commit_keeps intact_entry c v hc hv

theorem submitBatch_commits (round : Round) (gs : List (Gap Others)) (hgs : Calm Aloof gs)
    (hfate : ∀ g ∈ gs, g.fate ≠ .lost) (c : Config World) (hc : Intact w c.now.state) :
    (∃ t idx, Intact w t ∧ (exec cluster (submitBatch round) gs c).2.2.now.state = applyChildren idx t round.batch) ∧
      ∀ x ∈ round.batch, ∃ y ∈ record cluster (submitBatch round) gs c, x.entries ⊆ y.1.entries := by
  unfold submitBatch
  split
  · rename_i hempty
    rw [isEmpty_iff.1 hempty]
    exact ⟨⟨c.now.state, 0, hc, rfl⟩, nofun⟩
  · let c₁ := cluster.arrive (nextGap gs) c
    let c₂ := cluster.arrive (nextGap gs.tail) c₁
    let x : Command := .batch "scheduler" (some c₁.now.now) round.batch
    have hrest := calm_suffix hgs (tail_suffix gs)
    have hc₂ : Intact w c₂.now.state :=
      arrive_keeps (R := fun v : World => Intact w v.state) intact_disturb (calm_nextGap hrest)
        (arrive_keeps (R := fun v : World => Intact w v.state) intact_disturb (calm_nextGap hgs) hc)
    have hcommitted : (cluster.settle x c₂.now (nextGap gs.tail).fate).2 = c₂.now.commit x := by
      have hnot : (nextGap gs.tail).fate ≠ .lost := by
        cases hg : gs.tail with
        | nil => exact nofun
        | cons g rest => exact hfate g (mem_of_mem_tail (hg ▸ mem_cons_self))
      generalize (nextGap gs.tail).fate = fate at hnot
      cases fate with
      | acked => rfl
      | unacked => rfl
      | lost => exact absurd rfl hnot
    refine ⟨⟨c₂.now.state, c₂.now.index + 1, hc₂, ?_⟩, fun y hy => ⟨(x, (nextGap gs.tail).fate), mem_cons_self, ?_⟩⟩
    · exact congrArg World.state hcommitted
    · rw [show x.entries = round.batch.flatMap Command.entries from entries_batch _ _ _]
      exact fun e he => mem_flatMap.2 ⟨y, hy, he⟩

variable {P : Parsers}

theorem reconcile_leads {gs : List (Gap Others)} {c : Config World}
    (hleader : (cluster.arrive (nextGap gs) c).now.leader = true) :
    exec cluster (reconcile P) gs c = exec cluster (checkTimeouts >>= fun aborted => reckon P aborted >>= submitBatch)
        gs.tail (cluster.arrive (nextGap gs) c) ∧
      record cluster (reconcile P) gs c = record cluster
        (checkTimeouts >>= fun aborted => reckon P aborted >>= submitBatch)
        gs.tail (cluster.arrive (nextGap gs) c) := by
  let c₁ := cluster.arrive (nextGap gs) c
  let rest : Task Round := if !c₁.now.leader then pure {} else
    checkTimeouts >>= fun aborted => reckon P aborted >>= submitBatch
  have hexec : exec cluster (reconcile P) gs c = exec cluster rest gs.tail c₁ := rfl
  have hrecord : record cluster (reconcile P) gs c = record cluster rest gs.tail c₁ := rfl
  have hrest : rest = checkTimeouts >>= fun aborted => reckon P aborted >>= submitBatch := by
    change (if !c₁.now.leader then _ else _) = _
    rw [show c₁.now.leader = true from hleader]
    rfl
  rw [hexec, hrecord, hrest]
  exact ⟨rfl, rfl⟩

structure Reckoned (P : Parsers) (w : World) (later : Timestamp) (round : Round) : Prop where
  told : ∃ deps, Listed (fun v => Intact w v.state) deps ∧ Told P (fun v => Intact w v.state) deps round
  reaches : ∀ dep svc, w.state.deployments.get dep.name = some dep → svc ∈ dep.services →
    Timely later dep.name w.state →
    Reaches dep.name svc.name round

variable {dep : Deployment} {svc : ServiceSpec} {gs : List (Gap Others)}

theorem timely_disturb {later : Timestamp} (o : Others) (v : World) (ho : Aloof o)
    (hv : Timely later dep.name v.state) :
    Timely later dep.name (v.disturb o).state := by
  refine disturb_keeps (Q := Timely later dep.name) (fun idx s e he hs => ?_) o v ho.2 hv
  rw [Timely, show (applyEntry idx s e).rolloutPlans = s.rolloutPlans from
    applyEntry_agree idx s e .rolloutPlans he.2 (by decide)]
  exact hs

theorem checkTimeouts_intact (hgs : Calm Aloof gs) {c : Config World} (hc : Intact w c.now.state)
    (hseen : ∀ v ∈ c.seen, v = c.now) :
    (∀ v ∈ (exec cluster checkTimeouts gs c).2.2.seen, Intact w v.state) ∧
      Intact w (exec cluster checkTimeouts gs c).2.2.now.state :=
  seen_of_within (M := cluster) (R := fun v : World => Intact w v.state) intact_disturb
    (fun x v hx hv => intact_commit x v (allows_mono (fun _ h => rolloutStep_aborts h) hx) hv)
    checkTimeouts_aborts gs hgs c hc (fun v hv => hseen v hv ▸ hc)

theorem checkTimeouts_timely (hgs : Calm Aloof gs) {c : Config World} {later : Timestamp}
    (hnow : c.now.now + spent gs = later)
    (hc : Timely later dep.name c.now.state) (hseen : ∀ v ∈ c.seen, v = c.now) :
    dep.name ∉ (exec cluster checkTimeouts gs c).1 := by
  let R : World → Prop := fun v => Timely later dep.name v.state
  have hread := (seen_of_within (M := cluster) (R := R) timely_disturb
    (fun x v hx hv => commit_keeps timely_entry x v hx hv)
    checkTimeouts_aborts gs hgs c hc (fun v hv => hseen v hv ▸ hc)).1
  refine exec_of_within (R := fun v => v.now ≤ later ∧ Timely later dep.name v.state) gs c
    (fun v hv => ⟨?_, hread v hv⟩)
    (checkTimeouts_spares (fun _ h => h))
  rcases seen_now checkTimeouts gs c v hv with hold | hle
  · rw [hseen v hold, ← hnow]
    exact Int.le_add_of_nonneg_right (Int.natCast_nonneg _)
  · exact hnow ▸ hle

theorem reconcile_reckons (hleader : w.leader = true) (hgs : Calm Aloof gs) (hfate : ∀ g ∈ gs, g.fate ≠ .lost) :
    ∃ round, Reckoned P w (w.now + spent gs) round ∧
      (∃ t idx, Intact w t ∧ (exec cluster (reconcile P) gs ⟨w, []⟩).2.2.now.state = applyChildren idx t round.batch) ∧
      ∀ x ∈ round.batch, ∃ y ∈ record cluster (reconcile P) gs ⟨w, []⟩, x.entries ⊆ y.1.entries := by
  have hleader₁ : (cluster.arrive (nextGap gs) ⟨w, []⟩).now.leader = true :=
    arrive_keeps (R := fun v : World => v.leader = true) (fun o v ho _ => ho.1) (calm_nextGap hgs) hleader
  have hintact₁ : Intact w (cluster.arrive (nextGap gs) ⟨w, []⟩).now.state :=
    arrive_keeps (R := fun v : World => Intact w v.state) intact_disturb (calm_nextGap hgs) (intact_refl w)
  have hgs₁ := calm_suffix hgs (tail_suffix gs)
  have hseen₁ : ∀ v ∈ (cluster.arrive (nextGap gs) ⟨w, []⟩).seen, v = (cluster.arrive (nextGap gs) ⟨w, []⟩).now :=
    fun v hv => mem_singleton.1 hv
  obtain ⟨hexec, hrecord⟩ := reconcile_leads (P := P) hleader₁
  rw [hexec, hrecord, exec_bind, record_bind]
  obtain ⟨hseen₂, hc₂⟩ := checkTimeouts_intact hgs₁ hintact₁ hseen₁
  have hspared : ∀ dep : Deployment, Timely (w.now + spent gs) dep.name w.state →
      dep.name ∉ (exec cluster checkTimeouts gs.tail (cluster.arrive (nextGap gs) ⟨w, []⟩)).1 := by
    intro dep htimely
    refine checkTimeouts_timely hgs₁ (arrive_spends gs ⟨w, []⟩) ?_ hseen₁
    exact arrive_keeps (R := fun v : World => Timely (w.now + spent gs) dep.name v.state) timely_disturb
      (calm_nextGap hgs)
      htimely
  have hsuffix₂ := exec_rest cluster checkTimeouts gs.tail (cluster.arrive (nextGap gs) ⟨w, []⟩)
  generalize exec cluster checkTimeouts gs.tail (cluster.arrive (nextGap gs) ⟨w, []⟩) = o₂
    at hspared hseen₂ hc₂ hsuffix₂ ⊢
  obtain ⟨aborted, gs₂, c₂⟩ := o₂
  have hgs₂ : gs₂ <:+ gs := hsuffix₂.trans (tail_suffix gs)
  obtain ⟨hseen₃, hc₃⟩ := seen_of_within (M := cluster) (R := fun v : World => Intact w v.state)
    intact_disturb intact_commit
    (reckon_tells (P := P) aborted) gs₂ (calm_suffix hgs hgs₂) c₂ hc₂ hseen₂
  have htold := exec_of_within gs₂ c₂ hseen₃ (reckon_tells (P := P) (R := fun v : World => Intact w v.state) aborted)
  have hreaches : ∀ dep svc, w.state.deployments.get dep.name = some dep → svc ∈ dep.services →
      Timely (w.now + spent gs) dep.name w.state →
      Reaches dep.name svc.name (exec cluster (reckon P aborted) gs₂ c₂).1 := by
    intro dep svc hdep hsvc htimely
    refine exec_of_within gs₂ c₂ hseen₃ (reckon_reaches (P := P) (R := fun v : World => Intact w v.state) aborted
      (hspared dep htimely) (fun v hv => ?_))
    obtain ⟨d, hd⟩ := Option.isSome_iff_exists.1 (hv.present dep.name (by rw [hdep]; rfl))
    obtain ⟨d₀, hd₀, -, hservices⟩ := hv.frame.deployments dep.name d hd
    rw [hdep] at hd₀
    cases hd₀
    exact ⟨d, hd, hservices ▸ mem_map_of_mem hsvc⟩
  have hsuffix₃ := exec_rest cluster (reckon P aborted) gs₂ c₂
  dsimp only
  rw [exec_bind, record_bind]
  generalize exec cluster (reckon P aborted) gs₂ c₂ = o₃ at htold hreaches hc₃ hsuffix₃ ⊢
  obtain ⟨round, gs₃, c₃⟩ := o₃
  have hgs₃ : gs₃ <:+ gs := hsuffix₃.trans hgs₂
  obtain ⟨hend, hentries⟩ := submitBatch_commits round gs₃ (calm_suffix hgs hgs₃)
    (fun g hg => hfate g (hgs₃.subset hg)) c₃ hc₃
  refine ⟨round, ⟨htold, hreaches⟩, hend, fun x hx => ?_⟩
  obtain ⟨y, hy, hsub⟩ := hentries x hx
  exact ⟨y, mem_append_right _ (mem_append_right _ hy), hsub⟩

end Pass

end Jaco.Scheduler
