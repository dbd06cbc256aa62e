import Jaco.RetiredIds

namespace Jaco.Scheduler

open Interleaving Placement Rollout ReplicaIds Runs List

section Batch

variable {P : Parsers} {F : Fleet} {R : World → Prop} {deps : List Deployment} {round : Round} (hF : F.Distinct)
  (hR : ∀ w, R w → Drawn F w.state) {v : World} (hv : R v)
  (hdeps : ∀ dep ∈ deps, v.state.deployments.get dep.name = some dep) (htold : Told P R deps round)

theorem wanted_of_numberedOf {dep : Deployment} {svc : ServiceSpec} {id : String} (h : id ∈ numberedOf dep.name svc)
    (eligible : List String) : id ∈ wantedIDs dep svc eligible := by
  unfold numberedOf at h
  unfold wantedIDs
  split at h
  · cases h
  · rename_i hnumbered
    rw [if_neg hnumbered]
    exact h

theorem numberedOf_of_wanted {dep : Deployment} {svc : ServiceSpec} (hnumbered : svc.placement ≠ .global) {id : String}
    {eligible : List String} (h : id ∈ wantedIDs dep svc eligible) : id ∈ numberedOf dep.name svc := by
  rw [wantedIDs, if_neg hnumbered] at h
  rw [numberedOf, if_neg hnumbered]
  exact h

inductive Effect (F : Fleet) (R : World → Prop) (v : World) : Payload → Prop
  | put (r : ReplicaDesired) (h : Seated F r) (hid : r.id ∈ numberedIDs v.state ∨ IsHost F r.id) :
      Effect F R v (.replicaDesiredUpsert (some r))
  | drop (r : ReplicaDesired) (hr : ∃ w, R w ∧ w.state.replicasDesired.get r.id = some r)
      (hid : r.id ∉ numberedIDs v.state) : Effect F R v (.replicaDesiredRemove r.id)
  | aside (p : Payload) (h : RolloutStep p) : Effect F R v p

include hF hR hv in
theorem owner_of_numbered {r : ReplicaDesired} (hr : ∃ w, R w ∧ w.state.replicasDesired.get r.id = some r)
    (hid : r.id ∈ numberedIDs v.state) : ∃ dep svc, Declares v.state dep svc ∧ r.id ∈ numberedOf dep.name svc ∧
      r.deployment = dep.name ∧ r.service = svc.name := by
  obtain ⟨w, hw, hget⟩ := hr
  obtain ⟨dep, svc, hdep, hof⟩ := mem_numberedIDs.1 hid
  obtain ⟨i, hhas, hidi⟩ := seat_of_numbered ((hR v hv).services dep svc hdep) hof
  obtain ⟨place, hplace, hrid, -⟩ := seated_of_get (hR w hw) hget
  have hseat := hF _ ⟨dep.name, svc.name, .index i⟩ hplace hhas (hrid.symm.trans hidi)
  exact ⟨dep, svc, hdep, hof, congrArg Seat.deployment hseat, congrArg Seat.service hseat⟩

include hF hR hv hdeps htold in
theorem batch_effects : ∀ c ∈ round.batch, Allows (Effect F R v) c := by
  have hlisted : Listed R deps := ⟨v, hv, hdeps⟩
  intro c hc
  cases child_of_told htold hc with
  | pending name reason now => exact allows_single (.aside _ ⟨by simp [Harmless, writes, NoApply], by simp [writes]⟩)
  | stale dep r now hdep hr howner hsvc =>
    refine allows_single (.drop r hr (fun hid => hsvc ?_))
    obtain ⟨dep', svc', hdep', -, hrd, hrs⟩ := owner_of_numbered hF hR hv hr hid
    have heq : dep = dep' := Option.some.inj ((hdeps dep hdep).symm.trans ((howner.symm.trans hrd) ▸ hdep'.1))
    rw [heq, hrs]
    exact mem_map_of_mem hdep'.2
  | put p desired d hp hd =>
    refine allows_single (.put _ (seated_replica hR hlisted hF hp hd) ?_)
    obtain ⟨counts, hdesired⟩ := hp.desired
    have hid : d.id ∈ wantedIDs p.dep p.svc p.eligible := ids_of_desired hdesired ▸ mem_map_of_mem hd
    by_cases hglobal : p.svc.placement = .global
    · obtain ⟨place, hhas, hseat, hplace⟩ := seat_of_wanted (enrolled_of_listed hR hlisted hp.dep hp.svc)
        (hosts_of_eligible hR hp.eligible) hid
      obtain ⟨h, -, rfl⟩ := hplace hglobal
      exact .inr ⟨_, _, h, hhas, hseat⟩
    · exact .inl (mem_numberedIDs.2 ⟨p.dep, p.svc, ⟨hdeps p.dep hp.dep, hp.svc⟩, numberedOf_of_wanted hglobal hid⟩)
  | drop p desired r hp hr hnot =>
    obtain ⟨w, hw, hcur⟩ := hp.current
    obtain ⟨hget, hrd, hrs⟩ := (hcur r).1 hr
    refine allows_single (.drop r ⟨w, hw, hget⟩ (fun hnum => hnot ?_))
    obtain ⟨dep', svc', hdep', hof, hrd', hrs'⟩ := owner_of_numbered hF hR hv ⟨w, hw, hget⟩ hnum
    obtain ⟨rfl, rfl⟩ := declares_unique (hR v hv).names ⟨hdeps p.dep hp.dep, hp.svc⟩ hdep' (hrd.symm.trans hrd')
      (hrs.symm.trans hrs')
    obtain ⟨counts, hdesired⟩ := hp.desired
    rw [ids_of_desired hdesired]
    exact wanted_of_numberedOf hof _

end Batch

namespace Shift

variable {P : Parsers} {F : Fleet} (hF : F.Distinct) {s : Shift}

theorem reconcile_closing (P : Parsers) (R : World → Prop) :
    Closing R (Allows RolloutStep) (Batches P R) (reconcile P) := by
  refine closing_bind_any (within_read_any _) (fun leader => ?_)
  split
  · exact closing_ret
  · refine closing_bind_any (within_weaken checkTimeouts_aborts
      (fun c hc => allows_mono (fun _ h => rolloutStep_aborts h) hc)) (fun aborted => ?_)
    change Closing R _ _ (reckon P aborted >>= submitBatch)
    refine closing_bind (reckon_tells aborted) ?_
    rintro round ⟨deps, hlisted, hround⟩
    unfold submitBatch
    split
    · exact closing_ret
    · exact closing_bind_any clock_within (fun now => closing_last ⟨deps, round, hlisted, hround, _, _, rfl⟩
        (fun _ => trivial))

def removedIn (c : Command) : List String :=
  c.entries.filterMap (fun e => match e.payload with
    | .replicaDesiredRemove id => some id
    | _ => none)

theorem mem_removedIn {c : Command} {id : String} :
    id ∈ removedIn c ↔ ∃ e ∈ c.entries, e.payload = .replicaDesiredRemove id := by
  unfold removedIn
  rw [mem_filterMap]
  refine exists_congr (fun e => and_congr_right (fun _ => ?_))
  split
  · rename_i id' hp
    rw [hp]
    simp
  · rename_i hp
    exact ⟨nofun, fun h => absurd h (hp id)⟩

theorem noApply_effect {R : World → Prop} {v : World} {p : Payload} (h : Effect F R v p) (n : String) :
    NoApply n p := by
  cases h with
  | put r h hid => trivial
  | drop r hr hid => trivial
  | aside p h => exact h.1.2 n

theorem orderly_effect {R : World → Prop} {v : World} {p : Payload} (h : Effect F R v p) : Orderly F p := by
  cases h with
  | put r h hid => exact .upsert r h
  | drop r hr hid => exact .remove r.id
  | aside p h => exact .aside p h.1 h.2

theorem numbered_kept {c : Command} (hc : Allows (fun p => ∀ n, NoApply n p) c) (idx : Nat) (t : State) :
    ∀ id ∈ numberedIDs (c.apply idx t), id ∈ numberedIDs t := by
  refine Command.apply_keeps (Q := fun u => ∀ id ∈ numberedIDs u, id ∈ numberedIDs t) (G := fun p => ∀ n, NoApply n p)
    (fun idx u e he hu id hid => ?_) idx c hc t (fun _ h => h)
  rcases numbered_of_entry idx u e hid with hold | ⟨da, svc, hp, -⟩
  · exact hu id hold
  · rw [hp] at he
    exact absurd rfl (he da.deployment)

section Passes

include hF

variable {c : Command} {k : Bool → Task Round}

theorem sound_batch (h : Sound P F s) {t : Task Round} (hopen : Open P F s t)
    (hc : Batches P (fun v => v ∈ s.seen) c) {t' : Task Round} (ht' : Silent t') :
    Sound P F { s.commit c with thread := some t' } ∧ Renews s c := by
  obtain ⟨deps, round, ⟨v, hv, hdeps⟩, htold, identity, ts, rfl⟩ := hc
  have heffects : Allows (Effect F (fun v => v ∈ s.seen) v) (.batch identity ts round.batch) :=
    allows_batch (batch_effects hF hopen.drawn hv hdeps htold)
  generalize Command.batch identity ts round.batch = c at heffects
  have hhost : ∀ id, IsHost F id → id ∉ s.declared := fun id hid hdecl => not_isHost hF (h.declared id hdecl) hid
  have hremoved : ∀ id ∈ removedIn c, id ∉ numberedIDs v.state ∧ (s.world.state.replicasDesired.get id).isSome := by
    intro id hid
    obtain ⟨e, he, hp⟩ := mem_removedIn.1 hid
    have heffect := heffects e he
    rw [hp] at heffect
    cases heffect with
    | drop r hr hnot =>
      obtain ⟨w, hw, hget⟩ := hr
      rw [hopen.records w hw] at hget
      exact ⟨hnot, by rw [hget]; rfl⟩
    | aside p haside => exact absurd (by simp [writes]) haside.1.1
  have hsorts : ∀ e ∈ c.entries, Sorts s.declared s.retired (removedIn c) e.payload := by
    intro e he
    have heffect := heffects e he
    generalize hpay : e.payload = p at heffect
    cases heffect with
    | put r hr hid =>
      refine .inl ⟨r, rfl, fun hret => ?_, fun hdecl hrem => ?_⟩
      · rcases hid with hid | hid
        · exact (hopen.wanted v hv r.id hid).2 hret
        · exact hhost r.id hid (h.retired r.id hret).1
      · rcases hid with hid | hid
        · exact (hremoved r.id hrem).1 hid
        · exact hhost r.id hid hdecl
    | drop r hr hnot => exact .inr (.inl ⟨r.id, mem_removedIn.2 ⟨e, he, hpay⟩, rfl⟩)
    | aside p haside => exact .inr (.inr haside.1.1)
  obtain ⟨hretired, hfresh⟩ := retire_sorted (s.world.index + 1) hsorts s.world.state
  have hdrawn : Drawn F (s.commit c).world.state :=
    commit_keeps (Q := Drawn F) drawn_entry c s.world (allows_mono (fun _ => orderly_effect) heffects) h.drawn
  have hnumbered : ∀ id ∈ numberedIDs (s.commit c).world.state, id ∈ numberedIDs s.world.state :=
    numbered_kept (allows_mono (fun _ he n => noApply_effect he n) heffects) _ _
  have hstored : ∀ id, ((s.commit c).world.state.replicasDesired.get id).isSome → id ∈ s.declared ∨ IsHost F id := by
    refine Command.apply_keeps (Q := fun u => ∀ id, (u.replicasDesired.get id).isSome → id ∈ s.declared ∨ IsHost F id)
      (G := Effect F (fun v => v ∈ s.seen) v) (fun idx u e he hu id hid => ?_) _ c heffects s.world.state h.stored
    obtain ⟨r, hr⟩ := Option.isSome_iff_exists.1 hid
    have hkey := Store.get_key hr
    rcases get_replicasDesired_entry hr with hold | ⟨r₀, hp, rfl⟩
    · exact hu id (by rw [hold]; rfl)
    · rw [hp] at he
      obtain rfl : r₀.id = id := hkey
      cases he with
      | put r hr hid => exact hid.imp_left (fun hid => (hopen.wanted v hv r₀.id hid).1)
      | aside p haside => exact absurd (by simp [writes]) haside.1.1
  refine ⟨⟨hdrawn, declared_commit h hdrawn, fun id hid => mem_declared_commit.2 (.inr hid), fun id hid => ?_,
    fun id hid => ?_, ?_⟩, hfresh⟩
  · rcases hretired id hid with hold | ⟨hdecl, hrem⟩
    · obtain ⟨hdecl, hnot⟩ := h.retired id hold
      exact ⟨mem_declared_commit.2 (.inl hdecl), fun hnum => hnot (hnumbered id hnum)⟩
    · obtain ⟨hnot, hsome⟩ := hremoved id hrem
      exact ⟨mem_declared_commit.2 (.inl hdecl),
        fun hnum => hopen.dropped v hv id hdecl hsome hnot (hnumbered id hnum)⟩
  · exact (hstored id hid).imp_left (fun hdecl => mem_declared_commit.2 (.inl hdecl))
  · rintro _ ⟨rfl⟩
    exact .inl ht'

omit hF in
theorem closing_rest (hopen : Open P F s (.submit c k)) (answer : Bool) :
    ∀ R : World → Prop, (∀ w, R w → Drawn F w.state) → (∀ v ∈ s.seen, R v) →
      Closing R (Allows RolloutStep) (Batches P R) (k answer) := by
  intro R hR hseen
  rcases hopen.closing R hR hseen with ⟨-, hrest⟩ | ⟨-, hdone⟩
  · exact hrest answer
  · exact closing_of_silent (hdone answer)

omit hF in
theorem sound_resume (h : Sound P F s) (hthread : s.thread = some (.submit c k))
    (answer : Bool) : Sound P F { s with thread := some (k answer) } := by
  refine { h with running := ?_ }
  rintro _ ⟨rfl⟩
  rcases h.running _ hthread with hdone | hopen
  · cases hdone
  · exact .inr { hopen with closing := closing_rest hopen answer }

theorem sound_submit (h : Sound P F s) (hthread : s.thread = some (.submit c k))
    (answer : Bool) : Sound P F { s.commit c with thread := some (k answer) } ∧ Renews s c := by
  rcases h.running _ hthread with hdone | hopen
  · cases hdone
  · rcases hopen.closing (fun v => v ∈ s.seen) hopen.drawn (fun v hv => hv) with ⟨hquiet, -⟩ | ⟨hbatch, hdone⟩
    · have hdrawn : Drawn F (s.commit c).world.state :=
        commit_keeps (Q := Drawn F) drawn_entry c s.world (rolloutStep_orderly hquiet) h.drawn
      have hnumbered : ∀ id ∈ numberedIDs (s.commit c).world.state, id ∈ numberedIDs s.world.state :=
        numbered_kept (allows_mono (fun _ hp => hp.1.2) hquiet) _ _
      obtain ⟨hsound, hfresh⟩ := sound_untouched hF h (allows_mono (fun _ hp => hp.1.1) hquiet) hdrawn
        (fun id hid _ => hnumbered id hid)
      exact ⟨sound_resume (s := s.commit c) hsound hthread answer, hfresh⟩
    · exact sound_batch hF h hopen hbatch (hdone answer)

theorem sound_act (h : Sound P F s) (fate : Fate) : Sound P F (s.step P (.act fate)) ∧ s.NeverReused (.act fate) := by
  cases hthread : s.thread with
  | none =>
    simp only [step, NeverReused, committed, hthread]
    exact ⟨h, nofun⟩
  | some t =>
    cases t with
    | ret a =>
      simp only [step, NeverReused, committed, hthread]
      exact ⟨{ h with running := nofun }, nofun⟩
    | look k =>
      simp only [step, NeverReused, committed, hthread]
      refine ⟨{ h with running := ?_ }, nofun⟩
      rintro _ ⟨rfl⟩
      rcases h.running _ hthread with hdone | hopen
      · exact .inl (hdone s.world)
      · right
        refine ⟨fun R hR hseen => ?_, ?_, ?_, ?_, ?_⟩
        · exact hopen.closing R hR (fun v hv => hseen v (mem_cons_of_mem _ hv)) s.world (hseen _ mem_cons_self)
        · exact forall_mem_cons.2 ⟨h.drawn, hopen.drawn⟩
        · exact forall_mem_cons.2 ⟨rfl, hopen.records⟩
        · exact forall_mem_cons.2
            ⟨fun id hid => ⟨h.covers id hid, fun hret => (h.retired id hret).2 hid⟩, hopen.wanted⟩
        · exact forall_mem_cons.2 ⟨fun id _ _ hnot => hnot, hopen.dropped⟩
    | submit c k =>
      have hstep : ∀ answer, Sound P F { s.commit c with thread := some (k answer) } ∧
          ∀ c' ∈ some c, Renews s c' := by
        intro answer
        obtain ⟨hsound, hfresh⟩ := sound_submit hF h hthread answer
        exact ⟨hsound, fun c' hc' => Option.some.inj hc' ▸ hfresh⟩
      cases fate with
      | acked =>
        simp only [step, NeverReused, committed, hthread]
        exact hstep true
      | unacked =>
        simp only [step, NeverReused, committed, hthread]
        exact hstep false
      | lost =>
        simp only [step, NeverReused, committed, hthread]
        exact ⟨sound_resume h hthread false, nofun⟩

theorem sound_step (h : Sound P F s) (e : Event) (hm : s.Meets F e) : Sound P F (s.step P e) ∧ s.NeverReused e := by
  cases e with
  | operator e =>
    obtain ⟨hsound, hfresh⟩ := sound_operator hF h hm
    exact ⟨hsound, fun c hc => Option.some.inj hc ▸ hfresh⟩
  | elapse time leader order =>
    refine ⟨{ h with running := fun t ht => ?_ }, nofun⟩
    exact (h.running t ht).imp_right (fun hopen => { hopen with })
  | begin =>
    refine ⟨?_, nofun⟩
    simp only [step]
    split
    · refine { h with running := ?_ }
      rintro _ ⟨rfl⟩
      exact .inr ⟨fun R _ _ => reconcile_closing P R, nofun, nofun, nofun, nofun⟩
    · exact h
  | act fate => exact sound_act hF h fate

end Passes

theorem sound_fresh : Sound P F fresh := by
  refine ⟨⟨?_, ?_, ?_, ?_⟩, nofun, ?_, nofun, ?_, nofun⟩
  · rintro dep svc ⟨hdep, -⟩
    exact absurd hdep (by simp [fresh, State.new])
  · intro dep hdep
    exact absurd (Store.mem_list.1 hdep) (by simp [fresh, State.new])
  · intro n hn
    exact absurd (Store.mem_list.1 hn) (by simp [fresh, State.new])
  · intro r hr
    exact absurd (Store.mem_list.1 hr) (by simp [fresh, State.new])
  · intro id hid
    obtain ⟨dep, svc, ⟨hdep, -⟩, -⟩ := mem_numberedIDs.1 hid
    exact absurd hdep (by simp [fresh, State.new])
  · intro id hid
    simp [fresh, State.new] at hid

theorem retired_ids_stay_retired (P : Parsers) (F : Fleet) (hF : F.Spelled) (es : List Event)
    (hes : Along (step P) (Meets F) fresh es) : Along (step P) NeverReused fresh es :=
  (along_of_invariant (step P) (Sound P F) (Meets F) NeverReused
    (fun _ e hs hm => sound_step (distinct_of_spelled hF) hs e hm) fresh es sound_fresh hes).2

namespace Sample

def join : Event :=
  .operator ⟨"", none, .clusterInit
    { clusterId := "", caCert := [], caKey := [], operatorTokenHashedSecret := [], selfHostname := "node-a",
      selfAddress := "node-a" }⟩

def scaled (revision : Nat) (replicas : Int) : DeploymentApply :=
  { Scheduler.Sample.applyOf revision (Scheduler.Sample.compose "1.27") with
    services := [{ Scheduler.Sample.web with replicas := replicas }] }

def scaleTo (revision : Nat) (replicas : Int) : Event :=
  .operator ⟨"ops", none, .deploymentApply (scaled revision replicas)⟩

def onePass : List Event := .begin :: List.replicate 20 (.act .acked)

def downscale : List Event := join :: scaleTo 1 2 :: onePass ++ scaleTo 2 1 :: onePass

def upscale : List Event := downscale ++ scaleTo 3 2 :: onePass

def fleet : Fleet where
  numbered := {("sample", "web", 2), ("sample", "web", 1)}
  global := ∅
  hosts := {"node-a"}

theorem fleet_spelled : fleet.Spelled := by
  refine ⟨nofun, fun d s n i _ _ hglobal => absurd hglobal (Set.notMem_empty _), ?_, ?_⟩
  · rintro d s x l ⟨p, hp, -⟩ -
    have hweb : x ++ "-" ++ s = "web" := by
      cases p with
      | index i =>
        obtain ⟨n, hn, -⟩ := hp
        rcases hn with hn | hn
        · exact congrArg (fun t => t.2.1) hn
        · exact congrArg (fun t => t.2.1) hn
      | host h => exact absurd hp.1 (Set.notMem_empty _)
    have hdash : '-' ∈ "web".toList := by
      rw [← hweb, dash_toList]
      exact mem_append_right _ mem_cons_self
    exact absurd hdash (by decide)
  · exact fun d s d' s' x _ hglobal => absurd hglobal (Set.notMem_empty _)

theorem meets_onePass (s : Shift) : Along (step Scheduler.Sample.parsers) (Meets fleet) s onePass := by
  rw [along_iff_split]
  intro pre e post h
  have he : e ∈ onePass := h ▸ mem_append_right pre mem_cons_self
  rcases mem_cons.1 he with rfl | he
  · trivial
  · rw [eq_of_mem_replicate he]
    trivial

end Sample

open Shift.Sample

theorem downscale_reuses_nothing : Along (step Scheduler.Sample.parsers) NeverReused fresh downscale := by
  refine retired_ids_stay_retired _ fleet fleet_spelled _ ⟨rfl, ⟨?_, ?_, ?_⟩, ?_⟩
  · exact nodup_singleton _
  · exact fun svc hsvc => mem_singleton.1 hsvc ▸ .inl rfl
  · decide +kernel
  · refine (along_append _ _ _ _ _).2 ⟨meets_onePass _, ⟨nodup_singleton _, ?_, ?_⟩, meets_onePass _⟩
    · exact fun svc hsvc => mem_singleton.1 hsvc ▸ .inr rfl
    · decide +kernel

theorem upscale_reuses_an_id : "sample-web-1" ∈ (run (step Scheduler.Sample.parsers) fresh downscale).retired ∧
      ((run (step Scheduler.Sample.parsers) fresh upscale).world.state.replicasDesired.get "sample-web-1").isSome ∧
      ¬ Along (step Scheduler.Sample.parsers) NeverReused fresh upscale := by
  decide +kernel

end Shift

end Jaco.Scheduler
