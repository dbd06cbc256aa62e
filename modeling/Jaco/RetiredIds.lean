import Jaco.DeleteRace
import Jaco.IdLedger

namespace Jaco.Scheduler

open Interleaving Placement Rollout ReplicaIds Runs Store List

section Retire

def Sorts (declared retired removed : List String) (p : Payload) : Prop :=
  (∃ r, p = .replicaDesiredUpsert (some r) ∧ r.id ∉ retired ∧ (r.id ∈ declared → r.id ∉ removed)) ∨
    (∃ id ∈ removed, p = .replicaDesiredRemove id) ∨ Part.replicasDesired ∉ writes p

variable {declared retired removed : List String} {idx : Nat}

theorem mem_retire {t : State × List String} {e : Entry} {id : String} (h : id ∈ (retire declared idx t e).2) :
    id ∈ t.2 ∨ id ∈ declared ∧ (∃ r, t.1.replicasDesired.get id = some r) ∧
      (applyEntry idx t.1 e).replicasDesired.get id = none := by
  rcases mem_append.1 h with h | h
  · exact .inl h
  · obtain ⟨hmem, hgone⟩ := mem_filter.1 h
    rw [Bool.and_eq_true, Option.isSome_iff_exists, Option.isNone_iff_eq_none] at hgone
    exact .inr ⟨hmem, hgone⟩

theorem retire_of_untouched {t : State × List String} {e : Entry} (h : Part.replicasDesired ∉ writes e.payload)
    {id : String}
    (hid : id ∈ (retire declared idx t e).2) : id ∈ t.2 := by
  have hsame : (applyEntry idx t.1 e).replicasDesired = t.1.replicasDesired :=
    applyEntry_agree idx t.1 e .replicasDesired h (by decide)
  rcases mem_retire hid with hid | ⟨-, ⟨r, hr⟩, hnone⟩
  · exact hid
  · rw [hsame, hr] at hnone
    cases hnone

theorem get_upsertEntry (s : State) (e : Entry) {r : ReplicaDesired} (h : e.payload = .replicaDesiredUpsert (some r))
    (id : String) : (applyEntry idx s e).replicasDesired.get id =
      if r.id = id then some { r with raftIndex := idx } else s.replicasDesired.get id := by
  rw [applyEntry_replicasDesired, h]
  exact get_putReplica s r idx id

theorem get_removeEntry (s : State) (e : Entry) {id' : String} (h : e.payload = .replicaDesiredRemove id')
    (id : String) :
    (applyEntry idx s e).replicasDesired.get id = if id' = id then none else s.replicasDesired.get id := by
  rw [applyEntry_replicasDesired, h]
  exact get_remove s.replicasDesired id' id

theorem retire_sorted (idx : Nat) {es : List Entry} (h : ∀ e ∈ es, Sorts declared retired removed e.payload)
    (s : State) :
    (∀ id ∈ (run (retire declared idx) (s, retired) es).2, id ∈ retired ∨ id ∈ declared ∧ id ∈ removed) ∧
      Along (retire declared idx) Fresh (s, retired) es := by
  refine along_of_invariant (retire declared idx) (fun t => ∀ id ∈ t.2, id ∈ retired ∨ id ∈ declared ∧ id ∈ removed)
    (fun _ e => Sorts declared retired removed e.payload) Fresh (fun t e ht he => ?_) (s, retired) es
    (fun id hid => .inl hid) ?_
  · rcases he with ⟨r, hp, hnew, hkept⟩ | ⟨id', hid', hp⟩ | hother
    · refine ⟨fun id hid => ?_, fun r' hr' hmem => ?_⟩
      · rcases mem_retire hid with hid | ⟨-, ⟨r₀, hr₀⟩, hnone⟩
        · exact ht id hid
        · rw [get_upsertEntry t.1 e hp] at hnone
          split at hnone
          · cases hnone
          · rw [hr₀] at hnone
            cases hnone
      · rw [upserted, hp] at hr'
        cases hr'
        rcases ht r.id hmem with hret | ⟨hdecl, hrem⟩
        · exact hnew hret
        · exact hkept hdecl hrem
    · refine ⟨fun id hid => ?_, fun r' hr' => ?_⟩
      · rcases mem_retire hid with hid | ⟨hdecl, ⟨r₀, hr₀⟩, hnone⟩
        · exact ht id hid
        · rw [get_removeEntry t.1 e hp] at hnone
          split at hnone
          · rename_i heq
            exact .inr ⟨hdecl, heq ▸ hid'⟩
          · rw [hr₀] at hnone
            cases hnone
      · rw [upserted, hp] at hr'
        cases hr'
    · refine ⟨fun id hid => ht id (retire_of_untouched hother hid), fun r' hr' => ?_⟩
      unfold upserted at hr'
      split at hr'
      · rename_i hp
        rw [hp] at hother
        exact absurd (by simp [writes]) hother
      · cases hr'
  · rw [along_iff_split]
    intro pre e post hes
    exact h e (hes ▸ mem_append_right pre mem_cons_self)

end Retire

section Ids

variable {F : Fleet}

variable {id : String}

theorem mem_numberedIDs {s : State} :
    id ∈ numberedIDs s ↔ ∃ dep svc, Declares s dep svc ∧ id ∈ numberedOf dep.name svc := by
  simp only [numberedIDs, mem_flatMap]
  constructor
  · rintro ⟨dep, hdep, svc, hsvc, hid⟩
    exact ⟨dep, svc, ⟨mem_list.1 hdep, hsvc⟩, hid⟩
  · rintro ⟨dep, svc, ⟨hdep, hsvc⟩, hid⟩
    exact ⟨dep, mem_list_of_get hdep, svc, hsvc, hid⟩

theorem seat_of_numbered {deployment : String} {svc : ServiceSpec} (h : Enrolled F deployment svc)
    (hid : id ∈ numberedOf deployment svc) :
    ∃ i, F.Has ⟨deployment, svc.name, .index i⟩ ∧ id = replicaID deployment svc.name i := by
  unfold numberedOf at hid
  unfold Enrolled at h
  split at hid
  · cases hid
  · rename_i hnumbered
    rw [if_neg hnumbered] at h
    obtain ⟨i, hi, rfl⟩ := mem_map.1 hid
    exact ⟨i, Fleet.has_index h (mem_range.1 hi), rfl⟩

def IsIndex (F : Fleet) (id : String) : Prop := ∃ d s i, F.Has ⟨d, s, .index i⟩ ∧ id = replicaID d s i

def IsHost (F : Fleet) (id : String) : Prop := ∃ d s h, F.Has ⟨d, s, .host h⟩ ∧ id = replicaIDForHost d s h

theorem not_isHost (hF : F.Distinct) (h : IsIndex F id) : ¬ IsHost F id := by
  rintro ⟨d', s', h', hhas', hid'⟩
  obtain ⟨d, s, i, hhas, hid⟩ := h
  cases congrArg Seat.place (hF ⟨d, s, .index i⟩ ⟨d', s', .host h'⟩ hhas hhas' (hid.symm.trans hid'))

theorem isIndex_of_numbered {s : State} (hs : Drawn F s) (hid : id ∈ numberedIDs s) : IsIndex F id := by
  obtain ⟨dep, svc, hdep, hid⟩ := mem_numberedIDs.1 hid
  obtain ⟨i, hhas, hid⟩ := seat_of_numbered (hs.services dep svc hdep) hid
  exact ⟨dep.name, svc.name, i, hhas, hid⟩

end Ids

section Operators

variable {F : Fleet}

variable (idx : Nat) (s : State) (e : Entry)

theorem deployment_of_entry {dep : Deployment} (h : (applyEntry idx s e).deployments.get dep.name = some dep) :
    (∃ d₀, s.deployments.get dep.name = some d₀ ∧ dep.services = d₀.services) ∨
      ∃ da, e.payload = .deploymentApply da ∧ dep.name = da.deployment ∧ dep.services = da.services := by
  by_cases hno : NoApply dep.name e.payload
  · obtain ⟨d₀, hd₀, -, hsvc⟩ := get_deployments_entry idx s e hno h
    exact .inl ⟨d₀, hd₀, hsvc⟩
  · rw [applyEntry_deployments] at h
    cases hp : e.payload with
    | deploymentApply da =>
      rw [hp] at hno h
      have hname : da.deployment = dep.name := not_not.1 hno
      simp only [mutate, applyDeployment, get_apply, if_pos hname] at h
      cases h
      exact .inr ⟨da, rfl, rfl, rfl⟩
    | _ => simp [hp, NoApply] at hno

theorem numbered_of_entry {id : String} (h : id ∈ numberedIDs (applyEntry idx s e)) :
    id ∈ numberedIDs s ∨ ∃ da svc, e.payload = .deploymentApply da ∧ svc ∈ da.services ∧
    id ∈ numberedOf da.deployment svc := by
  obtain ⟨dep, svc, ⟨hdep, hsvc⟩, hid⟩ := mem_numberedIDs.1 h
  rcases deployment_of_entry idx s e hdep with ⟨d₀, hd₀, hservices⟩ | ⟨da, hp, hname, hservices⟩
  · have hname : d₀.name = dep.name := get_key hd₀
    exact .inl (mem_numberedIDs.2 ⟨d₀, svc, ⟨hname ▸ hd₀, hservices ▸ hsvc⟩, hname ▸ hid⟩)
  · exact .inr ⟨da, svc, hp, hservices ▸ hsvc, hname ▸ hid⟩

theorem host_of_entry {n : Node} (h : n ∈ (applyEntry idx s e).nodes.list) :
    (∃ n₀ ∈ s.nodes.list, n.hostname = n₀.hostname) ∨ (∃ nj, e.payload = .nodeJoin nj ∧ n.hostname = nj.hostname) ∨
      ∃ ci, e.payload = .clusterInit ci ∧ n.hostname = ci.selfHostname := by
  have hget := mem_list.1 h
  have hsame : (applyEntry idx s e).nodes = (mutate s e.ts idx e.payload).nodes :=
    applyEntry_agree_mutate idx s e .nodes (by decide)
  rw [hsame] at hget
  have hkeep : ∀ k, s.nodes.get k = some n → ∃ n₀ ∈ s.nodes.list, n.hostname = n₀.hostname :=
    fun k hk => ⟨n, mem_list_of_get hk, rfl⟩
  have hput : ∀ n₁ : Node, (s.nodes.apply n₁).get n.hostname = some n →
      n = n₁ ∨ ∃ n₀ ∈ s.nodes.list, n.hostname = n₀.hostname :=
    fun n₁ hn => (eq_or_get_of_apply hn).imp_right (hkeep _)
  by_cases hw : Part.nodes ∈ writes e.payload
  · generalize e.payload = p at hget hw
    cases p with
    | nodeJoin nj =>
      rcases hput _ hget with heq | hold
      · exact .inr (.inl ⟨nj, rfl, heq ▸ rfl⟩)
      · exact .inl hold
    | clusterInit ci =>
      simp only [mutate, initCluster] at hget
      split at hget
      · rcases hput _ hget with heq | hold
        · exact .inr (.inr ⟨ci, rfl, heq ▸ rfl⟩)
        · exact .inl hold
      · exact .inl (hkeep _ hget)
    | nodeRemove hostname => exact .inl (hkeep _ (get_of_remove hget))
    | nodeStatusUpdate u | nodeUpdateSelf u =>
      simp only [mutate, updateNodeStatus, updateNodeSelf] at hget
      split at hget
      · exact .inl (hkeep _ hget)
      · rename_i n₀ hn₀
        rcases hput _ hget with heq | hold
        · refine .inl ⟨n₀, mem_list_of_get hn₀, ?_⟩
          rw [heq]
          split <;> split <;> rfl
        · exact .inl hold
    | _ => simp [writes] at hw
  · have hnodes : (mutate s e.ts idx e.payload).nodes = s.nodes := mutate_agree s e.ts idx e.payload .nodes hw
    rw [hnodes] at hget
    exact .inl (hkeep _ hget)

theorem get_deleteEntry {name : String} (h : e.payload = .deploymentDelete name)
    (id : String) : (applyEntry idx s e).replicasDesired.get id =
      (s.replicasDesired.get id).filter (fun r => r.deployment ≠ name) := by
  rw [applyEntry_replicasDesired, h]
  simp only [mutate, deleteDeployment, replicasDesired_removeReplicasOf, get_removeWhere]
  simp

theorem record_of_entry (hup : upserted e = none) {id : String} {r : ReplicaDesired}
    (h : (applyEntry idx s e).replicasDesired.get id = some r) : s.replicasDesired.get id = some r := by
  refine (get_replicasDesired_entry h).resolve_right ?_
  rintro ⟨r₀, hp, -⟩
  rw [upserted, hp] at hup
  cases hup

end Operators

namespace Shift

variable (P : Parsers) (F : Fleet)

def Batches (R : World → Prop) (c : Command) : Prop :=
  ∃ deps round, Listed R deps ∧ Told P R deps round ∧ ∃ identity ts, c = .batch identity ts round.batch

structure Open (s : Shift) (t : Task Round) : Prop where
  closing : ∀ R : World → Prop, (∀ w, R w → Drawn F w.state) → (∀ v ∈ s.seen, R v) →
    Closing R (Allows RolloutStep) (Batches P R) t
  drawn : ∀ v ∈ s.seen, Drawn F v.state
  records : ∀ v ∈ s.seen, v.state.replicasDesired = s.world.state.replicasDesired
  wanted : ∀ v ∈ s.seen, ∀ id ∈ numberedIDs v.state, id ∈ s.declared ∧ id ∉ s.retired
  dropped : ∀ v ∈ s.seen, ∀ id ∈ s.declared, (s.world.state.replicasDesired.get id).isSome → id ∉ numberedIDs v.state →
    id ∉ numberedIDs s.world.state

structure Sound (s : Shift) : Prop where
  drawn : Drawn F s.world.state
  declared : ∀ id ∈ s.declared, IsIndex F id
  covers : ∀ id ∈ numberedIDs s.world.state, id ∈ s.declared
  retired : ∀ id ∈ s.retired, id ∈ s.declared ∧ id ∉ numberedIDs s.world.state
  stored : ∀ id, (s.world.state.replicasDesired.get id).isSome → id ∈ s.declared ∨ IsHost F id
  running : ∀ t, s.thread = some t → Silent t ∨ Open P F s t

variable {P F} (hF : F.Distinct) {s : Shift}

variable {c : Command} {e : Entry}

theorem mem_declared_commit {id : String} :
    id ∈ (s.commit c).declared ↔ id ∈ s.declared ∨ id ∈ numberedIDs (s.commit c).world.state := mem_append

theorem declared_commit (h : Sound P F s) (hdrawn : Drawn F (s.commit c).world.state) :
    ∀ id ∈ (s.commit c).declared, IsIndex F id := by
  intro id hid
  rcases mem_declared_commit.1 hid with hid | hid
  · exact h.declared id hid
  · exact isIndex_of_numbered hdrawn hid

def Renews (s : Shift) (c : Command) : Prop :=
  Along (retire s.declared (s.world.index + 1)) Fresh (s.world.state, s.retired) c.entries

theorem retired_untouched (hc : Allows (fun p => Part.replicasDesired ∉ writes p) c) :
    (∀ id ∈ (s.commit c).retired, id ∈ s.retired) ∧ Renews s c := by
  have hsorts : ∀ e ∈ c.entries, Sorts s.declared s.retired [] e.payload := fun e he => .inr (.inr (hc e he))
  obtain ⟨hsub, hfresh⟩ := retire_sorted (s.world.index + 1) hsorts s.world.state
  exact ⟨fun id hid => (hsub id hid).resolve_right (fun h => by cases h.2), hfresh⟩

theorem replicas_untouched (hc : Allows (fun p => Part.replicasDesired ∉ writes p) c) (idx : Nat) (t : State) :
    (c.apply idx t).replicasDesired = t.replicasDesired :=
  Command.apply_keeps (Q := fun u => u.replicasDesired = t.replicasDesired)
    (G := fun p => Part.replicasDesired ∉ writes p)
      (fun idx u e he hu => Eq.trans (applyEntry_agree idx u e .replicasDesired he (by decide)) hu) idx c hc t rfl

include hF

theorem sound_untouched (h : Sound P F s) (hc : Allows (fun p => Part.replicasDesired ∉ writes p) c)
    (hdrawn : Drawn F (s.commit c).world.state)
    (hnovel : ∀ id ∈ numberedIDs (s.commit c).world.state, id ∈ s.declared → id ∈ numberedIDs s.world.state) :
    Sound P F (s.commit c) ∧ Renews s c := by
  obtain ⟨hretired, hfresh⟩ := retired_untouched (s := s) hc
  have hrecords : (s.commit c).world.state.replicasDesired = s.world.state.replicasDesired :=
    replicas_untouched hc _ _
  refine ⟨⟨hdrawn, declared_commit h hdrawn, fun id hid => mem_declared_commit.2 (.inr hid), fun id hid => ?_,
    fun id hid => ?_, fun t ht => ?_⟩, hfresh⟩
  · obtain ⟨hdecl, hnot⟩ := h.retired id (hretired id hid)
    exact ⟨mem_declared_commit.2 (.inl hdecl), fun hnum => hnot (hnovel id hnum hdecl)⟩
  · rw [hrecords] at hid
    exact (h.stored id hid).imp_left (fun hdecl => mem_declared_commit.2 (.inl hdecl))
  · refine (h.running t ht).imp_right (fun hopen => ?_)
    refine ⟨hopen.closing, hopen.drawn, fun v hv => (hopen.records v hv).trans hrecords.symm, fun v hv id hid => ?_,
      fun v hv id hdecl hstored hnot hnum => ?_⟩
    · obtain ⟨hdecl, hnot⟩ := hopen.wanted v hv id hid
      exact ⟨mem_declared_commit.2 (.inl hdecl), fun hret => hnot (hretired id hret)⟩
    · rw [hrecords] at hstored
      rcases mem_declared_commit.1 hdecl with hdecl | hnew
      · exact hopen.dropped v hv id hdecl hstored hnot (hnovel id hnum hdecl)
      · rcases h.stored id hstored with hdecl | hhost
        · exact hopen.dropped v hv id hdecl hstored hnot (hnovel id hnum hdecl)
        · exact not_isHost hF (isIndex_of_numbered hdrawn hnew) hhost

omit hF in
theorem drawn_operator {idx : Nat} {t : State} (ht : Drawn F t) (hm : Meets F s (.operator e)) :
    Drawn F (applyEntry idx t e) := by
  have hup : upserted e = none := by
    unfold upserted
    split
    · rename_i hp
      simp [Meets, hp] at hm
    · rfl
  refine ⟨?_, ?_, ?_, ?_⟩
  · rintro dep svc ⟨hdep, hsvc⟩
    rcases deployment_of_entry idx t e hdep with ⟨d₀, hd₀, hservices⟩ | ⟨da, hp, hname, hservices⟩
    · have hname : d₀.name = dep.name := get_key hd₀
      exact hname ▸ ht.services d₀ svc ⟨hname ▸ hd₀, hservices ▸ hsvc⟩
    · simp only [Meets, hp] at hm
      rw [hname]
      exact hm.2.1 svc (hservices ▸ hsvc)
  · intro dep hdep
    rcases deployment_of_entry idx t e (mem_list.1 hdep) with ⟨d₀, hd₀, hservices⟩ | ⟨da, hp, -, hservices⟩
    · rw [hservices]
      exact ht.names d₀ (mem_list_of_get hd₀)
    · simp only [Meets, hp] at hm
      rw [hservices]
      exact hm.1
  · intro n hn
    rcases host_of_entry idx t e hn with ⟨n₀, hn₀, hname⟩ | ⟨nj, hp, hname⟩ | ⟨ci, hp, hname⟩
    · exact hname ▸ ht.hosts n₀ hn₀
    · simp only [Meets, hp] at hm
      exact hname ▸ hm
    · simp only [Meets, hp] at hm
      exact hname ▸ hm
  · intro r hr
    exact seated_of_get ht (record_of_entry idx t e hup (mem_list.1 hr))

theorem sound_delete (h : Sound P F s) {name : String} (hp : e.payload = .deploymentDelete name)
    (hidle : s.thread = none) (hdrawn : Drawn F (s.commit (.single e)).world.state) :
    Sound P F (s.commit (.single e)) ∧ Renews s (.single e) := by
  have hentries : (Command.single e).entries = [e] := entries_single e
  have hup : upserted e = none := by rw [upserted, hp]
  have hnumbered : ∀ id ∈ numberedIDs (s.commit (.single e)).world.state, id ∈ numberedIDs s.world.state := by
    intro id hid
    rcases numbered_of_entry _ _ e hid with hold | ⟨da, svc, hp', -⟩
    · exact hold
    · rw [hp] at hp'
      cases hp'
  -- a declared id that loses its record here belongs to the deleted deployment, which declares nothing any more
  have hgone : ∀ id ∈ s.declared, ∀ r, s.world.state.replicasDesired.get id = some r →
      (applyEntry (s.world.index + 1) s.world.state e).replicasDesired.get id = none →
        id ∉ numberedIDs (s.commit (.single e)).world.state := by
    intro id hid r hget hnone hnum
    rw [get_deleteEntry _ _ e hp, hget, Option.filter_some] at hnone
    have hname : r.deployment = name := by
      by_contra hne
      simp [hne] at hnone
    obtain ⟨dep, svc, ⟨hdep, hsvc⟩, hof⟩ := mem_numberedIDs.1 hnum
    obtain ⟨i, hhas, hidi⟩ := seat_of_numbered (hdrawn.services dep svc ⟨hdep, hsvc⟩) hof
    obtain ⟨place, hplace, hrid, -⟩ := seated_of_get h.drawn hget
    have hseat := hF _ ⟨dep.name, svc.name, .index i⟩ hplace hhas (hrid.symm.trans ((get_key hget).trans hidi))
    have hdepname : name = dep.name := hname.symm.trans (congrArg Seat.deployment hseat)
    have hremoved : (applyEntry (s.world.index + 1) s.world.state e).deployments.get dep.name = some dep := hdep
    rw [applyEntry_deployments, hp, ← hdepname] at hremoved
    simp only [mutate, deleteDeployment, get_remove, if_true] at hremoved
    cases hremoved
  refine ⟨⟨hdrawn, declared_commit h hdrawn, fun id hid => mem_declared_commit.2 (.inr hid), fun id hid => ?_,
    fun id hid => ?_, fun t ht => ?_⟩, ?_⟩
  · have hid' : id ∈ (retire s.declared (s.world.index + 1) (s.world.state, s.retired) e).2 := by
      simp only [commit, hentries, run_cons, run_nil] at hid
      exact hid
    rcases mem_retire hid' with hold | ⟨hdecl, ⟨r, hr⟩, hnone⟩
    · obtain ⟨hdecl, hnot⟩ := h.retired id hold
      exact ⟨mem_declared_commit.2 (.inl hdecl), fun hnum => hnot (hnumbered id hnum)⟩
    · exact ⟨mem_declared_commit.2 (.inl hdecl), hgone id hdecl r hr hnone⟩
  · obtain ⟨r, hr⟩ := Option.isSome_iff_exists.1 hid
    have hold := record_of_entry _ _ e hup hr
    exact (h.stored id (by rw [hold]; rfl)).imp_left (fun hdecl => mem_declared_commit.2 (.inl hdecl))
  · have : s.thread = some t := ht
    rw [hidle] at this
    cases this
  · rw [Renews, hentries]
    refine ⟨fun r hr => ?_, trivial⟩
    rw [hup] at hr
    cases hr

theorem sound_operator (h : Sound P F s) (hm : Meets F s (.operator e)) :
    Sound P F (s.commit (.single e)) ∧ Renews s (.single e) := by
  have hdrawn : Drawn F (s.commit (.single e)).world.state := drawn_operator h.drawn hm
  by_cases hw : Part.replicasDesired ∉ writes e.payload
  · refine sound_untouched hF h (allows_single hw) hdrawn (fun id hid hdecl => ?_)
    rcases numbered_of_entry _ _ e hid with hold | ⟨da, svc, hp, hsvc, hid⟩
    · exact hold
    · simp only [Meets, hp] at hm
      exact hm.2.2 svc hsvc id hid hdecl
  · cases hp : e.payload with
    | replicaDesiredUpsert r => simp [Meets, hp] at hm
    | replicaDesiredRemove id => simp [Meets, hp] at hm
    | deploymentDelete name =>
      have hidle : s.thread = none := by simpa [Meets, hp] using hm
      exact sound_delete hF h hp hidle hdrawn
    | _ => simp [hp, writes] at hw

end Shift

end Jaco.Scheduler
