import Jaco.PassOutcomes

namespace Jaco.Scheduler

open Placement Rollout List Store

def Declares (s : State) (dep : Deployment) (svc : ServiceSpec) : Prop :=
  s.deployments.get dep.name = some dep ∧ svc ∈ dep.services

def wanted (s : State) (dep : Deployment) (svc : ServiceSpec) : List String := wantedIDs dep svc (hostsIn s svc)

structure Schedulable (P : Parsers) (s : State) : Prop where
  named : WellNamed s
  hosts : ∀ n ∈ s.nodes.list, n.hostname ≠ ""
  unblocked : ∀ dep ∈ s.deployments.list, Unblocked P s dep
  distinct : ∀ dep svc, Declares s dep svc → (wanted s dep svc).Nodup
  apart : ∀ dep svc dep' svc', Declares s dep svc → Declares s dep' svc' →
    ∀ id ∈ wanted s dep svc, id ∈ wanted s dep' svc' → dep = dep' ∧ svc = svc'
  owned : ∀ dep svc, Declares s dep svc → ∀ id ∈ wanted s dep svc, ∀ r ∈ s.replicasDesired.get id,
    r.deployment = dep.name ∧ r.service = svc.name

theorem mem_deployments {s : State} {dep : Deployment} {svc : ServiceSpec} (h : Declares s dep svc) :
    dep ∈ s.deployments.list := mem_list_of_get h.1

section Names

variable {s : State} (hs : WellNamed s) {dep dep' : Deployment} {svc svc' : ServiceSpec}

include hs

theorem svc_of_name (h : Declares s dep svc) (hsvc' : svc' ∈ dep.services) (hname : svc.name = svc'.name) :
    svc = svc' :=
  inj_on_of_nodup_map (hs dep (mem_deployments h)).1 h.2 hsvc' hname

omit hs in
theorem declares_unique (hnames : ∀ dep ∈ s.deployments.list, (dep.services.map (·.name)).Nodup)
    (h : Declares s dep svc)
    (h' : Declares s dep' svc') (hdep : dep.name = dep'.name) (hsvc : svc.name = svc'.name) :
    dep = dep' ∧ svc = svc' := by
  have heq : dep = dep' := Option.some.inj (h.1.symm.trans (hdep ▸ h'.1))
  subst heq
  exact ⟨rfl, inj_on_of_nodup_map (hnames dep (mem_deployments h)) h.2 h'.2 hsvc⟩

theorem declares_of_key (h : Declares s dep svc) (h' : Declares s dep' svc')
    (hkey : rolloutPlanKey dep.name svc.name = rolloutPlanKey dep'.name svc'.name) : dep = dep' ∧ svc = svc' := by
  obtain ⟨hdep, hsvc⟩ := rolloutPlanKey_inj ((hs dep (mem_deployments h)).2 svc h.2).1
    ((hs dep' (mem_deployments h')).2 svc' h'.2).1 hkey
  exact declares_unique (fun d hd => (hs d hd).1) h h' hdep hsvc

end Names

section Replicas

variable (P : Parsers)

def Fitting (s : State) (dep : Deployment) (svc : ServiceSpec) (r : ReplicaDesired) : Prop :=
  ∃ project specHash, P.loadCompose dep.composeYaml = .ok project ∧
    P.specHash dep.composeYaml svc.name = .ok specHash ∧
    Fits dep svc (hostsIn s svc) (lookupImage project svc.name) specHash r

def Surplus (s : State) (r : ReplicaDesired) : Prop :=
  ∃ dep, s.deployments.get r.deployment = some dep ∧
    ∀ svc ∈ dep.services, svc.name = r.service → r.id ∉ wanted s dep svc

def unsettled (s : State) : Set String :=
  {id | (∃ dep svc, Declares s dep svc ∧ id ∈ wanted s dep svc ∧
      ∀ r ∈ s.replicasDesired.get id, ¬ Fitting P s dep svc r) ∨
    ∃ r ∈ s.replicasDesired.get id, Surplus s r}

inductive Repairs (s : State) (id : String) : Command → Prop
  | upsert (now : Timestamp) (dep : Deployment) (svc : ServiceSpec) (r : ReplicaDesired) (hdep : Declares s dep svc)
      (howner : r.deployment = dep.name ∧ r.service = svc.name) (hwanted : id ∈ wanted s dep svc) (hid : r.id = id)
      (hfits : Fitting P s dep svc r) : Repairs s id (upsertCommand now r)
  | remove (now : Timestamp) (hfree : ∀ dep svc, Declares s dep svc → id ∉ wanted s dep svc) :
      Repairs s id (removeCommand now id)

variable {P} {s : State}

theorem finite_unsettled : (unsettled P s).Finite := by
  refine (finite_toSet (s.deployments.list.flatMap (fun dep => dep.services.flatMap (wanted s dep)) ++
    s.replicasDesired.list.map (·.id))).subset ?_
  rintro id (⟨dep, svc, hdep, hid, -⟩ | ⟨r, hget, -⟩)
  · exact mem_append_left _ (mem_flatMap.2 ⟨dep, mem_deployments hdep, mem_flatMap.2 ⟨svc, hdep.2, hid⟩⟩)
  · exact mem_append_right _ (mem_map.2 ⟨r, mem_list_of_get hget, get_key hget⟩)

variable (hs : Schedulable P s)

include hs

theorem surplus_of_record {dep : Deployment} {r : ReplicaDesired}
    (hdep : s.deployments.get dep.name = some dep) (hget : s.replicasDesired.get r.id = some r)
    (howner : r.deployment = dep.name) (hnot : ∀ svc ∈ dep.services, svc.name = r.service → r.id ∉ wanted s dep svc) :
    (∀ dep svc, Declares s dep svc → r.id ∉ wanted s dep svc) ∧ r.id ∈ unsettled P s := by
  refine ⟨fun dep' svc' hdep' hid => ?_, .inr ⟨r, hget, dep, howner ▸ hdep, hnot⟩⟩
  obtain ⟨hd, hsvc⟩ := hs.owned dep' svc' hdep' r.id hid r hget
  have heq : dep = dep' := Option.some.inj (hdep.symm.trans (howner.symm.trans hd ▸ hdep'.1))
  subst heq
  exact hnot svc' hdep'.2 hsvc.symm hid

theorem not_mem_eligible (svc : ServiceSpec) : "" ∉ hostsIn s svc := by
  intro h
  obtain ⟨n, hn, hname⟩ := hostname_of_eligible h
  exact hs.hosts n hn hname

theorem upserts_mend {p : Pass} {desired : List DesiredReplica} (hsees : Sees P s p desired)
    (hdep : Declares s p.dep p.svc) {r : ReplicaDesired} (hr : r ∈ p.upserts false desired) :
    Repairs P s r.id (upsertCommand p.now r) ∧ r.id ∈ unsettled P s := by
  obtain ⟨d, hd, rfl, -, hoff⟩ := mem_upserts p false desired r hr
  obtain ⟨project, hload, himage⟩ := hsees.image
  obtain ⟨counts, hplaced⟩ := hsees.placed
  have hwanted : d.id ∈ wanted s p.dep p.svc := by
    rw [wanted, ← hsees.eligible, ← hsees.ids]
    exact mem_map_of_mem hd
  have hfits : Fits p.dep p.svc p.eligible p.image p.specHash (p.replica d) := by
    refine fits_replica ?_ ?_ hplaced hsees.ids hd
    · rw [hsees.eligible]
      exact hs.distinct p.dep p.svc hdep
    · rw [hsees.eligible]
      exact not_mem_eligible hs p.svc
  rw [himage, hsees.eligible] at hfits
  refine ⟨.upsert p.now p.dep p.svc (p.replica d) hdep ⟨rfl, rfl⟩ hwanted rfl
    ⟨project, p.specHash, hload, hsees.specHash, hfits⟩, .inl ⟨p.dep, p.svc, hdep, hwanted, ?_⟩⟩
  rintro cur hget ⟨project', specHash', hload', hhash', hcur⟩
  obtain ⟨hcd, hcs⟩ := hs.owned p.dep p.svc hdep d.id hwanted cur hget
  have hfind : p.find d = some cur :=
    find_of_current (w := { state := s, index := 0, now := 0 }) hsees.current hget hcd hcs
  rw [hload] at hload'
  rw [hsees.specHash] at hhash'
  cases hload'
  cases hhash'
  rw [← himage, ← hsees.eligible] at hcur
  exact not_off_of_fits hplaced hd hfind hcur hoff

theorem removes_mend {p : Pass} {desired : List DesiredReplica} (hsees : Sees P s p desired)
    (hdep : Declares s p.dep p.svc) {id : String} (hid : id ∈ p.removes desired) :
    Repairs P s id (removeCommand p.now id) ∧ id ∈ unsettled P s := by
  obtain ⟨hcur, hnot⟩ := mem_filter.1 hid
  obtain ⟨r, hr, rfl⟩ := mem_map.1 hcur
  obtain ⟨hget, hcd, hcs⟩ := (hsees.current r).1 hr
  have hnot' : r.id ∉ wanted s p.dep p.svc := by
    rw [wanted, ← hsees.eligible, ← hsees.ids]
    simpa using hnot
  obtain ⟨hfree, hopen⟩ := surplus_of_record hs hdep.1 hget hcd (fun svc hsvc hname => by
    rw [← svc_of_name hs.named hdep hsvc (hcs.symm.trans hname.symm)]
    exact hnot')
  exact ⟨.remove p.now hfree, hopen⟩

def Item.In (s : State) : Item → Prop
  | .stale dep => s.deployments.get dep.name = some dep
  | .serve dep svc => Declares s dep svc

theorem does_mends {C : Timestamp → Prop} {item : Item} (hitem : item.In s) {s' : State}
    {batch cs : List Command} (h : Does P C s item s' batch cs) :
    ∀ c ∈ batch, ∃ id, Repairs P s id c ∧ id ∈ unsettled P s := by
  intro c hc
  cases h with
  | stale dep now stale hstale =>
    obtain ⟨r, hr, rfl⟩ := mem_map.1 hc
    obtain ⟨hget, hd, hsvc⟩ := (hstale r).1 hr
    obtain ⟨hfree, hopen⟩ := surplus_of_record hs hitem hget hd
      (fun svc hmem hname => absurd (mem_map.2 ⟨svc, hmem, hname⟩) hsvc)
    exact ⟨r.id, .remove now hfree, hopen⟩
  | serve p desired _ _ hsees hsteps =>
    rcases mem_append.1 hc with hc | hc
    · obtain ⟨r, hr, rfl⟩ := mem_map.1 hc
      exact ⟨r.id, upserts_mend hs hsees hitem hr⟩
    · obtain ⟨id, hid, rfl⟩ := mem_map.1 hc
      exact ⟨id, removes_mend hs hsees hitem hid⟩

end Replicas

section Alike

variable {P : Parsers}

def Alike (s s' : State) : Prop := s'.deployments = s.deployments ∧ s'.nodes = s.nodes

variable {s s' : State} (h : Alike s s')

include h

variable (dep : Deployment) (svc : ServiceSpec)

theorem declares_alike : Declares s' dep svc ↔ Declares s dep svc := by
  rw [Declares, Declares, h.1]

theorem hostsIn_alike (svc : ServiceSpec) : hostsIn s' svc = hostsIn s svc := by
  rw [hostsIn, hostsIn, h.2]

theorem wanted_alike : wanted s' dep svc = wanted s dep svc := by
  rw [wanted, wanted, hostsIn_alike h]

theorem fitting_alike (r : ReplicaDesired) : Fitting P s' dep svc r ↔ Fitting P s dep svc r := by
  rw [Fitting, Fitting, hostsIn_alike h]

theorem surplus_alike (r : ReplicaDesired) : Surplus s' r ↔ Surplus s r := by
  simp only [Surplus, h.1, wanted_alike h]

theorem unsettled_alike {id : String} (hget : s'.replicasDesired.get id = s.replicasDesired.get id) :
    id ∈ unsettled P s' ↔ id ∈ unsettled P s := by
  simp only [unsettled, Set.mem_ofPred_eq, declares_alike h, wanted_alike h, fitting_alike h, surplus_alike h, hget]

theorem repairs_alike {id : String} {c : Command} (hc : Repairs P s id c) : Repairs P s' id c := by
  cases hc with
  | upsert now dep svc r hdep howner hwanted hid hfits =>
    exact .upsert now dep svc r ((declares_alike h dep svc).2 hdep) howner (wanted_alike h dep svc ▸ hwanted) hid
      ((fitting_alike h dep svc r).2 hfits)
  | remove now hfree =>
    refine .remove now (fun dep svc hdep => ?_)
    rw [wanted_alike h]
    exact hfree dep svc ((declares_alike h dep svc).1 hdep)

theorem schedulable_alike (hs : Schedulable P s)
    (howned : ∀ dep svc, Declares s dep svc → ∀ id ∈ wanted s dep svc, ∀ r ∈ s'.replicasDesired.get id,
      r.deployment = dep.name ∧ r.service = svc.name) : Schedulable P s' := by
  constructor
  · rw [WellNamed, h.1]
    exact hs.named
  · rw [h.2]
    exact hs.hosts
  · rw [h.1]
    intro dep hdep
    obtain ⟨project, hload, hsvcs⟩ := hs.unblocked dep hdep
    refine ⟨project, hload, fun svc hsvc => ?_⟩
    rw [hostsIn_alike h]
    exact hsvcs svc hsvc
  all_goals simp only [declares_alike h, wanted_alike h]
  · exact hs.distinct
  · exact hs.apart
  · exact howned

end Alike

section Batch

variable {P : Parsers} {s : State}

def putReplica (s : State) (r : ReplicaDesired) (idx : Nat) : State :=
  { s with replicasDesired := s.replicasDesired.apply { r with raftIndex := idx } }

theorem get_putReplica (s : State) (r : ReplicaDesired) (idx : Nat) (id : String) :
    (putReplica s r idx).replicasDesired.get id =
      if r.id = id then some { r with raftIndex := idx } else s.replicasDesired.get id :=
  get_apply s.replicasDesired { r with raftIndex := idx } id

theorem fitting_raftIndex {dep : Deployment} {svc : ServiceSpec} {r : ReplicaDesired} (h : Fitting P s dep svc r)
    (idx : Nat) : Fitting P s dep svc { r with raftIndex := idx } := by
  obtain ⟨project, specHash, hload, hhash, hfits⟩ := h
  exact ⟨project, specHash, hload, hhash, hfits.image, hfits.specHash, hfits.host⟩

variable (hs : Schedulable P s)

include hs

theorem repairs_upsert {dep : Deployment} {svc : ServiceSpec} {r : ReplicaDesired}
    (hdep : Declares s dep svc) (howner : r.deployment = dep.name ∧ r.service = svc.name)
    (hwanted : r.id ∈ wanted s dep svc) (hfits : Fitting P s dep svc r) (idx : Nat) :
    Schedulable P (putReplica s r idx) ∧ unsettled P (putReplica s r idx) ⊆ unsettled P s \ {r.id} := by
  have halike : Alike s (putReplica s r idx) := ⟨rfl, rfl⟩
  have hself : ∀ r' ∈ (putReplica s r idx).replicasDesired.get r.id, r' = { r with raftIndex := idx } := by
    intro r' hr'
    rw [get_putReplica, if_pos rfl] at hr'
    exact (Option.some.inj hr').symm
  constructor
  · refine schedulable_alike halike hs (fun dep' svc' hdep' id hid r' hr' => ?_)
    by_cases hne : r.id = id
    · subst hne
      cases hself r' hr'
      obtain ⟨rfl, rfl⟩ := hs.apart dep' svc' dep svc hdep' hdep r.id hid hwanted
      exact howner
    · rw [get_putReplica, if_neg hne] at hr'
      exact hs.owned dep' svc' hdep' id hid r' hr'
  · intro id hid
    have hne : r.id ≠ id := by
      rintro rfl
      rcases hid with ⟨dep', svc', hdep', hid', hnot⟩ | ⟨r', hr', dep', hd', hnot⟩
      · obtain ⟨rfl, rfl⟩ := hs.apart dep' svc' dep svc hdep' hdep r.id hid' hwanted
        refine hnot { r with raftIndex := idx } ?_ ((fitting_alike halike _ _ _).2 (fitting_raftIndex hfits idx))
        rw [get_putReplica, if_pos rfl]
        rfl
      · cases hself r' hr'
        have heq : dep = dep' := Option.some.inj (hdep.1.symm.trans (howner.1 ▸ hd'))
        subst heq
        exact hnot svc hdep.2 howner.2.symm hwanted
    have hget := (get_putReplica s r idx id).trans (if_neg hne)
    exact ⟨(unsettled_alike halike hget).1 hid, Ne.symm hne⟩

theorem repairs_remove {id : String} (hfree : ∀ dep svc, Declares s dep svc → id ∉ wanted s dep svc) :
    Schedulable P (s.removeReplicaDesired id) ∧ unsettled P (s.removeReplicaDesired id) ⊆ unsettled P s \ {id} := by
  have halike : Alike s (s.removeReplicaDesired id) := ⟨rfl, rfl⟩
  have hget : ∀ id', (s.removeReplicaDesired id).replicasDesired.get id' =
      if id = id' then none else s.replicasDesired.get id' := fun id' => get_remove _ id id'
  constructor
  · refine schedulable_alike halike hs (fun dep svc hdep id' hid' r hr => ?_)
    rw [hget] at hr
    split at hr
    · cases hr
    · exact hs.owned dep svc hdep id' hid' r hr
  · intro id' hid'
    have hne : id ≠ id' := by
      rintro rfl
      rcases hid' with ⟨dep, svc, hdep, hid, -⟩ | ⟨r, hr, -⟩
      · exact hfree dep svc hdep hid
      · rw [hget, if_pos rfl] at hr
        cases hr
    exact ⟨(unsettled_alike halike ((hget id').trans (if_neg hne))).1 hid', Ne.symm hne⟩

theorem repairs_apply {id : String} {c : Command} (h : Repairs P s id c) (idx : Nat) :
    (Schedulable P (c.apply idx s) ∧ unsettled P (c.apply idx s) ⊆ unsettled P s \ {id}) ∧
      Alike s (c.apply idx s) ∧ (c.apply idx s).rolloutPlans = s.rolloutPlans ∧
      ∀ obs ∈ (c.apply idx s).replicasObserved.list, obs ∈ s.replicasObserved.list := by
  cases h with
  | upsert now dep svc r hdep howner hwanted hid hfits =>
    subst hid
    exact ⟨repairs_upsert hs hdep howner hwanted hfits idx, ⟨rfl, rfl⟩, rfl, fun obs hobs => hobs⟩
  | remove now hfree =>
    refine ⟨repairs_remove hs hfree, ⟨rfl, rfl⟩, rfl, fun obs hobs => ?_⟩
    have hget : (s.replicasObserved.remove id).get obs.id = some obs := mem_list.1 hobs
    rw [get_remove] at hget
    split at hget
    · cases hget
    · exact mem_list.2 hget

theorem repairs_batch (idx : Nat) (batch : List Command)
    (h : ∀ c ∈ batch, ∃ id, Repairs P s id c) :
    (Schedulable P (applyChildren idx s batch) ∧ unsettled P (applyChildren idx s batch) ⊆ unsettled P s) ∧
      (∀ c ∈ batch, ∀ id, Repairs P s id c → id ∉ unsettled P (applyChildren idx s batch)) ∧
      Alike s (applyChildren idx s batch) ∧ (applyChildren idx s batch).rolloutPlans = s.rolloutPlans ∧
      ∀ obs ∈ (applyChildren idx s batch).replicasObserved.list, obs ∈ s.replicasObserved.list := by
  induction batch generalizing s with
  | nil => exact ⟨⟨hs, fun _ h => h⟩, nofun, ⟨rfl, rfl⟩, rfl, fun _ h => h⟩
  | cons c batch ih =>
    obtain ⟨id₀, hid₀⟩ := h c mem_cons_self
    obtain ⟨⟨hs₁, hsub⟩, halike, hplans, hobs⟩ := repairs_apply hs hid₀ idx
    obtain ⟨⟨hs₂, hsub'⟩, hmended, halike', hplans', hobs'⟩ := ih hs₁ (fun c' hc' => by
      obtain ⟨id, hid⟩ := h c' (mem_cons_of_mem c hc')
      exact ⟨id, repairs_alike halike hid⟩)
    rw [applyChildren]
    refine ⟨⟨hs₂, fun id hid => (hsub (hsub' hid)).1⟩, fun c' hc' id hid => ?_,
      ⟨halike'.1.trans halike.1, halike'.2.trans halike.2⟩, hplans'.trans hplans, fun obs h => hobs obs (hobs' obs h)⟩
    rcases mem_cons.1 hc' with rfl | hc'
    · exact fun hopen => ((repairs_apply hs hid idx).1.2 (hsub' hopen)).2 rfl
    · exact hmended c' hc' id (repairs_alike halike hid)

end Batch

end Jaco.Scheduler
