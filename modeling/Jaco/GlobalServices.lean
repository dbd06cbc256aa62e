import Jaco.DeployApply
import Jaco.SeparateServices

namespace Jaco.Scheduler

open Interleaving Placement Rollout ReplicaIds List

inductive Tidies (F : Fleet) (s : State) : Command → Prop
  | pending (name reason : String) (now : Timestamp) : Tidies F s (markDeploymentPending name reason now)
  | put (now : Timestamp) (r : ReplicaDesired) (hr : Seated F r)
      (h : ∃ dep svc, Declares s dep svc ∧ r.deployment = dep.name ∧ r.service = svc.name ∧ r.id ∈ wanted s dep svc) :
      Tidies F s (upsertCommand now r)
  | drop (now : Timestamp) (r : ReplicaDesired) (hr : Seated F r)
      (h : ∀ dep svc, Declares s dep svc → r.deployment = dep.name → r.service = svc.name → r.id ∉ wanted s dep svc) :
      Tidies F s (removeCommand now r.id)

section Batch

variable {F : Fleet} (hF : F.Distinct) {s : State} {dep : Deployment} {svc : ServiceSpec}

def HeldBy (dep : Deployment) (svc : ServiceSpec) (id : String) (t : State) : Prop :=
  ∃ r, t.replicasDesired.get id = some r ∧ r.deployment = dep.name ∧ r.service = svc.name

variable {c : Command} {t : State}

theorem drawn_tidies (hc : Tidies F s c) (idx : Nat) (ht : Drawn F t) : Drawn F (c.apply idx t) := by
  cases hc with
  | pending name reason now =>
    exact drawn_entry idx t ⟨"scheduler", some now, .deploymentStatusUpdate _⟩ (orderly_status _) ht
  | put now r hr h => exact drawn_entry idx t ⟨"scheduler", some now, _⟩ (.upsert r hr) ht
  | drop now r hr h => exact drawn_entry idx t ⟨"scheduler", some now, _⟩ (.remove r.id) ht

include hF

theorem held_tidies (hdep : Declares s dep svc) {id : String} (hid : id ∈ wanted s dep svc)
    (hc : Tidies F s c) (idx : Nat) (ht : Drawn F t) (h : HeldBy dep svc id t) :
    HeldBy dep svc id (c.apply idx t) := by
  obtain ⟨r₀, hget, hd, hs⟩ := h
  have howner : ∀ r, Seated F r → r.id = id → r.deployment = dep.name ∧ r.service = svc.name := by
    intro r hr hrid
    have hsame := (owner_of_id hF hr (seated_of_get ht hget) (hrid.trans (Store.get_key hget).symm)).1
    rw [hd, hs] at hsame
    exact Prod.ext_iff.1 hsame
  cases hc with
  | pending name reason now => exact ⟨r₀, by rw [replicas_markDeploymentPending]; exact hget, hd, hs⟩
  | put now r hr h =>
    by_cases hrid : r.id = id
    · refine ⟨{ r with raftIndex := idx }, ?_, howner r hr hrid⟩
      rw [get_upsertCommand, if_pos hrid]
    · exact ⟨r₀, by rw [get_upsertCommand, if_neg hrid]; exact hget, hd, hs⟩
  | drop now r hr h =>
    by_cases hrid : r.id = id
    · obtain ⟨hrd, hrs⟩ := howner r hr hrid
      exact absurd (hrid ▸ hid) (h dep svc hdep hrd hrs)
    · exact ⟨r₀, by rw [get_removeCommand, if_neg hrid]; exact hget, hd, hs⟩

omit hF in
theorem unheld_tidies (hnames : ∀ dep ∈ s.deployments.list, (dep.services.map (·.name)).Nodup)
    (hdep : Declares s dep svc) {id : String} (hid : id ∉ wanted s dep svc) (hc : Tidies F s c)
    (idx : Nat) (h : ¬ HeldBy dep svc id t) : ¬ HeldBy dep svc id (c.apply idx t) := by
  rintro ⟨r₀, hget, hd, hs⟩
  cases hc with
  | pending name reason now =>
    rw [replicas_markDeploymentPending] at hget
    exact h ⟨r₀, hget, hd, hs⟩
  | put now r hr hput =>
    rw [get_upsertCommand] at hget
    split at hget
    · rename_i hrid
      cases hget
      obtain ⟨dep', svc', hdep', hrd, hrs, hwanted⟩ := hput
      obtain ⟨rfl, rfl⟩ := declares_unique hnames hdep hdep' (hd.symm.trans hrd) (hs.symm.trans hrs)
      exact hid (hrid ▸ hwanted)
    · exact h ⟨r₀, hget, hd, hs⟩
  | drop now r hr hdrop =>
    rw [get_removeCommand] at hget
    split at hget
    · cases hget
    · exact h ⟨r₀, hget, hd, hs⟩

end Batch

theorem holds_after_batch {I φ : State → Prop} (idx : Nat) (cs : List Command)
    (hI : ∀ c ∈ cs, ∀ t, I t → I (c.apply idx t)) (hφ : ∀ c ∈ cs, ∀ t, I t → φ t → φ (c.apply idx t)) {t : State}
    (ht : I t) (h : φ t ∨ ∃ c ∈ cs, ∀ t, I t → φ (c.apply idx t)) :
    I (applyChildren idx t cs) ∧ φ (applyChildren idx t cs) := by
  induction cs generalizing t with
  | nil =>
    rcases h with h | ⟨c, hc, -⟩
    · exact ⟨ht, h⟩
    · cases hc
  | cons c cs ih =>
    have hI' := hI c mem_cons_self t ht
    rw [applyChildren]
    refine ih (fun c' hc' => hI c' (mem_cons_of_mem c hc')) (fun c' hc' => hφ c' (mem_cons_of_mem c hc')) hI' ?_
    rcases h with h | ⟨c', hc', hmake⟩
    · exact .inl (hφ c mem_cons_self t ht h)
    · rcases mem_cons.1 hc' with rfl | hc'
      · exact .inl (hmake t ht)
      · exact .inr ⟨c', hc', hmake⟩

section Served

variable {P : Parsers} {F : Fleet} (hF : F.Distinct) {s : State} {deps : List Deployment}

def FromStart (F : Fleet) (s : State) (w : World) : Prop := Drawn F w.state ∧ Framed s w.state

variable {dep : Deployment} {svc : ServiceSpec} {round : Round} {t : State}

theorem declares_of_start (h : Listed (FromStart F s) deps) (hdep : dep ∈ deps) (hsvc : svc ∈ dep.services) :
    ∃ d₀, Declares s d₀ svc ∧ d₀.name = dep.name ∧ d₀.composeYaml = dep.composeYaml ∧ d₀.services = dep.services := by
  obtain ⟨w, hw, hget⟩ := h
  obtain ⟨d₀, hd₀, hyaml, hservices⟩ := hw.2.deployments dep.name dep (hget dep hdep)
  have hname : d₀.name = dep.name := Store.get_key hd₀
  exact ⟨d₀, ⟨hname ▸ hd₀, hservices ▸ hsvc⟩, hname, hyaml.symm, hservices.symm⟩

theorem wantedIDs_of_name {dep' : Deployment} (h : dep.name = dep'.name) (svc : ServiceSpec) (eligible : List String) :
    wantedIDs dep svc eligible = wantedIDs dep' svc eligible := by
  unfold wantedIDs
  rw [h]

theorem hostsIn_start {eligible : List String}
    (h : ∃ w, FromStart F s w ∧ eligible = hostsIn w.state svc) : eligible = hostsIn s svc := by
  obtain ⟨w, hw, rfl⟩ := h
  rw [hostsIn, hostsIn, hw.2.nodes]

structure Served (s : State) (dep : Deployment) (p : Pass) (desired : List DesiredReplica) : Prop where
  declared : Declares s dep p.svc
  name : dep.name = p.dep.name
  current : ∀ r, r ∈ p.current ↔
    s.replicasDesired.get r.id = some r ∧ r.deployment = dep.name ∧ r.service = p.svc.name
  ids : desired.map (·.id) = wanted s dep p.svc

theorem served_of_places (hlisted : Listed (FromStart F s) deps) {p : Pass} {desired : List DesiredReplica}
    (hp : Places (FromStart F s) deps p desired) : ∃ dep, Served s dep p desired := by
  obtain ⟨counts, hdesired⟩ := hp.desired
  obtain ⟨d₀, hd₀, hname, -, -⟩ := declares_of_start hlisted hp.dep hp.svc
  obtain ⟨w, hw, hcur⟩ := hp.current
  refine ⟨d₀, hd₀, hname, fun r => ?_, ?_⟩
  · rw [hcur, hw.2.replicas, hname]
  · rw [ids_of_desired hdesired, hostsIn_start hp.eligible, wanted, wantedIDs_of_name hname]

include hF

theorem tidies_batch (hs : Drawn F s) (hlisted : Listed (FromStart F s) deps) (h : Told P (FromStart F s) deps round) :
    ∀ c ∈ round.batch, Tidies F s c := by
  have hR : ∀ w, FromStart F s w → Drawn F w.state := fun w hw => hw.1
  intro c hc
  cases child_of_told h hc with
  | pending name reason now => exact .pending name reason now
  | stale dep r now hdep hr howner hsvc =>
    obtain ⟨w, hw, hget⟩ := hr
    obtain ⟨w', hw', hget'⟩ := hlisted
    obtain ⟨d₀, hd₀, -, hservices⟩ := hw'.2.deployments dep.name dep (hget' dep hdep)
    refine .drop now r (seated_of_get hw.1 hget) (fun dep' svc' hdeclares hrd hrs => absurd ?_ hsvc)
    have heq : d₀ = dep' := Option.some.inj (hd₀.symm.trans ((howner.symm.trans hrd) ▸ hdeclares.1))
    rw [hservices, heq, hrs]
    exact mem_map_of_mem hdeclares.2
  | put p desired d hp hd =>
    obtain ⟨d₀, hserved⟩ := served_of_places hlisted hp
    refine .put p.now _ (seated_replica hR hlisted hF hp hd) ⟨d₀, p.svc, hserved.declared, hserved.name.symm, rfl, ?_⟩
    rw [← hserved.ids]
    exact mem_map_of_mem hd
  | drop p desired r hp hr hnot =>
    obtain ⟨d₀, hserved⟩ := served_of_places hlisted hp
    obtain ⟨hget, hrd, hrs⟩ := (hserved.current r).1 hr
    refine .drop p.now r (seated_of_get hs hget) (fun dep' svc' hdeclares hrd' hrs' => ?_)
    obtain ⟨rfl, rfl⟩ := declares_unique hs.names hserved.declared hdeclares (hrd.symm.trans hrd') (hrs.symm.trans hrs')
    rwa [← hserved.ids]

theorem held_after (hs : Drawn F s) (hlisted : Listed (FromStart F s) deps)
    (h : Told P (FromStart F s) deps round) {p : Pass}
    {desired : List DesiredReplica} (hserved : Served s dep p desired)
    (hbatch : ∀ c ∈ p.commands desired, c ∈ round.batch) (idx : Nat) (ht : Drawn F t)
    (hreplicas : t.replicasDesired = s.replicasDesired) (id : String) :
    Drawn F (applyChildren idx t round.batch) ∧
      (HeldBy dep p.svc id (applyChildren idx t round.batch) ↔ id ∈ wanted s dep p.svc) := by
  have htidy := tidies_batch hF hs hlisted h
  have hheld : HeldBy dep p.svc id t ↔ HeldBy dep p.svc id s := by rw [HeldBy, hreplicas, HeldBy]
  by_cases hid : id ∈ wanted s dep p.svc
  · have hmade : HeldBy dep p.svc id t ∨ ∃ c ∈ round.batch, ∀ t, Drawn F t → HeldBy dep p.svc id (c.apply idx t) := by
      rw [← hserved.ids] at hid
      obtain ⟨d, hd, rfl⟩ := mem_map.1 hid
      cases hfind : p.find d with
      | some cur =>
        obtain ⟨hget, hcd, hcs⟩ := (hserved.current cur).1 (mem_of_find?_eq_some hfind)
        have hcid : cur.id = d.id := by simpa using List.find?_some hfind
        exact .inl (hheld.2 ⟨cur, hcid ▸ hget, hcd, hcs⟩)
      | none =>
        refine .inr ⟨upsertCommand p.now (p.replica d), hbatch _ ?_, fun t _ => ?_⟩
        · have hnone : ∀ cur, p.find d = some cur → cur.host ≠ p.hostFor d :=
            fun cur hcur => nomatch hfind.symm.trans hcur
          exact mem_append_left _ (mem_map_of_mem (upsert_of_displaced p hnone false hd))
        · refine ⟨{ p.replica d with raftIndex := idx }, ?_, hserved.name.symm, rfl⟩
          rw [get_upsertCommand]
          exact if_pos rfl
    obtain ⟨hdrawn, hafter⟩ := holds_after_batch (I := Drawn F) (φ := HeldBy dep p.svc id) idx round.batch
      (fun c hc t ht => drawn_tidies (htidy c hc) idx ht)
      (fun c hc t ht => held_tidies hF hserved.declared hid (htidy c hc) idx ht) ht hmade
    exact ⟨hdrawn, iff_of_true hafter hid⟩
  · have hgone : ¬ HeldBy dep p.svc id t ∨
        ∃ c ∈ round.batch, ∀ t, Drawn F t → ¬ HeldBy dep p.svc id (c.apply idx t) := by
      by_cases hnow : HeldBy dep p.svc id t
      · obtain ⟨r, hget, hrd, hrs⟩ := hheld.1 hnow
        have hrid : r.id = id := Store.get_key hget
        refine .inr ⟨removeCommand p.now id, hbatch _ ?_, fun t _ => ?_⟩
        · refine mem_append_right _ (mem_map_of_mem (mem_filter.2 ⟨?_, ?_⟩))
          · exact mem_map.2 ⟨r, (hserved.current r).2 ⟨hrid ▸ hget, hrd, hrs⟩, hrid⟩
          · rw [hserved.ids]
            exact decide_eq_true hid
        · rintro ⟨r', hget', -⟩
          rw [get_removeCommand, if_pos rfl] at hget'
          cases hget'
      · exact .inl hnow
    obtain ⟨hdrawn, hafter⟩ := holds_after_batch (I := Drawn F) (φ := fun t => ¬ HeldBy dep p.svc id t) idx round.batch
      (fun c hc t ht => drawn_tidies (htidy c hc) idx ht)
      (fun c hc t _ => unheld_tidies hs.names hserved.declared hid (htidy c hc) idx) ht hgone
    exact ⟨hdrawn, iff_of_false hafter hid⟩

def OnePerHost (t : State) (dep : Deployment) (svc : ServiceSpec) (hosts : List String) : Prop :=
  (∀ h ∈ hosts, ∃! r, t.replicasDesired.get r.id = some r ∧ r.deployment = dep.name ∧ r.service = svc.name ∧
    r.host = h) ∧
    ∀ r, t.replicasDesired.get r.id = some r → r.deployment = dep.name → r.service = svc.name → r.host ∈ hosts

theorem onePerHost_of_held (hs : Drawn F s) (hdep : Declares s dep svc)
    (hglobal : svc.placement = .global) (ht : Drawn F t)
    (h : ∀ id, HeldBy dep svc id t ↔ id ∈ wanted s dep svc) : OnePerHost t dep svc (hostsIn s svc) := by
  have hwanted : wanted s dep svc = (hostsIn s svc).map (replicaIDForHost dep.name svc.name) := by
    rw [wanted, wantedIDs, if_pos hglobal]
  have henrolled := hs.services dep svc hdep
  rw [Enrolled, if_pos hglobal] at henrolled
  have hhost : ∀ r host, t.replicasDesired.get r.id = some r → host ∈ hostsIn s svc →
      r.id = replicaIDForHost dep.name svc.name host → r.host = host := by
    intro r host hget hmem hid
    obtain ⟨n, hn, hname⟩ := hostname_of_eligible hmem
    have hseated := seated_of_get ht hget
    exact (owner_of_id hF hseated hseated rfl).2 dep.name svc.name host
      (Fleet.has_host henrolled (hname ▸ hs.hosts n hn)) hid
  have hheld : ∀ r, t.replicasDesired.get r.id = some r → r.deployment = dep.name → r.service = svc.name →
      r.host ∈ hostsIn s svc ∧ r.id = replicaIDForHost dep.name svc.name r.host := by
    intro r hget hrd hrs
    have hid := (h r.id).1 ⟨r, hget, hrd, hrs⟩
    rw [hwanted] at hid
    obtain ⟨host, hmem, hid⟩ := mem_map.1 hid
    have heq := hhost r host hget hmem hid.symm
    rw [heq]
    exact ⟨hmem, hid.symm⟩
  refine ⟨fun host hmem => ?_, fun r hget hrd hrs => (hheld r hget hrd hrs).1⟩
  have hid : replicaIDForHost dep.name svc.name host ∈ wanted s dep svc := hwanted ▸ mem_map_of_mem hmem
  obtain ⟨r, hget, hrd, hrs⟩ := (h _).2 hid
  have hrid : r.id = replicaIDForHost dep.name svc.name host := Store.get_key hget
  have hget' : t.replicasDesired.get r.id = some r := hrid ▸ hget
  refine ⟨r, ⟨hget', hrd, hrs, hhost r host hget' hmem hrid⟩, ?_⟩
  rintro r' ⟨hgetr, hrd', hrs', hhost'⟩
  have hrid' := (hheld r' hgetr hrd' hrs').2
  rw [hhost', ← hrid] at hrid'
  rw [hrid'] at hgetr
  exact Option.some.inj (hgetr.symm.trans hget')

theorem onePerHost_after (hs : Drawn F s) (hlisted : Listed (FromStart F s) deps)
    (h : Told P (FromStart F s) deps round) (hdep : Declares s dep svc) (hglobal : svc.placement = .global)
    (himage : ∀ project, P.loadCompose dep.composeYaml = .ok project → lookupImage project svc.name ≠ "")
    {sp : ServicePass} (hsp : sp ∈ round.services) (hspd : sp.deployment = dep.name) (hsps : sp.service = svc.name)
    (idx : Nat) (ht : Drawn F t) (hreplicas : t.replicasDesired = s.replicasDesired) :
    OnePerHost (applyChildren idx t round.batch) dep svc (hostsIn s svc) := by
  have hserved := h.served sp hsp
  have htells := h.services sp hsp
  cases htells with
  | blocked dep' svc' reason now hdep' hsvc' hcause =>
    obtain ⟨d₀, hd₀, hname, hyaml, -⟩ := declares_of_start hlisted hdep' hsvc'
    obtain ⟨rfl, rfl⟩ := declares_unique hs.names hd₀ hdep (hname.trans hspd) hsps
    rcases hcause with ⟨project, hload, hempty⟩ | hnot
    · exact absurd hempty (himage project (hyaml ▸ hload))
    · exact absurd hglobal hnot
  | placed p desired hplaces =>
    obtain ⟨d₀, hd₀⟩ := served_of_places hlisted hplaces
    obtain ⟨rfl, hsvc⟩ := declares_unique hs.names hd₀.declared hdep (hd₀.name.trans hspd) hsps
    have hafter := held_after hF hs hlisted h hd₀ hserved idx ht hreplicas
    rw [hsvc] at hafter
    exact onePerHost_of_held hF hs hdep hglobal (hafter "").1 (fun id => (hafter id).2)

omit hF in
theorem start_disturb (o : Others) (w : World) (ho : o.commands = []) (hw : FromStart F s w) :
    FromStart F s (cluster.disturb o w) := by
  have hstate : (cluster.disturb o w).state = w.state := by
    change (o.commands.foldl (fun v c => v.commit c) w).state = w.state
    rw [ho]
    rfl
  rw [FromStart, hstate]
  exact hw

omit hF in
theorem start_commit (c : Command) (w : World) (hc : Allows RolloutStep c) (hw : FromStart F s w) :
    FromStart F s (cluster.commit c w) :=
  ⟨commit_keeps (fun idx t e he => drawn_entry idx t e (.aside _ he.1 he.2)) c w hc hw.1,
    commit_keeps (fun idx t e he => framed_entry idx t e he) c w hc hw.2⟩

omit hF in
theorem reconcile_undisturbed (P : Parsers) (s : State) :
    Solo cluster (fun o : Others => o.commands = []) (FromStart F s) (reconcile P) (fun round _ w =>
      (∃ deps, Listed (FromStart F s) deps ∧ Told P (FromStart F s) deps round) ∧
        ∃ t idx, Drawn F t ∧ Framed s t ∧ w.state = applyChildren idx t round.batch) := by
  have hkeep := start_disturb (F := F) (s := s)
  refine solo_read_bind hkeep _ (fun v _ => ?_)
  split
  · exact solo_ret (fun w hw => ⟨⟨[], ⟨w, hw, nofun⟩, told_empty⟩, w.state, 0, hw.1, hw.2, rfl⟩)
  · refine solo_bind (solo_of_within hkeep start_commit (within_weaken checkTimeouts_aborts
      (fun c hc => allows_mono (fun _ h => rolloutStep_aborts h) hc))) (fun aborted cs => ?_)
    refine solo_pure (fun _ => ?_)
    change Solo _ _ _ (reckon P aborted >>= submitBatch) _
    refine solo_bind (solo_of_within hkeep start_commit (reckon_tells aborted)) (fun round ds => ?_)
    refine solo_pure (fun htold => ?_)
    unfold submitBatch
    split
    · rename_i hempty
      refine solo_ret (fun w hw => ⟨htold, w.state, 0, hw.1, hw.2, ?_⟩)
      rw [isEmpty_iff.1 hempty]
      rfl
    · refine solo_read_bind hkeep _ (fun v'' _ => ?_)
      refine solo_bind (solo_send hkeep _ (Q := fun _ _ w => ∃ t idx, Drawn F t ∧ Framed s t ∧
        w.state = applyChildren idx t round.batch) (fun u hu => ⟨u.state, u.index + 1, hu.1, hu.2, rfl⟩))
        (fun _ es => solo_ret (fun w hw => ⟨htold, hw⟩))

end Served

structure KeptApart (P : Parsers) (F : Fleet) : Prop where
  ids : F.Distinct
  spared : ∀ w gs, Drawn F w.state → Calm (Mild F) gs →
    Spares F (exec cluster (reconcile P) gs ⟨w, []⟩).2.2.seen (exec cluster (reconcile P) gs ⟨w, []⟩).1
  global : ∀ w gs, Drawn F w.state → (∀ o ∈ gs, o.commands = []) → ∀ dep svc, Declares w.state dep svc →
    svc.placement = .global →
    (∀ project, P.loadCompose dep.composeYaml = .ok project → lookupImage project svc.name ≠ "") →
    ∀ sp ∈ (follow cluster (reconcile P) gs w).answer.services, sp.deployment = dep.name → sp.service = svc.name →
      OnePerHost (follow cluster (reconcile P) gs w).now.state dep svc (hostsIn w.state svc)

theorem keptApart_iff_spelled (P : Parsers) (F : Fleet) : KeptApart P F ↔ F.Spelled := by
  refine ⟨fun h => spelled_of_distinct h.ids, fun h => ?_⟩
  have hF := distinct_of_spelled h
  refine ⟨hF, fun w gs hw hgs => reconcile_spares P hF hw hgs, ?_⟩
  intro w gs hw hgs dep svc hdep hglobal himage sp hsp hspd hsps
  obtain ⟨⟨deps, hlisted, htold⟩, t, idx, ht, hframed, hnow⟩ :=
    reconcile_undisturbed P w.state gs w hgs ⟨hw, framed_refl w.state⟩
  rw [hnow]
  exact onePerHost_after hF hw hlisted htold hdep hglobal himage hsp hspd hsps idx ht hframed.replicas

namespace Twins

def text (s : String) : Bytes := s.toList.flatMap String.utf8EncodeChar

def jacoOf (deployment : String) : Bytes := text ("deployment: " ++ deployment ++ "\n")

def composeOf (service : String) : Bytes := text ("services:\n  " ++ service ++ ":\n    image: nginx\n")

def parsers : Parsers where
  decodeJaco b :=
    if b = jacoOf "a" then .ok { deployment := "a" }
    else if b = jacoOf "a-b" then .ok { deployment := "a-b" }
    else .error (invalid "")
  mailError _ := none
  validateCompose _ := none
  loadCompose b :=
    if b = composeOf "b-c" then .ok ⟨[{ name := "b-c", image := "nginx" }], nodup_singleton _⟩
    else if b = composeOf "c" then .ok ⟨[{ name := "c", image := "nginx" }], nodup_singleton _⟩
    else .error ""
  specHash b _ := .ok b

def entry (deployment service : String) : Entry :=
  ⟨"ops", some 1, .deploymentApply
    { deployment := deployment, revision := 1, jacoYaml := jacoOf deployment, composeYaml := composeOf service,
      services := [{ name := service, replicas := 1, placement := .spread }] }⟩

def fleet : Fleet where
  numbered := {("a", "b-c", 1), ("a-b", "c", 1)}
  global := ∅
  hosts := {"node-a"}

def alone : World :=
  ((World.commit (Sample.node "node-a") { state := .new, index := 0, now := 0 }).commit (.single (entry "a" "b-c")))

def placed (w : World) : World := (follow cluster (reconcile parsers) [] w).now

def beside : World := (placed alone).commit (.single (entry "a-b" "c"))

def owners (w : World) : List (String × String × String) :=
  w.state.replicasDesired.list.map (fun r => (r.id, r.deployment, r.service))

end Twins

open Twins

theorem twins_share_a_record : Deploy.apply parsers .leader .new "ops" 1 ⟨jacoOf "a", composeOf "b-c", false⟩ =
        .ok ⟨1, [entry "a" "b-c"]⟩ ∧
      Deploy.apply parsers .leader (placed alone).state "ops" 1
        ⟨jacoOf "a-b", composeOf "c", false⟩ = .ok ⟨1, [entry "a-b" "c"]⟩ ∧
      owners beside = [("a-b-c-0", "a", "b-c")] ∧
      owners (placed beside) = [("a-b-c-0", "a-b", "c")] ∧
      replicaIDForHost "a" "agent" "rack/1" = replicaIDForHost "a" "agent" "rack-1" ∧
      ¬ KeptApart parsers fleet := by
  refine ⟨by decide +kernel, by decide +kernel, by decide +kernel, by decide +kernel, by decide +kernel, fun h => ?_⟩
  have hseat := h.ids ⟨"a", "b-c", .index 0⟩ ⟨"a-b", "c", .index 0⟩ ⟨1, .inl rfl, Nat.one_pos⟩
    ⟨1, .inr rfl, Nat.one_pos⟩ rfl
  exact absurd hseat (by decide)

end Jaco.Scheduler
