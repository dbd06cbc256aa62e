import Jaco.FleetPasses

namespace Jaco.Scheduler

open Interleaving Placement Rollout ReplicaIds List

section Ids

variable {dep : Deployment} {svc : ServiceSpec} {eligible : List String}

theorem ids_of_desired {counts : String → Nat} {desired : List DesiredReplica}
    (h : desiredReplicas dep svc eligible counts = .ok desired) : desired.map (·.id) = wantedIDs dep svc eligible := by
  unfold desiredReplicas at h
  unfold wantedIDs
  by_cases hglobal : svc.placement = .global
  · rw [if_pos hglobal] at h ⊢
    cases h
    rw [map_map]
    change eligible.zipIdx.map (replicaIDForHost dep.name svc.name ∘ Prod.fst) = _
    rw [← map_map, zipIdx_map_fst]
  · rw [if_neg hglobal] at h ⊢
    refine map_of_mapM h (fun i d hd => ?_)
    cases hplace : placeReplica dep.name svc eligible i counts with
    | error e =>
      rw [hplace] at hd
      cases hd
    | ok host =>
      rw [hplace] at hd
      cases hd
      rfl

theorem host_of_global {counts : String → Nat} {desired : List DesiredReplica} (hglobal : svc.placement = .global)
    (h : desiredReplicas dep svc eligible counts = .ok desired) {d : DesiredReplica} (hd : d ∈ desired) :
    d.host ∈ eligible ∧ d.id = replicaIDForHost dep.name svc.name d.host := by
  rw [desiredReplicas, if_pos hglobal] at h
  cases h
  obtain ⟨⟨host, i⟩, hmem, rfl⟩ := mem_map.1 hd
  exact ⟨fst_mem_of_mem_zipIdx hmem, rfl⟩

variable {F : Fleet}

theorem seat_of_wanted (henrolled : Enrolled F dep.name svc) (hhosts : ∀ h ∈ eligible, h ∈ F.hosts) {id : String}
    (hid : id ∈ wantedIDs dep svc eligible) : ∃ p, F.Has ⟨dep.name, svc.name, p⟩ ∧
    id = (⟨dep.name, svc.name, p⟩ : Seat).id ∧
      (svc.placement = .global → ∃ h ∈ eligible, p = .host h) := by
  unfold wantedIDs at hid
  unfold Enrolled at henrolled
  split at hid
  · rename_i hglobal
    rw [if_pos hglobal] at henrolled
    obtain ⟨h, hh, rfl⟩ := mem_map.1 hid
    exact ⟨.host h, Fleet.has_host henrolled (hhosts h hh), rfl, fun _ => ⟨h, hh, rfl⟩⟩
  · rename_i hnumbered
    rw [if_neg hnumbered] at henrolled
    obtain ⟨i, hi, rfl⟩ := mem_map.1 hid
    exact ⟨.index i, Fleet.has_index henrolled (mem_range.1 hi), rfl, fun hglobal => absurd hglobal hnumbered⟩

end Ids

section Told

variable {P : Parsers} {R : World → Prop} {deps : List Deployment} {F : Fleet} (hR : ∀ w, R w → Drawn F w.state)
  (hlisted : Listed R deps) (hF : F.Distinct)

include hR

include hlisted in
theorem enrolled_of_listed {dep : Deployment} {svc : ServiceSpec} (hdep : dep ∈ deps) (hsvc : svc ∈ dep.services) :
    Enrolled F dep.name svc := by
  obtain ⟨w, hw, hget⟩ := hlisted
  exact (hR w hw).services dep svc ⟨hget dep hdep, hsvc⟩

theorem hosts_of_eligible {svc : ServiceSpec} {eligible : List String} (h : ∃ w, R w ∧ eligible = hostsIn w.state svc) :
    ∀ host ∈ eligible, host ∈ F.hosts := by
  obtain ⟨w, hw, rfl⟩ := h
  intro host hhost
  obtain ⟨n, hn, rfl⟩ := hostname_of_eligible hhost
  exact (hR w hw).hosts n hn

include hlisted hF

theorem seated_replica {p : Pass} {desired : List DesiredReplica} (hp : Places R deps p desired) {d : DesiredReplica}
    (hd : d ∈ desired) : Seated F (p.replica d) := by
  obtain ⟨counts, hdesired⟩ := hp.desired
  have henrolled := enrolled_of_listed hR hlisted hp.dep hp.svc
  have hhosts := hosts_of_eligible hR hp.eligible
  have hid : d.id ∈ wantedIDs p.dep p.svc p.eligible := ids_of_desired hdesired ▸ mem_map_of_mem hd
  obtain ⟨place, hhas, hseat, hplace⟩ := seat_of_wanted henrolled hhosts hid
  refine ⟨place, hhas, hseat, fun h hh => ?_⟩
  subst hh
  -- a host-keyed replica already stored sits on its host, so stickiness changes nothing
  have hhost : d.host = h := by
    by_cases hglobal : p.svc.placement = .global
    · obtain ⟨hmem, hid'⟩ := host_of_global hglobal hdesired hd
      rw [Enrolled, if_pos hglobal] at henrolled
      have hhas' := Fleet.has_host henrolled (hhosts d.host hmem)
      have heq := hF _ _ hhas' hhas (hid'.symm.trans hseat)
      exact Place.host.inj (congrArg Seat.place heq)
    · unfold wantedIDs at hid
      rw [if_neg hglobal] at hid
      obtain ⟨i, hi, hidi⟩ := mem_map.1 hid
      rw [Enrolled, if_neg hglobal] at henrolled
      have hhas' := Fleet.has_index henrolled (mem_range.1 hi)
      have heq := hF _ _ hhas' hhas (hidi.trans hseat)
      cases congrArg Seat.place heq
  change p.hostFor d = h
  unfold Pass.hostFor
  cases hfind : p.find d with
  | none => exact hhost
  | some cur =>
    cases hsticky : stickyExistingHost cur p.svc p.eligible with
    | none => simpa [hsticky] using hhost
    | some host =>
      obtain ⟨w, hw, hcur⟩ := hp.current
      obtain ⟨hget, hcd, hcs⟩ := (hcur cur).1 (mem_of_find?_eq_some hfind)
      have hcid : cur.id = d.id := by simpa using List.find?_some hfind
      have hseated := seated_of_get (hR w hw) hget
      have hcurhost := (owner_of_id hF hseated hseated rfl).2 _ _ h hhas (hcid.trans hseat)
      simpa [hsticky] using (sticky_eq_some hsticky).1.trans hcurhost

theorem commands_of_tells {sp : ServicePass} (h : Tells P R deps sp) :
    ∀ c ∈ sp.commands, TouchesOnly F sp.deployment sp.service c ∧ Allows (Orderly F) c := by
  intro c hc
  cases h with
  | blocked dep svc reason now hdep hsvc h =>
    cases mem_singleton.1 hc
    exact ⟨touches_pending _ _ _ _ _, allows_single (orderly_status _)⟩
  | placed p desired hplaces =>
    rcases mem_append.1 hc with hc | hc
    · obtain ⟨r, hr, rfl⟩ := mem_map.1 hc
      obtain ⟨d, hd, rfl, -⟩ := mem_upserts p false desired r hr
      have hseated := seated_replica hR hlisted hF hplaces hd
      exact ⟨touches_upsert hF hseated p.now, allows_single (.upsert _ hseated)⟩
    · obtain ⟨id, hid, rfl⟩ := mem_map.1 hc
      obtain ⟨r, hr, rfl⟩ := mem_map.1 (mem_filter.1 hid).1
      obtain ⟨w, hw, hcur⟩ := hplaces.current
      obtain ⟨hget, hcd, hcs⟩ := (hcur r).1 hr
      have htouch := touches_remove hF (seated_of_get (hR w hw) hget) p.now
      rw [hcd, hcs] at htouch
      exact ⟨htouch, allows_single (.remove _)⟩

theorem command_of_aside {c : Command} (h : Aside R deps c) : Allows (Orderly F) c ∧ ((∀ d s, TouchesOnly F d s c) ∨
    ∃ w dep, R w ∧ w.state.deployments.get dep.name = some dep ∧ ∃ s ∉ dep.services.map (·.name),
      TouchesOnly F dep.name s c) := by
  cases h with
  | pending name reason now =>
    refine ⟨allows_single (orderly_status _), .inl (fun d s => ?_)⟩
    exact touches_pending d s name reason now
  | stale dep r now hdep hr howner hsvc =>
    obtain ⟨w, hw, hget⟩ := hr
    obtain ⟨w', hw', hget'⟩ := hlisted
    have htouch := touches_remove hF (seated_of_get (hR w hw) hget) now
    rw [howner] at htouch
    exact ⟨allows_single (.remove _), .inr ⟨w', dep, hw', hget' dep hdep, r.service, hsvc, htouch⟩⟩

theorem orderly_batch {round : Round} (h : Told P R deps round) : ∀ c ∈ round.batch, Allows (Orderly F) c := by
  intro c hc
  rcases h.batch c hc with haside | ⟨sp, hsp, hc'⟩
  · exact (command_of_aside hR hlisted hF haside).1
  · exact (commands_of_tells hR hlisted hF (h.services sp hsp) c hc').2

end Told

section Runs

variable {F : Fleet}

def Mild (F : Fleet) (o : Others) : Prop := ∀ c ∈ o.commands, ∀ idx s, Drawn F s → Drawn F (c.apply idx s)

theorem drawn_disturb {o : Others} (ho : Mild F o) {w : World} (hw : Drawn F w.state) :
    Drawn F (w.disturb o).state := by
  change Drawn F (o.commands.foldl (fun v c => v.commit c) w).state
  unfold Mild at ho
  generalize o.commands = cs at ho ⊢
  induction cs generalizing w with
  | nil => exact hw
  | cons c cs ih =>
    exact ih (w := w.commit c) (ho c mem_cons_self (w.index + 1) w.state hw)
      (fun c' hc' => ho c' (mem_cons_of_mem c hc'))

theorem rolloutStep_orderly {c : Command} (h : Allows RolloutStep c) : Allows (Orderly F) c :=
  allows_mono (fun p hp => .aside p hp.1 hp.2) h

theorem reconcile_told (P : Parsers) {R : World → Prop} (hR : ∀ w, R w → Drawn F w.state) (hF : F.Distinct) :
    Within R (Allows (Orderly F)) (fun round => ∃ deps, Listed R deps ∧ Told P R deps round) (reconcile P) := by
  refine within_bind (Q := fun _ => ∃ w, R w) (within_read _ (fun w hw => ⟨w, hw⟩)) (fun leader hread => ?_)
  split
  · obtain ⟨w, hw⟩ := hread
    exact within_ret ⟨[], ⟨w, hw, nofun⟩, told_empty⟩
  · refine within_bind_any (within_weaken checkTimeouts_aborts (fun c hc =>
      rolloutStep_orderly (allows_mono (fun _ h => rolloutStep_aborts h) hc))) (fun aborted => ?_)
    change Within R _ _ (reckon P aborted >>= submitBatch)
    refine within_bind (within_weaken (reckon_tells aborted) (fun c hc => rolloutStep_orderly hc)) ?_
    rintro round ⟨deps, hlisted, hround⟩
    unfold submitBatch
    split
    · exact within_ret ⟨deps, hlisted, hround⟩
    · refine within_look (fun now => ?_)
      exact within_bind_any (within_send (allows_batch (orderly_batch hR hlisted hF hround)))
        (fun _ => within_ret ⟨deps, hlisted, hround⟩)

def Spares (F : Fleet) (seen : List World) (round : Round) : Prop :=
  (∀ sp ∈ round.services, ∀ c ∈ sp.commands, TouchesOnly F sp.deployment sp.service c) ∧
    ∀ c ∈ round.batch, (∃ sp ∈ round.services, c ∈ sp.commands) ∨ (∀ d s, TouchesOnly F d s c) ∨
      ∃ w ∈ seen, ∃ dep, w.state.deployments.get dep.name = some dep ∧ ∃ s ∉ dep.services.map (·.name),
        TouchesOnly F dep.name s c

theorem drawn_seen (P : Parsers) (hF : F.Distinct) {w : World} (hw : Drawn F w.state) {gs : List (Gap Others)}
    (hgs : Calm (Mild F) gs) : ∀ v ∈ (exec cluster (reconcile P) gs ⟨w, []⟩).2.2.seen, Drawn F v.state := by
  let I : Config World → Prop := fun c => Drawn F c.now.state ∧ ∀ v ∈ c.seen, Drawn F v.state
  have hsteady : Steady cluster (Mild F) I := by
    intro g c hg hc
    have hnow : Drawn F (cluster.arrive g c).now.state := by
      obtain ⟨others, fate⟩ := g
      cases others with
      | none => exact hc.1
      | some o => exact drawn_disturb (hg o rfl) hc.1
    refine ⟨hnow, fun v hv => ?_⟩
    rcases mem_cons.1 hv with rfl | hv
    · exact hnow
    · exact hc.2 v hv
  have hcommit : ∀ x c fate, Allows (Orderly F) x → I c → I { c with now := (cluster.settle x c.now fate).2 } :=
    fun x c fate hx hc => ⟨settle_keeps_state (Q := Drawn F) drawn_entry x c.now fate hx hc.1, hc.2⟩
  exact (exec_within (I := I) (fun c hc => hc.1) hsteady hcommit (reconcile_told P (fun v hv => hv) hF)
    gs ⟨w, []⟩ hgs ⟨hw, nofun⟩).1.2

theorem reconcile_spares (P : Parsers) (hF : F.Distinct) {w : World} (hw : Drawn F w.state) {gs : List (Gap Others)}
    (hgs : Calm (Mild F) gs) :
    Spares F (exec cluster (reconcile P) gs ⟨w, []⟩).2.2.seen (exec cluster (reconcile P) gs ⟨w, []⟩).1 := by
  let R : World → Prop := fun v => v ∈ (exec cluster (reconcile P) gs ⟨w, []⟩).2.2.seen ∧ Drawn F v.state
  have hR : ∀ v, R v → Drawn F v.state := fun v hv => hv.2
  obtain ⟨deps, hlisted, htold⟩ := exec_of_within gs ⟨w, []⟩ (fun v hv => ⟨hv, drawn_seen P hF hw hgs v hv⟩)
    (reconcile_told P hR hF)
  refine ⟨fun sp hsp c hc => (commands_of_tells hR hlisted hF (htold.services sp hsp) c hc).1, fun c hc => ?_⟩
  rcases htold.batch c hc with haside | hown
  · rcases (command_of_aside hR hlisted hF haside).2 with hnone | ⟨v, dep, hv, hdep, s, hs, htouch⟩
    · exact .inr (.inl hnone)
    · exact .inr (.inr ⟨v, hv.1, dep, hdep, s, hs, htouch⟩)
  · exact .inl hown

end Runs

end Jaco.Scheduler
