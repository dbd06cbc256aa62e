import Jaco.DrainOrders
import Jaco.PassOutcomes

namespace Jaco.Relocation

open Interleaving Placement Scheduler List Store

def migrated (m : Migration) : ReplicaDesired :=
  { id := m.replicaID, deployment := m.deployment, service := m.service, host := m.toHost, image := m.image }

def Concerns (id : String) (c : Command) : Prop :=
  ∃ e ∈ c.entries, e.payload = .replicaDesiredRemove id ∨ ∃ r, e.payload = .replicaDesiredUpsert (some r) ∧ r.id = id

section Statement

variable (P : Parsers) (w : World) (hostname : String)

def LeftAlone (s : State) (r : ReplicaDesired) : Prop :=
  ∀ p desired, s.deployments.get r.deployment = some p.dep → p.dep.services.find? (·.name = r.service) = some p.svc →
    p.image ≠ "" → Sees P s p desired → ∀ c ∈ p.commands desired, ¬ Concerns r.id c

structure OnlyMoves : Prop where
  record : ∀ c ∈ (follow cluster (drainHost hostname) [] w).emitted, ∀ u ∈ upsertsIn c,
    ∃ r, w.state.replicasDesired.get u.id = some r ∧ u = { r with host := u.host, raftIndex := u.raftIndex }
  quiet : ∀ c ∈ (follow cluster (drainHost hostname) [] w).emitted, ∀ u ∈ upsertsIn c,
    LeftAlone P (follow cluster (drainHost hostname) [] w).now.state u

def NoPlan (s : State) : Prop :=
  hostname = "" ∨ Stuck s hostname ∨
    ∃ r spec, Leaves s hostname r spec ∧ outOfRange spec (refuge s hostname spec) r.index = true

def Scheduled (s : State) (r : ReplicaDesired) (svc : ServiceSpec) : Prop :=
  ∃ dep project hash, s.deployments.get r.deployment = some dep ∧ P.loadCompose dep.composeYaml = .ok project ∧
    lookupImage project svc.name ≠ "" ∧ P.specHash dep.composeYaml svc.name = .ok hash ∧ Placeable svc (hostsIn s svc)

end Statement

theorem planned_ok_iff {s : State} {hostname : String} (nodes : s.nodes.Listing) (replicas : s.replicasDesired.Listing)
    (deployments : s.deployments.Listing) :
    (∃ ms, planned hostname nodes replicas deployments = .ok ms) ↔ ¬ NoPlan hostname s := by
  constructor
  · rintro ⟨ms, hok⟩ (hname | hstuck | ⟨r, spec, hleaves, hrange⟩)
    · exact (planned_ok hok).1 hname
    · exact not_stuck_of_ok hok hstuck
    · obtain ⟨hr, hhost, hspec, hglobal⟩ := (leaves_iff hostname replicas deployments).1 hleaves
      obtain ⟨-, groups, hgroups, -⟩ := planned_ok hok
      obtain ⟨group, -, hgroup⟩ := mem_mapM_of_mem _ _ groups hgroups _ (mem_services replicas hr)
      rw [planOf_declared (k := service r) hspec hglobal] at hgroup
      obtain ⟨index, hpanic⟩ := placeAll_panics (mem_group hr hhost) hrange
      rw [hpanic] at hgroup
      cases hgroup
  · intro hplan
    rw [NoPlan, not_or, not_or] at hplan
    obtain ⟨hname, hstuck, hrange⟩ := hplan
    cases hok : planned hostname nodes replicas deployments with
    | ok ms => exact ⟨ms, rfl⟩
    | error e =>
      rcases cause_of_error hname hok with h | ⟨-, h⟩
      · exact absurd h hrange
      · exact absurd h hstuck

section Run

variable (hostname : String)

def listedNodes (w : World) : w.state.nodes.Listing := ⟨_, listing_perm w w.state.nodes⟩
def listedReplicas (w : World) : w.state.replicasDesired.Listing := ⟨_, listing_perm w w.state.replicasDesired⟩
def listedDeployments (w : World) : w.state.deployments.Listing := ⟨_, listing_perm w w.state.deployments⟩

theorem follow_drainHost (w : World) : follow cluster (drainHost hostname) [] w =
      match planned hostname (listedNodes w) (listedReplicas w) (listedDeployments w) with
      | .error e => ⟨.error ⟨.failedPrecondition, "drain_no_placement", e⟩, [], [], w⟩
      | .ok ms => follow cluster (applyMigrations hostname w.now ms) [] w := by
  rw [drainHost, follow_read_bind, follow_read_bind, follow_read_bind]
  change follow cluster (match planned hostname (listedNodes w) (listedReplicas w) (listedDeployments w) with
    | .error e => _
    | .ok ms => _) [] w = _
  cases planned hostname (listedNodes w) (listedReplicas w) (listedDeployments w) with
  | error e => rfl
  | ok ms => rfl

variable (now : Timestamp) (ms : List Migration) (w : World)

theorem follow_applyMigrations :
    (follow cluster (applyMigrations hostname now ms) [] w).emitted = ms.map (migrationCommand hostname now) ∧
      (follow cluster (applyMigrations hostname now ms) [] w).now =
        ms.foldl (fun w m => w.commit (migrationCommand hostname now m)) w := by
  induction ms generalizing w with
  | nil => exact ⟨rfl, rfl⟩
  | cons m ms ih =>
    obtain ⟨hemitted, hnow⟩ := ih (w.commit (migrationCommand hostname now m))
    exact ⟨congrArg (migrationCommand hostname now m :: ·) hemitted, hnow⟩

theorem commit_migration (now : Timestamp) (m : Migration) (w : World) :
    (w.commit (migrationCommand hostname now m)).state.replicasDesired =
        w.state.replicasDesired.apply { migrated m with raftIndex := w.index + 1 } ∧
      (w.commit (migrationCommand hostname now m)).state.nodes = w.state.nodes ∧
      (w.commit (migrationCommand hostname now m)).state.deployments = w.state.deployments := by
  rw [migrationCommand, commit_single]
  refine ⟨applyEntry_agree_mutate _ _ _ .replicasDesired (by decide), ?_, ?_⟩
  · exact applyEntry_agree _ _ _ .nodes (by simp [writes]) (by decide)
  · exact applyEntry_agree _ _ _ .deployments (by simp [writes]) (by decide)

def migrate (now : Timestamp) (w : World) (ms : List Migration) : World :=
  ms.foldl (fun w m => w.commit (migrationCommand hostname now m)) w

theorem migrate_frame : (migrate hostname now w ms).state.nodes = w.state.nodes ∧
      (migrate hostname now w ms).state.deployments = w.state.deployments := by
  induction ms generalizing w with
  | nil => exact ⟨rfl, rfl⟩
  | cons m ms ih =>
    obtain ⟨-, hnodes, hdeployments⟩ := commit_migration hostname now m w
    obtain ⟨hnodes', hdeployments'⟩ := ih (w.commit (migrationCommand hostname now m))
    exact ⟨hnodes'.trans hnodes, hdeployments'.trans hdeployments⟩

theorem get_migrate_of_notMem {id : String} (hid : id ∉ ms.map (·.replicaID)) :
    (migrate hostname now w ms).state.replicasDesired.get id = w.state.replicasDesired.get id := by
  induction ms generalizing w with
  | nil => rfl
  | cons m ms ih =>
    rw [map_cons, mem_cons, not_or] at hid
    rw [migrate, foldl_cons]
    refine (ih _ hid.2).trans ?_
    rw [(commit_migration hostname now m w).1, get_apply, if_neg]
    exact fun h => hid.1 h.symm

theorem get_migrate (hnodup : (ms.map (·.replicaID)).Nodup) {m : Migration} (hm : m ∈ ms) :
    ∃ idx, (migrate hostname now w ms).state.replicasDesired.get m.replicaID =
      some { migrated m with raftIndex := idx } := by
  induction ms generalizing w with
  | nil => cases hm
  | cons m' ms ih =>
    obtain ⟨hnew, hnodup⟩ := nodup_cons.1 hnodup
    rw [migrate, foldl_cons]
    rcases mem_cons.1 hm with rfl | hm
    · refine ⟨w.index + 1, (get_migrate_of_notMem hostname now ms _ hnew).trans ?_⟩
      rw [(commit_migration hostname now m w).1]
      exact get_apply_self _ _
    · exact ih _ hnodup hm

end Run

theorem placeable_of_ok {dep : Deployment} {svc : ServiceSpec} {eligible : List String} {counts : String → Nat}
    {desired : List DesiredReplica} (h : desiredReplicas dep svc eligible counts = .ok desired) :
    Placeable svc eligible := by
  rw [desiredReplicas] at h
  split at h
  · rename_i hglobal
    exact .inl hglobal
  · by_cases hnone : svc.replicas ≤ 0
    · exact .inr (.inl hnone)
    · refine .inr (.inr ?_)
      by_contra hfew
      have hzero : 0 ∈ List.range svc.replicas.toNat := mem_range.2 (by omega)
      obtain ⟨d, -, hd⟩ := mem_mapM_of_mem _ _ _ h 0 hzero
      have hshort : eligible = [] ∨ svc.placement = .hosts ∧ (eligible.length : Int) < svc.replicas := by
        by_contra hroom
        rw [not_or, not_and, not_lt] at hroom
        exact hfew hroom
      obtain ⟨e, he⟩ := placeReplica_refused dep.name 0 counts hshort
      rw [Nat.cast_zero, he] at hd
      cases hd

theorem upsertsIn_migration (hostname : String) (now : Timestamp) (m : Migration) :
    upsertsIn (migrationCommand hostname now m) = [migrated m] := by
  rw [upsertsIn, migrationCommand, entries_single]
  rfl

structure Drains (w : World) (hostname : String) (ms : List Migration) : Prop where
  emitted : (follow cluster (drainHost hostname) [] w).emitted = ms.map (migrationCommand hostname w.now)
  now : (follow cluster (drainHost hostname) [] w).now = migrate hostname w.now w ms
  once : (ms.map (·.replicaID)).Nodup
  moves : ∀ m ∈ ms, ∃ r spec, Leaves w.state hostname r spec ∧
    migrated m = { r with index := 0, host := m.toHost, raftIndex := 0, specHash := [] }
  covers : ∀ r spec, Leaves w.state hostname r spec → ∃ m ∈ ms,
    migrated m = { r with index := 0, host := m.toHost, raftIndex := 0, specHash := [] }

theorem drains_of_plan {w : World} {hostname : String} (hplan : ¬ NoPlan hostname w.state) :
    ∃ ms, Drains w hostname ms := by
  obtain ⟨ms, hok⟩ := (planned_ok_iff (listedNodes w) (listedReplicas w) (listedDeployments w)).2 hplan
  have hfollow := follow_drainHost hostname w
  rw [hok] at hfollow
  have hmoves : ∀ m ∈ ms, ∃ r spec, Leaves w.state hostname r spec ∧
      migrated m = { r with index := 0, host := m.toHost, raftIndex := 0, specHash := [] } := by
    intro m hm
    obtain ⟨r, hr, spec, hevicted, counts, newHost, -, rfl⟩ := plan_moves hok m hm
    exact ⟨r, spec, (leaves_iff hostname (listedReplicas w) (listedDeployments w)).2 ⟨hr, hevicted⟩, rfl⟩
  refine ⟨ms, ?_, ?_, ?_, hmoves, fun r spec hleaves => ?_⟩
  · rw [hfollow]
    exact (follow_applyMigrations hostname w.now ms w).1
  · rw [hfollow]
    exact (follow_applyMigrations hostname w.now ms w).2
  · obtain ⟨-, groups, hgroups, rfl⟩ := planned_ok hok
    exact once_of_ok hgroups
  · obtain ⟨hr, hevicted⟩ := (leaves_iff hostname (listedReplicas w) (listedDeployments w)).1 hleaves
    obtain ⟨m, hm, hid⟩ := plan_covers hok r hr spec hevicted
    obtain ⟨r', spec', hleaves', hmigrated⟩ := hmoves m hm
    have hid' : m.replicaID = r'.id := congrArg ReplicaDesired.id hmigrated
    obtain ⟨rfl, -⟩ := leaves_unique hleaves hleaves' (hid.symm.trans hid')
    exact ⟨m, hm, hmigrated⟩

theorem emitted_of_noPlan {w : World} {hostname : String} (hplan : NoPlan hostname w.state) :
    (follow cluster (drainHost hostname) [] w).emitted = [] := by
  rw [follow_drainHost]
  cases hok : planned hostname (listedNodes w) (listedReplicas w) (listedDeployments w) with
  | error e => rfl
  | ok ms => exact absurd hplan ((planned_ok_iff _ _ _).1 ⟨ms, hok⟩)

theorem not_leftAlone {P : Parsers} {s : State} {r : ReplicaDesired} {svc : ServiceSpec}
    (hhash : ∀ compose name, P.specHash compose name ≠ .ok []) (hget : s.replicasDesired.get r.id = some r)
    (hspec : (s.deployments.get r.deployment).bind (fun d => d.services.find? (·.name = r.service)) = some svc)
    (hglobal : svc.placement ≠ .global) (hempty : r.specHash = []) (hscheduled : Scheduled P s r svc) :
    ¬ LeftAlone P s r := by
  obtain ⟨dep, project, hash, hdep, hload, himage, hsum, hplaceable⟩ := hscheduled
  rw [hdep, Option.bind_some] at hspec
  have hname : dep.name = r.deployment := get_key hdep
  have hsvc : svc.name = r.service := by simpa using List.find?_some hspec
  let current := s.replicasDesired.list.filter (fun r => r.deployment = dep.name && r.service = svc.name)
  have hcurrent : ∀ x, x ∈ current ↔
      s.replicasDesired.get x.id = some x ∧ x.deployment = dep.name ∧ x.service = svc.name := by
    intro x
    rw [mem_filter, mem_list]
    simp
  obtain ⟨desired, hdesired, hids⟩ : ∃ desired,
      desiredReplicas dep svc (hostsIn s svc) (fun h => current.countP (fun r => r.host = h)) = .ok desired ∧
        desired.map (·.id) = wantedIDs dep svc (hostsIn s svc) :=
    desiredReplicas_ok hplaceable _
  let pass (step : Int) : Pass := ⟨dep, svc, lookupImage project svc.name, hash, hostsIn s svc, current,
    isRollingImageChange current (lookupImage project svc.name), step, 0⟩
  have hsees (step : Int) : Sees P s (pass step) desired :=
    ⟨⟨project, hload, rfl⟩, hsum, rfl, hcurrent, rfl, ⟨_, hdesired⟩, hids⟩
  have hr : r ∈ current := (hcurrent r).2 ⟨hget, hname.symm, hsvc.symm⟩
  intro halone
  by_cases hwanted : r.id ∈ desired.map (·.id)
  · obtain ⟨d, hd, hid⟩ := mem_map.1 hwanted
    obtain ⟨i, -, -, hindex⟩ := index_of_mem_desired hdesired hglobal hd
    have hoff : Off (pass d.index) d := by
      intro cur hfind hsame
      have hcur := ((hcurrent cur).1 (mem_of_find?_eq_some hfind)).1
      have hcid : cur.id = d.id := by simpa using List.find?_some hfind
      rw [hcid, hid, hget] at hcur
      cases hcur
      exact hhash _ _ (hsum.trans (congrArg Except.ok (hsame.2.2.symm.trans hempty)))
    have hupsert := upsert_of_open (pass d.index) hoff (fun _ _ _ _ _ => ⟨hindex ▸ Int.natCast_nonneg i, rfl⟩) false hd
    refine halone (pass d.index) desired hdep hspec himage (hsees d.index) _
      (mem_append_left _ (mem_map_of_mem hupsert)) ?_
    exact ⟨_, mem_singleton_self _, .inr ⟨_, rfl, hid⟩⟩
  · have hremove : r.id ∈ (pass 0).removes desired := mem_filter.2 ⟨mem_map_of_mem hr, decide_eq_true hwanted⟩
    refine halone (pass 0) desired hdep hspec himage (hsees 0) _ (mem_append_right _ (mem_map_of_mem hremove)) ?_
    exact ⟨_, mem_singleton_self _, .inl rfl⟩

theorem drain_only_moves_iff (P : Parsers) (hhash : ∀ compose name, P.specHash compose name ≠ .ok []) (w : World)
    (hostname : String) :
    OnlyMoves P w hostname ↔ NoPlan hostname w.state ∨
      ∀ r spec, Leaves w.state hostname r spec → r.index = 0 ∧ r.specHash = [] ∧ ¬ Scheduled P w.state r spec := by
  by_cases hplan : NoPlan hostname w.state
  · have hnone := emitted_of_noPlan hplan
    refine ⟨fun _ => .inl hplan, fun _ => ⟨fun c hc => ?_, fun c hc => ?_⟩⟩
    · rw [hnone] at hc
      cases hc
    · rw [hnone] at hc
      cases hc
  · obtain ⟨ms, hdrains⟩ := drains_of_plan hplan
    obtain ⟨hnodes, hdeployments⟩ := migrate_frame hostname w.now ms w
    refine ⟨fun h => .inr (fun r spec hleaves => ?_), fun h => ?_⟩
    · obtain ⟨m, hm, hmigrated⟩ := hdrains.covers r spec hleaves
      have hc : migrationCommand hostname w.now m ∈ (follow cluster (drainHost hostname) [] w).emitted := by
        rw [hdrains.emitted]
        exact mem_map_of_mem hm
      have hu : migrated m ∈ upsertsIn (migrationCommand hostname w.now m) := by
        rw [upsertsIn_migration]
        exact mem_singleton_self _
      obtain ⟨r₀, hget, hrecord⟩ := h.record _ hc _ hu
      rw [hmigrated, hleaves.1] at hget
      cases hget
      have hempty : r.specHash = [] := (congrArg ReplicaDesired.specHash hrecord).symm
      refine ⟨(congrArg ReplicaDesired.index hrecord).symm, hempty, fun hscheduled => ?_⟩
      obtain ⟨idx, hcommitted⟩ := get_migrate hostname w.now ms w hdrains.once hm
      have hquiet := h.quiet _ hc _ hu
      rw [hdrains.now] at hquiet
      have hdep : m.deployment = r.deployment := congrArg ReplicaDesired.deployment hmigrated
      have hsvc : m.service = r.service := congrArg ReplicaDesired.service hmigrated
      have hleft : LeftAlone P (migrate hostname w.now w ms).state { migrated m with raftIndex := idx } := hquiet
      refine not_leftAlone hhash hcommitted ?_ hleaves.2.2.2 rfl ?_ hleft
      · rw [hdeployments]
        change (w.state.deployments.get m.deployment).bind (fun d => d.services.find? (·.name = m.service)) = some spec
        rw [hdep, hsvc]
        exact hleaves.2.2.1
      · obtain ⟨dep, project, hash, hget, hload, himage, hsum, hplaceable⟩ := hscheduled
        refine ⟨dep, project, hash, ?_, hload, himage, hsum, ?_⟩
        · rw [hdeployments]
          change w.state.deployments.get m.deployment = some dep
          rw [hdep]
          exact hget
        · rw [hostsIn, hnodes]
          exact hplaceable
    · have hcond := h.resolve_left hplan
      have hemits : ∀ c ∈ (follow cluster (drainHost hostname) [] w).emitted, ∀ u ∈ upsertsIn c,
          ∃ r spec, Leaves w.state hostname r spec ∧ u = { r with host := u.host, raftIndex := u.raftIndex } := by
        intro c hc u hu
        rw [hdrains.emitted] at hc
        obtain ⟨m, hm, rfl⟩ := mem_map.1 hc
        rw [upsertsIn_migration, mem_singleton] at hu
        obtain ⟨r, spec, hleaves, hmigrated⟩ := hdrains.moves m hm
        obtain ⟨hindex, hempty, -⟩ := hcond r spec hleaves
        refine ⟨r, spec, hleaves, ?_⟩
        rw [hu, hmigrated, ← hindex, ← hempty]
      refine ⟨fun c hc u hu => ?_, fun c hc u hu p desired hdep hsvc himage hsees => ?_⟩
      · obtain ⟨r, spec, hleaves, hrecord⟩ := hemits c hc u hu
        exact ⟨r, by rw [hrecord]; exact hleaves.1, hrecord⟩
      · obtain ⟨r, spec, hleaves, hrecord⟩ := hemits c hc u hu
        rw [hdrains.now, hdeployments] at hdep
        have hrdep : u.deployment = r.deployment := by rw [hrecord]
        have hrsvc : u.service = r.service := by rw [hrecord]
        rw [hrdep] at hdep
        rw [hrsvc] at hsvc
        have hspec := hleaves.2.2.1
        rw [hdep, Option.bind_some, hsvc] at hspec
        cases hspec
        obtain ⟨project, hload, hp⟩ := hsees.image
        obtain ⟨counts, hdesired⟩ := hsees.placed
        have hplaceable := placeable_of_ok hdesired
        rw [hsees.eligible, hdrains.now, hostsIn, hnodes] at hplaceable
        exact absurd ⟨p.dep, project, p.specHash, hdep, hload, hp ▸ himage, hsees.specHash, hplaceable⟩
          (hcond r _ hleaves).2.2

namespace Resumed

def digest : Bytes :=
  [66, 95, 103, 234, 21, 116, 131, 215, 36, 33, 97, 19, 99, 112, 176, 140, 53, 58, 53, 88, 180, 187, 239, 102, 139, 69,
    177, 105, 6, 163, 236, 199]

def parsers : Parsers where
  decodeJaco _ := .error (invalid "")
  mailError _ := none
  validateCompose _ := none
  loadCompose b :=
    if b = Sample.compose "1.27" then .ok ⟨[{ name := "web", image := "nginx:1.27" }], nodup_singleton _⟩
    else .error "empty compose file"
  specHash b name :=
    if b = Sample.compose "1.27" ∧ name = "web" then .ok digest else .error "ServiceSpecHash: empty document"

def deployment (compose : Bytes) : Deployment :=
  { Unpinned.shop with composeYaml := compose, services := [{ name := "web", replicas := 2, placement := .spread }] }

def replica (index : Nat) (host : String) (hash : Bytes) : ReplicaDesired where
  id := replicaID "shop" "web" index
  deployment := "shop"
  service := "web"
  index := index
  host := host
  image := "nginx:1.27"
  specHash := hash

def world (compose : Bytes) (replicas : Store ReplicaDesired (·.id)) : World where
  state :=
    { Unpinned.state with deployments := empty.apply (deployment compose), replicasDesired := replicas }
  index := 7
  now := 0

def placed : World :=
  world (Sample.compose "1.27") ((empty.apply (replica 0 "node-b" digest)).apply (replica 1 "node-a" digest))

def drained : World := (follow cluster (drainHost "node-a") [] placed).now

theorem digest_ne_nil (compose : Bytes) (name : String) : parsers.specHash compose name ≠ .ok [] := by
  simp only [parsers]
  split
  · simp [digest]
  · simp

end Resumed

open Resumed in
theorem drained_record_rewritten :
    (drained.state.replicasDesired.get "shop-web-1").map (fun r => (r.index, r.host, r.specHash)) =
        some (0, "node-b", []) ∧
      ((follow cluster (reconcile parsers) [] drained).answer.batch.flatMap upsertsIn).map (fun r => (r.id, r.host)) =
        [("shop-web-1", "node-b")] ∧
      ¬ OnlyMoves parsers placed "node-a" := by
  refine ⟨by decide +kernel, by decide +kernel, fun h => ?_⟩
  have hplan : planned "node-a" (listedNodes placed) (listedReplicas placed) (listedDeployments placed) =
      .ok [⟨"shop-web-1", "shop", "web", "node-a", "node-b", "nginx:1.27"⟩] := by
    decide +kernel
  have hemitted : (follow cluster (drainHost "node-a") [] placed).emitted = [migrationCommand "node-a" 0
      ⟨"shop-web-1", "shop", "web", "node-a", "node-b", "nginx:1.27"⟩] := by
    rw [follow_drainHost, hplan]
    exact (follow_applyMigrations "node-a" 0 _ placed).1
  obtain ⟨r, hget, hrecord⟩ := h.record _ (hemitted ▸ mem_cons_self) _
    (by rw [upsertsIn_migration]; exact mem_cons_self)
  have hheld : placed.state.replicasDesired.get "shop-web-1" = some (replica 1 "node-a" digest) := by decide +kernel
  cases hheld.symm.trans hget
  exact absurd (congrArg ReplicaDesired.index hrecord) (by decide)

open Resumed in
theorem old_record_only_moved : OnlyMoves parsers (world [] (empty.apply (replica 0 "node-a" []))) "node-a" := by
  refine (drain_only_moves_iff parsers digest_ne_nil _ "node-a").2 (.inr (fun r spec hleaves => ?_))
  have hr : r = replica 0 "node-a" [] := by
    have hget := hleaves.1
    rw [show (world [] (empty.apply (replica 0 "node-a" []))).state.replicasDesired =
      empty.apply (replica 0 "node-a" []) from rfl, get_apply, get_empty] at hget
    split at hget
    · exact (Option.some.inj hget).symm
    · cases hget
  subst hr
  refine ⟨rfl, rfl, ?_⟩
  rintro ⟨dep, project, hash, hdep, hload, -⟩
  have hheld : (world [] (empty.apply (replica 0 "node-a" []))).state.deployments.get "shop" =
      some (deployment []) := by
    decide +kernel
  cases hheld.symm.trans hdep
  have hnone : parsers.loadCompose [] = .error "empty compose file" := by decide +kernel
  cases hnone.symm.trans hload

end Jaco.Relocation
