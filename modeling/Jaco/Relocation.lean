import Jaco.SharedCluster
import Jaco.Placement
import Jaco.Admission

namespace Jaco.Relocation

open Interleaving Placement List

section Drain

structure Migration where
  replicaID : String
  deployment : String
  service : String
  fromHost : String
  toHost : String
  image : String
  deriving DecidableEq

def specOf (deployments : List Deployment) (deployment service : String) : Option ServiceSpec :=
  (deployments.find? (·.name = deployment)).bind (fun d => d.services.find? (·.name = service))

/-- `PlaceReplica` indexes the sorted hosts with `index % len`, which is negative for a negative index. -/
def outOfRange (spec : ServiceSpec) (eligible : List String) (index : Int) : Bool :=
  spec.placement = .hosts && eligible ≠ [] && spec.replicas ≤ eligible.length && index.tmod eligible.length < 0

def indexPanic (index : Int) : String := "runtime error: index out of range [" ++ toString index ++ "]"

/-- A panic ends the call without a plan, as an error does. -/
def placeAll (hostname deployment : String) (spec : ServiceSpec) (eligible : List String) (counts : String → Nat) :
    List ReplicaDesired → Except String (List Migration)
  | [] => .ok []
  | r :: rs =>
    if outOfRange spec eligible r.index then .error (indexPanic (r.index.tmod eligible.length))
    else
      match placeReplica deployment spec eligible r.index counts with
      | .error e => .error ("drain " ++ hostname ++ ": service " ++ deployment ++ "/" ++ r.service ++
          " has no remaining eligible host: " ++ e.message)
      | .ok newHost =>
        (placeAll hostname deployment spec eligible (fun h => if h = newHost then counts h + 1 else counts h) rs).map
          (fun ms => ⟨r.id, deployment, r.service, hostname, newHost, r.image⟩ :: ms)

def planService (hostname : String) (remaining : List Node) (deployments : List Deployment)
    (replicas : List ReplicaDesired) (k : String × String) : Except String (List Migration) :=
  match specOf deployments k.1 k.2 with
  | none => .ok []
  | some spec =>
    if spec.placement = .global then .ok []
    else
      let mine := replicas.filter (fun r => r.deployment = k.1 && r.service = k.2)
      let counts := fun h => mine.countP (fun r => r.host ≠ hostname && r.host = h)
      placeAll hostname k.1 spec (eligibleHosts spec remaining) counts (mine.filter (·.host = hostname))

def plan (hostname : String) (nodes : List Node) (replicas : List ReplicaDesired) (deployments : List Deployment) :
    Except String (List Migration) :=
  if hostname = "" then .error "Plan: hostname is required"
  else
    let remaining := nodes.filter (·.hostname ≠ hostname)
    ((replicas.map (fun r => (r.deployment, r.service))).dedup.mapM
      (planService hostname remaining deployments replicas)).map List.flatten

def migrationCommand (hostname : String) (now : Timestamp) (m : Migration) : Command :=
  .single
    { identity := "drain:" ++ hostname, ts := some now
      payload := .replicaDesiredUpsert (some
        { id := m.replicaID, deployment := m.deployment, service := m.service, host := m.toHost, image := m.image }) }

def applyMigrations (hostname : String) (now : Timestamp) : List Migration → Task (Except Status Unit)
  | [] => pure (.ok ())
  | m :: ms => do
    let ok ← Program.send (migrationCommand hostname now m)
    if ok then applyMigrations hostname now ms else pure (.error ⟨.internal, "drain_apply_failed", ""⟩)

def drainHost (hostname : String) : Task (Except Status Unit) := do
  let nodes ← Program.read (fun w => w.listing w.state.nodes)
  let replicas ← Program.read (fun w => w.listing w.state.replicasDesired)
  let deployments ← Program.read (fun w => w.listing w.state.deployments)
  match plan hostname nodes replicas deployments with
  | .error e => pure (.error ⟨.failedPrecondition, "drain_no_placement", e⟩)
  | .ok ms =>
    let now ← clock
    applyMigrations hostname now ms

end Drain

section Rebalance

/-- The verdicts of the pressure arithmetic: which host is hot enough and where its replicas could go, which
replica still cools down, what a move would score and what its audit entry says. -/
structure Judge where
  hot : List Node → Timestamp → Option (String × List String)
  cooling : ReplicaDesired → Timestamp → Bool
  score : ReplicaDesired → Option ServiceSpec → String → Nat → Timestamp → Option ℚ
  report : ReplicaDesired → String → StringMap

structure Scored where
  replica : ReplicaDesired
  dst : String
  score : ℚ

def better (a b : Scored) : Bool := b.score < a.score || (a.score = b.score && a.replica.id ≤ b.replica.id)

def emitAudit (type : AuditEventType) (payload : StringMap) : Task Bool := do
  let now ← clock
  Program.send (.single
    { identity := "scheduler/rebalance", ts := some now
      payload := .auditAppend (some { raftIndex := 0, type := type, identity := "", ts := none, payload := payload }) })

def commitMove (c : Scored) : Task Bool := do
  let now ← clock
  Program.send (.single
    { identity := "scheduler/rebalance", ts := some now
      payload := .replicaDesiredUpsert (some { c.replica with host := c.dst }) })

def serviceSpec (rep : ReplicaDesired) (w : World) : Option ServiceSpec :=
  (w.state.deployments.get rep.deployment).bind (fun d => d.services.find? (·.name = rep.service))

variable (J : Judge)

def weighMove (now : Timestamp) (rep : ReplicaDesired) (spec : Option ServiceSpec) (placed : List ReplicaDesired)
    (survived : List Scored) (dst : String) : Task (List Scored) :=
  let sameService := placed.countP (fun r =>
    r.host = dst && r.deployment = rep.deployment && r.service = rep.service)
  match J.score rep spec dst sameService now with
  | some score => pure (survived ++ [⟨rep, dst, score⟩])
  | none => do
    let _ ← emitAudit .rebalanceSkipped (J.report rep dst)
    pure survived

def weighReplica (now : Timestamp) (hotHost : String) (dsts : List String) (placed : List ReplicaDesired)
    (survived : List Scored) (rep : ReplicaDesired) : Task (List Scored) :=
  if rep.host ≠ hotHost then pure survived
  else do
    let spec ← Program.read (serviceSpec rep)
    if J.cooling rep now then
      let _ ← emitAudit .rebalanceSkipped (J.report rep "")
      pure survived
    else dsts.foldlM (weighMove J now rep spec placed) survived

def cycle : Task Unit := do
  let leader ← Program.read World.leader
  if !leader then pure ()
  else
    let now ← clock
    let nodes ← Program.read (fun w => w.listing w.state.nodes)
    match J.hot nodes now with
    | none => pure ()
    | some (hotHost, dsts) =>
      let placed ← Program.read (fun w => w.listing w.state.replicasDesired)
      let replicas ← Program.read (fun w => w.listing w.state.replicasDesired)
      let survived ← replicas.foldlM (weighReplica J now hotHost dsts placed) []
      match (survived.insertionSort (fun a b => better a b)).head? with
      | none => pure ()
      | some winner =>
        let ok ← commitMove winner
        if ok then
          let _ ← emitAudit .rebalanceMoved (J.report winner.replica winner.dst)
          pure ()
        else pure ()

end Rebalance

section Submissions

def Relocates (R : World → Prop) : Payload → Prop
  | .auditAppend _ => True
  | .replicaDesiredUpsert (some r) => ∃ w, R w ∧ ∃ r₀, w.state.replicasDesired.get r₀.id = some r₀ ∧
      r.deployment = r₀.deployment
  | _ => False

variable {R : World → Prop}

def Placed (hostname deployment : String) (spec : ServiceSpec) (eligible : List String) (r : ReplicaDesired)
    (m : Migration) : Prop :=
  ∃ counts newHost, placeReplica deployment spec eligible r.index counts = .ok newHost ∧
    m = ⟨r.id, deployment, r.service, hostname, newHost, r.image⟩

theorem placeAll_cons {hostname deployment : String} {spec : ServiceSpec} {eligible : List String}
    {counts : String → Nat} {r : ReplicaDesired} {rs : List ReplicaDesired} {ms : List Migration}
    (h : placeAll hostname deployment spec eligible counts (r :: rs) = .ok ms) :
    ∃ newHost rest, placeReplica deployment spec eligible r.index counts = .ok newHost ∧
      placeAll hostname deployment spec eligible (fun x => if x = newHost then counts x + 1 else counts x) rs =
      .ok rest ∧
      ms = ⟨r.id, deployment, r.service, hostname, newHost, r.image⟩ :: rest := by
  rw [placeAll] at h
  split at h
  · cases h
  · split at h
    · cases h
    · rename_i newHost hplace
      cases hrest : placeAll hostname deployment spec eligible
          (fun x => if x = newHost then counts x + 1 else counts x) rs with
      | error e =>
        rw [hrest] at h
        cases h
      | ok rest =>
        rw [hrest] at h
        cases h
        exact ⟨newHost, rest, hplace, hrest, rfl⟩

theorem placeAll_spec (hostname deployment : String) (spec : ServiceSpec) (eligible : List String)
    (counts : String → Nat) (rs : List ReplicaDesired) (ms : List Migration)
    (h : placeAll hostname deployment spec eligible counts rs = .ok ms) :
    List.Forall₂ (Placed hostname deployment spec eligible) rs ms := by
  induction rs generalizing counts ms with
  | nil =>
    cases h
    exact .nil
  | cons r rs ih =>
    obtain ⟨newHost, rest, hplace, hrest, rfl⟩ := placeAll_cons h
    exact .cons ⟨counts, newHost, hplace, rfl⟩ (ih _ rest hrest)

def Evicted (hostname : String) (deployments : List Deployment) (r : ReplicaDesired) (spec : ServiceSpec) : Prop :=
  r.host = hostname ∧ specOf deployments r.deployment r.service = some spec ∧ spec.placement ≠ .global

theorem planService_spec {hostname : String} {remaining : List Node} {deployments : List Deployment}
    {replicas : List ReplicaDesired} {k : String × String} {ms : List Migration}
    (h : planService hostname remaining deployments replicas k = .ok ms) {spec : ServiceSpec}
    (hspec : specOf deployments k.1 k.2 = some spec) (hglobal : spec.placement ≠ .global) :
    List.Forall₂ (Placed hostname k.1 spec (eligibleHosts spec remaining))
      ((replicas.filter (fun r => r.deployment = k.1 && r.service = k.2)).filter (·.host = hostname)) ms := by
  rw [planService, hspec] at h
  dsimp only at h
  rw [if_neg hglobal] at h
  exact placeAll_spec hostname k.1 spec _ _ _ ms h

theorem planService_moves {hostname : String} {remaining : List Node} {deployments : List Deployment}
    {replicas : List ReplicaDesired} {k : String × String} {ms : List Migration}
    (h : planService hostname remaining deployments replicas k = .ok ms) {m : Migration} (hm : m ∈ ms) :
    ∃ r ∈ replicas, ∃ spec, Evicted hostname deployments r spec ∧
      Placed hostname r.deployment spec (eligibleHosts spec remaining) r m := by
  cases hspec : specOf deployments k.1 k.2 with
  | none =>
    rw [planService, hspec] at h
    cases h
    cases hm
  | some spec =>
    by_cases hglobal : spec.placement = .global
    · rw [planService, hspec] at h
      dsimp only at h
      rw [if_pos hglobal] at h
      cases h
      cases hm
    · obtain ⟨r, hr, hplaced⟩ := exists_left_of_forall₂ (planService_spec h hspec hglobal) hm
      simp only [mem_filter, Bool.and_eq_true, decide_eq_true_eq] at hr
      obtain ⟨⟨hr, hdep, hsvc⟩, hhost⟩ := hr
      refine ⟨r, hr, spec, ⟨hhost, ?_, hglobal⟩, ?_⟩
      · rw [hdep, hsvc]
        exact hspec
      · rw [hdep]
        exact hplaced

theorem placed_elsewhere {hostname deployment : String} {spec : ServiceSpec} {nodes : List Node} {r : ReplicaDesired}
    {m : Migration}
    (h : Placed hostname deployment spec (eligibleHosts spec (nodes.filter (·.hostname ≠ hostname))) r m) :
    m.toHost ≠ hostname := by
  obtain ⟨counts, newHost, hplace, rfl⟩ := h
  have hmem := placeReplica_mem hplace
  have hready : newHost ∈ ((nodes.filter (·.hostname ≠ hostname)).filter (·.status = .ready)).map (·.hostname) := by
    rw [eligibleHosts, sortNames, (perm_insertionSort _ _).mem_iff] at hmem
    split at hmem
    · exact (mem_filter.1 hmem).1
    · exact hmem
  obtain ⟨n, hn, rfl⟩ := mem_map.1 hready
  exact of_decide_eq_true (mem_filter.1 (mem_filter.1 hn).1).2

section

variable {hostname : String} {nodes : List Node} {replicas : List ReplicaDesired} {deployments : List Deployment}
  {ms : List Migration} (h : plan hostname nodes replicas deployments = .ok ms)

include h

theorem plan_ok : hostname ≠ "" ∧ ∃ groups,
    (replicas.map (fun r => (r.deployment, r.service))).dedup.mapM
      (planService hostname (nodes.filter (·.hostname ≠ hostname)) deployments replicas) = .ok groups ∧
    ms = groups.flatten := by
  unfold plan at h
  split at h
  · cases h
  · rename_i hname
    dsimp only at h
    cases hgroups : (replicas.map (fun r => (r.deployment, r.service))).dedup.mapM
        (planService hostname (nodes.filter (·.hostname ≠ hostname)) deployments replicas) with
    | error e =>
      rw [hgroups] at h
      cases h
    | ok groups =>
      rw [hgroups] at h
      cases h
      exact ⟨hname, groups, rfl, rfl⟩

theorem plan_moves (m : Migration) (hm : m ∈ ms) : ∃ r ∈ replicas, ∃ spec, Evicted hostname deployments r spec ∧
      Placed hostname r.deployment spec (eligibleHosts spec (nodes.filter (·.hostname ≠ hostname))) r m := by
  obtain ⟨-, groups, hgroups, rfl⟩ := plan_ok h
  obtain ⟨group, hgroup, hmg⟩ := mem_flatten.1 hm
  obtain ⟨k, -, hplan⟩ := exists_of_mem_mapM _ _ groups hgroups group hgroup
  exact planService_moves hplan hmg

theorem plan_covers (r : ReplicaDesired) (hr : r ∈ replicas) (spec : ServiceSpec)
    (hevicted : Evicted hostname deployments r spec) : ∃ m ∈ ms, m.replicaID = r.id := by
  obtain ⟨hhost, hspec, hglobal⟩ := hevicted
  obtain ⟨-, groups, hgroups, rfl⟩ := plan_ok h
  have hk : (r.deployment, r.service) ∈ (replicas.map (fun r => (r.deployment, r.service))).dedup :=
    mem_dedup.2 (mem_map_of_mem hr)
  obtain ⟨group, hgroup, hplan⟩ := mem_mapM_of_mem _ _ groups hgroups _ hk
  have hmem : r ∈ (replicas.filter (fun x => x.deployment = r.deployment && x.service = r.service)).filter
      (·.host = hostname) := by
    simp [hr, hhost]
  obtain ⟨m, hm, counts, newHost, -, rfl⟩ :=
    exists_left_of_forall₂ (planService_spec hplan hspec hglobal).flip hmem
  exact ⟨_, mem_flatten.2 ⟨group, hgroup, hm⟩, rfl⟩

theorem plan_deployment : ∀ m ∈ ms, ∃ r ∈ replicas, m.deployment = r.deployment := by
  intro m hm
  obtain ⟨r, hr, spec, -, counts, newHost, -, rfl⟩ := plan_moves h m hm
  exact ⟨r, hr, rfl⟩

end

theorem listed_within {G : Command → Prop} :
    Within R G (fun rs => ∃ w, R w ∧ ∀ r ∈ rs, w.state.replicasDesired.get r.id = some r)
      (Program.read (fun w => w.listing w.state.replicasDesired)) :=
  within_read _ (fun w hw => ⟨w, hw, fun r hr => (mem_listing w _ r).1 hr⟩)

theorem applyMigrations_within {hostname : String} {now : Timestamp} {ms : List Migration}
    (hms : ∀ m ∈ ms, ∃ w, R w ∧ ∃ r₀, w.state.replicasDesired.get r₀.id = some r₀ ∧ m.deployment = r₀.deployment) :
    Within R (Allows (Relocates R)) (fun _ => True) (applyMigrations hostname now ms) := by
  induction ms with
  | nil => exact within_ret trivial
  | cons m ms ih =>
    refine within_bind_any (within_send (allows_single (hms m mem_cons_self))) (fun ok => ?_)
    split
    · exact ih (fun m' hm' => hms m' (mem_cons_of_mem m hm'))
    · exact within_ret trivial

theorem drainHost_within (hostname : String) :
    Within R (Allows (Relocates R)) (fun _ => True) (drainHost hostname) := by
  refine within_look (fun nodes => ?_)
  refine within_bind listed_within (fun replicas hreplicas => ?_)
  obtain ⟨w, hw, hstored⟩ := hreplicas
  refine within_look (fun deployments => ?_)
  split
  · exact within_ret trivial
  · rename_i ms hplan
    refine within_look (fun now => applyMigrations_within (fun m hm => ?_))
    obtain ⟨r, hr, hd⟩ := plan_deployment hplan m hm
    exact ⟨w, hw, r, hstored r hr, hd⟩

theorem emitAudit_within {type : AuditEventType} {payload : StringMap} :
    Within R (Allows (Relocates R)) (fun _ => True) (emitAudit type payload) :=
  within_look (fun _ => within_send (allows_single trivial))

def ReadFrom (w : World) (survived : List Scored) : Prop :=
  ∀ c ∈ survived, w.state.replicasDesired.get c.replica.id = some c.replica

theorem weighMove_within {J : Judge} {now : Timestamp} {w : World} {rep : ReplicaDesired}
    (hrep : w.state.replicasDesired.get rep.id = some rep) (spec : Option ServiceSpec) (placed : List ReplicaDesired)
    {survived : List Scored} (hs : ReadFrom w survived) (dst : String) :
    Within R (Allows (Relocates R)) (ReadFrom w) (weighMove J now rep spec placed survived dst) := by
  unfold weighMove
  dsimp only
  split
  · exact within_ret (Runs.forall_mem_snoc hs hrep)
  · exact within_bind_any emitAudit_within (fun _ => within_ret hs)

theorem weighReplica_within {J : Judge} {now : Timestamp} (hotHost : String) (dsts : List String) {w : World}
    (placed : List ReplicaDesired) {survived : List Scored} (hs : ReadFrom w survived) {rep : ReplicaDesired}
    (hrep : w.state.replicasDesired.get rep.id = some rep) :
    Within R (Allows (Relocates R)) (ReadFrom w) (weighReplica J now hotHost dsts placed survived rep) := by
  unfold weighReplica
  split
  · exact within_ret hs
  · refine within_look (fun spec => ?_)
    split
    · exact within_bind_any emitAudit_within (fun _ => within_ret hs)
    · exact within_foldlM _ dsts survived hs
        (fun dst _ survived' hs' => weighMove_within hrep spec placed hs' dst)

theorem cycle_within (J : Judge) : Within R (Allows (Relocates R)) (fun _ => True) (cycle J) := by
  refine within_look (fun leader => ?_)
  split
  · exact within_ret trivial
  · refine within_look (fun now => ?_)
    refine within_look (fun nodes => ?_)
    split
    · exact within_ret trivial
    · rename_i hotHost dsts _
      refine within_look (fun placed => ?_)
      refine within_bind listed_within (fun replicas hreplicas => ?_)
      obtain ⟨w, hw, hstored⟩ := hreplicas
      refine within_bind (Q := ReadFrom w) ?_ (fun survived hs => ?_)
      · exact within_foldlM _ replicas [] (fun c hc => by cases hc)
          (fun rep hrep survived hs => weighReplica_within hotHost dsts placed hs (hstored rep hrep))
      · split
        · exact within_ret trivial
        · rename_i winner hwinner
          have hmem : winner ∈ survived := (perm_insertionSort _ survived).mem_iff.1 (mem_of_mem_head? hwinner)
          refine within_bind_any (Q := fun _ => True) ?_ (fun ok => ?_)
          · exact within_look (fun _ => within_send (allows_single ⟨w, hw, winner.replica, hs winner hmem, rfl⟩))
          · split
            · exact within_bind_any emitAudit_within (fun _ => within_ret trivial)
            · exact within_ret trivial

end Submissions

end Jaco.Relocation
