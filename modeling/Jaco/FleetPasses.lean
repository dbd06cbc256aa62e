import Jaco.ReplicaIds
import Jaco.ReplicaRepairs
import Jaco.Transcript

namespace Jaco.Scheduler

open Interleaving Placement Rollout ReplicaIds List Store

def Enrolled (F : Fleet) (deployment : String) (svc : ServiceSpec) : Prop :=
  if svc.placement = .global then (deployment, svc.name) ∈ F.global
  else (deployment, svc.name, svc.replicas.toNat) ∈ F.numbered

def Seated (F : Fleet) (r : ReplicaDesired) : Prop :=
  ∃ p, F.Has ⟨r.deployment, r.service, p⟩ ∧ r.id = (⟨r.deployment, r.service, p⟩ : Seat).id ∧
    ∀ h, p = .host h → r.host = h

structure Drawn (F : Fleet) (s : State) : Prop where
  services : ∀ dep svc, Declares s dep svc → Enrolled F dep.name svc
  names : ∀ dep ∈ s.deployments.list, (dep.services.map (·.name)).Nodup
  hosts : ∀ n ∈ s.nodes.list, n.hostname ∈ F.hosts
  replicas : ∀ r ∈ s.replicasDesired.list, Seated F r

def TouchesOnly (F : Fleet) (d s : String) (c : Command) : Prop :=
  ∀ idx st, Drawn F st → ∀ id r, (r.deployment, r.service) ≠ (d, s) →
    ((c.apply idx st).replicasDesired.get id = some r ↔ st.replicasDesired.get id = some r)

inductive Orderly (F : Fleet) : Payload → Prop
  | aside (p : Payload) (h : Harmless p) (hn : Part.nodes ∉ writes p) : Orderly F p
  | upsert (r : ReplicaDesired) (h : Seated F r) : Orderly F (.replicaDesiredUpsert (some r))
  | remove (id : String) : Orderly F (.replicaDesiredRemove id)

section Commands

variable {F : Fleet}

theorem get_upsertCommand (now : Timestamp) (r : ReplicaDesired) (idx : Nat) (s : State) (id : String) :
    ((upsertCommand now r).apply idx s).replicasDesired.get id =
      if r.id = id then some { r with raftIndex := idx } else s.replicasDesired.get id :=
  get_putReplica s r idx id

theorem get_removeCommand (now : Timestamp) (id' : String) (idx : Nat) (s : State) (id : String) :
    ((removeCommand now id').apply idx s).replicasDesired.get id =
      if id' = id then none else s.replicasDesired.get id :=
  get_remove s.replicasDesired id' id

theorem replicas_markDeploymentPending (name reason : String) (now : Timestamp) (idx : Nat) (s : State) :
    ((markDeploymentPending name reason now).apply idx s).replicasDesired = s.replicasDesired :=
  applyEntry_agree idx s _ .replicasDesired (by simp [writes]) (by decide)

variable {r : ReplicaDesired}

theorem seated_of_get {s : State} (hs : Drawn F s) {id : String}
    (hget : s.replicasDesired.get id = some r) : Seated F r :=
  hs.replicas r (mem_list_of_get hget)

theorem owner_of_id (hF : F.Distinct) {r' : ReplicaDesired} (h : Seated F r) (h' : Seated F r') (hid : r.id = r'.id) :
    (r.deployment, r.service) = (r'.deployment, r'.service) ∧ (∀ d s h, F.Has ⟨d, s, .host h⟩ →
      r.id = (⟨d, s, .host h⟩ : Seat).id → r.host = h) := by
  obtain ⟨p, hp, hrid, hhost⟩ := h
  obtain ⟨p', hp', hrid', -⟩ := h'
  have hseat := hF _ _ hp hp' (hrid.symm.trans (hid.trans hrid'))
  refine ⟨Prod.ext (congrArg Seat.deployment hseat) (congrArg Seat.service hseat), fun d s h hh hidh => ?_⟩
  exact hhost h (congrArg Seat.place (hF _ _ hp hh (hrid.symm.trans hidh)))

theorem touches_upsert (hF : F.Distinct) (hr : Seated F r) (now : Timestamp) :
    TouchesOnly F r.deployment r.service (upsertCommand now r) := by
  intro idx s hs id r' hne
  rw [get_upsertCommand]
  split
  · rename_i hid
    constructor
    · rintro ⟨rfl⟩
      exact absurd rfl hne
    · intro hget
      have hid' : r'.id = r.id := (get_key hget).trans hid.symm
      exact absurd (owner_of_id hF (seated_of_get hs hget) hr hid').1 hne
  · exact Iff.rfl

theorem touches_remove (hF : F.Distinct) (hr : Seated F r) (now : Timestamp) :
    TouchesOnly F r.deployment r.service (removeCommand now r.id) := by
  intro idx s hs id r' hne
  rw [get_removeCommand]
  split
  · rename_i hid
    refine ⟨nofun, fun hget => ?_⟩
    have hid' : r'.id = r.id := (get_key hget).trans hid.symm
    exact absurd (owner_of_id hF (seated_of_get hs hget) hr hid').1 hne
  · exact Iff.rfl

theorem touches_pending (d s name reason : String) (now : Timestamp) :
    TouchesOnly F d s (markDeploymentPending name reason now) := by
  intro idx st _ id r _
  rw [replicas_markDeploymentPending]

theorem orderly_status (u : DeploymentStatusUpdate) : Orderly F (.deploymentStatusUpdate u) :=
  .aside _ (by simp [Harmless, writes, NoApply]) (by simp [writes])

theorem drawn_entry (idx : Nat) (s : State) (e : Entry) (he : Orderly F e.payload) (hs : Drawn F s) :
    Drawn F (applyEntry idx s e) := by
  have hno : ∀ n, NoApply n e.payload := by
    intro n
    generalize e.payload = p at he
    cases he with
    | aside p h hn => exact h.2 n
    | upsert r h => trivial
    | remove id => trivial
  have hnodes : (applyEntry idx s e).nodes = s.nodes := by
    refine applyEntry_agree idx s e .nodes ?_ (by decide)
    generalize e.payload = p at he
    cases he with
    | aside p h hn => exact hn
    | upsert r h => simp [writes]
    | remove id => simp [writes]
  have hdeps : ∀ dep, (applyEntry idx s e).deployments.get dep.name = some dep → ∃ d₀,
      s.deployments.get dep.name = some d₀ ∧ dep.services = d₀.services := by
    intro dep hdep
    obtain ⟨d₀, hd₀, -, hsvc⟩ := get_deployments_entry idx s e (hno dep.name) hdep
    exact ⟨d₀, hd₀, hsvc⟩
  refine ⟨?_, ?_, ?_, ?_⟩
  · rintro dep svc ⟨hdep, hsvc⟩
    obtain ⟨d₀, hd₀, hservices⟩ := hdeps dep hdep
    have hname : d₀.name = dep.name := get_key hd₀
    rw [← hname]
    exact hs.services d₀ svc ⟨hname ▸ hd₀, hservices ▸ hsvc⟩
  · intro dep hdep
    obtain ⟨d₀, hd₀, hservices⟩ := hdeps dep (mem_list.1 hdep)
    rw [hservices]
    exact hs.names d₀ (mem_list_of_get hd₀)
  · rw [hnodes]
    exact hs.hosts
  · intro r hr
    rcases get_replicasDesired_entry (mem_list.1 hr) with hold | ⟨r₀, hp, rfl⟩
    · exact seated_of_get hs hold
    · rw [hp] at he
      cases he with
      | aside p h hn => exact absurd (by simp [writes]) h.1
      | upsert r h => exact h

end Commands

section Walk

variable (P : Parsers) (R : World → Prop) (deps : List Deployment)

def Listed : Prop := ∃ w, R w ∧ ∀ dep ∈ deps, w.state.deployments.get dep.name = some dep

structure Places (p : Pass) (desired : List DesiredReplica) : Prop where
  dep : p.dep ∈ deps
  svc : p.svc ∈ p.dep.services
  eligible : ∃ w, R w ∧ p.eligible = hostsIn w.state p.svc
  current : ∃ w, R w ∧ ∀ r, r ∈ p.current ↔
    w.state.replicasDesired.get r.id = some r ∧ r.deployment = p.dep.name ∧ r.service = p.svc.name
  desired : ∃ counts, desiredReplicas p.dep p.svc p.eligible counts = .ok desired

inductive Tells : ServicePass → Prop
  | blocked (dep : Deployment) (svc : ServiceSpec) (reason : String) (now : Timestamp) (hdep : dep ∈ deps)
      (hsvc : svc ∈ dep.services)
      (h : (∃ project, P.loadCompose dep.composeYaml = .ok project ∧ lookupImage project svc.name = "") ∨
        svc.placement ≠ .global) : Tells (blocked dep svc reason now)
  | placed (p : Pass) (desired : List DesiredReplica) (h : Places R deps p desired) :
      Tells ⟨p.dep.name, p.svc.name, p.rolloutStep, p.commands desired⟩

inductive Aside : Command → Prop
  | pending (name reason : String) (now : Timestamp) : Aside (markDeploymentPending name reason now)
  | stale (dep : Deployment) (r : ReplicaDesired) (now : Timestamp) (hdep : dep ∈ deps)
      (hr : ∃ w, R w ∧ w.state.replicasDesired.get r.id = some r) (howner : r.deployment = dep.name)
      (hsvc : r.service ∉ dep.services.map (·.name)) : Aside (removeCommand now r.id)

structure Told (round : Round) : Prop where
  services : ∀ sp ∈ round.services, Tells P R deps sp
  batch : ∀ c ∈ round.batch, Aside R deps c ∨ ∃ sp ∈ round.services, c ∈ sp.commands
  served : ∀ sp ∈ round.services, ∀ c ∈ sp.commands, c ∈ round.batch

inductive Child : Command → Prop
  | pending (name reason : String) (now : Timestamp) : Child (markDeploymentPending name reason now)
  | stale (dep : Deployment) (r : ReplicaDesired) (now : Timestamp) (hdep : dep ∈ deps)
      (hr : ∃ w, R w ∧ w.state.replicasDesired.get r.id = some r) (howner : r.deployment = dep.name)
      (hsvc : r.service ∉ dep.services.map (·.name)) : Child (removeCommand now r.id)
  | put (p : Pass) (desired : List DesiredReplica) (d : DesiredReplica) (h : Places R deps p desired)
      (hd : d ∈ desired) : Child (upsertCommand p.now (p.replica d))
  | drop (p : Pass) (desired : List DesiredReplica) (r : ReplicaDesired) (h : Places R deps p desired)
      (hr : r ∈ p.current) (hid : r.id ∉ desired.map (·.id)) : Child (removeCommand p.now r.id)

variable {P R deps}

theorem told_empty : Told P R deps {} := ⟨nofun, nofun, nofun⟩

variable {round : Round} {dep : Deployment} {nodes : List Node}

theorem child_of_told {c : Command} (h : Told P R deps round) (hc : c ∈ round.batch) : Child R deps c := by
  rcases h.batch c hc with haside | ⟨sp, hsp, hc⟩
  · cases haside with
    | pending name reason now => exact .pending name reason now
    | stale dep r now hdep hr howner hsvc => exact .stale dep r now hdep hr howner hsvc
  · cases h.services sp hsp with
    | blocked dep svc reason now hdep hsvc h =>
      cases mem_singleton.1 hc
      exact .pending _ _ now
    | placed p desired hplaces =>
      rcases mem_append.1 hc with hc | hc
      · obtain ⟨r, hr, rfl⟩ := mem_map.1 hc
        obtain ⟨d, hd, rfl, -⟩ := mem_upserts p false desired r hr
        exact .put p desired d hplaces hd
      · obtain ⟨id, hid, rfl⟩ := mem_map.1 hc
        obtain ⟨hmem, hnot⟩ := mem_filter.1 hid
        obtain ⟨r, hr, rfl⟩ := mem_map.1 hmem
        exact .drop p desired r hplaces hr (of_decide_eq_true hnot)

theorem told_aside (h : Told P R deps round) {cs : List Command} (hcs : ∀ c ∈ cs, Aside R deps c) :
    Told P R deps { round with batch := round.batch ++ cs } := by
  exact ⟨h.services, forall_mem_append.2 ⟨h.batch, fun c hc => .inl (hcs c hc)⟩,
    fun sp hsp c hc => mem_append_left _ (h.served sp hsp c hc)⟩

theorem told_service (h : Told P R deps round) {sp : ServicePass} (hsp : Tells P R deps sp) :
    Told P R deps { batch := round.batch ++ sp.commands, services := round.services ++ [sp] } := by
  refine ⟨Runs.forall_mem_snoc h.services hsp, fun c hc => ?_, fun sp' hsp' c hc => ?_⟩
  · rcases mem_append.1 hc with hc | hc
    · refine (h.batch c hc).imp_right (fun ⟨sp', hsp', hc'⟩ => ⟨sp', mem_append_left _ hsp', hc'⟩)
    · exact .inr ⟨sp, mem_append_right _ (mem_singleton_self sp), hc⟩
  · rcases mem_append.1 hsp' with hsp' | hsp'
    · exact mem_append_left _ (h.served sp' hsp' c hc)
    · cases mem_singleton.1 hsp'
      exact mem_append_right _ hc

theorem reconcileService_tells {svc : ServiceSpec} (hdep : dep ∈ deps) (hsvc : svc ∈ dep.services)
    (hnodes : ∃ w, R w ∧ nodes.Perm w.state.nodes.list) {project : Project}
    (hload : P.loadCompose dep.composeYaml = .ok project) (specHash : Bytes) :
    Within R (Allows RolloutStep) (Tells P R deps) (reconcileService dep svc nodes project specHash) := by
  refine within_look (fun now => ?_)
  dsimp only
  split
  · rename_i himage
    exact within_ret (.blocked dep svc _ now hdep hsvc (.inl ⟨project, hload, himage⟩))
  · refine within_bind (Q := fun rs => ∃ w, R w ∧ ∀ r, r ∈ rs ↔
      w.state.replicasDesired.get r.id = some r ∧ r.deployment = dep.name ∧ r.service = svc.name)
      (within_read _ (fun w hw => ⟨w, hw, fun r => ?_⟩)) (fun current hcurrent => ?_)
    · rw [mem_filter, mem_listing]
      simp
    · split
      · rename_i e he
        refine within_ret (.blocked dep svc _ now hdep hsvc (.inr (fun hglobal => ?_)))
        rw [desiredReplicas, if_pos hglobal] at he
        cases he
      · rename_i desired hdesired
        refine within_bind_any (within_weaken (drivenStep_drives dep svc _ _)
          (fun c hc => allows_mono (fun _ h => rolloutStep_drives h) hc)) (fun step => within_ret ?_)
        let p : Pass := ⟨dep, svc, lookupImage project svc.name, specHash, eligibleHosts svc nodes, current,
          isRollingImageChange current (lookupImage project svc.name), step, now⟩
        obtain ⟨w, hw, hperm⟩ := hnodes
        exact .placed p desired ⟨hdep, hsvc, ⟨w, hw, eligibleHosts_perm svc hperm⟩, hcurrent, _, hdesired⟩

theorem reconcileDeclared_tells {svc : ServiceSpec} (hdep : dep ∈ deps) (hsvc : svc ∈ dep.services)
    (hnodes : ∃ w, R w ∧ nodes.Perm w.state.nodes.list) {project : Project}
    (hload : P.loadCompose dep.composeYaml = .ok project) (hround : Told P R deps round) :
    Within R (Allows RolloutStep) (Told P R deps) (reconcileDeclared P dep nodes project round svc) := by
  unfold reconcileDeclared
  split
  · refine within_look (fun now => within_ret (told_aside hround (fun c hc => ?_)))
    cases mem_singleton.1 hc
    exact .pending _ _ now
  · exact within_bind (reconcileService_tells hdep hsvc hnodes hload _)
      (fun sp hsp => within_ret (told_service hround hsp))

theorem reconcileDeployment_tells (hdep : dep ∈ deps) (hnodes : ∃ w, R w ∧ nodes.Perm w.state.nodes.list)
    (aborted : List String)
    (hround : Told P R deps round) :
    Within R (Allows RolloutStep) (Told P R deps) (reconcileDeployment P nodes aborted round dep) := by
  unfold reconcileDeployment
  split
  · exact within_ret hround
  · split
    · refine within_look (fun now => within_ret (told_aside hround (fun c hc => ?_)))
      cases mem_singleton.1 hc
      exact .pending _ _ now
    · rename_i project hload
      refine within_bind (Q := fun rs => ∃ w, R w ∧ ∀ r ∈ rs, w.state.replicasDesired.get r.id = some r ∧
        r.deployment = dep.name ∧ r.service ∉ dep.services.map (·.name))
        (within_read _ (fun w hw => ⟨w, hw, fun r hr => ?_⟩)) (fun stale hstale => ?_)
      · obtain ⟨hmem, howner⟩ := mem_filter.1 hr
        rw [Bool.and_eq_true, decide_eq_true_eq, decide_eq_true_eq] at howner
        exact ⟨(mem_listing w _ r).1 hmem, howner⟩
      · obtain ⟨w, hw, hstale⟩ := hstale
        refine within_look (fun now => ?_)
        refine within_foldlM _ dep.services _ (told_aside hround (fun c hc => ?_)) (fun svc hsvc round hround => ?_)
        · obtain ⟨r, hr, rfl⟩ := mem_map.1 hc
          obtain ⟨hget, howner, hnot⟩ := hstale r hr
          exact .stale dep r now hdep ⟨w, hw, hget⟩ howner hnot
        · exact reconcileDeclared_tells hdep hsvc hnodes hload hround

theorem rounds_tell (aborted : List String) (hnodes : ∃ w, R w ∧ nodes.Perm w.state.nodes.list) :
    Within R (Allows RolloutStep) (Told P R deps) (deps.foldlM (reconcileDeployment P nodes aborted) {}) :=
  within_foldlM _ deps _ told_empty (fun _ hmem _ hround => reconcileDeployment_tells hmem hnodes aborted hround)

def reckon (P : Parsers) (aborted : List String) : Task Round := do
  let deployments ← Program.read (fun w => w.listing w.state.deployments)
  let nodes ← Program.read (fun w => w.listing w.state.nodes)
  deployments.foldlM (reconcileDeployment P nodes aborted) {}

theorem reckon_tells (aborted : List String) :
    Within R (Allows RolloutStep) (fun round => ∃ deps, Listed R deps ∧ Told P R deps round) (reckon P aborted) := by
  refine within_bind (Q := Listed R) (within_read _ (fun w hw => ⟨w, hw, fun dep h => (mem_listing w _ dep).1 h⟩))
    (fun deps hdeps => ?_)
  refine within_bind (Q := fun nodes => ∃ w, R w ∧ nodes.Perm w.state.nodes.list)
    (within_read _ (fun w hw => ⟨w, hw, listing_perm w _⟩)) (fun nodes hnodes => ?_)
  exact within_mono (rounds_tell aborted hnodes) (fun round hround => ⟨deps, hdeps, hround⟩)

end Walk

end Jaco.Scheduler
