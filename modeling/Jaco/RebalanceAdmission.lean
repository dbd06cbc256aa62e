import Jaco.HostMoves
import Jaco.RebalanceLures
import Jaco.RebalanceRuns

namespace Jaco.Rebalance

open Interleaving Scheduler List

variable {K : Type} [Field K] [LinearOrder K] (F : Floats K)

def Commits (w : World) (m : ReplicaDesired) (w' : World) : Prop :=
  ∃ (src : Source K) (r : Rebalancer K) (gs : List (Gap Others)) (fate : Fate), r.cfg = defaultConfig ∧ Calm Inert gs ∧
    (m, fate) ∈ movesIn (record cluster (cycle F src r) gs ⟨w, []⟩) ∧ fate ≠ .lost ∧
    w' = (exec cluster (cycle F src r) gs ⟨w, []⟩).2.2.now

theorem movable_of_commits [IsStrictOrderedRing K] {w w' : World} {m : ReplicaDesired} (h : Commits F w m w') :
    Landed w.state m w' ∧ ∃ rep dst, Movable w.state rep dst ∧ m = { rep with host := dst } := by
  obtain ⟨src, r, gs, fate, hcfg, hgs, hm, hfate, rfl⟩ := h
  obtain ⟨c, now, rfl, hpasses, hlanded⟩ := cycle_inert F src r w hgs hm
  exact ⟨hlanded hfate, c.replica, c.dst, movable_of_passes hpasses hcfg, rfl⟩

variable {rep : ReplicaDesired} {dst : String} {s : State}

theorem commits_of_movable [IsStrictOrderedRing K] {w : World}
    (h : Movable w.state rep dst) : ∃ w', Commits F w { rep with host := dst } w' := by
  obtain ⟨src, r, gs, hcfg, hgs, hm⟩ := cycle_moves F h
  exact ⟨_, src, r, gs, .acked, hcfg, hgs, hm, by decide, rfl⟩

def Settles (P : Parsers) (w : World) (m : ReplicaDesired) (w' : World) : Prop :=
  (declaredSpec w.state m ≠ none ∧ AdmittedOn w.state m m.host) ∧
    (m.host ≠ "" → ∀ gs, Calm Inert gs → StaysPut m (exec cluster (reconcile P) gs ⟨w', []⟩).2.2.now.state)

structure Welcomes (s : State) (rep : ReplicaDesired) (dst : String) : Prop where
  ready : ∃ n ∈ s.nodes.list, n.status = .ready ∧ n.hostname = dst
  declared : declaredSpec s rep ≠ none
  pinned : ∀ dep svc, s.deployments.get rep.deployment = some dep → svc ∈ dep.services → svc.name = rep.service →
    svc.placement = .hosts → dst ∈ svc.hosts

theorem admitted_of_welcomes (h : Welcomes s rep dst) : AdmittedOn s rep dst := by
  intro dep svc hdep hsvc hname
  have hpinned := h.pinned dep svc hdep hsvc hname
  exact ⟨mem_eligibleHosts.2 ⟨h.ready, fun hhosts _ => hpinned hhosts⟩, hpinned⟩

theorem welcomes_of_admitted (hdeclared : declaredSpec s rep ≠ none)
    (h : AdmittedOn s rep dst) : Welcomes s rep dst := by
  obtain ⟨spec, hspec⟩ := Option.ne_none_iff_exists'.1 hdeclared
  obtain ⟨dep, hdep, hfind⟩ := Option.bind_eq_some_iff.1 hspec
  have hname : spec.name = rep.service := by simpa using List.find?_some hfind
  have hadmits := h dep spec hdep (mem_of_find?_eq_some hfind) hname
  exact ⟨(mem_eligibleHosts.1 hadmits.1).1, hdeclared, fun dep svc hdep hsvc hname => (h dep svc hdep hsvc hname).2⟩

theorem staysPut_of_landed {P : Parsers} {m : ReplicaDesired} {w' : World} (hlanded : Landed s m w')
    (hadmitted : AdmittedOn s m m.host) (hhost : m.host ≠ "") (gs : List (Gap Others)) (hgs : Calm Inert gs) :
    StaysPut m (exec cluster (reconcile P) gs ⟨w', []⟩).2.2.now.state := by
  obtain ⟨hnodes, hdeployments, k, hk⟩ := hlanded
  have hthere : AdmittedOn w'.state { m with raftIndex := k } m.host := by
    intro dep svc hdep hsvc hname
    rw [hdeployments] at hdep
    rw [Admits, hostsIn, hnodes]
    exact hadmitted dep svc hdep hsvc hname
  exact @reconcile_leaves_host w' { m with raftIndex := k } P hk hhost hthere gs hgs

theorem moves_settle_iff [IsStrictOrderedRing K] (P : Parsers) (w : World) :
    (∀ m w', Commits F w m w' → Settles P w m w') ↔ ∀ rep dst, Movable w.state rep dst → Welcomes w.state rep dst := by
  constructor
  · intro h rep dst hmovable
    obtain ⟨w', hcommits⟩ := commits_of_movable F hmovable
    obtain ⟨⟨hdeclared, hadmitted⟩, -⟩ := h _ w' hcommits
    exact welcomes_of_admitted hdeclared hadmitted
  · intro h m w' hcommits
    obtain ⟨hlanded, rep, dst, hmovable, rfl⟩ := movable_of_commits F hcommits
    have hwelcomes := h rep dst hmovable
    have hadmitted := admitted_of_welcomes hwelcomes
    exact ⟨⟨hwelcomes.declared, hadmitted⟩, fun hhost gs hgs => staysPut_of_landed hlanded hadmitted hhost gs hgs⟩

namespace Sample

def decimal (x : ℚ) : String :=
  let n := (|x| * 10 ^ 4).floor.toNat
  (if x < 0 then "-" else "") ++ toString (n / 10 ^ 4) ++ "." ++
    String.ofList (toString (10 ^ 4 + n % 10 ^ 4)).toList.tail

def floats : Floats ℚ := ⟨fun x => 1 + x, decimal⟩

def pressures (w : World) : Source ℚ where
  nodePressure hostname := (w.state.nodes.get hostname).map (fun n => ⟨n.cpuPressure, n.memoryPressure⟩)
  replicaFootprint _ := ⟨12 / 100, 6 / 100⟩

def cool (status : NodeStatus) : World :=
  Relocation.Traffic.Sample.start.commit
    (.single ⟨"node-b", none, .nodeStatusUpdate { hostname := "node-b", status := status }⟩)

def warmed (w : World) : Rebalancer ℚ :=
  (exec cluster (cycle floats (pressures w) { cfg := defaultConfig }) [] ⟨w, []⟩).1

def secondCycle (w : World) : Task (Rebalancer ℚ) := cycle floats (pressures w) (warmed w)

def moves (w : World) : List (ReplicaDesired × Fate) := movesIn (record cluster (secondCycle w) [] ⟨w, []⟩)

def after (w : World) : World := (exec cluster (secondCycle w) [] ⟨w, []⟩).2.2.now

def hosts (w : World) : List (String × String) := w.state.replicasDesired.list.map (fun r => (r.id, r.host))

theorem commits_of_mem_moves {w : World} {m : ReplicaDesired} (hm : (m, .acked) ∈ moves w) :
    Commits floats w m (after w) :=
  ⟨pressures w, warmed w, [], .acked, cycle_cfg floats _ _ [] w, nofun, hm, by decide, rfl⟩

def onCool : ReplicaDesired := { Relocation.Traffic.Sample.record "1.27" with host := "node-b", raftIndex := 6 }

end Sample

open Sample

theorem ready_nodes_settle : moves (cool .ready) = [(onCool, .acked)] ∧ ∀ m w', Commits floats (cool .ready) m w' →
        Settles Scheduler.Sample.parsers (cool .ready) m w' := by
  refine ⟨by decide +kernel, (moves_settle_iff floats _ _).2 (fun rep dst hmovable => ?_)⟩
  have hnodes : ∀ n ∈ (cool .ready).state.nodes.list, n.status = .ready := by decide +kernel
  have hreplicas : ∀ r ∈ (cool .ready).state.replicasDesired.list,
      declaredSpec (cool .ready).state r = some Scheduler.Sample.web := by decide +kernel
  have hdeployments : ∀ d ∈ (cool .ready).state.deployments.list, d.services = [Scheduler.Sample.web] := by
    decide +kernel
  obtain ⟨n, hn, hname⟩ := hmovable.target
  refine ⟨⟨n, hn, hnodes n hn, hname⟩, ?_, ?_⟩
  · rw [hreplicas rep (Store.mem_list_of_get hmovable.stored)]
    exact Option.some_ne_none _
  · intro dep svc hdep hsvc _ hpinned
    rw [hdeployments dep (Store.mem_list_of_get hdep), mem_singleton] at hsvc
    rw [hsvc] at hpinned
    cases hpinned

theorem unready_node_receives_move : moves (cool .isolationUnavailable) = [(onCool, .acked)] ∧
      hostsIn (cool .isolationUnavailable).state Scheduler.Sample.web = ["node-a"] ∧
      hosts (after (cool .isolationUnavailable)) = [("sample-web-0", "node-b")] ∧
      hosts (Scheduler.Sample.undisturbed (after (cool .isolationUnavailable))) =
        [("sample-web-0", "node-a"), ("sample-web-1", "node-a")] ∧
      ¬ ∀ m w', Commits floats (cool .isolationUnavailable) m w' →
        Settles Scheduler.Sample.parsers (cool .isolationUnavailable) m w' := by
  have hmoves : moves (cool .isolationUnavailable) = [(onCool, .acked)] := by decide +kernel
  have hhosts : hostsIn (cool .isolationUnavailable).state Scheduler.Sample.web = ["node-a"] := by decide +kernel
  refine ⟨hmoves, hhosts, by decide +kernel, by decide +kernel, fun h => ?_⟩
  have hsettles := h _ _ (commits_of_mem_moves (by rw [hmoves]; exact mem_singleton_self _))
  have hservices : ((cool .isolationUnavailable).state.deployments.get "sample").map (·.services) =
      some [Scheduler.Sample.web] := by decide +kernel
  obtain ⟨dep, hdep, hservices⟩ := Option.map_eq_some_iff.1 hservices
  have hadmits := hsettles.1.2 dep Scheduler.Sample.web hdep (by rw [hservices]; exact mem_singleton_self _) rfl
  have hmem : "node-b" ∈ ["node-a"] := hhosts ▸ hadmits.1
  exact absurd hmem (by decide)

section Stateful

def holdsData (v : VolumeConfig) : Bool := v.type = "bind" || (v.type = "volume" && v.source ≠ "")

def Stateful (P : Parsers) (s : State) (rep : ReplicaDesired) : Prop :=
  ∃ dep project svc, s.deployments.get rep.deployment = some dep ∧ P.loadCompose dep.composeYaml = .ok project ∧
    svc ∈ project.services ∧ svc.name = rep.service ∧ ∃ v ∈ svc.volumes, holdsData v

def Anchored (s : State) (rep : ReplicaDesired) : Prop :=
  ∀ src dst, src ∈ s.nodes.list → src.hostname = rep.host → dst ∈ s.nodes.list → dst.hostname ≠ rep.host →
    antiAffinityOK (declaredSpec s rep) dst.hostname (crowd s rep dst.hostname) = false

theorem stateful_stay_iff [IsStrictOrderedRing K] (P : Parsers) (w : World) :
    (∀ m w', Commits F w m w' → ¬ Stateful P w.state m) ↔
      ∀ rep ∈ w.state.replicasDesired.list, Stateful P w.state rep → Anchored w.state rep := by
  constructor
  · intro h rep hrep hstateful src dst hsrc hhost hdst haway
    refine Bool.eq_false_iff.2 (fun haffinity => ?_)
    have hmovable : Movable w.state rep dst.hostname :=
      ⟨Store.mem_list.1 hrep, ⟨src, hsrc, hhost⟩, ⟨dst, hdst, rfl⟩, haway, haffinity⟩
    obtain ⟨w', hcommits⟩ := commits_of_movable F hmovable
    exact h _ w' hcommits hstateful
  · intro h m w' hcommits hstateful
    obtain ⟨-, rep, dst, hmovable, rfl⟩ := movable_of_commits F hcommits
    obtain ⟨src, hsrc, hhost⟩ := hmovable.source
    obtain ⟨n, hn, rfl⟩ := hmovable.target
    have hanchored := h rep (Store.mem_list_of_get hmovable.stored) hstateful src n hsrc hhost hn hmovable.away
    exact absurd hmovable.affinity (Bool.eq_false_iff.1 hanchored)

namespace Sample

def dataCompose : Bytes :=
  "services:\n  web:\n    image: nginx:1.27\n    volumes:\n      - data:/data\nvolumes:\n  data:\n".toList.flatMap
    String.utf8EncodeChar

def dataService : ServiceConfig where
  name := "web"
  image := "nginx:1.27"
  volumes := [{ type := "volume", source := "data", target := "/data" }]

def dataParsers : Parsers :=
  { Scheduler.Sample.parsers with
    loadCompose := fun b => if b = dataCompose then .ok ⟨[dataService], nodup_singleton _⟩ else .error "" }

def keeping (svc : ServiceSpec) : World :=
  (Relocation.Traffic.Sample.joined "node-a" (9 / 10) ++ Relocation.Traffic.Sample.joined "node-b" (1 / 10) ++
    [.single ⟨"ops", none, .deploymentApply { Scheduler.Sample.applyOf 1 dataCompose with services := [svc] }⟩,
      upsertCommand 0 { Relocation.Traffic.Sample.record "1.27" with specHash := dataCompose }]).foldl
    (fun w c => w.commit c) { state := .new, index := 0, now := 0 }

def pinned : ServiceSpec := { name := "web", replicas := 1, placement := .hosts, hosts := ["node-a"] }

theorem stateful_keeping {svc : ServiceSpec} {m : ReplicaDesired} (hdep : m.deployment = "sample")
    (hsvc : m.service = "web")
    (hstored : ((keeping svc).state.deployments.get "sample").map (·.composeYaml) = some dataCompose) :
    Stateful dataParsers (keeping svc).state m := by
  obtain ⟨dep, hget, hcompose⟩ := Option.map_eq_some_iff.1 hstored
  refine ⟨dep, ⟨[dataService], nodup_singleton _⟩, dataService, hdep ▸ hget, ?_, mem_singleton_self _, hsvc.symm,
    _, mem_singleton_self _, rfl⟩
  simp [dataParsers, hcompose]

end Sample

theorem pinned_data_stays : Stateful dataParsers (keeping pinned).state onCool ∧
      ∀ m w', Commits floats (keeping pinned) m w' →
        ¬ Stateful dataParsers (keeping pinned).state m := by
  refine ⟨stateful_keeping rfl rfl (by decide +kernel), (stateful_stay_iff floats _ _).2 ?_⟩
  have hfree : ∀ rep ∈ (keeping pinned).state.replicasDesired.list,
      ∀ dst ∈ (keeping pinned).state.nodes.list, dst.hostname ≠ rep.host →
        antiAffinityOK (declaredSpec (keeping pinned).state rep) dst.hostname
          (crowd (keeping pinned).state rep dst.hostname) = false := by decide +kernel
  exact fun rep hrep _ src dst _ _ hdst haway => hfree rep hrep dst hdst haway

theorem data_left_behind :
    moves (keeping Scheduler.Sample.web) = [({ onCool with specHash := dataCompose }, .acked)] ∧
      ¬ ∀ m w', Commits floats (keeping Scheduler.Sample.web) m w' →
        ¬ Stateful dataParsers (keeping Scheduler.Sample.web).state m := by
  have hmoves : moves (keeping Scheduler.Sample.web) =
      [({ onCool with specHash := dataCompose }, .acked)] := by decide +kernel
  refine ⟨hmoves, fun h => h _ _ (commits_of_mem_moves (by rw [hmoves]; exact mem_singleton_self _)) ?_⟩
  exact stateful_keeping rfl rfl (by decide +kernel)

end Stateful

end Jaco.Rebalance
