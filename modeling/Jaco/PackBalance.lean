import Jaco.ServicePasses

namespace Jaco.Scheduler

open Interleaving Placement List Store

def onHost (s : State) (deployment name host : String) : Nat :=
  s.replicasDesired.list.countP (fun r => r.deployment = deployment && r.service = name && r.host = host)

def Balanced (s : State) (deployment name : String) (hosts : List String) : Prop :=
  ∀ h ∈ hosts, ∀ h' ∈ hosts, onHost s deployment name h ≤ onHost s deployment name h' + 1

theorem upserts_of_new (p : Pass) (hnew : p.current = []) (changed : Bool) (desired : List DesiredReplica) :
    p.upserts changed desired = desired.map p.replica := by
  induction desired with
  | nil => rfl
  | cons d ds ih =>
    have hfind : p.find d = none := by rw [Pass.find, hnew, List.find?_nil]
    rw [Pass.upserts, hfind, map_cons, ← ih]

theorem hostFor_of_new (p : Pass) (hnew : p.current = []) (d : DesiredReplica) : p.hostFor d = d.host := by
  rw [Pass.hostFor, Pass.find, hnew, List.find?_nil, Option.bind_none, Option.getD_none]

theorem desired_of_pack (dep : Deployment) {svc : ServiceSpec} {eligible : List String} (counts : String → Nat)
    (hpack : svc.placement = .pack) (hne : eligible ≠ []) :
    desiredReplicas dep svc eligible counts = .ok ((List.range svc.replicas.toNat).map (fun i =>
      ⟨replicaID dep.name svc.name i, pickPackHost (sortNames eligible) counts, i⟩)) := by
  have hplace : ∀ i : Int, placeReplica dep.name svc eligible i counts =
      .ok (pickPackHost (sortNames eligible) counts) := by
    intro i
    rw [placeReplica, if_neg hne, hpack]
  obtain ⟨desired, hok, hmap⟩ : ∃ desired, (List.range svc.replicas.toNat).mapM (fun (i : Nat) =>
      (placeReplica dep.name svc eligible i counts).map
        (fun host => (⟨replicaID dep.name svc.name i, host, i⟩ : DesiredReplica))) = .ok desired ∧
      desired.map id = (List.range svc.replicas.toNat).map (fun i =>
        ⟨replicaID dep.name svc.name i, pickPackHost (sortNames eligible) counts, i⟩) :=
    mapM_ok (fun i _ => ⟨_, by rw [hplace]; rfl, rfl⟩)
  rw [desiredReplicas, if_neg (by rw [hpack]; decide), hok, ← hmap, map_id]

section New

variable {dep : Deployment} {svc : ServiceSpec} {project : Project} (specHash : Bytes) {w : World}

theorem onHost_serviced (hpack : svc.placement = .pack) (hnew : currentOf dep svc w = [])
    (himage : lookupImage project svc.name ≠ "") (hne : hostsIn w.state svc ≠ []) (host : String) :
    onHost (serviced dep svc project specHash w).state dep.name svc.name host =
      if host = pickPackHost (sortNames (hostsIn w.state svc)) (countsOf dep svc w) then svc.replicas.toNat else 0 := by
  have hdesired := desired_of_pack dep (countsOf dep svc w) hpack hne
  generalize pickPackHost (sortNames (hostsIn w.state svc)) (countsOf dep svc w) = first at hdesired ⊢
  obtain ⟨idx, hget⟩ := get_serviced dep svc project specHash w himage hdesired
  let seat (i : Nat) : ReplicaDesired := stamped idx
    ((passOf dep svc project specHash w).replica ⟨replicaID dep.name svc.name i, first, i⟩)
  have hhost : ∀ i, (seat i).host = first := fun i => hostFor_of_new _ hnew _
  have hremoves : ∀ desired, (passOf dep svc project specHash w).removes desired = [] := by
    intro desired
    rw [Pass.removes, show (passOf dep svc project specHash w).current = [] from hnew]
    rfl
  have hnodup : ((List.range svc.replicas.toNat).map (replicaID dep.name svc.name)).Nodup :=
    nodup_range.map (fun _ _ => replicaID_inj)
  have hall : ∀ id, (serviced dep svc project specHash w).state.replicasDesired.get id =
      (w.state.replicasDesired.applyAll ((List.range svc.replicas.toNat).map seat)).get id := by
    intro id
    rw [hget, hremoves, if_neg not_mem_nil, upserts_of_new _ hnew, map_map, map_map]
    rfl
  have hseat : ∀ i < svc.replicas.toNat, (serviced dep svc project specHash w).state.replicasDesired.get
      (replicaID dep.name svc.name i) = some (seat i) := by
    intro i hi
    rw [hall]
    refine get_applyAll_of_mem _ _ (seat i) (mem_map_of_mem (mem_range.2 hi)) ?_
    rw [map_map]
    exact hnodup
  rw [onHost, countP_list _ _ hnodup]
  · split
    · rename_i hfirst
      have hcount : ∀ k ∈ (List.range svc.replicas.toNat).map (replicaID dep.name svc.name),
          ((serviced dep svc project specHash w).state.replicasDesired.get k).any
            (fun r => r.deployment = dep.name && r.service = svc.name && r.host = host) = true := by
        intro k hk
        obtain ⟨i, hi, rfl⟩ := mem_map.1 hk
        rw [hseat i (mem_range.1 hi), Option.any_some]
        simp only [Bool.and_eq_true, decide_eq_true_eq]
        exact ⟨⟨rfl, rfl⟩, (hhost i).trans hfirst.symm⟩
      rw [countP_eq_length.2 hcount, length_map, length_range]
    · rename_i hfirst
      rw [countP_eq_zero]
      intro k hk
      obtain ⟨i, hi, rfl⟩ := mem_map.1 hk
      rw [hseat i (mem_range.1 hi), Option.any_some]
      simp only [Bool.and_eq_true, decide_eq_true_eq]
      exact fun h => hfirst (h.2.symm.trans (hhost i))
  · -- a record of the service is one of the new ones, as there was none before
    intro r hr hof
    simp only [Bool.and_eq_true, decide_eq_true_eq] at hof
    by_contra hother
    have hold := hall r.id
    rw [mem_list.1 hr, get_applyAll_of_notMem] at hold
    · have hmem := (mem_currentOf dep svc w r).2 ⟨hold.symm, hof.1⟩
      rw [hnew] at hmem
      cases hmem
    · intro v hv he
      obtain ⟨i, hi, rfl⟩ := mem_map.1 hv
      exact hother (mem_map.2 ⟨i, hi, he⟩)

theorem pack_balanced_iff (dep : Deployment) (svc : ServiceSpec) (project : Project) (specHash : Bytes) (w : World)
    (hpack : svc.placement = .pack) (hnew : currentOf dep svc w = []) (himage : lookupImage project svc.name ≠ "") :
    Balanced (serviced dep svc project specHash w).state dep.name svc.name (hostsIn w.state svc) ↔
      svc.replicas ≤ 1 ∨ (hostsIn w.state svc).length ≤ 1 := by
  by_cases hne : hostsIn w.state svc = []
  · rw [hne]
    exact ⟨fun _ => .inr (Nat.zero_le 1), nofun⟩
  · have hcount := onHost_serviced specHash hpack hnew himage hne
    have hfirst : pickPackHost (sortNames (hostsIn w.state svc)) (countsOf dep svc w) ∈ hostsIn w.state svc := by
      rw [sortNames_hostsIn]
      exact pickPackHost_mem hne _
    generalize pickPackHost (sortNames (hostsIn w.state svc)) (countsOf dep svc w) = first at hcount hfirst
    constructor
    · intro hbalanced
      by_contra hmany
      rw [not_or, not_le, not_le] at hmany
      obtain ⟨other, hother⟩ : ∃ other, other ∈ (hostsIn w.state svc).erase first := by
        refine exists_mem_of_length_pos ?_
        rw [length_erase_of_mem hfirst]
        omega
      have hne : other ≠ first := (nodup_hostsIn.mem_erase_iff.1 hother).1
      have hle := hbalanced first hfirst other (mem_of_mem_erase hother)
      rw [hcount, hcount, if_pos rfl, if_neg hne] at hle
      omega
    · rintro (hfew | hone) h hh h' hh'
      · rw [hcount, hcount]
        have hle : (if h = first then svc.replicas.toNat else 0) ≤ 1 := by
          split <;> omega
        omega
      · obtain ⟨x, hx⟩ := length_eq_one_iff.1 (le_antisymm hone (length_pos_of_mem hh))
        rw [hx, mem_singleton] at hh hh'
        rw [hh, hh']
        exact Nat.le_succ _

end New

namespace Packed

def service (replicas : Int) : ServiceSpec := { name := "web", replicas := replicas, placement := .pack }

def shop (replicas : Int) : Deployment where
  name := "shop"
  appliedRevision := 1
  status := .pending
  composeYaml := Sample.compose "1.27"
  services := [service replicas]

theorem web_nodup : ["web"].Nodup := nodup_singleton _

def project : Project := ⟨[{ name := "web", image := "nginx:1.27" }], web_nodup⟩

def node (hostname : String) : Node := { hostname := hostname, address := hostname, status := .ready }

def world (replicas : Int) : World where
  state :=
    { State.new with
      nodes := (empty.apply (node "node-a")).apply (node "node-b")
      deployments := empty.apply (shop replicas) }
  index := 3
  now := 0

end Packed

open Packed in
theorem one_replica_balanced :
    Balanced (serviced (shop 1) (service 1) project [] (world 1)).state "shop" "web"
    (hostsIn (world 1).state (service 1)) :=
  (pack_balanced_iff (shop 1) (service 1) project [] (world 1) rfl (by decide +kernel) (by decide)).2 (.inl le_rfl)

open Packed in
theorem both_on_one_host : hostsIn (world 2).state (service 2) = ["node-a", "node-b"] ∧
      (follow cluster (reconcile Sample.parsers) [] (world 2)).now.state.replicasDesired.list.map (·.host) =
        ["node-a", "node-a"] ∧
      ¬ Balanced (serviced (shop 2) (service 2) project [] (world 2)).state "shop" "web"
        (hostsIn (world 2).state (service 2)) := by
  have hhosts : hostsIn (world 2).state (service 2) = ["node-a", "node-b"] := by decide +kernel
  refine ⟨hhosts, by decide +kernel, fun h => ?_⟩
  have hle := h "node-a" (by rw [hhosts]; decide) "node-b" (by rw [hhosts]; decide)
  have htwo : onHost (serviced (shop 2) (service 2) project [] (world 2)).state "shop" "web" "node-a" = 2 := by
    decide +kernel
  have hnone : onHost (serviced (shop 2) (service 2) project [] (world 2)).state "shop" "web" "node-b" = 0 := by
    decide +kernel
  omega

end Jaco.Scheduler
