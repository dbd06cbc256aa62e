import Jaco.SchedulerOffers

namespace Jaco.Scheduler

open Placement List

def NulFree (name : String) : Prop := '\x00' ∉ name.toList

theorem rolloutPlanKey_inj {d s D S : String} (hs : NulFree s) (hS : NulFree S)
    (h : rolloutPlanKey d s = rolloutPlanKey D S) : d = D ∧ s = S := by
  have hl : d.toList ++ '\x00' :: s.toList = D.toList ++ '\x00' :: S.toList := by
    simpa [rolloutPlanKey] using congrArg String.toList h
  -- the service is what follows the last separator, whatever the deployment is called
  rcases List.append_eq_append_iff.1 hl with ⟨t, hD, ht⟩ | ⟨t, hd, ht⟩
  · cases t with
    | nil => simpa [eq_comm, String.toList_inj] using And.intro hD ht
    | cons x t => exact absurd (by simp_all) hs
  · cases t with
    | nil => simpa [eq_comm, String.toList_inj] using And.intro hd ht
    | cons x t => exact absurd (by simp_all) hS

/-- What the parsers and the wire format guarantee of an applied service list. -/
def ServicesOk (services : List ServiceSpec) : Prop :=
  (services.map (·.name)).Nodup ∧ ∀ svc ∈ services, NulFree svc.name ∧ svc.replicas < 2 ^ 31

def WellNamed (s : State) : Prop := ∀ d ∈ s.deployments.list, ServicesOk d.services

def Harmless (p : Payload) : Prop := Part.replicasDesired ∉ writes p ∧ ∀ n, NoApply n p

def RolloutStep (p : Payload) : Prop := Harmless p ∧ Part.nodes ∉ writes p

theorem rolloutStep_drives {R : World → Prop} {d s : String} {p : Payload} (h : Drives R d s p) : RolloutStep p := by
  cases h <;> simp [RolloutStep, Harmless, writes, NoApply]

theorem rolloutStep_aborts {R : World → Prop} {p : Payload} (h : Aborts R p) : RolloutStep p := by
  cases h <;> simp [RolloutStep, Harmless, writes, NoApply]

structure Framed (s t : State) : Prop where
  replicas : t.replicasDesired = s.replicasDesired
  nodes : t.nodes = s.nodes
  deployments : ∀ n d, t.deployments.get n = some d → ∃ d₀, s.deployments.get n = some d₀ ∧
    d.composeYaml = d₀.composeYaml ∧ d.services = d₀.services

theorem framed_refl (s : State) : Framed s s := ⟨rfl, rfl, fun _ d hd => ⟨d, hd, rfl, rfl⟩⟩

theorem framed_entry {s : State} (idx : Nat) (t : State) (e : Entry) (he : RolloutStep e.payload) (ht : Framed s t) :
    Framed s (applyEntry idx t e) := by
  have hreplicas : (applyEntry idx t e).replicasDesired = t.replicasDesired :=
    applyEntry_agree idx t e .replicasDesired he.1.1 (by decide)
  have hnodes : (applyEntry idx t e).nodes = t.nodes := applyEntry_agree idx t e .nodes he.2 (by decide)
  refine ⟨hreplicas.trans ht.replicas, hnodes.trans ht.nodes, fun n d hd => ?_⟩
  obtain ⟨d₁, hd₁, hyaml, hsvc⟩ := get_deployments_entry idx t e (he.1.2 n) hd
  obtain ⟨d₀, hd₀, hyaml₀, hsvc₀⟩ := ht.deployments n d₁ hd₁
  exact ⟨d₀, hd₀, hyaml.trans hyaml₀, hsvc.trans hsvc₀⟩

theorem index_of_mem_desired {dep : Deployment} {svc : ServiceSpec} {eligible : List String} {counts : String → Nat}
    {desired : List DesiredReplica} (h : desiredReplicas dep svc eligible counts = .ok desired)
    (hscaled : svc.placement ≠ .global) {d : DesiredReplica} (hd : d ∈ desired) :
    ∃ i : Nat, i < svc.replicas.toNat ∧ d.id = replicaID dep.name svc.name i ∧ d.index = i := by
  rw [desiredReplicas, if_neg hscaled] at h
  obtain ⟨i, hi, he⟩ := exists_of_mem_mapM _ _ _ h d hd
  refine ⟨i, mem_range.1 hi, ?_⟩
  cases hhost : placeReplica dep.name svc eligible i counts with
  | error e =>
    rw [hhost] at he
    cases he
  | ok host =>
    rw [hhost] at he
    cases he
    exact ⟨rfl, rfl⟩

def Current (w : World) (dep : Deployment) (svc : ServiceSpec) (current : List ReplicaDesired) : Prop :=
  ∀ r, r ∈ current ↔ w.state.replicasDesired.get r.id = some r ∧ r.deployment = dep.name ∧ r.service = svc.name

theorem find_of_current {w : World} {p : Pass} (hcur : Current w p.dep p.svc p.current) {d : DesiredReplica}
    {cur : ReplicaDesired} (hget : w.state.replicasDesired.get d.id = some cur) (hdep : cur.deployment = p.dep.name)
    (hsvc : cur.service = p.svc.name) : p.find d = some cur := by
  have hid : cur.id = d.id := Store.get_key hget
  have hmem : cur ∈ p.current := (hcur cur).2 ⟨hid ▸ hget, hdep, hsvc⟩
  cases hfind : p.find d with
  | none => exact absurd (decide_eq_true hid) (List.find?_eq_none.1 hfind cur hmem)
  | some other =>
    have hother := (hcur other).1 (mem_of_find?_eq_some hfind)
    have hoid : other.id = d.id := by
      rw [Pass.find] at hfind
      simpa using List.find?_some hfind
    rw [hoid, hget] at hother
    exact hother.1.symm

end Jaco.Scheduler
