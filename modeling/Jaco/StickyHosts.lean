import Jaco.IdRuns
import Jaco.Transcript

namespace Jaco.Scheduler

open Interleaving Placement

def Admits (s : State) (svc : ServiceSpec) (host : String) : Prop :=
  host ∈ hostsIn s svc ∧ (svc.placement = .hosts → host ∈ svc.hosts)

def AdmittedOn (s : State) (r : ReplicaDesired) (host : String) : Prop :=
  ∀ dep svc, s.deployments.get r.deployment = some dep → svc ∈ dep.services → svc.name = r.service → Admits s svc host

def Inert (o : Others) : Prop := o.commands = []

theorem disturb_inert {o : Others} (h : Inert o) (w : World) : (w.disturb o).state = w.state := by
  rw [World.disturb, h]
  rfl

def StaysPut (cur : ReplicaDesired) (s : State) : Prop :=
  ∀ r, s.replicasDesired.get cur.id = some r → r.deployment = cur.deployment → r.service = cur.service →
    r.host = cur.host

def Leaves (cur : ReplicaDesired) (p : Payload) : Prop :=
  ∀ r, p = .replicaDesiredUpsert (some r) → r.id = cur.id → r.deployment = cur.deployment → r.service = cur.service →
    r.host = cur.host

theorem staysPut_entry {cur : ReplicaDesired} (idx : Nat) (s : State) (e : Entry) (he : Leaves cur e.payload)
    (hs : StaysPut cur s) : StaysPut cur (applyEntry idx s e) := by
  intro r hget hdep hsvc
  have hid := Store.get_key hget
  rcases get_replicasDesired_entry hget with hold | ⟨r₀, hp, rfl⟩
  · exact hs r hold hdep hsvc
  · exact he r₀ hp hid hdep hsvc

variable {P : Parsers} {w : World} {cur : ReplicaDesired}

theorem batch_leaves (hget : w.state.replicasDesired.get cur.id = some cur) (hhost : cur.host ≠ "")
    (hadmitted : AdmittedOn w.state cur cur.host) {c : Command}
    (hc : Shift.Batches P (fun v => Framed w.state v.state) c) :
    Allows (Leaves cur) c := by
  obtain ⟨deps, round, ⟨v, hv, hdeps⟩, htold, identity, ts, rfl⟩ := hc
  refine allows_batch (fun c hc => ?_)
  cases child_of_told htold hc with
  | pending | stale | drop => exact allows_single nofun
  | put p desired d hp hd =>
    refine allows_single (fun r' hr' hid hrdep hrsvc => ?_)
    cases hr'
    obtain ⟨u, hu, hcur⟩ := hp.current
    obtain ⟨x, hx, heligible⟩ := hp.eligible
    obtain ⟨dep₀, hdep₀, -, hservices⟩ := hv.deployments _ _ (hdeps p.dep hp.dep)
    obtain ⟨helsewhere, hpinned⟩ := hadmitted dep₀ p.svc (hrdep ▸ hdep₀) (hservices ▸ hp.svc) hrsvc
    have hfind : p.find d = some cur := by
      refine find_of_current hcur ?_ hrdep.symm hrsvc.symm
      rw [hu.replicas, show d.id = cur.id from hid]
      exact hget
    have heligible : cur.host ∈ p.eligible := by
      rw [heligible, hostsIn, hx.nodes]
      exact helsewhere
    change p.hostFor d = cur.host
    rw [hostFor_of_find hfind, sticky_of_eligible hhost heligible (imp_iff_not_or.1 hpinned)]
    rfl

theorem reconcile_leaves_host (P : Parsers) (hget : w.state.replicasDesired.get cur.id = some cur)
    (hhost : cur.host ≠ "")
    (hadmitted : AdmittedOn w.state cur cur.host) (gs : List (Gap Others)) (hgs : Calm Inert gs) :
    StaysPut cur (exec cluster (reconcile P) gs ⟨w, []⟩).2.2.now.state := by
  have hput : ∀ v : World, Framed w.state v.state → StaysPut cur v.state := by
    intro v hv r hr _ _
    rw [hv.replicas, hget] at hr
    exact (Option.some.inj hr) ▸ rfl
  let R : World → Prop := fun v => Framed w.state v.state
  refine exec_of_closing (A := Inert) (R := R) (G := Allows RolloutStep) (H := Shift.Batches P R)
    (Z := fun v : World => StaysPut cur v.state) ?_ (fun x v hx hv => commit_keeps framed_entry x v hx hv) hput ?_ ?_
    (Shift.reconcile_closing P R) gs hgs ⟨w, []⟩ (framed_refl w.state)
  · intro o v ho hv
    change Framed w.state (v.disturb o).state
    rw [disturb_inert ho]
    exact hv
  · intro x v hx hv
    exact commit_keeps (fun idx s e he hs => staysPut_entry idx s e he hs) x v (batch_leaves hget hhost hadmitted hx)
      (hput v hv)
  · intro o v ho hv
    change StaysPut cur (v.disturb o).state
    rw [disturb_inert ho]
    exact hv

end Jaco.Scheduler
