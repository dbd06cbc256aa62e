import Jaco.GlobalServices
import Jaco.PinnedHosts
import Jaco.RebalanceAdmission

namespace Jaco.Scheduler

open Interleaving Placement Runs Store

section Pass

variable {P : Parsers} {w : World} {dep : Deployment} {svc : ServiceSpec}

theorem onSeat_after (hdep : w.state.deployments.get dep.name = some dep) (hnames : (dep.services.map (·.name)).Nodup)
    (hsvc : svc ∈ dep.services) (hhosts : svc.placement = .hosts) {round : Round} {later : Timestamp}
    (hround : Reckoned P w later round) (htimely : Timely later dep.name w.state) (hnot : ¬ Pends dep.name round)
    {t : State} (ht : Intact w t)
    (idx : Nat) (id : String) : OnSeat w dep svc id (applyChildren idx t round.batch) := by
  obtain ⟨deps, hlisted, htold⟩ := hround.told
  obtain ⟨sp, hsp, hspdep, hspsvc⟩ := (hround.reaches dep svc hdep hsvc htimely).resolve_left hnot
  have hserved := htold.served sp hsp
  have hminds : ∃ p desired, Minds w dep svc p desired ∧ ∀ c ∈ p.commands desired, c ∈ round.batch := by
    cases htold.services sp hsp with
    | blocked dep' svc' reason now hdep' hsvc' h =>
      refine absurd ⟨reason, now, ?_⟩ hnot
      rw [← hspdep]
      exact hserved _ (List.mem_singleton_self _)
    | placed p desired hplaces =>
      exact ⟨p, desired, minds_of_places hdep hnames hsvc hhosts hlisted hplaces hspdep hspsvc, hserved⟩
  obtain ⟨p, desired, hminds, hserved⟩ := hminds
  refine (holds_after_batch (I := fun _ => True) (φ := OnSeat w dep svc id) idx round.batch (fun _ _ _ _ => trivial)
    (fun c hc t _ => onSeat_keeps hdep hnames hsvc hhosts hlisted htold hc id idx) trivial ?_).2
  rcases onSeat_brought hminds hserved id idx ht.frame.replicas with hnow | ⟨c, hc, hmade⟩
  · exact .inl hnow
  · exact .inr ⟨c, hc, fun t _ => hmade t⟩

theorem batch_intact {deps : List Deployment} {round : Round} (htold : Told P (fun v => Intact w v.state) deps round)
    (idx : Nat) (t : State) :
    (applyChildren idx t round.batch).nodes = t.nodes ∧
      ∀ n d, (applyChildren idx t round.batch).deployments.get n = some d →
        ∃ d₀, t.deployments.get n = some d₀ ∧ d.services = d₀.services := by
  have hallows : ∀ c ∈ round.batch, Allows (fun p => Part.nodes ∉ writes p ∧ ∀ n, NoApply n p) c := by
    intro c hc
    cases child_of_told htold hc <;> exact allows_single ⟨by simp [writes], fun _ => trivial⟩
  refine Command.apply_keeps (Q := fun s => s.nodes = t.nodes ∧ ∀ n d, s.deployments.get n = some d →
    ∃ d₀, t.deployments.get n = some d₀ ∧ d.services = d₀.services) ?_ idx (.batch "" none round.batch)
    (allows_batch hallows) t ⟨rfl, fun n d hd => ⟨d, hd, rfl⟩⟩
  intro idx s e he hs
  refine ⟨(applyEntry_agree idx s e .nodes he.1 (by decide)).trans hs.1, fun n d hd => ?_⟩
  obtain ⟨d₁, hd₁, -, hservices⟩ := get_deployments_entry idx s e (he.2 n) hd
  obtain ⟨d₀, hd₀, hservices₀⟩ := hs.2 n d₁ hd₁
  exact ⟨d₀, hd₀, hservices.trans hservices₀⟩

end Pass

section Runs

variable {K : Type} [Field K] [LinearOrder K]

inductive Deed (K : Type) where
  | commit (c : Command)
  | pass (gs : List (Gap Others))
  | drain (hostname : String) (gs : List (Gap Others))
  | rebalance (src : Rebalance.Source K) (r : Rebalance.Rebalancer K) (gs : List (Gap Others))

variable (F : Rebalance.Floats K) (P : Parsers)

def Deed.perform (w : World) : Deed K → World
  | .commit c => w.commit c
  | .pass gs => (exec cluster (reconcile P) gs ⟨w, []⟩).2.2.now
  | .drain hostname gs => (exec cluster (Relocation.drainHost hostname) gs ⟨w, []⟩).2.2.now
  | .rebalance src r gs => (exec cluster (Rebalance.cycle F src r) gs ⟨w, []⟩).2.2.now

def marksPending (name : String) (e : Entry) : Bool :=
  match e.payload with
  | .deploymentStatusUpdate u => u.deployment = name && u.status = .pending
  | _ => false

def MarksPending (gs : List (Gap Others)) (w : World) (name : String) : Prop :=
  ∃ x ∈ record cluster (reconcile P) gs ⟨w, []⟩, ∃ e ∈ x.1.entries, marksPending name e = true

structure PinnedApart (s : State) (deployment : String) (svc : ServiceSpec) : Prop where
  apart : ∀ r ∈ s.replicasDesired.list, ∀ r' ∈ s.replicasDesired.list, r.deployment = deployment →
    r.service = svc.name →
    r'.deployment = deployment → r'.service = svc.name → r.id ≠ r'.id → r.host ≠ r'.host
  hosts : ∀ r ∈ s.replicasDesired.list, r.deployment = deployment → r.service = svc.name →
    (∃ n ∈ s.nodes.list, n.hostname = r.host ∧ n.status = .ready) ∧ r.host ∈ svc.hosts

instance (gs : List (Gap Others)) (w : World) (name : String) : Decidable (MarksPending P gs w name) :=
  inferInstanceAs (Decidable (∃ x ∈ _, ∃ e ∈ _, _))

instance (s : State) (deployment : String) (svc : ServiceSpec) : Decidable (PinnedApart s deployment svc) :=
  decidable_of_iff (_ ∧ _) ⟨fun h => ⟨h.1, h.2⟩, fun h => ⟨h.apart, h.hosts⟩⟩

def KeepsApart (w : World) : Deed K → Prop
  | .pass gs => ∀ dep ∈ (exec cluster (reconcile P) gs ⟨w, []⟩).2.2.now.state.deployments.list, ∀ svc ∈ dep.services,
      svc.placement = .hosts → ¬ MarksPending P gs w dep.name →
        PinnedApart (exec cluster (reconcile P) gs ⟨w, []⟩).2.2.now.state dep.name svc
  | _ => True

instance (w : World) : ∀ e : Deed K, Decidable (KeepsApart P w e)
  | .pass _ => inferInstanceAs (Decidable (∀ dep ∈ _, ∀ svc ∈ _, _ → ¬ _ → _))
  | .commit _ => isTrue trivial
  | .drain _ _ => isTrue trivial
  | .rebalance _ _ _ => isTrue trivial

/-- A pass of the leader that is left alone, while no rollout times out, with no two replicas of a HOSTS service due to
share a host. -/
def Meets (w : World) : Deed K → Prop
  | .pass gs => w.leader = true ∧ Calm Aloof gs ∧ (∀ g ∈ gs, g.fate ≠ .lost) ∧
      ∀ dep ∈ w.state.deployments.list, (dep.services.map (·.name)).Nodup ∧ Timely (w.now + spent gs) dep.name w.state ∧
        ∀ svc ∈ dep.services, svc.placement = .hosts → svc.hosts ≠ [] ∧ Unshared w.state dep svc
  | _ => True

omit [Field K] [LinearOrder K] in
theorem pass_keepsApart {w : World} {gs : List (Gap Others)} (h : Meets w (.pass gs : Deed K)) :
    KeepsApart P w (.pass gs : Deed K) := by
  obtain ⟨hleader, hgs, hfate, hdeps⟩ := h
  intro dep' hdep' svc hsvc' hhosts hquiet
  obtain ⟨round, hround, ⟨t, idx, ht, hafter⟩, hentries⟩ := reconcile_reckons (P := P) hleader hgs hfate
  have hnot : ¬ Pends dep'.name round := by
    rintro ⟨reason, now, hmem⟩
    obtain ⟨y, hy, hsub⟩ := hentries _ hmem
    exact hquiet ⟨y, hy, _, hsub (List.mem_singleton_self _), by simp [marksPending]⟩
  obtain ⟨deps, -, htold⟩ := hround.told
  obtain ⟨hnodes, hmanifests⟩ := batch_intact htold idx t
  rw [hafter] at hdep' ⊢
  -- the service is one the pass found declared
  obtain ⟨d₁, hd₁, hservices₁⟩ := hmanifests dep'.name dep' (mem_list.1 hdep')
  obtain ⟨dep, hdep, -, hservices⟩ := ht.frame.deployments dep'.name d₁ hd₁
  have hname : dep.name = dep'.name := get_key hdep
  rw [hservices₁, hservices] at hsvc'
  obtain ⟨hnames, htimely, hservice⟩ := hdeps dep (mem_list_of_get hdep)
  obtain ⟨hlist, hunshared⟩ := hservice svc hsvc' hhosts
  rw [← hname] at hnot hdep ⊢
  have hseat := onSeat_after hdep hnames hsvc' hhosts hround htimely hnot ht idx
  refine ⟨fun r hr r' hr' hrdep hrsvc hrdep' hrsvc' hne => ?_, fun r hr hrdep hrsvc => ?_⟩
  · obtain ⟨i, hi, hlt, hid, hhost⟩ := hseat r.id r (mem_list.1 hr) hrdep hrsvc
    obtain ⟨j, hj, hlt', hid', hhost'⟩ := hseat r'.id r' (mem_list.1 hr') hrdep' hrsvc'
    rw [hhost, hhost']
    exact seat_inj hunshared hi hj hlt hlt' (fun hij => hne (by rw [hid, hid', hij]))
  · obtain ⟨i, hi, hlt, hid, hhost⟩ := hseat r.id r (mem_list.1 hr) hrdep hrsvc
    have hmem : seat w.state dep svc i ∈ hostsIn w.state svc := seat_mem hlt
    obtain ⟨⟨n, hn, hready, hhostname⟩, hlisted⟩ := mem_eligibleHosts.1 hmem
    rw [hnodes, ht.frame.nodes, hhost]
    exact ⟨⟨n, hn, hhostname, hready⟩, hlisted hhosts hlist⟩

theorem pinned_replicas_apart (w : World) (es : List (Deed K)) (h : Along (Deed.perform F P) Meets w es) :
    Along (Deed.perform F P) (KeepsApart P) w es := by
  refine (along_of_invariant (Deed.perform F P) (fun _ => True) Meets (KeepsApart P) (fun w e _ he => ⟨trivial, ?_⟩)
    w es
    trivial h).2
  cases e with
  | pass gs => exact pass_keepsApart P he
  | _ => trivial

end Runs

namespace Pinned

def jaco : Bytes :=
  ("deployment: sample\nservices:\n- name: web\n  replicas: 2\n  placement: hosts\n" ++
    "  hosts: [node-a, node-b, node-c]\n").toList.flatMap String.utf8EncodeChar

def hosts : List String := ["node-a", "node-b", "node-c"]

def parsers : Parsers :=
  { Sample.parsers with
    decodeJaco := fun b =>
      if b = jaco then .ok { deployment := "sample", services := [⟨"web", some 2, "hosts", hosts, []⟩] }
      else .error (invalid "") }

def web : ServiceSpec := { name := "web", replicas := 2, placement := .hosts, hosts := hosts }

def applied : Entry :=
  ⟨"ops", some 0, .deploymentApply { Sample.applyOf 1 (Sample.compose "1.27") with
    jacoYaml := jaco, services := [web] }⟩

def join (hostname : String) : List (Deed ℚ) := (Relocation.Traffic.Sample.joined hostname 0).map .commit

def lost (hostname : String) : Deed ℚ :=
  .commit (.single ⟨hostname, none, .nodeStatusUpdate { hostname := hostname, status := .isolationUnavailable }⟩)

def empty : World := { state := .new, index := 0, now := 0 }

def start : List (Deed ℚ) := hosts.flatMap join ++ [.commit (.single applied), .pass []]

def after (es : List (Deed ℚ)) : World := run (Deed.perform Rebalance.Sample.floats parsers) empty es

def placed (w : World) : List (String × String) := w.state.replicasDesired.list.map (fun r => (r.id, r.host))

theorem meets_alone {w : World} (hleader : w.leader = true)
    (hdeps : ∀ dep ∈ w.state.deployments.list, (dep.services.map (·.name)).Nodup ∧ Timely (w.now + 0) dep.name w.state ∧
      ∀ svc ∈ dep.services, svc.placement = .hosts → svc.hosts ≠ [] ∧ Unshared w.state dep svc) :
    Meets w (.pass [] : Deed ℚ) :=
  ⟨hleader, nofun, nofun, hdeps⟩

end Pinned

open Pinned

theorem second_host_lost : placed (after (start ++ [lost "node-b", .pass []])) =
        [("sample-web-0", "node-a"), ("sample-web-1", "node-c")] ∧
      Along (Deed.perform Rebalance.Sample.floats parsers) (KeepsApart parsers) empty
        (start ++ [lost "node-b", .pass []]) := by
  refine ⟨by decide +kernel, pinned_replicas_apart _ _ _ _ ?_⟩
  exact ⟨trivial, trivial, trivial, trivial, trivial, trivial, trivial, meets_alone rfl (by decide +kernel), trivial,
    meets_alone rfl (by decide +kernel), trivial⟩

theorem first_host_lost : Deploy.apply parsers .leader (after (hosts.flatMap join)).state "ops" 0
        ⟨jaco, Sample.compose "1.27", false⟩ = .ok ⟨1, [applied]⟩ ∧
      placed (after start) = [("sample-web-0", "node-a"), ("sample-web-1", "node-b")] ∧
      placed (after (start ++ [lost "node-a", .pass []])) =
        [("sample-web-0", "node-b"), ("sample-web-1", "node-b")] ∧
      ¬ Along (Deed.perform Rebalance.Sample.floats parsers) (KeepsApart parsers) empty
        (start ++ [lost "node-a", .pass []]) := by
  decide +kernel

end Jaco.Scheduler
