import Jaco.SchedulerOffers
import Jaco.Relocation
import Jaco.Ipam

namespace Jaco.DeleteRace

open Interleaving Scheduler Relocation Ipam Store List

variable (D : String)

structure Clear (s : State) : Prop where
  deployments : s.deployments.Free Deployment.name D
  replicasDesired : s.replicasDesired.Free ReplicaDesired.deployment D
  rolloutPlans : s.rolloutPlans.Free RolloutPlan.deployment D
  subnets : s.subnets.Free Subnet.deployment D

def Spares : Payload → Prop
  | .deploymentApply da => da.deployment ≠ D
  | .replicaDesiredUpsert (some r) => r.deployment ≠ D
  | .rolloutPlanUpdate (some plan) => plan.deployment ≠ D
  | .subnetAllocate sa => sa.deployment ≠ D
  | _ => True

variable {D}

theorem clear_entry (idx : Nat) (s : State) (e : Entry) (he : Spares D e.payload) (hs : Clear D s) :
    Clear D (applyEntry idx s e) := by
  constructor
  · intro k d hd hname
    have hno : NoApply D e.payload := by
      cases hp : e.payload with
      | deploymentApply da =>
        rw [hp] at he
        exact he
      | _ => trivial
    have hk : k = D := (get_key hd).symm.trans hname
    obtain ⟨d₀, hd₀, -⟩ := get_deployments_entry idx s e hno (hk ▸ hd)
    exact hs.deployments D d₀ hd₀ (get_key hd₀)
  · intro k r hr
    rcases get_replicasDesired_entry hr with hold | ⟨r₀, hp, rfl⟩
    · exact hs.replicasDesired k r hold
    · rw [hp] at he
      exact he
  · intro k plan hplan
    rcases get_rolloutPlans_entry hplan with hold | hp
    · exact hs.rolloutPlans k plan hold
    · rw [hp] at he
      exact he
  · intro k sn hsn
    rcases get_subnets_entry hsn with hold | ⟨sa, hp, rfl⟩
    · exact hs.subnets k sn hold
    · rw [hp] at he
      exact he

theorem clear_after_delete (idx : Nat) (s : State) (e : Entry) (he : e.payload = .deploymentDelete D) :
    Clear D (applyEntry idx s e) := by
  have hsubnets := applyEntry_agree_mutate idx s e .subnets (by decide)
  simp only [State.Agree, he] at hsubnets
  refine ⟨?_, ?_, ?_, ?_⟩
  · rw [applyEntry_deployments, he]
    intro k d hd
    simp only [mutate, deleteDeployment, get_remove] at hd
    split at hd
    · cases hd
    · rename_i hk
      exact fun hname => hk (hname ▸ get_key hd)
  · rw [applyEntry_replicasDesired, he]
    simp only [mutate, deleteDeployment, replicasDesired_removeReplicasOf]
    exact free_removeWhere_owner ReplicaDesired.deployment D _
  · rw [applyEntry_rolloutPlans, he]
    exact free_removeWhere_owner RolloutPlan.deployment D _
  · rw [hsubnets]
    exact free_removeWhere_owner Subnet.deployment D _

section Writers

def DoneWith (D : String) (t : Task Unit) : Prop :=
  Within (fun w => Clear D w.state) (Allows (Spares D)) (fun _ => True) t

inductive Writer where
  | schedulerPass
  | rebalance (J : Judge)
  | drain (hostname : String)
  | ensureSubnet (pool : AddressPool) (req : EnsureSubnetRequest)

def Writer.task (P : Parsers) : Writer → Task Unit
  | .schedulerPass => pass P
  | .rebalance J => cycle J
  | .drain hostname => do
    let _ ← drainHost hostname
    pure ()
  | .ensureSubnet pool req => do
    let _ ← Ipam.ensureSubnet pool req
    pure ()

def Writer.AsksFor (D : String) : Writer → Prop
  | .ensureSubnet _ req => req.deployment = D
  | _ => False

theorem spares_of_offer {P : Parsers} {p : Payload} (h : Offer P (fun w => Clear D w.state) p) : Spares D p := by
  have hcontinues : ∀ key plan, Continues (fun w => Clear D w.state) key plan → plan.deployment ≠ D := by
    rintro key plan ⟨w, hw, old, hk, hd, -⟩
    exact hd.trans_ne (hw.rolloutPlans key old hk)
  cases h with
  | status u => trivial
  | remove id => trivial
  | abort p h =>
    cases h with
    | rollback deployment revision => trivial
    | plan plan key hs h => exact hcontinues key plan h
  | drive p w dep service hw hdep h =>
    cases h with
    | audit ev => trivial
    | begin plan hd hs => exact hd.trans_ne (hw.deployments _ dep hdep)
    | proceed plan h => exact hcontinues _ plan h
  | upsert r w dep hw hdep hr hm => exact hr.trans_ne (hw.deployments _ dep hdep)

theorem spares_of_relocates {p : Payload} (h : Relocates (fun w => Clear D w.state) p) : Spares D p := by
  unfold Relocates at h
  split at h
  · trivial
  · obtain ⟨w, hw, r₀, hr₀, hd⟩ := h
    exact hd.trans_ne (hw.replicasDesired _ r₀ hr₀)
  · cases h

theorem spares_of_allocates {req : EnsureSubnetRequest} (hreq : req.deployment ≠ D) {p : Payload}
    (h : Allocates req p) : Spares D p := by
  unfold Allocates at h
  split at h
  · exact h.1.trans_ne hreq
  · cases h

theorem task_doneWith (P : Parsers) (writer : Writer) (h : ¬ writer.AsksFor D) : DoneWith D (writer.task P) := by
  cases writer with
  | schedulerPass =>
    exact within_weaken (pass_offers P _) (fun c hc => allows_mono (fun _ => spares_of_offer) hc)
  | rebalance J => exact within_weaken (cycle_within J) (fun c hc => allows_mono (fun _ => spares_of_relocates) hc)
  | drain hostname =>
    refine within_bind_any (Q := fun _ => True) ?_ (fun _ => within_ret trivial)
    exact within_weaken (drainHost_within hostname) (fun c hc => allows_mono (fun _ => spares_of_relocates) hc)
  | ensureSubnet pool req =>
    refine within_bind_any (Q := fun _ => True) ?_ (fun _ => within_ret trivial)
    exact within_weaken (ensureSubnet_within _ pool req) (fun c hc => allows_mono (fun _ => spares_of_allocates h) hc)

end Writers

def Follows (P : Parsers) (D : String) : Move World Command Others → Prop
  | .act _ _ => True
  | .other o => ∀ c ∈ o.commands, Allows (Spares D) c
  | .start t => ∃ writer : Writer, ¬ writer.AsksFor D ∧ t = writer.task P

theorem follows_fair {P : Parsers} {m : Move World Command Others} (h : Follows P D m) :
    Fair cluster (fun w => Clear D w.state) (Allows (Spares D)) m := by
  cases m with
  | act i fate => trivial
  | other o => exact fun w hw => disturb_keeps clear_entry o w h hw
  | start t =>
    obtain ⟨writer, hask, rfl⟩ := h
    exact task_doneWith P writer hask

theorem delete_leaves_nothing (P : Parsers) (D : String) (p : Pool World Command) (e : Entry)
    (he : e.payload = .deploymentDelete D) (hdone : ∀ t ∈ p.threads, DoneWith D t)
    (ms : List (Move World Command Others)) (hms : ∀ m ∈ ms, Follows P D m) :
    Clear D (Runs.run (Pool.step cluster) { p with now := p.now.commit (.single e) } ms).now.state := by
  have hdeleted : Clear D (p.now.commit (.single e)).state := by
    have hclear := clear_after_delete (p.now.index + 1) p.now.state e he
    simpa only [World.commit, Command.apply] using hclear
  obtain ⟨hend, -⟩ := kept_run cluster (fun c w hc hw => commit_keeps (Q := Clear D) clear_entry c w hc hw)
    { p with now := p.now.commit (.single e) } ms ⟨hdeleted, hdone⟩ (fun m hm => follows_fair (hms m hm))
  exact hend.1

namespace Sample

open Scheduler.Sample

def acts (i n : Nat) : List (Move World Command Others) := List.replicate n (.act i .acked)

def deleted : Entry := ⟨"ops", none, .deploymentDelete "sample"⟩

def blogReplica : ReplicaDesired where
  id := "blog-web-0"
  deployment := "blog"
  service := "web"
  host := "node-b"
  image := "nginx:1.27"

def blogMove : Task Unit :=
  .submit (.single ⟨"scheduler/rebalance", some 0, .replicaDesiredUpsert (some blogReplica)⟩) (fun _ => .ret ())

def quiet : Pool World Command := ⟨placed, [pass parsers, blogMove]⟩

def quietMoves : List (Move World Command Others) := acts 1 1 ++ acts 0 5 ++ .start (pass parsers) :: acts 2 5

def racing : Pool World Command := Runs.run (Pool.step cluster) ⟨placed, [pass parsers]⟩ (acts 0 4)

def racingEnd : Pool World Command :=
  Runs.run (Pool.step cluster) { racing with now := racing.now.commit (.single deleted) }
    (acts 0 7 ++ .start (pass parsers) :: acts 1 5)

end Sample

open Sample Scheduler.Sample in
theorem quiet_delete_leaves_nothing :
    Clear "sample" (Runs.run (Pool.step cluster) { quiet with now := quiet.now.commit (.single deleted) }
        quietMoves).now.state ∧
      quiet.now.state.replicasDesired.list.map (·.deployment) = ["sample", "sample"] ∧
      (Runs.run (Pool.step cluster) { quiet with now := quiet.now.commit (.single deleted) }
        quietMoves).now.state.replicasDesired.list.map (·.deployment) = ["blog"] := by
  refine ⟨delete_leaves_nothing parsers "sample" quiet deleted rfl ?_ quietMoves ?_, by decide +kernel,
    by decide +kernel⟩
  · intro t ht
    rcases mem_cons.1 ht with ht | ht
    · subst ht
      exact task_doneWith parsers .schedulerPass (fun h => h)
    · rw [mem_singleton] at ht
      subst ht
      exact ⟨allows_single (show "blog" ≠ "sample" by decide), fun _ => trivial⟩
  · intro m hm
    rcases mem_append.1 hm with hm | hm
    · rcases mem_append.1 hm with hm | hm <;> rw [eq_of_mem_replicate hm] <;> trivial
    · rcases mem_cons.1 hm with hm | hm
      · subst hm
        exact ⟨.schedulerPass, fun h => h, rfl⟩
      · rw [eq_of_mem_replicate hm]
        trivial

open Sample in
theorem racing_pass_restores_replicas :
    ¬ Clear "sample" racingEnd.now.state ∧ racingEnd.threads.all Program.finished = true ∧
      racingEnd.now.state.deployments.list = [] ∧
      racingEnd.now.state.replicasDesired.list.map (·.id) = ["sample-web-0", "sample-web-1"] := by
  have hleft : (racingEnd.now.state.replicasDesired.get "sample-web-0").map (·.deployment) = some "sample" := by
    decide +kernel
  refine ⟨fun h => ?_, by decide +kernel⟩
  obtain ⟨r, hr, hd⟩ := Option.map_eq_some_iff.1 hleft
  exact h.replicasDesired _ r hr hd

end Jaco.DeleteRace
