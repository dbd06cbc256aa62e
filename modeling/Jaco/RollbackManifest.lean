import Jaco.SchedulerOffers

namespace Jaco.Scheduler

open Interleaving List

variable (P : Parsers) (D : String) (compose : Bytes)

def Serves (s : State) : Prop := ∀ d, s.deployments.get D = some d → d.composeYaml = compose

def Derives (c : Command) : Prop := ∀ r ∈ upsertsIn c, r.deployment = D → FromManifest P compose r

variable {P D compose}

theorem serves_entry (idx : Nat) (s : State) (e : Entry) (he : NoApply D e.payload) (hs : Serves D compose s) :
    Serves D compose (applyEntry idx s e) := by
  intro d hd
  obtain ⟨d₀, hd₀, hc, -⟩ := get_deployments_entry idx s e he hd
  rw [hc]
  exact hs d₀ hd₀

theorem serves_after_apply (idx : Nat) (s : State) (e : Entry) (da : DeploymentApply)
    (he : e.payload = .deploymentApply da) : Serves da.deployment da.composeYaml (applyEntry idx s e) := by
  intro d hd
  rw [applyEntry_deployments, he] at hd
  simp only [mutate, applyDeployment, Store.get_apply, if_true] at hd
  cases hd
  rfl

def Since (P : Parsers) (D : String) : Move World Command Others → Prop
  | .act _ _ => True
  | .other o => ∀ c ∈ o.commands, Allows (NoApply D) c
  | .start t => t = pass P

theorem offered_derives {c : Command} (h : Allows (Offer P (fun w => Serves D compose w.state)) c) :
    Derives P D compose c := by
  intro r hr hD
  obtain ⟨e, he, hpick⟩ := mem_filterMap.1 hr
  have ho := h e he
  split at hpick
  · rename_i payload replica hp
    rw [hp] at ho
    cases ho with
    | abort _ h => cases h
    | drive _ _ _ _ _ _ h => cases h
    | upsert r' w dep hw hdep hrd hm =>
      cases hpick
      have hserved : dep.composeYaml = compose := hw dep (by rw [← hD, hrd]; exact hdep)
      exact hserved ▸ hm
  · cases hpick

theorem since_fair {m : Move World Command Others} (h : Since P D m) :
    Fair cluster (fun w => Serves D compose w.state) (Allows (Offer P (fun w => Serves D compose w.state))) m := by
  cases m with
  | act i fate => trivial
  | other o => exact fun w hw => disturb_keeps (fun _ _ _ he hs => serves_entry _ _ _ he hs) o w h hw
  | start t =>
    cases h
    exact pass_offers P _

/-- From the last apply on, rollbacks included, every replica that a later pass submits comes from that apply's file. -/
theorem rollback_serves_last_applied (P : Parsers) (w : World) (e : Entry) (da : DeploymentApply)
    (ms : List (Move World Command Others)) (he : e.payload = .deploymentApply da)
    (hms : ∀ m ∈ ms, Since P da.deployment m) :
    Runs.Along (Pool.step cluster) (fun p m => ∀ c ∈ p.submitted m, Derives P da.deployment da.composeYaml c)
      ⟨w.commit (.single e), []⟩ ms := by
  have hstart : Pool.Kept (fun v => Serves da.deployment da.composeYaml v.state)
      (Allows (Offer P (fun v => Serves da.deployment da.composeYaml v.state)))
      (⟨w.commit (.single e), []⟩ : Pool World Command) := by
    refine ⟨?_, fun t ht => by cases ht⟩
    have hs := serves_after_apply (w.index + 1) w.state e da he
    simpa only [World.commit, Command.apply] using hs
  have hcommit : ∀ (c : Command) (v : World),
      Allows (Offer P (fun v => Serves da.deployment da.composeYaml v.state)) c →
        Serves da.deployment da.composeYaml v.state → Serves da.deployment da.composeYaml (v.commit c).state :=
    fun c v hc hv => commit_keeps serves_entry c v (fun e' he' => offer_noApply (hc e' he')) hv
  obtain ⟨-, halong⟩ := kept_run cluster hcommit _ ms hstart (fun m h => since_fair (hms m h))
  rw [Runs.along_iff_split] at halong ⊢
  intro pre m post hsplit c hc
  exact offered_derives (halong pre m post hsplit c hc)

namespace Sample

def rollback : Others where
  commands := [.single ⟨"ops", none, .deploymentRollback "sample" 1⟩]

def rolledBack : Pool World Command :=
  Pool.step cluster ⟨placed.commit (.single (applied 2 "1.28")), []⟩ (.other rollback : Move World Command Others)

def onePass : List (Move World Command Others) := .start (pass parsers) :: List.replicate 16 (.act 0 .acked)

def sentBy (p : Pool World Command) (ms : List (Move World Command Others)) : List ReplicaDesired :=
  (((Runs.run (Pool.step cluster) p ms).submitted (.act 0 .acked : Move World Command Others)).map upsertsIn).getD []

end Sample

open Sample in
theorem rolled_back_pass_derives :
    Runs.Along (Pool.step cluster) (fun p m => ∀ c ∈ p.submitted m, Derives parsers "sample" (Sample.compose "1.28") c)
        rolledBack onePass ∧
      (sentBy rolledBack (onePass.take 16)).map (fun r => (r.id, r.image)) = [("sample-web-0", "nginx:1.28")] := by
  refine ⟨(rollback_serves_last_applied parsers placed (applied 2 "1.28") (applyOf 2 (Sample.compose "1.28"))
    (.other rollback :: onePass) rfl (forall_mem_cons.2 ⟨?_, fun m hm => ?_⟩)).2, by decide +kernel⟩
  · exact forall_mem_singleton.2 (allows_single trivial)
  · rcases mem_cons.1 hm with h | h
    · subst h
      rfl
    · rw [eq_of_mem_replicate h]
      trivial

open Sample in
theorem rollback_rolls_revision_two_on :
    ¬ Runs.Along (Pool.step cluster) (fun p m => ∀ c ∈ p.submitted m,
      Derives parsers "sample" (Sample.compose "1.27") c)
      rolledBack onePass := by
  intro h
  rw [Runs.along_iff_split] at h
  have hd := h (onePass.take 16) (.act 0 .acked) [] rfl
  have hsent : (((Runs.run (Pool.step cluster) rolledBack (onePass.take 16)).submitted
      (.act 0 .acked : Move World Command Others)).any (fun c =>
        (upsertsIn c).any (fun r => r.deployment = "sample" && r.service = "web" && r.image = "nginx:1.28"))) =
          true := by
    decide +kernel
  obtain ⟨c, hc, hany⟩ := Option.any_eq_true _ _ |>.1 hsent
  obtain ⟨r, hr, hrec⟩ := any_eq_true.1 hany
  simp only [Bool.and_eq_true, decide_eq_true_eq] at hrec
  obtain ⟨⟨hdep, hsvc⟩, himage⟩ := hrec
  obtain ⟨⟨project, hload, hfrom⟩, -⟩ := hd c hc r hr hdep
  cases hload
  rw [himage, hsvc] at hfrom
  exact absurd hfrom (by decide +kernel)

end Jaco.Scheduler
