import Jaco.RouteOwnership
import Jaco.Rollout
import Jaco.Histories

namespace Jaco.Deploy

open List

def validateDeploymentName (name : String) : Option Status :=
  if name = "" then some (invalidArgument "validation_failed" "deployment is required") else none

def rollback (role : RaftRole) (s : State) (identity : String) (now : Timestamp) (name : String) :
    Except Status (Nat × Entry) :=
  match requireLeader role "rollback" with
  | some e => .error e
  | none =>
    match validateDeploymentName name with
    | some e => .error e
    | none =>
      match s.deployments.get name with
      | none => .error ⟨.notFound, "deployment_not_found", "deployment " ++ GoStrings.quote name ++ " not found"⟩
      | some dep =>
        if dep.previousRevision = 0 then
          .error ⟨.failedPrecondition, "no_previous_revision",
            "deployment " ++ GoStrings.quote name ++ " has no previous revision to roll back to"⟩
        else .ok (dep.previousRevision, ⟨identity, some now, .deploymentRollback name dep.previousRevision⟩)

def abortBatch (plan : RolloutPlan) (dep : Option Deployment) (deployment reason : String)
    (steppedAt now : Timestamp) : Command :=
  .batch "rollout" (some now)
    (Rollout.planCommand { plan with state := .aborted, failureReason := reason, lastStepAt := some steppedAt } now ::
      Rollout.rollbackChild deployment now dep)

namespace Revisions

def KeepsMarkers (D : String) : Payload → Prop
  | .deploymentApply da => da.deployment ≠ D
  | .deploymentRollback name _ => name ≠ D
  | .deploymentDelete name => name ≠ D
  | _ => True

structure Unrelated (D : String) where
  command : Command
  frame : ∀ e ∈ command.entries, KeepsMarkers D e.payload

/-- An operation on `D` at the moment it commits. Each handler read the state some number of commits earlier. -/
inductive Event (D : String) where
  | apply (lag : Nat) (role : RaftRole) (identity : String) (now : Timestamp) (req : ApplyRequest)
  | rollback (lag : Nat) (role : RaftRole) (identity : String) (now : Timestamp)
  | abort (planLag depLag : Nat) (service reason : String) (steppedAt now : Timestamp)
  | other (c : Unrelated D)

/-- The states so far, and the revision and manifest of every Apply of the deployment that committed, latest first. -/
structure Course where
  history : History State
  recorded : List (Nat × ApplyRequest)

def Course.start (s : State) : Course := ⟨.start s, []⟩

def Course.commit (c : Course) (cmd : Command) : Course :=
  { c with history := c.history.push (cmd.apply c.history.states.length c.history.now) }

def Course.revisions (c : Course) : List Nat := c.recorded.map Prod.fst

def appliesTo (D : String) : Payload → Bool
  | .deploymentApply da => da.deployment = D
  | _ => false

variable (p : Parsers) (D : String)

def step (c : Course) : Event D → Course
  | .apply lag role identity now req =>
    match Deploy.apply p role (c.history.read lag) identity now req with
    | .error _ => c
    | .ok r =>
      match r.commits with
      | [] => c
      | e :: _ =>
        if appliesTo D e.payload then
          { c.commit (.single e) with recorded := (r.appliedRevision, req) :: c.recorded }
        else c.commit (.single e)
  | .rollback lag role identity now =>
    match Deploy.rollback role (c.history.read lag) identity now D with
    | .error _ => c
    | .ok r => c.commit (.single r.2)
  | .abort planLag depLag service reason steppedAt now =>
    match (c.history.read planLag).rolloutPlans.get (rolloutPlanKey D service) with
    | none => c
    | some plan =>
      c.commit (abortBatch plan ((c.history.read depLag).deployments.get D) D reason steppedAt now)
  | .other cmd => c.commit cmd.command

def Course.RevisionsIncrease (c : Course) : Prop :=
  c.revisions.Pairwise (· > ·) ∧ ∀ x ∈ c.recorded, ∀ y ∈ c.recorded, x.1 = y.1 → x.2 = y.2

/-- If this is an Apply that will be admitted, the marker it reads is still the one the last Apply set. -/
def ReadsLast (c : Course) : Event D → Prop
  | .apply lag role identity _ req =>
    ∀ a, admission p role (c.history.read lag) identity req = .ok a → a.jaco.deployment = D → req.dryRun = false →
      currentRevision (c.history.read lag) D = c.revisions.headD 0 ∧ c.revisions.headD 0 + 1 < 2 ^ 64
  | _ => True

variable {p D}

def Known (revs : List Nat) (r : Nat) : Prop := r = 0 ∨ r ∈ revs

def Marked (D : String) (revs : List Nat) (s : State) : Prop :=
  ∀ d, s.deployments.get D = some d → Known revs d.appliedRevision ∧ Known revs d.previousRevision

variable {revs : List Nat} {s : State}

theorem known_cons {r : Nat} (x : Nat) (h : Known revs r) : Known (x :: revs) r :=
  h.imp_right (mem_cons_of_mem x)

theorem marked_cons (x : Nat) (h : Marked D revs s) : Marked D (x :: revs) s :=
  fun d hd => ⟨known_cons x (h d hd).1, known_cons x (h d hd).2⟩

theorem known_currentRevision (h : Marked D revs s) : Known revs (currentRevision s D) := by
  unfold currentRevision
  cases hd : s.deployments.get D with
  | none => exact .inl rfl
  | some d => exact (h d hd).1

def Restores (D : String) (revs : List Nat) : Payload → Prop
  | .deploymentApply da => da.deployment ≠ D
  | .deploymentRollback name revision => name = D → Known revs revision
  | _ => True

theorem restores_of_keepsMarkers (revs : List Nat) {q : Payload} (h : KeepsMarkers D q) : Restores D revs q := by
  cases q with
  | deploymentApply da => exact h
  | deploymentRollback name revision => exact fun hname => absurd hname h
  | _ => trivial

theorem noApply_of_restores {q : Payload} (h : Restores D revs q) : NoApply D q := by
  cases q with
  | deploymentApply da => exact h
  | _ => trivial

theorem marked_entry (revs : List Nat) (idx : Nat) (s : State) (e : Entry) (he : Restores D revs e.payload)
    (hs : Marked D revs s) : Marked D revs (applyEntry idx s e) := by
  intro d hd
  obtain ⟨d₀, hd₀, ht⟩ := retouched_entry idx s e (noApply_of_restores he) hd
  obtain ⟨happlied, hprevious⟩ := hs d₀ hd₀
  cases ht with
  | same => exact ⟨happlied, hprevious⟩
  | status st details => exact ⟨happlied, hprevious⟩
  | rollback revision ts h =>
    rw [h] at he
    exact ⟨he rfl, happlied⟩

theorem marked_command {revs : List Nat} (idx : Nat) {s : State} {cmd : Command}
    (hc : ∀ e ∈ cmd.entries, Restores D revs e.payload) (hs : Marked D revs s) : Marked D revs (cmd.apply idx s) :=
  Command.apply_keeps (marked_entry revs) idx cmd hc s hs

theorem marked_apply {revs : List Nat} (idx : Nat) {s : State} (identity : String) (ts : Option Timestamp)
    {da : DeploymentApply} (hda : da.deployment = D) (hs : Marked D revs s) :
    Marked D (da.revision :: revs) ((Command.single ⟨identity, ts, .deploymentApply da⟩).apply idx s) := by
  intro d hd
  rw [Command.apply_eq_foldl, entries_single, foldl_cons, foldl_nil, applyEntry_deployments] at hd
  simp only [mutate, applyDeployment, hda, Store.get_apply, if_true] at hd
  cases hd
  exact ⟨.inr mem_cons_self, known_cons _ (known_currentRevision hs)⟩

structure Sound (D : String) (c : Course) : Prop where
  marked : ∀ s ∈ c.history.states, Marked D c.revisions s
  bounded : ∀ r ∈ c.revisions, r < 2 ^ 64

variable (p)

def Recording (c c' : Course) (e : Event D) : Prop :=
  ∃ lag role identity now req a, e = .apply lag role identity now req ∧
    admission p role (c.history.read lag) identity req = .ok a ∧ a.jaco.deployment = D ∧ req.dryRun = false ∧
    c' = { c.commit (.single ⟨identity, some now, .deploymentApply (command (c.history.read lag) req a)⟩) with
      recorded := ((command (c.history.read lag) req a).revision, req) :: c.recorded }

theorem rollback_eq_ok {role : RaftRole} {identity name : String} {now : Timestamp} {r : Nat × Entry}
    (h : Deploy.rollback role s identity now name = .ok r) :
    ∃ dep, s.deployments.get name = some dep ∧
      r.2 = ⟨identity, some now, .deploymentRollback name dep.previousRevision⟩ := by
  unfold Deploy.rollback at h
  cases hl : requireLeader role "rollback" with
  | some e => simp [hl] at h
  | none =>
    cases hv : validateDeploymentName name with
    | some e => simp [hl, hv] at h
    | none =>
      cases hd : s.deployments.get name with
      | none => simp [hl, hv, hd] at h
      | some dep =>
        simp only [hl, hv, hd] at h
        split at h
        · cases h
        · cases h
          exact ⟨dep, rfl, rfl⟩

theorem restores_abortBatch (plan : RolloutPlan) (reason : String) (steppedAt now : Timestamp) (hs : Marked D revs s) :
    ∀ e ∈ (abortBatch plan (s.deployments.get D) D reason steppedAt now).entries, Restores D revs e.payload := by
  apply allows_batch
  intro cmd hcmd
  rcases mem_cons.mp hcmd with rfl | hcmd
  · exact allows_single trivial
  · cases hd : s.deployments.get D with
    | none => simp [Rollout.rollbackChild, hd] at hcmd
    | some d =>
      simp only [Rollout.rollbackChild, hd] at hcmd
      split at hcmd
      · rw [mem_singleton] at hcmd
        subst hcmd
        exact allows_single (fun _ => (hs d hd).2)
      · cases hcmd

variable (c : Course) (e : Event D)

theorem step_cases (hc : Sound D c) : step p D c e = c ∨
      (∃ cmd, step p D c e = c.commit cmd ∧ ∀ x ∈ cmd.entries, Restores D c.revisions x.payload) ∨
      Recording p c (step p D c e) e := by
  cases e with
  | apply lag role identity now req =>
    simp only [step, Deploy.apply]
    cases ha : admission p role (c.history.read lag) identity req with
    | error err => exact .inl rfl
    | ok a =>
      cases hdry : req.dryRun with
      | true => exact .inl rfl
      | false =>
        right
        by_cases hD : a.jaco.deployment = D
        · have happ : appliesTo D (.deploymentApply (command (c.history.read lag) req a)) = true := decide_eq_true hD
          simp only [Bool.false_eq_true, ↓reduceIte, happ]
          exact .inr ⟨lag, role, identity, now, req, a, rfl, ha, hD, hdry, rfl⟩
        · have happ : appliesTo D (.deploymentApply (command (c.history.read lag) req a)) = false := decide_eq_false hD
          simp only [Bool.false_eq_true, ↓reduceIte, happ]
          exact .inl ⟨_, rfl, allows_single hD⟩
  | rollback lag role identity now =>
    simp only [step]
    cases hr : Deploy.rollback role (c.history.read lag) identity now D with
    | error err => exact .inl rfl
    | ok r =>
      obtain ⟨dep, hdep, hentry⟩ := rollback_eq_ok hr
      refine .inr (.inl ⟨_, rfl, allows_single ?_⟩)
      rw [hentry]
      exact fun _ => (hc.marked _ (c.history.read_mem lag) dep hdep).2
  | abort planLag depLag service reason steppedAt now =>
    simp only [step]
    cases hplan : (c.history.read planLag).rolloutPlans.get (rolloutPlanKey D service) with
    | none => exact .inl rfl
    | some plan =>
      exact .inr (.inl ⟨_, rfl,
        restores_abortBatch plan reason steppedAt now (hc.marked _ (c.history.read_mem depLag))⟩)
  | other cmd =>
    exact .inr (.inl ⟨_, rfl, fun x hx => restores_of_keepsMarkers c.revisions (cmd.frame x hx)⟩)

theorem sound_step (hc : Sound D c) : Sound D (step p D c e) := by
  rcases step_cases p c e hc with h | ⟨cmd, h, hcmd⟩ | h
  · rw [h]
    exact hc
  · rw [h]
    refine ⟨?_, hc.bounded⟩
    exact forall_mem_cons.2 ⟨marked_command _ hcmd (hc.marked _ c.history.now_mem), hc.marked⟩
  · obtain ⟨lag, role, identity, now, req, a, -, -, hD, -, h⟩ := h
    rw [h]
    refine ⟨?_, ?_⟩
    · intro s hs
      rcases mem_cons.mp hs with rfl | hs
      · exact marked_apply _ _ _ hD (hc.marked _ c.history.now_mem)
      · exact marked_cons _ (hc.marked s hs)
    · intro r hr
      rcases mem_cons.mp hr with rfl | hr
      · exact Nat.mod_lt _ (by decide)
      · exact hc.bounded r hr

theorem sound_run (s : State) (hs : s.deployments.get D = none) (es : List (Event D)) :
    Sound D (Runs.run (step p D) (.start s) es) := by
  induction es using List.reverseRecOn with
  | nil =>
    refine ⟨?_, fun r hr => by cases hr⟩
    intro s' hs' d hd
    rw [Runs.run_nil, Course.start, History.states_start, mem_singleton] at hs'
    rw [hs', hs] at hd
    cases hd
  | append_singleton es e ih =>
    rw [Runs.run_append]
    exact sound_step p _ e ih

theorem recorded_apply (c : Course) (lag : Nat) (role : RaftRole) (identity : String) (now : Timestamp)
    (req : ApplyRequest) (a : Admitted) (ha : admission p role (c.history.read lag) identity req = .ok a)
    (hD : a.jaco.deployment = D) (hdry : req.dryRun = false) :
    (step p D c (.apply lag role identity now req)).recorded =
      ((command (c.history.read lag) req a).revision, req) :: c.recorded := by
  have happ : appliesTo D (.deploymentApply (command (c.history.read lag) req a)) = true := decide_eq_true hD
  simp [step, Deploy.apply, ha, hdry, happ]

theorem readsLast_of_recorded_eq (h : (step p D c e).recorded = c.recorded) : ReadsLast p D c e := by
  cases e with
  | apply lag role identity now req =>
    intro a ha hD hdry
    rw [recorded_apply p c lag role identity now req a ha hD hdry] at h
    exact absurd h (cons_ne_self _ _)
  | _ => trivial

theorem exceeds_iff {revs : List Nat} {cur : Nat} (hsorted : revs.Pairwise (· > ·)) (hcur : Known revs cur)
    (hbound : ∀ r ∈ revs, r < 2 ^ 64) :
    (∀ r ∈ revs, (cur + 1) % 2 ^ 64 > r) ↔ cur = revs.headD 0 ∧ revs.headD 0 + 1 < 2 ^ 64 := by
  cases revs with
  | nil =>
    rcases hcur with rfl | hmem
    · simp
    · cases hmem
  | cons top revs =>
    rw [pairwise_cons] at hsorted
    have htop : top < 2 ^ 64 := hbound top mem_cons_self
    have hle : cur ≤ top := by
      rcases hcur with rfl | hmem
      · exact Nat.zero_le top
      · rcases mem_cons.mp hmem with rfl | hmem
        · exact le_rfl
        · exact (hsorted.1 cur hmem).le
    rw [headD_cons]
    constructor
    · intro h
      have hgt := h top mem_cons_self
      omega
    · rintro ⟨rfl, hlt⟩ r hr
      rw [Nat.mod_eq_of_lt hlt]
      rcases mem_cons.mp hr with rfl | hr
      · exact Nat.lt_succ_self r
      · exact (hsorted.1 r hr).trans (Nat.lt_succ_self cur)

theorem revisionsIncrease_iff (c : Course) : c.RevisionsIncrease ↔ c.revisions.Pairwise (· > ·) := by
  refine ⟨And.left, fun h => ⟨h, ?_⟩⟩
  have hnodup : (c.recorded.map Prod.fst).Nodup := h.imp (fun hgt => (ne_of_lt hgt).symm)
  intro x hx y hy hxy
  rw [inj_on_of_nodup_map hnodup hx hy hxy]

theorem increase_step_iff (hc : Sound D c) :
    (step p D c e).RevisionsIncrease ↔ c.RevisionsIncrease ∧ ReadsLast p D c e := by
  have hunchanged (h : (step p D c e).recorded = c.recorded) :
      (step p D c e).RevisionsIncrease ↔ c.RevisionsIncrease ∧ ReadsLast p D c e := by
    rw [revisionsIncrease_iff, revisionsIncrease_iff, Course.revisions, h]
    exact (and_iff_left (readsLast_of_recorded_eq p c e h)).symm
  rcases step_cases p c e hc with h | ⟨cmd, h, -⟩ | h
  · exact hunchanged (by rw [h])
  · exact hunchanged (by rw [h]; rfl)
  · obtain ⟨lag, role, identity, now, req, a, rfl, ha, hD, hdry, h⟩ := h
    have hrev : (command (c.history.read lag) req a).revision =
        (currentRevision (c.history.read lag) D + 1) % 2 ^ 64 := by rw [← hD]; rfl
    have hreads : ReadsLast p D c (.apply lag role identity now req) ↔
        currentRevision (c.history.read lag) D = c.revisions.headD 0 ∧ c.revisions.headD 0 + 1 < 2 ^ 64 :=
      ⟨fun hr => hr a ha hD hdry, fun hr _ _ _ _ => hr⟩
    have hrevs : (step p D c (.apply lag role identity now req)).revisions =
        (command (c.history.read lag) req a).revision :: c.revisions := by rw [h]; rfl
    rw [revisionsIncrease_iff, revisionsIncrease_iff, hrevs, pairwise_cons, hrev, hreads, and_comm]
    refine and_congr_right (fun hsorted => ?_)
    exact exceeds_iff hsorted (known_currentRevision (hc.marked _ (c.history.read_mem lag))) hc.bounded

theorem revisions_increase_iff (s : State) (hs : s.deployments.get D = none) (es : List (Event D)) :
    (Runs.run (step p D) (.start s) es).RevisionsIncrease ↔
      Runs.Along (step p D) (ReadsLast p D) (.start s) es := by
  induction es using List.reverseRecOn with
  | nil => exact ⟨fun _ => trivial, fun _ => ⟨List.Pairwise.nil, fun x hx => by cases hx⟩⟩
  | append_singleton es e ih =>
    rw [Runs.run_append, Runs.along_append, Runs.run_cons, Runs.run_nil,
      increase_step_iff p _ e (sound_run p s hs es), ih, Runs.along_cons]
    exact and_congr_right (fun _ => (and_iff_left trivial).symm)

def shopParsers : Parsers := oneRoute "shop" "example.com"

def manifest (n : UInt8) : ApplyRequest := ⟨[1], [n], false⟩

def applyShop (n : UInt8) : Event "shop" := .apply 0 .leader "ops" 1 (manifest n)

theorem two_applies_increase :
    (Runs.run (step shopParsers "shop") (.start .new) [applyShop 1, applyShop 2]).RevisionsIncrease := by
  refine (revisions_increase_iff shopParsers .new rfl [applyShop 1, applyShop 2]).mpr ⟨?_, ?_, trivial⟩
  · intro a _ _ _
    decide +kernel
  · intro a _ _ _
    decide +kernel

theorem rollback_reuses_revision_two : (Runs.run (step shopParsers "shop") (.start .new)
      [applyShop 1, applyShop 2, .rollback 0 .leader "ops" 2, applyShop 3]).recorded =
        [(2, manifest 3), (2, manifest 2), (1, manifest 1)] ∧
      ¬ (Runs.run (step shopParsers "shop") (.start .new)
        [applyShop 1, applyShop 2, .rollback 0 .leader "ops" 2, applyShop 3]).RevisionsIncrease := by
  have hrecorded : (Runs.run (step shopParsers "shop") (.start .new)
      [applyShop 1, applyShop 2, .rollback 0 .leader "ops" 2, applyShop 3]).recorded =
        [(2, manifest 3), (2, manifest 2), (1, manifest 1)] := by decide +kernel
  refine ⟨hrecorded, fun h => ?_⟩
  rw [revisionsIncrease_iff, Course.revisions, hrecorded] at h
  revert h
  decide

end Revisions

end Jaco.Deploy
