import Jaco.RolloutSteps
import Jaco.StickyHosts

namespace Jaco.Scheduler

open Interleaving Placement Rollout List

def alters (w : World) (D S : String) (r : ReplicaDesired) : Bool :=
  r.deployment = D && r.service = S && (w.state.replicasDesired.get r.id).any (fun cur =>
    cur.deployment = D && cur.service = S && (cur.image ≠ r.image || cur.specHash ≠ r.specHash))

/-- The records of a service that its manifest leaves behind differ from it in the image, and may stay where
they are. -/
def Behind (s : State) (svc : ServiceSpec) (image : String) (specHash : Bytes) (r : ReplicaDesired) : Prop :=
  if r.image = image then r.specHash = specHash else r.image ≠ "" ∧ r.host ≠ "" ∧ Admits s svc r.host

def ImageOnly (P : Parsers) (w : World) (D S : String) : Prop :=
  ∀ dep ∈ w.state.deployments.get D, ∀ svc ∈ dep.services, svc.name = S →
    ∀ project ∈ (P.loadCompose dep.composeYaml).toOption, ∀ specHash ∈ (P.specHash dep.composeYaml S).toOption,
      svc.placement ≠ .global ∧ ∀ r ∈ w.state.replicasDesired.list, r.deployment = D → r.service = S →
        Behind w.state svc (lookupImage project S) specHash r

def Round.upserts (round : Round) : List ReplicaDesired := round.batch.flatMap upsertsIn

section Gate

variable {w : World} {p : Pass}

theorem rolling_of_behind {s : State} {svc : ServiceSpec} {image : String} {specHash : Bytes}
    {current : List ReplicaDesired} (h : ∀ r ∈ current, Behind s svc image specHash r) (hne : current ≠ []) :
    isRollingImageChange current image = true := by
  rw [isRollingImageChange, if_neg (by simpa using hne)]
  split
  · rfl
  · rename_i hany
    simp only [any_eq_true, decide_eq_true_eq, not_exists, not_and] at hany
    simp only [Bool.not_eq_true', any_eq_false, Bool.or_eq_true, decide_eq_true_eq, not_or]
    intro r hr
    have hbehind := h r hr
    rw [Behind, if_neg (hany r hr)] at hbehind
    exact ⟨hbehind.1, hany r hr⟩

theorem gated {desired : List DesiredReplica} {counts : String → Nat}
    (hdesired : desiredReplicas p.dep p.svc p.eligible counts = .ok desired)
    (hscaled : p.svc.placement ≠ .global) (hreplicas : p.svc.replicas < 2 ^ 31)
    (hcur : Current w p.dep p.svc p.current) (heligible : p.eligible = hostsIn w.state p.svc)
    (hrolling : p.rolling = isRollingImageChange p.current p.image)
    (hbehind : ∀ r ∈ p.current, Behind w.state p.svc p.image p.specHash r) {r : ReplicaDesired}
    (hr : r ∈ p.upserts false desired) (halters : alters w p.dep.name p.svc.name r = true) :
    p.rolling = true ∧ (0 ≤ p.rolloutStep →
      ∃ i < 2 ^ 31, p.rolloutStep = (i : Nat) ∧ r.id = replicaID p.dep.name p.svc.name i) := by
  obtain ⟨d, hd, rfl, hgate, -⟩ := mem_upserts p false desired r hr
  simp only [alters, Bool.and_eq_true, Option.any_eq_true, decide_eq_true_eq] at halters
  obtain ⟨-, cur, hget, ⟨hcd, hcs⟩, hdiffers⟩ := halters
  have hfind := find_of_current hcur hget hcd hcs
  have hmem : cur ∈ p.current := mem_of_find?_eq_some hfind
  have hcurrent := hbehind cur hmem
  have himage : cur.image ≠ p.image := by
    intro himage
    rw [Behind, if_pos himage] at hcurrent
    simp [Pass.replica, himage, hcurrent] at hdiffers
  rw [Behind, if_neg himage] at hcurrent
  obtain ⟨-, hhost, hadmits⟩ := hcurrent
  have hstays : cur.host = p.hostFor d := by
    rw [hostFor_of_find hfind, sticky_of_eligible hhost (heligible ▸ hadmits.1) (imp_iff_not_or.1 hadmits.2)]
    rfl
  have hroll : p.rolling = true := hrolling.trans (rolling_of_behind hbehind (ne_nil_of_mem hmem))
  refine ⟨hroll, fun hstep => ?_⟩
  obtain ⟨i, hi, hid, hindex⟩ := index_of_mem_desired hdesired hscaled hd
  exact ⟨i, by omega, (hgate hroll hstep cur hfind hstays himage).symm.trans hindex, hid⟩

end Gate

def inRollout (D S : String) (w : World) : Bool :=
  (planAt D S w).any (fun p => p.state = .inProgress && 0 ≤ p.currentStep)

section Tracked

variable (w : World) (D S : String)

/-- While the rollout goes on, its step moves only past a replica that was seen ready. -/
def Waits (c : Config World) : Prop :=
  ∀ k : Nat, k < 2 ^ 31 → AtStep D S k w → (∀ v ∈ c.now :: c.seen, inRollout D S v = true) →
    AtStep D S k c.now ∨ ∃ v ∈ c.seen, isReady (replicaID D S k) v = true

def Holds (id : String) (v : World) : Prop :=
  ∀ p, planAt D S v = some p → p.state = .inProgress → 0 ≤ p.currentStep →
    ∃ i < 2 ^ 31, p.currentStep = (i : Nat) ∧ id = replicaID D S i

structure Tracked (round : Round) (c : Config World) : Prop where
  waits : Waits w D S c
  held : ∀ r ∈ round.upserts, alters w D S r = true → Holds D S r.id c.now

structure Progress (round : Round) (c : Config World) : Prop where
  framed : Framed w.state c.now.state
  noPlan : round.All (Allows NoPlan)
  tracked : Tracked w D S round c

variable {w D S}

theorem rolloutStep_observation {p : Payload} (h : IsObservation p) : RolloutStep p := by
  cases p <;> simp_all [IsObservation, RolloutStep, Harmless, writes, NoApply]

theorem steady_framed : Steady cluster Observing (fun c => Framed w.state c.now.state) :=
  steady_of_entry (fun idx s e he => framed_entry idx s e (rolloutStep_observation he))

theorem inRollout_of_planAt {v v' : World} (h : planAt D S v = planAt D S v') : inRollout D S v = inRollout D S v' := by
  rw [inRollout, h, inRollout]

theorem not_atRest {v : World} (h : inRollout D S v = true) : ¬ AtRest D S v := by
  obtain ⟨p, hp, hprog⟩ := (Option.any_eq_true _ _).1 h
  simp only [Bool.and_eq_true, decide_eq_true_eq] at hprog
  exact fun hrest => hrest p hp hprog.1

theorem atStep_of_planAt {k : Int} {v v' : World} (h : planAt D S v' = planAt D S v) (hv : AtStep D S k v) :
    AtStep D S k v' := by
  rw [AtStep, h]
  exact hv

variable {round : Round} {c c' : Config World}

theorem tracked_of_planAt (hplan : planAt D S c'.now = planAt D S c.now) (hseen : c.seen ⊆ c'.seen)
    (h : Tracked w D S round c) : Tracked w D S round c' := by
  refine ⟨fun k hk hat hroll => ?_, fun r hr halters p hp => h.held r hr halters p (hplan ▸ hp)⟩
  have hroll₀ : ∀ v ∈ c.now :: c.seen, inRollout D S v = true := by
    refine forall_mem_cons.2 ⟨?_, fun v hv => hroll v (mem_cons_of_mem _ (hseen hv))⟩
    rw [← inRollout_of_planAt hplan]
    exact hroll _ mem_cons_self
  rcases h.waits k hk hat hroll₀ with hstep | ⟨v, hv, hready⟩
  · exact .inl (atStep_of_planAt hplan hstep)
  · exact .inr ⟨v, hseen hv, hready⟩

theorem steady_progress : Steady cluster Observing (Progress w D S round) := fun g c hg hc =>
  ⟨steady_framed g c hg hc.framed, hc.noPlan,
    tracked_of_planAt (steady_planIs g c hg rfl) (subset_cons_self _ _) hc.tracked⟩

theorem upserts_append (round : Round) (cs : List Command) (services : List ServicePass) :
    Round.upserts { batch := round.batch ++ cs, services := services } = round.upserts ++ cs.flatMap upsertsIn :=
  flatMap_append

theorem progress_append (h : Progress w D S round c) {cs : List Command} (hcs : ∀ x ∈ cs, Allows NoPlan x)
    (hheld : ∀ r ∈ cs.flatMap upsertsIn, alters w D S r = true → Holds D S r.id c.now) (services : List ServicePass) :
    Progress w D S { batch := round.batch ++ cs, services := services } c := by
  refine ⟨h.framed, all_append h.noPlan hcs services, h.tracked.waits, ?_⟩
  rw [upserts_append, forall_mem_append]
  exact ⟨h.tracked.held, hheld⟩

theorem holds_of_gated {v : World} {rolling : Bool} {k : Int} {id : String}
    (hgate : rolling = true ∧ (0 ≤ k → ∃ i < 2 ^ 31, k = (i : Nat) ∧ id = replicaID D S i))
    (hdriven : rolling = true → AtStep D S k v ∨ AtRest D S v) : Holds D S id v := by
  intro q hq hprog hpos
  rcases hdriven hgate.1 with ⟨q', hq', -, hstep⟩ | hrest
  · cases Option.some.inj (hq.symm.trans hq')
    rw [hstep] at hpos ⊢
    exact hgate.2 hpos
  · exact absurd hprog (hrest q hq)

theorem tracked_of_atRest (h : AtRest D S c.now) : Tracked w D S round c :=
  ⟨fun _ _ _ hroll => absurd h (not_atRest (hroll _ mem_cons_self)), fun _ _ _ p hp hprog => absurd hprog (h p hp)⟩

end Tracked

section Pass

variable {P : Parsers} {w : World} {D S : String} {dep : Deployment} {svc : ServiceSpec} {round : Round}

theorem progress_settle {G : Payload → Prop} {x : Command} {c : Config World} (h : Progress w D S round c)
    (hG : ∀ p, G p → RolloutStep p) (hx : Allows G x) (fate : Fate)
    (hplan : planAt D S (cluster.settle x c.now fate).2 = planAt D S c.now) :
    Progress w D S round { c with now := (cluster.settle x c.now fate).2 } :=
  ⟨settle_keeps_state framed_entry x c.now fate (allows_mono hG hx) h.framed, h.noPlan,
    tracked_of_planAt hplan (List.Subset.refl _) h.tracked⟩

theorem drives_key {R : World → Prop} {d s : String} {plan : RolloutPlan}
    (h : Drives R d s (.rolloutPlanUpdate (some plan))) : plan.key = rolloutPlanKey d s := by
  cases h with
  | begin _ hd hs => rw [RolloutPlan.key, hd, hs]
  | proceed _ h =>
    obtain ⟨v, -, old, hold, hd, hs, -⟩ := h
    have hkey : old.key = rolloutPlanKey d s := Store.get_key hold
    rw [RolloutPlan.key, hd, hs]
    exact hkey

theorem get_plans_entry_drives {R : World → Prop} {d s key : String} (hne : rolloutPlanKey d s ≠ key) (idx : Nat)
    (st : State) {e : Entry} (he : Drives R d s e.payload) :
    (applyEntry idx st e).rolloutPlans.get key = st.rolloutPlans.get key := by
  rw [applyEntry_rolloutPlans]
  generalize e.payload = p at he
  cases p with
  | auditAppend ev => cases ev <;> rfl
  | rolloutPlanUpdate plan =>
    cases plan with
    | none => rfl
    | some plan =>
      simp only [mutate, Store.get_apply]
      rw [if_neg]
      rw [drives_key he]
      exact hne
  | _ => cases he

theorem drivenStep_other (hne : rolloutPlanKey dep.name svc.name ≠ rolloutPlanKey D S) (eligible : List String)
    (rolling : Bool) : Triple cluster Observing (Progress w D S round) (drivenStep dep svc eligible rolling)
      (fun _ c => Progress w D S round c) := by
  refine triple_of_within steady_progress (fun x c fate hx hc => ?_) (drivenStep_drives dep svc eligible rolling)
  refine progress_settle hc (fun _ => rolloutStep_drives) hx fate ?_
  exact settle_keeps_state (Q := fun st => st.rolloutPlans.get (rolloutPlanKey D S) = planAt D S c.now)
    (fun idx st e he hst => (get_plans_entry_drives hne idx st he).trans hst) x c.now fate hx rfl

theorem drivenStep_framed (dep : Deployment) (svc : ServiceSpec) (eligible : List String) (rolling : Bool) :
    Triple cluster Observing (fun c => Framed w.state c.now.state) (drivenStep dep svc eligible rolling)
      (fun _ c => Framed w.state c.now.state) :=
  triple_of_within steady_framed (fun x c fate hx hc => settle_keeps_state framed_entry x c.now fate
    (allows_mono (fun _ => rolloutStep_drives) hx) hc) (drivenStep_drives dep svc eligible rolling)

theorem drivenStep_own (hfresh : ∀ r ∈ round.upserts, r.deployment = dep.name → r.service ≠ svc.name)
    (eligible : List String)
    (rolling : Bool) : Triple cluster Observing (Progress w dep.name svc.name round)
    (drivenStep dep svc eligible rolling)
      (fun k c => Progress w dep.name svc.name round c ∧
        (rolling = true → AtStep dep.name svc.name k c.now ∨ AtRest dep.name svc.name c.now)) := by
  cases rolling with
  | false => exact triple_ret (fun c hc => ⟨hc, nofun⟩)
  | true =>
    intro gs c hgs hacked hc
    have hframed := drivenStep_framed dep svc eligible true gs c hgs hacked hc.framed
    obtain ⟨hstep, hmoved⟩ := driveRollout_spec gs c hgs hacked rfl
    obtain ⟨v, hv, hplan⟩ := driveRollout_looks gs c hgs hacked rfl
    have hseen := (exec_seen cluster (driveRollout dep svc (stepsOf svc eligible)) gs c).subset
    refine ⟨⟨hframed, hc.noPlan, fun k hk hat hroll => ?_, fun r hr halters => ?_⟩, fun _ => hstep⟩
    · have hroll₀ : ∀ v ∈ c.now :: c.seen, inRollout dep.name svc.name v = true := by
        refine forall_mem_cons.2 ⟨?_, fun u hu => hroll u (mem_cons_of_mem _ (hseen hu))⟩
        rw [← inRollout_of_planAt hplan]
        exact hroll v (mem_cons_of_mem _ hv)
      rcases hc.tracked.waits k hk hat hroll₀ with ⟨p, hp, hprog, hcur⟩ | ⟨u, hu, hready⟩
      · rw [← targetID_of_step hk hcur, ← hcur]
        rcases hmoved p hp hprog with hstays | hrest | hready
        · exact .inl hstays
        · exact absurd hrest (not_atRest (hroll _ mem_cons_self))
        · exact .inr hready
      · exact .inr ⟨u, hseen hu, hready⟩
    · simp only [alters, Bool.and_eq_true, decide_eq_true_eq] at halters
      exact absurd halters.1.2 (hfresh r hr halters.1.1)

theorem drivenStep_progress (hS : NulFree S) (hsvc : NulFree svc.name)
    (hfresh : dep.name = D → svc.name = S → ∀ r ∈ round.upserts, r.deployment = D → r.service ≠ S)
    (eligible : List String) (rolling : Bool) :
    Triple cluster Observing (Progress w D S round) (drivenStep dep svc eligible rolling)
      (fun k c => Progress w D S round c ∧
        (dep.name = D → svc.name = S → rolling = true → AtStep D S k c.now ∨ AtRest D S c.now)) := by
  by_cases hkey : rolloutPlanKey dep.name svc.name = rolloutPlanKey D S
  · obtain ⟨rfl, rfl⟩ := rolloutPlanKey_inj hsvc hS hkey
    exact triple_mono (drivenStep_own (hfresh rfl rfl) eligible rolling) (fun _ h => h)
      (fun _ _ h => ⟨h.1, fun _ _ => h.2⟩)
  · refine triple_mono (drivenStep_other hkey eligible rolling) (fun _ h => h) (fun _ _ h => ⟨h, fun hd hs => ?_⟩)
    exact absurd (by rw [hd, hs]) hkey

def Plain (c : Command) : Prop := Allows NoPlan c ∧ upsertsIn c = []

theorem plain_pending (name reason : String) (now : Timestamp) : Plain (markDeploymentPending name reason now) :=
  ⟨allows_single (by simp [NoPlan, writes]), by simp [upsertsIn, markDeploymentPending, entries_single]⟩

theorem plain_remove (now : Timestamp) (id : String) : Plain (removeCommand now id) :=
  ⟨allows_single (by simp [NoPlan, writes]), by simp [upsertsIn, removeCommand, entries_single]⟩

theorem upsertsIn_commands (p : Pass) (desired : List DesiredReplica) :
    (p.commands desired).flatMap upsertsIn = p.upserts false desired := by
  have hupsert : ∀ r, upsertsIn (upsertCommand p.now r) = [r] := fun r => by
    simp [upsertsIn, upsertCommand, entries_single]
  simp only [Pass.commands, flatMap_append, flatMap_map, hupsert, (plain_remove _ _).2]
  simp

theorem commands_noPlan (p : Pass) (desired : List DesiredReplica) : ∀ c ∈ p.commands desired, Allows NoPlan c := by
  intro c hc
  rcases mem_append.1 hc with hc | hc
  · obtain ⟨r, -, rfl⟩ := mem_map.1 hc
    exact allows_single (by simp [NoPlan, writes])
  · obtain ⟨id, -, rfl⟩ := mem_map.1 hc
    exact (plain_remove _ id).1

/-- The round went on with upserts of the services named. -/
def Extends (D S : String) (w : World) (round : Round) (deployment : String) (services : List String) (round' : Round)
    (c : Config World) : Prop :=
  Progress w D S round' c ∧
    ∀ r ∈ round'.upserts, r ∈ round.upserts ∨ r.deployment = deployment ∧ r.service ∈ services

theorem upserts_plain {cs : List Command} (hcs : ∀ x ∈ cs, Plain x) (services : List ServicePass) :
    Round.upserts { batch := round.batch ++ cs, services := services } = round.upserts := by
  rw [upserts_append, flatMap_eq_nil_iff.2 (fun x hx => (hcs x hx).2), append_nil]

theorem progress_plain {c : Config World} (h : Progress w D S round c) {cs : List Command} (hcs : ∀ x ∈ cs, Plain x)
    (services : List ServicePass) : Progress w D S { batch := round.batch ++ cs, services := services } c :=
  progress_append h (fun x hx => (hcs x hx).1) (by simp [flatMap_eq_nil_iff.2 (fun x hx => (hcs x hx).2)]) services

theorem extends_pending {c : Config World} (h : Progress w D S round c) (deployment reason : String) (now : Timestamp)
    (names : List String) (services : List ServicePass) : Extends D S w round deployment names
      { batch := round.batch ++ [markDeploymentPending deployment reason now], services := services } c := by
  have hplain := forall_mem_singleton.2 (plain_pending deployment reason now)
  exact ⟨progress_plain h hplain services, fun r hr => .inl (upserts_plain hplain services ▸ hr)⟩

theorem reconcileService_extends (hS : NulFree S) (hsvc : NulFree svc.name ∧ svc.replicas < 2 ^ 31)
    {nodes : List Node} (hnodes : nodes.Perm w.state.nodes.list) {project : Project} {specHash : Bytes}
    (hbehind : dep.name = D → svc.name = S → svc.placement ≠ .global ∧ ∀ r ∈ w.state.replicasDesired.list,
      r.deployment = D → r.service = S → Behind w.state svc (lookupImage project S) specHash r)
    (hfresh : dep.name = D → svc.name = S → ∀ r ∈ round.upserts, r.deployment = D → r.service ≠ S) :
    Triple cluster Observing (Progress w D S round) (reconcileService dep svc nodes project specHash)
      (fun sp c => Extends D S w round dep.name [svc.name]
        { batch := round.batch ++ sp.commands, services := round.services ++ [sp] } c) := by
  have hblocked : ∀ reason now c, Progress w D S round c → Extends D S w round dep.name [svc.name]
      { batch := round.batch ++ (blocked dep svc reason now).commands,
        services := round.services ++ [blocked dep svc reason now] } c :=
    fun reason now c hc => extends_pending hc _ _ _ _ _
  refine triple_bind (triple_mono (triple_read World.now steady_progress) (fun _ h => h) (fun _ _ h => h.1))
    (fun now => ?_)
  dsimp only
  split
  · exact triple_ret (hblocked _ now)
  · refine triple_bind (R := fun current c => Current w dep svc current ∧ Progress w D S round c) ?_
      (fun current => triple_pure (fun hcur => ?_))
    · refine triple_mono (triple_read _ steady_progress) (fun _ h => h) (fun current c h => ⟨fun r => ?_, h.1⟩)
      rw [h.2.1, mem_filter, mem_listing, h.1.framed.replicas]
      simp
    · split
      · exact triple_ret (hblocked _ now)
      · rename_i desired hdesired
        refine triple_bind (drivenStep_progress hS hsvc.1 hfresh _ _) (fun step => triple_ret (fun c hc => ?_))
        let p : Pass := ⟨dep, svc, lookupImage project svc.name, specHash, eligibleHosts svc nodes, current,
          isRollingImageChange current (lookupImage project svc.name), step, now⟩
        have hupserts : (p.commands desired).flatMap upsertsIn = p.upserts false desired := upsertsIn_commands p desired
        refine ⟨progress_append hc.1 (commands_noPlan p desired) (fun r hr halters => ?_) _, fun r hr => ?_⟩
        · rw [hupserts] at hr
          obtain ⟨hdep, hservice⟩ : p.dep.name = D ∧ p.svc.name = S := by
            obtain ⟨d, -, rfl, -⟩ := mem_upserts p false desired r hr
            simp only [alters, Bool.and_eq_true, decide_eq_true_eq] at halters
            exact halters.1
          subst hdep
          subst hservice
          obtain ⟨hscaled, hrecords⟩ := hbehind rfl rfl
          have hcurrent : ∀ r ∈ current, Behind w.state svc (lookupImage project svc.name) specHash r := by
            intro r hr
            obtain ⟨hget, hd, hs⟩ := (hcur r).1 hr
            exact hrecords r (Store.mem_list.2 hget) hd hs
          have hgate := gated hdesired hscaled hsvc.2 hcur (eligibleHosts_perm svc hnodes) rfl hcurrent hr halters
          exact holds_of_gated hgate (hc.2 rfl rfl)
        · rw [upserts_append, mem_append] at hr
          refine hr.imp_right (fun hr => ?_)
          obtain ⟨d, -, rfl, -⟩ := mem_upserts p false desired r (hupserts ▸ hr)
          exact ⟨rfl, mem_singleton_self _⟩

theorem extends_trans {deployment : String} {names names' : List String} {round' round'' : Round} {c : Config World}
    (h : ∀ r ∈ round'.upserts, r ∈ round.upserts ∨ r.deployment = deployment ∧ r.service ∈ names)
    (h' : Extends D S w round' deployment names' round'' c) :
    Extends D S w round deployment (names ++ names') round'' c := by
  refine ⟨h'.1, fun r hr => ?_⟩
  rw [mem_append]
  rcases h'.2 r hr with hold | ⟨hd, hs⟩
  · exact (h r hold).imp_right (fun hnew => ⟨hnew.1, .inl hnew.2⟩)
  · exact .inr ⟨hd, .inr hs⟩

variable (hS : NulFree S) (hw : WellNamed w.state) (himages : ImageOnly P w D S) {nodes : List Node}
  (hnodes : nodes.Perm w.state.nodes.list)

include hS himages hnodes

theorem reconcileDeclared_extends {d₀ : Deployment} (hd₀ : w.state.deployments.get dep.name = some d₀)
    (hcompose : dep.composeYaml = d₀.composeYaml) (hmem : svc ∈ d₀.services)
    (hsvc : NulFree svc.name ∧ svc.replicas < 2 ^ 31) {project : Project}
    (hload : P.loadCompose dep.composeYaml = .ok project)
    (hfresh : dep.name = D → svc.name = S → ∀ r ∈ round.upserts, r.deployment = D → r.service ≠ S) :
    Triple cluster Observing (Progress w D S round) (reconcileDeclared P dep nodes project round svc)
      (Extends D S w round dep.name [svc.name]) := by
  unfold reconcileDeclared
  split
  · refine triple_bind (triple_read World.now steady_progress) (fun now => triple_ret (fun c hc => ?_))
    exact extends_pending hc.1 _ _ _ _ _
  · rename_i specHash hhash
    refine triple_bind (reconcileService_extends hS hsvc hnodes (fun hD hS' => ?_) hfresh)
      (fun sp => triple_ret (fun _ hc => hc))
    subst hD
    subst hS'
    refine himages d₀ hd₀ svc hmem rfl project ?_ specHash ?_
    · rw [← hcompose, hload]
      rfl
    · rw [← hcompose, hhash]
      rfl

include hw

theorem services_extend {d₀ : Deployment} (hd₀ : w.state.deployments.get dep.name = some d₀)
    (hcompose : dep.composeYaml = d₀.composeYaml) (hservices : dep.services = d₀.services) {project : Project}
    (hload : P.loadCompose dep.composeYaml = .ok project)
    (hfresh : dep.name = D → ∀ r ∈ round.upserts, r.deployment ≠ D) :
    Triple cluster Observing (Progress w D S round) (dep.services.foldlM (reconcileDeclared P dep nodes project) round)
      (Extends D S w round dep.name (dep.services.map (·.name))) := by
  have hok : ServicesOk dep.services := hservices ▸ hw d₀ (Store.mem_list_of_get hd₀)
  refine triple_mono (triple_foldlM (I := fun pre => Extends D S w round dep.name (pre.map (·.name))) _
    dep.services round (fun pre svc post round' hl => ?_)) (fun c hc => ⟨hc, fun r hr => .inl hr⟩) (fun _ _ h => h)
  refine triple_assume (fun c hc => hc.2) (fun hgrown => ?_)
  have hmem : svc ∈ dep.services := by rw [hl]; simp
  refine triple_mono (reconcileDeclared_extends hS himages hnodes hd₀ hcompose (hservices ▸ hmem) (hok.2 svc hmem)
    hload ?_) (fun c hc => hc.1) (fun round'' c h => ?_)
  · -- a service of this name came before only if the name stands twice in the list
    intro hD hname r hr hrD hrS
    rcases hgrown r hr with hold | ⟨-, hin⟩
    · exact hfresh hD r hold hrD
    · have hnodup := hok.1
      rw [hl, map_append, map_cons, nodup_append] at hnodup
      exact hnodup.2.2 _ hin svc.name mem_cons_self (hrS.trans hname.symm)
  · rw [map_append]
    exact extends_trans hgrown h

theorem reconcileDeployment_extends {v : World} (hv : Framed w.state v.state)
    (hdep : v.state.deployments.get dep.name = some dep) (aborted : List String)
    (hfresh : dep.name = D → ∀ r ∈ round.upserts, r.deployment ≠ D) :
    Triple cluster Observing (Progress w D S round) (reconcileDeployment P nodes aborted round dep)
      (Extends D S w round dep.name (dep.services.map (·.name))) := by
  obtain ⟨d₀, hd₀, hcompose, hservices⟩ := hv.deployments dep.name dep hdep
  unfold reconcileDeployment
  split
  · exact triple_ret (fun c hc => ⟨hc, fun r hr => .inl hr⟩)
  · split
    · refine triple_bind (triple_read World.now steady_progress) (fun now => triple_ret (fun c hc => ?_))
      exact extends_pending hc.1 _ _ _ _ _
    · rename_i project hload
      refine triple_bind (triple_read _ steady_progress) (fun stale => ?_)
      refine triple_bind (R := fun _ => Progress w D S round)
        (triple_mono (triple_read World.now steady_progress) (fun _ h => h.1) (fun _ _ h => h.1)) (fun now => ?_)
      have hplain : ∀ x ∈ stale.map (fun r => removeCommand now r.id), Plain x := by
        intro x hx
        obtain ⟨r, -, rfl⟩ := mem_map.1 hx
        exact plain_remove now r.id
      refine triple_mono (services_extend hS hw himages hnodes hd₀ hcompose hservices hload ?_)
        (fun c hc => progress_plain hc hplain _) (fun round' c h => ?_)
      · rw [upserts_plain hplain]
        exact hfresh
      · rw [Extends, upserts_plain hplain] at h
        exact h

theorem deployments_extend {v : World} (hv : Framed w.state v.state) (aborted : List String) :
    Triple cluster Observing (Progress w D S {})
      ((v.listing v.state.deployments).foldlM (reconcileDeployment P nodes aborted) {})
      (fun round c => Progress w D S round c) := by
  refine triple_mono (triple_foldlM
    (I := fun pre round c => Progress w D S round c ∧ ∀ r ∈ round.upserts, r.deployment ∈ pre.map (·.name)) _ _ _
    (fun pre dep post round hl => ?_)) (fun c hc => ⟨hc, nofun⟩) (fun _ _ h => h.1)
  refine triple_assume (fun c hc => hc.2) (fun hpre => ?_)
  have hmem : dep ∈ v.listing v.state.deployments := by rw [hl]; simp
  have hnodup : ((v.listing v.state.deployments).map (·.name)).Nodup :=
    ((listing_perm v v.state.deployments).map _).nodup_iff.2 (Store.nodup_list _)
  refine triple_mono (reconcileDeployment_extends hS hw himages hnodes hv ((mem_listing v _ dep).1 hmem) aborted ?_)
    (fun c hc => hc.1) (fun round' c h => ⟨h.1, fun r hr => ?_⟩)
  · intro hD r hr he
    rw [hl, map_append, map_cons, nodup_append] at hnodup
    exact hnodup.2.2 _ (hpre r hr) dep.name mem_cons_self (he.trans hD.symm)
  · rw [map_append, mem_append]
    rcases h.2 r hr with hold | hnew
    · exact .inl (hpre r hold)
    · exact .inr (by simp [hnew.1])

omit hS hw himages hnodes

theorem checkTimeouts_progress : Triple cluster Observing (Progress w D S {}) checkTimeouts
      (fun _ c => Progress w D S {} c) := by
  refine triple_of_within steady_progress (fun x c fate hx hc => ?_) checkTimeouts_aborts
  have hframed := settle_keeps_state framed_entry x c.now fate (allows_mono (fun _ => rolloutStep_aborts) hx) hc.framed
  refine ⟨hframed, hc.noPlan, ?_⟩
  -- an abort leaves the plan as it is or ends it
  have hplan := settle_keeps_state (Q := fun s => s.rolloutPlans.get (rolloutPlanKey D S) = planAt D S c.now ∨
    ∀ p, s.rolloutPlans.get (rolloutPlanKey D S) = some p → p.state ≠ .inProgress)
    (fun idx s e he hs => ?_) x c.now fate hx (.inl rfl)
  · rcases hplan with hsame | hrest
    · exact tracked_of_planAt hsame (List.Subset.refl _) hc.tracked
    · exact tracked_of_atRest hrest
  · rw [applyEntry_rolloutPlans]
    generalize e.payload = payload at he
    cases he with
    | rollback deployment revision =>
      have hkeep : (mutate s e.ts idx (.deploymentRollback deployment revision)).rolloutPlans = s.rolloutPlans :=
        mutate_agree s e.ts idx _ .rolloutPlans (by simp [writes])
      rw [hkeep]
      exact hs
    | plan plan key haborted h =>
      simp only [mutate, Store.get_apply]
      split
      · refine .inr (fun p hp => ?_)
        rw [← Option.some.inj hp, haborted]
        decide
      · exact hs

theorem submitBatch_tracked (round : Round) :
    Triple cluster Observing (Progress w D S round) (submitBatch round) (Tracked w D S) := by
  unfold submitBatch
  split
  · exact triple_ret (fun c hc => hc.tracked)
  · refine triple_bind (R := fun _ => Progress w D S round)
      (triple_mono (triple_read World.now steady_progress) (fun _ h => h) (fun _ _ h => h.1)) (fun now => ?_)
    refine triple_bind (R := fun _ => Tracked w D S round) ?_ (fun _ => triple_ret (fun c hc => hc))
    refine triple_send _ steady_progress (fun c hc => ?_)
    exact tracked_of_planAt (planAt_commit (allows_batch hc.noPlan) c.now) (List.Subset.refl _) hc.tracked

theorem reconcile_tracked (hS : NulFree S) (hw : WellNamed w.state) (himages : ImageOnly P w D S) :
    Triple cluster Observing (Progress w D S {}) (reconcile P) (Tracked w D S) := by
  have hread {α : Type} (f : World → α) : Triple cluster Observing (Progress w D S {}) (Program.read f)
      (fun a c => (∃ v, Framed w.state v.state ∧ a = f v) ∧ Progress w D S {} c) :=
    triple_mono (triple_read f steady_progress) (fun _ h => h) (fun _ c h => ⟨⟨c.now, h.1.framed, h.2.1⟩, h.1⟩)
  refine triple_bind (hread World.leader) (fun leader => triple_pure (fun _ => ?_))
  split
  · exact triple_ret (fun c hc => hc.tracked)
  · refine triple_bind checkTimeouts_progress (fun aborted => ?_)
    refine triple_bind (hread _) (fun deps => triple_pure (fun hdeps => ?_))
    refine triple_bind (hread _) (fun nodes => triple_pure (fun hnodes => ?_))
    obtain ⟨v, hv, rfl⟩ := hdeps
    obtain ⟨u, hu, rfl⟩ := hnodes
    exact triple_bind (deployments_extend hS hw himages (hu.nodes ▸ listing_perm u u.state.nodes) hv aborted)
      submitBatch_tracked

end Pass

end Jaco.Scheduler
