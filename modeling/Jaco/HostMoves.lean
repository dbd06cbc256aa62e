import Jaco.Relocation
import Jaco.Scheduler

namespace Jaco.Relocation

open Interleaving Placement Runs List

abbrev Cut := Option (List ReplicaDesired × Task Unit)

def drainTail (hostname : String) (nodes : List Node) (replicas : List ReplicaDesired) : Task (Except Status Unit) := do
  let deployments ← Program.read (fun w => w.listing w.state.deployments)
  match plan hostname nodes replicas deployments with
  | .error e => pure (.error ⟨.failedPrecondition, "drain_no_placement", e⟩)
  | .ok ms =>
    let now ← clock
    applyMigrations hostname now ms

def drainHead (hostname : String) : Task Cut := do
  let nodes ← Program.read (fun w => w.listing w.state.nodes)
  let replicas ← Program.read (fun w => w.listing w.state.replicasDesired)
  pure (some (replicas.filter (·.host = hostname), do
    let _ ← drainTail hostname nodes replicas
    pure ()))

variable (J : Judge)

def cycleTail (now : Timestamp) (hotHost : String) (dsts : List String) (placed replicas : List ReplicaDesired) :
    Task Unit := do
  let survived ← replicas.foldlM (weighReplica J now hotHost dsts placed) []
  match (survived.insertionSort (fun a b => better a b)).head? with
  | none => pure ()
  | some winner =>
    let ok ← commitMove winner
    if ok then
      let _ ← emitAudit .rebalanceMoved (J.report winner.replica winner.dst)
      pure ()
    else pure ()

def cycleHead : Task Cut := do
  let leader ← Program.read World.leader
  if !leader then pure none
  else
    let now ← clock
    let nodes ← Program.read (fun w => w.listing w.state.nodes)
    match J.hot nodes now with
    | none => pure none
    | some (hotHost, dsts) =>
      let placed ← Program.read (fun w => w.listing w.state.replicasDesired)
      let replicas ← Program.read (fun w => w.listing w.state.replicasDesired)
      pure (some (replicas.filter (·.host = hotHost), cycleTail J now hotHost dsts placed replicas))

inductive Kind where
  | rebalance (J : Judge)
  | drain (hostname : String)

def Kind.head : Kind → Task Cut
  | .rebalance J => cycleHead J
  | .drain hostname => drainHead hostname

def Kind.specHash (kind : Kind) (r : ReplicaDesired) : Bytes :=
  match kind with
  | .rebalance _ => r.specHash
  | .drain _ => []

section Submissions

variable {R : World → Prop}

def replicaOf : Payload → Option ReplicaDesired
  | .replicaDesiredUpsert r => r
  | _ => none

def Carries (kind : Kind) (read : List ReplicaDesired) (c : Command) : Prop :=
  ∀ e ∈ c.entries, e.identity ≠ "scheduler" ∧ ∀ r ∈ replicaOf e.payload,
    ∃ r₀ ∈ read, r.id = r₀.id ∧ r.image = r₀.image ∧ r.specHash = kind.specHash r₀

theorem rebalance_identity : "scheduler/rebalance" ≠ "scheduler" := by decide

variable (kind : Kind) (read : List ReplicaDesired)

theorem carries_audit (ts : Option Timestamp) (ev : Option AuditEvent) :
    Carries kind read (.single ⟨"scheduler/rebalance", ts, .auditAppend ev⟩) := by
  intro e he
  rw [entries_single, mem_singleton] at he
  subst he
  exact ⟨rebalance_identity, fun r hr => by cases hr⟩

theorem emitAudit_carries (type : AuditEventType) (payload : StringMap) :
    Within R (Carries kind read) (fun _ => True) (emitAudit type payload) :=
  within_look (fun _ => within_send (carries_audit kind read _ _))

theorem commitMove_carries {read : List ReplicaDesired} {c : Scored} (hc : c.replica ∈ read) :
    Within R (Carries (.rebalance J) read) (fun _ => True) (commitMove c) := by
  refine within_look (fun now => within_send ?_)
  intro e he
  rw [entries_single, mem_singleton] at he
  subst he
  refine ⟨rebalance_identity, fun r hr => ?_⟩
  cases hr
  exact ⟨c.replica, hc, rfl, rfl, rfl⟩

theorem weighReplica_carries (now : Timestamp) (hotHost : String) (dsts : List String)
    (placed read : List ReplicaDesired) (rep : ReplicaDesired) (hrep : rep.host = hotHost → rep ∈ read)
    (survived : List Scored) (hs : ∀ c ∈ survived, c.replica ∈ read) :
    Within R (Carries (.rebalance J) read) (fun survived => ∀ c ∈ survived, c.replica ∈ read)
      (weighReplica J now hotHost dsts placed survived rep) := by
  unfold weighReplica
  split
  · exact within_ret hs
  · rename_i hhost
    rw [ne_eq, not_not] at hhost
    refine within_look (fun spec => ?_)
    split
    · exact within_bind_any (emitAudit_carries _ read _ _) (fun _ => within_ret hs)
    · refine within_foldlM (weighMove J now rep spec placed) dsts survived hs (fun dst _ survived' hs' => ?_)
      unfold weighMove
      dsimp only
      split
      · exact within_ret (forall_mem_snoc hs' (hrep hhost))
      · exact within_bind_any (emitAudit_carries _ read _ _) (fun _ => within_ret hs')

theorem cycleTail_carries (now : Timestamp) (hotHost : String) (dsts : List String)
    (placed replicas : List ReplicaDesired) :
    Within R (Carries (.rebalance J) (replicas.filter (·.host = hotHost))) (fun _ => True)
      (cycleTail J now hotHost dsts placed replicas) := by
  refine within_bind (Q := fun survived => ∀ c ∈ survived, c.replica ∈ replicas.filter (·.host = hotHost)) ?_
    (fun survived hs => ?_)
  · refine within_foldlM _ replicas [] (fun c hc => by cases hc) (fun rep hrep survived hs => ?_)
    exact weighReplica_carries J now hotHost dsts placed _ rep
      (fun h => mem_filter.2 ⟨hrep, decide_eq_true h⟩) survived hs
  · split
    · exact within_ret trivial
    · rename_i winner hwinner
      have hmem : winner ∈ survived := (perm_insertionSort _ survived).mem_iff.1 (mem_of_mem_head? hwinner)
      refine within_bind_any (commitMove_carries J (hs winner hmem)) (fun ok => ?_)
      split
      · exact within_bind_any (emitAudit_carries _ _ _ _) (fun _ => within_ret trivial)
      · exact within_ret trivial

variable (hostname : String)

theorem drain_identity : "drain:" ++ hostname ≠ "scheduler" := by
  intro h
  have hhead := congrArg (fun s => s.toList.head?) h
  simp only [String.toList_append] at hhead
  have hd : ("drain:".toList ++ hostname.toList).head? = some 'd' := rfl
  rw [hd] at hhead
  exact absurd hhead (by decide)

theorem applyMigrations_carries (now : Timestamp) (read : List ReplicaDesired) (ms : List Migration)
    (hms : ∀ m ∈ ms, ∃ r₀ ∈ read, m.replicaID = r₀.id ∧ m.image = r₀.image) :
    Within R (Carries (.drain hostname) read) (fun _ => True) (applyMigrations hostname now ms) := by
  induction ms with
  | nil => exact within_ret trivial
  | cons m ms ih =>
    refine within_bind_any (within_send ?_) (fun ok => ?_)
    · intro e he
      rw [migrationCommand, entries_single, mem_singleton] at he
      subst he
      refine ⟨drain_identity hostname, fun r hr => ?_⟩
      cases hr
      obtain ⟨r₀, hr₀, hid, himage⟩ := hms m mem_cons_self
      exact ⟨r₀, hr₀, hid, himage, rfl⟩
    · split
      · exact ih (fun m' hm' => hms m' (mem_cons_of_mem m hm'))
      · exact within_ret trivial

theorem drainTail_carries (nodes : List Node) (replicas : List ReplicaDesired) :
    Within R (Carries (.drain hostname) (replicas.filter (·.host = hostname))) (fun _ => True)
      (drainTail hostname nodes replicas) := by
  refine within_look (fun deployments => ?_)
  split
  · exact within_ret trivial
  · rename_i ms hplan
    refine within_look (fun now => applyMigrations_carries hostname now _ ms (fun m hm => ?_))
    obtain ⟨r, hr, spec, hevicted, counts, newHost, -, rfl⟩ := plan_moves hplan m hm
    exact ⟨r, mem_filter.2 ⟨hr, decide_eq_true hevicted.1⟩, rfl, rfl⟩

def CutCarries (R : World → Prop) (kind : Kind) (cut : Cut) : Prop :=
  ∀ c ∈ cut, Within R (Carries kind c.1) (fun _ => True) c.2

theorem head_carries (kind : Kind) : Within R (fun _ => False) (CutCarries R kind) kind.head := by
  have hnone : CutCarries R kind none := fun c hc => by cases hc
  cases kind with
  | rebalance J =>
    refine within_look (fun leader => ?_)
    split
    · exact within_ret hnone
    · refine within_look (fun now => ?_)
      refine within_look (fun nodes => ?_)
      split
      · exact within_ret hnone
      · refine within_look (fun placed => ?_)
        refine within_look (fun replicas => within_ret (fun c hc => ?_))
        cases hc
        exact cycleTail_carries J now _ _ placed replicas
  | drain hostname =>
    refine within_look (fun nodes => ?_)
    refine within_look (fun replicas => within_ret (fun c hc => ?_))
    cases hc
    exact within_bind_any (drainTail_carries hostname nodes replicas) (fun _ => within_ret trivial)

end Submissions

inductive Stage where
  | reading (p : Task Cut)
  | moving (read fresh : List ReplicaDesired) (p : Task Unit)

structure Mover where
  kind : Kind
  stage : Stage

def Stage.at : Task Cut → Stage
  | .ret (some cut) => .moving cut.1 [] cut.2
  | p => .reading p

def schedulerUpserts (idx : Nat) (c : Command) : List ReplicaDesired :=
  (c.entries.filter (·.identity = "scheduler")).filterMap (fun e =>
    (replicaOf e.payload).map (fun r => { r with raftIndex := idx }))

def Mover.window (m : Mover) : Option (List ReplicaDesired) :=
  match m.stage with
  | .reading _ => none
  | .moving read _ _ => some read

def Mover.submission (m : Mover) : Option (List ReplicaDesired × Command) :=
  match m.stage with
  | .moving _ fresh (.submit c _) => some (fresh, c)
  | _ => none

def Mover.note (upserts : List ReplicaDesired) (m : Mover) : Mover :=
  match m.stage with
  | .reading _ => m
  | .moving read fresh p => { m with stage := .moving read (fresh ++ upserts) p }

structure Traffic where
  world : World
  movers : List Mover := []

namespace Traffic

inductive Event where
  | start (kind : Kind)
  | act (i : Nat) (fate : Fate)
  | other (c : Command)
  | elapse (time : Nat) (leader : Bool) (order : String → Nat)

def commit (t : Traffic) (c : Command) : Traffic where
  world := t.world.commit c
  movers := t.movers.map (Mover.note (schedulerUpserts (t.world.index + 1) c))

def settle (t : Traffic) (c : Command) (fate : Fate) : Traffic :=
  if fate = .lost then t else t.commit c

def set (t : Traffic) (i : Nat) (stage : Stage) : Traffic :=
  { t with movers := t.movers.modify i (fun m => { m with stage := stage }) }

def actAt (t : Traffic) (i : Nat) (fate : Fate) : Stage → Traffic
  | .reading (.look k) => t.set i (.at (k t.world))
  | .reading (.submit c k) => (t.set i (.at (k (fate = .acked)))).settle c fate
  | .moving read fresh (.look k) => t.set i (.moving read fresh (k t.world))
  | .moving read fresh (.submit c k) => (t.set i (.moving read fresh (k (fate = .acked)))).settle c fate
  | _ => t

def step (t : Traffic) : Event → Traffic
  | .start kind => { t with movers := t.movers ++ [⟨kind, .at kind.head⟩] }
  | .act i fate =>
    match t.movers[i]? with
    | some m => t.actAt i fate m.stage
    | none => t
  | .other c => t.commit c
  | .elapse time leader order =>
    { t with world := { t.world with now := t.world.now + time, leader := leader, order := order } }

/-- A move that commits leaves the image and the spec hash of the record it replaces, if the scheduler wrote that
record after the move's read. -/
def Preserves (t : Traffic) : Event → Prop
  | .act i fate => ∀ m ∈ t.movers[i]?, ∀ sub ∈ m.submission, fate ≠ .lost →
      ∀ e ∈ sub.2.entries, ∀ r ∈ replicaOf e.payload, ∀ stored ∈ sub.1,
        t.world.state.replicasDesired.get r.id = some stored →
          r.image = stored.image ∧ r.specHash = stored.specHash
  | _ => True

instance (t : Traffic) : (e : Event) → Decidable (t.Preserves e)
  | .act i fate => inferInstanceAs (Decidable (∀ m ∈ t.movers[i]?, ∀ sub ∈ m.submission, fate ≠ .lost →
      ∀ e ∈ sub.2.entries, ∀ r ∈ replicaOf e.payload, ∀ stored ∈ sub.1,
        t.world.state.replicasDesired.get r.id = some stored →
          r.image = stored.image ∧ r.specHash = stored.specHash))
  | .start _ | .other _ | .elapse _ _ _ => isTrue trivial

/-- The scheduler's upserts of a replica that a mover has read and may still move carry what the move will write. -/
def Meets (t : Traffic) : Event → Prop
  | .other c => ∀ m ∈ t.movers, ∀ read ∈ m.window, ∀ r ∈ schedulerUpserts (t.world.index + 1) c,
      ∀ r₀ ∈ read, r.id = r₀.id → r.image = r₀.image ∧ r.specHash = m.kind.specHash r₀
  | _ => True

instance (t : Traffic) : (e : Event) → Decidable (t.Meets e)
  | .other c => inferInstanceAs (Decidable (∀ m ∈ t.movers, ∀ read ∈ m.window,
      ∀ r ∈ schedulerUpserts (t.world.index + 1) c, ∀ r₀ ∈ read, r.id = r₀.id →
        r.image = r₀.image ∧ r.specHash = m.kind.specHash r₀))
  | .start _ | .act _ _ | .elapse _ _ _ => isTrue trivial

def MoverSound (m : Mover) : Prop :=
  match m.stage with
  | .reading p => Within (fun _ => True) (fun _ => False) (CutCarries (fun _ => True) m.kind) p
  | .moving read fresh p => Within (fun _ => True) (Carries m.kind read) (fun _ => True) p ∧
      ∀ r ∈ fresh, ∀ r₀ ∈ read, r.id = r₀.id → r.image = r₀.image ∧ r.specHash = m.kind.specHash r₀

def Sound (t : Traffic) : Prop := ∀ m ∈ t.movers, MoverSound m

theorem moverSound_at {kind : Kind} {p : Task Cut}
    (h : Within (fun _ => True) (fun _ => False) (CutCarries (fun _ => True) kind) p) : MoverSound ⟨kind, .at p⟩ := by
  cases p with
  | ret cut =>
    cases cut with
    | none => exact h
    | some cut => exact ⟨h cut rfl, fun r hr => by cases hr⟩
  | look k => exact h
  | submit c k => exact h.1.elim

variable {t : Traffic}

theorem sound_set (h : t.Sound) {i : Nat} {m : Mover} (hm : t.movers[i]? = some m) (stage : Stage)
    (hstage : MoverSound { m with stage := stage }) : (t.set i stage).Sound := by
  intro m' hm'
  obtain ⟨j, hj⟩ := mem_iff_getElem?.1 hm'
  rcases getElem?_modify_cases hj with ⟨hij, a, ha, rfl⟩ | ⟨-, hold⟩
  · rw [← hij, hm] at ha
    cases ha
    exact hstage
  · exact h m' (mem_of_getElem? hold)

theorem sound_commit (h : t.Sound) (c : Command)
    (hc : ∀ m ∈ t.movers, ∀ read ∈ m.window, ∀ r ∈ schedulerUpserts (t.world.index + 1) c,
      ∀ r₀ ∈ read, r.id = r₀.id → r.image = r₀.image ∧ r.specHash = m.kind.specHash r₀) : (t.commit c).Sound := by
  intro m' hm'
  obtain ⟨m, hm, rfl⟩ := mem_map.1 hm'
  have hsound := h m hm
  have hwindow := hc m hm
  obtain ⟨kind, stage⟩ := m
  cases stage with
  | reading p => exact hsound
  | moving read fresh p =>
    exact ⟨hsound.1, forall_mem_append.2 ⟨hsound.2, hwindow read rfl⟩⟩

theorem schedulerUpserts_of_carries {kind : Kind} {read : List ReplicaDesired} {c : Command} (h : Carries kind read c)
    (idx : Nat) : schedulerUpserts idx c = [] := by
  have hnone : c.entries.filter (·.identity = "scheduler") = [] :=
    filter_eq_nil_iff.2 (fun e he hid => (h e he).1 (of_decide_eq_true hid))
  rw [schedulerUpserts, hnone]
  rfl

theorem sound_settle (h : t.Sound) {kind : Kind} {read : List ReplicaDesired} {c : Command}
    (hc : Carries kind read c) (fate : Fate) : (t.settle c fate).Sound := by
  unfold settle
  split
  · exact h
  · refine sound_commit h c (fun m _ read' _ r hr => ?_)
    rw [schedulerUpserts_of_carries hc] at hr
    cases hr

theorem sound_act (h : t.Sound) {i : Nat} {m : Mover} (hm : t.movers[i]? = some m) (fate : Fate) :
    (t.actAt i fate m.stage).Sound := by
  have hsound := h m (mem_of_getElem? hm)
  obtain ⟨kind, stage⟩ := m
  cases stage with
  | reading p =>
    cases p with
    | ret cut => exact h
    | look k => exact sound_set h hm _ (moverSound_at (hsound t.world trivial))
    | submit c k => exact hsound.1.elim
  | moving read fresh p =>
    cases p with
    | ret u => exact h
    | look k => exact sound_set h hm _ ⟨hsound.1 t.world trivial, hsound.2⟩
    | submit c k =>
      exact sound_settle (sound_set h hm (.moving read fresh (k (fate = .acked))) ⟨hsound.1.2 _, hsound.2⟩)
        hsound.1.1 fate

theorem preserves_act (h : t.Sound) (i : Nat) (fate : Fate) : t.Preserves (.act i fate) := by
  intro m hm sub hsub _ e he r hr stored hstored hget
  have hsound := h m (mem_of_getElem? hm)
  obtain ⟨kind, stage⟩ := m
  cases stage with
  | reading p => cases hsub
  | moving read fresh p =>
    cases p with
    | ret u => cases hsub
    | look k => cases hsub
    | submit c k =>
      cases hsub
      obtain ⟨r₀, hr₀, hid, himage, hhash⟩ := (hsound.1.1 e he).2 r hr
      have hkey : stored.id = r.id := Store.get_key hget
      obtain ⟨himage', hhash'⟩ := hsound.2 stored hstored r₀ hr₀ (hkey.trans hid)
      exact ⟨himage.trans himage'.symm, hhash.trans hhash'.symm⟩

theorem sound_step (h : t.Sound) (e : Event) (hmeets : t.Meets e) : (t.step e).Sound ∧ t.Preserves e := by
  cases e with
  | start kind =>
    exact ⟨forall_mem_snoc h (moverSound_at (head_carries kind)), trivial⟩
  | act i fate =>
    refine ⟨?_, preserves_act h i fate⟩
    simp only [step]
    split
    · rename_i m hm
      exact sound_act h hm fate
    · exact h
  | other c => exact ⟨sound_commit h c hmeets, trivial⟩
  | elapse time leader order => exact ⟨h, trivial⟩

theorem moves_preserve_upserts (w : World) (es : List Event) (hmeets : Along step Meets ⟨w, []⟩ es) :
    Along step Preserves ⟨w, []⟩ es :=
  (along_of_invariant step Sound Meets Preserves (fun _ e ht he => sound_step ht e he) ⟨w, []⟩ es
    (fun m hm => by cases hm) hmeets).2

namespace Sample

def record (tag : String) : ReplicaDesired where
  id := "sample-web-0"
  deployment := "sample"
  service := "web"
  host := "node-a"
  image := "nginx:" ++ tag
  specHash := Scheduler.Sample.compose tag

def joined (hostname : String) (cpuPressure : ℚ) : List Command :=
  [.single ⟨hostname, none, .nodeJoin ⟨hostname, hostname, [], [], hostname⟩⟩,
    .single ⟨hostname, none, .nodeStatusUpdate
      { hostname := hostname, status := .ready, cpuPressure := cpuPressure, includePressure := true }⟩]

def start : World :=
  (joined "node-a" (9 / 10) ++ joined "node-b" (1 / 10) ++
    [.single (Scheduler.Sample.applied 1 "1.27"), Scheduler.upsertCommand 0 (record "1.27")]).foldl
      (fun w c => w.commit c) { state := .new, index := 0, now := 0 }

def judge : Judge where
  hot nodes _ := (nodes.find? (fun n => 4 / 5 ≤ n.cpuPressure)).map
    (fun n => (n.hostname, (nodes.filter (·.hostname ≠ n.hostname)).map (·.hostname)))
  cooling _ _ := false
  score _ _ _ _ _ := some 1
  report _ _ := []

def raced (kind : Kind) (reads rest : Nat) (upsert : ReplicaDesired) : List Event :=
  .start kind :: (List.replicate reads (.act 0 .acked) ++ .other (Scheduler.upsertCommand 0 upsert) ::
    List.replicate rest (.act 0 .acked))

end Sample

open Sample

theorem move_keeps_unchanged_record : let es := raced (.rebalance judge) 5 3 (record "1.27")
    ((run step ⟨start, []⟩ es).world.state.replicasDesired.get "sample-web-0").map (·.host) = some "node-b" ∧
      Along step Preserves ⟨start, []⟩ es :=
  ⟨by decide +kernel, moves_preserve_upserts _ _ (by decide +kernel)⟩

theorem move_reverts_update : ¬ Along step Preserves ⟨start, []⟩ (raced (.drain "node-a") 2 3 (record "1.28")) ∧
      ¬ Along step Preserves ⟨start, []⟩
        (raced (.rebalance judge) 5 3 (record "1.28")) := by
  decide +kernel

end Traffic

end Jaco.Relocation
