import Jaco.HotStreaks
import Jaco.Observers

namespace Jaco.Rebalance

open Interleaving Runs List

structure Residence where
  world : World
  since : String → Option Timestamp

namespace Residence

def settled (now : Timestamp) (s t : State) (since : String → Option Timestamp) (id : String) : Option Timestamp :=
  match t.replicasDesired.get id with
  | none => none
  | some r => if (s.replicasDesired.get id).map (·.host) = some r.host then since id else some now

def commit (c : Command) (v : Residence) : Residence where
  world := v.world.commit c
  since := settled v.world.now v.world.state (v.world.commit c).state v.since

def disturb (o : Others) (v : Residence) : Residence where
  world := v.world.disturb o
  since := (o.commands.foldl (fun v c => v.commit c) v).since

def system : System Residence Command Others where
  commit := commit
  disturb := disturb

theorem observes : Observes system cluster world where
  commit _ _ := rfl
  disturb _ _ := rfl

def Kept (v : Residence) : Prop := ∀ id, (v.since id).isSome = (v.world.state.replicasDesired.get id).isSome

theorem kept_commit (c : Command) {v : Residence} (h : v.Kept) : (v.commit c).Kept := by
  intro id
  change (settled v.world.now v.world.state (v.world.commit c).state v.since id).isSome = _
  rw [settled]
  cases hget : (v.world.commit c).state.replicasDesired.get id with
  | none =>
    exact (congrArg Option.isSome hget).symm
  | some r =>
    have hstored : ((v.commit c).world.state.replicasDesired.get id).isSome = true := congrArg Option.isSome hget
    rw [hstored]
    dsimp only
    split
    · rename_i hhost
      obtain ⟨r', hr', -⟩ := Option.map_eq_some_iff.1 hhost
      rw [h id, hr']
      rfl
    · rfl

theorem foldl_world (cs : List Command) (v : Residence) :
    (cs.foldl (fun v c => v.commit c) v).world = cs.foldl (fun w c => w.commit c) v.world := by
  induction cs generalizing v with
  | nil => rfl
  | cons c cs ih => exact ih (v.commit c)

theorem kept_disturb (o : Others) {v : Residence} (h : v.Kept) : (v.disturb o).Kept := by
  have hfold : ∀ (cs : List Command) (v : Residence), v.Kept → (cs.foldl (fun v c => v.commit c) v).Kept := by
    intro cs
    induction cs with
    | nil => exact fun v hv => hv
    | cons c cs ih => exact fun v hv => ih (v.commit c) (kept_commit c hv)
  intro id
  refine (hfold o.commands v h id).trans ?_
  rw [foldl_world]
  rfl

structure Same (v₀ : Residence) (time : Timestamp) (v : Residence) : Prop where
  kept : v.Kept
  since : v.since = v₀.since
  table : v.world.state.replicasDesired = v₀.world.state.replicasDesired
  time : time ≤ v.world.now

def Spares (p : Payload) : Prop := Part.replicasDesired ∉ writes p

theorem same_commit {v₀ v : Residence} {time : Timestamp} {c : Command} (hc : Allows Spares c) (h : Same v₀ time v) :
    Same v₀ time (v.commit c) := by
  have htable : (v.world.commit c).state.replicasDesired = v.world.state.replicasDesired :=
    commit_keeps (Q := fun t => t.replicasDesired = v.world.state.replicasDesired)
      (fun idx t e he ht => (applyEntry_agree idx t e .replicasDesired he (by decide)).trans ht) c v.world hc rfl
  refine ⟨kept_commit c h.kept, ?_, htable.trans h.table, h.time⟩
  rw [← h.since]
  funext id
  change settled v.world.now v.world.state (v.world.commit c).state v.since id = v.since id
  rw [settled, htable]
  have hkept := h.kept id
  cases hget : v.world.state.replicasDesired.get id with
  | none =>
    rw [hget] at hkept
    exact (Option.not_isSome_iff_eq_none.1 (by rw [hkept]; decide)).symm
  | some r =>
    exact if_pos rfl

theorem same_disturb {v₀ v : Residence} {time : Timestamp} {o : Others} (ho : ∀ c ∈ o.commands, Allows Spares c)
    (h : Same v₀ time v) : Same v₀ time (v.disturb o) := by
  have hfold : ∀ (cs : List Command) (v : Residence), (∀ c ∈ cs, Allows Spares c) → Same v₀ time v →
      Same v₀ time (cs.foldl (fun v c => v.commit c) v) := by
    intro cs
    induction cs with
    | nil => exact fun v _ hv => hv
    | cons c cs ih =>
      exact fun v hcs hv => ih (v.commit c) (fun c' hc' => hcs c' (mem_cons_of_mem c hc'))
        (same_commit (hcs c mem_cons_self) hv)
  have hsame := hfold o.commands v ho h
  refine ⟨kept_disturb o h.kept, hsame.since, ?_, h.time.trans (Int.le_add_of_nonneg_right (Int.natCast_nonneg _))⟩
  rw [← hsame.table, foldl_world]
  rfl

end Residence

open Residence

variable {K : Type} [Field K] [LinearOrder K] (F : Floats K)

inductive Event (K : Type) where
  | others (o : Others)
  | cycle (t : Turn K)

structure Household (K : Type) where
  memory : Rebalancer K
  here : Residence

namespace Household

def step (s : Household K) : Event K → Household K
  | .others o => { s with here := s.here.disturb o }
  | .cycle t =>
    let o := exec system ((cycle F t.source s.memory).comap world) t.gaps ⟨s.here, []⟩
    ⟨o.1, o.2.2.now⟩

variable (s : Household K) (t : Turn K)

def started : Interleaving.Config Residence :=
  system.arrive (nextGap t.gaps.tail) (system.arrive (nextGap t.gaps) ⟨s.here, []⟩)

def surveyed : (Rebalancer K × Option (Scored K)) × List (Gap Others) × Interleaving.Config Residence :=
  exec system ((survey F t.source s.memory (s.started t).now.world.now).comap world) t.gaps.tail.tail
    (s.started t)

def met : Residence :=
  let o := s.surveyed F t
  (system.arrive (nextGap o.2.1.tail) (system.arrive (nextGap o.2.1) o.2.2)).now

/-- A replica that the cycle moves has stood on the move's source for the cooldown since it was last placed or moved. -/
def Resides (id : String) : Event K → Prop
  | .others _ => True
  | .cycle t =>
    ∀ m ∈ movesIn (record cluster (cycle F t.source s.memory) t.gaps ⟨s.here.world, []⟩), ∃ x,
      chosen F t.source s.memory t.gaps ⟨s.here.world, []⟩ = some x ∧ m.1 = moved x.c ∧ (m.1.id = id →
        ∃ rep since, (s.met F t).world.state.replicasDesired.get id = some rep ∧ rep.host = x.c.src ∧
          (s.met F t).since id = some since ∧ s.memory.cfg.cooldownReplica ≤ (s.met F t).world.now - since)

/-- When a cycle starts, a replica placed within the cooldown is one whose placement the rebalancer remembers, and
while it lasts nobody else writes the table of replicas. -/
def Accounted (id : String) : Event K → Prop
  | .others _ => True
  | .cycle t =>
    (∀ since ∈ s.here.since id, s.memory.cfg.cooldownReplica ≤ s.here.world.now - since ∨
      ∃ u ∈ s.memory.lastReplicaMoveAt id, since ≤ u) ∧
    Calm (fun o => ∀ c ∈ o.commands, Allows Residence.Spares c) t.gaps

variable {s t}

omit [Field K] [LinearOrder K] in
theorem map_started : (s.started t).map world = Rebalance.started t.gaps ⟨s.here.world, []⟩ := by
  rw [started, map_arrive observes, map_arrive observes]
  rfl

theorem surveyed_chosen {x : Scored K} (h : chosen F t.source s.memory t.gaps ⟨s.here.world, []⟩ = some x) :
    (s.surveyed F t).1.2 = some x := by
  rw [chosen] at h
  split at h
  · have hreading : reading t.gaps ⟨s.here.world, []⟩ = (s.started t).now.world.now := by
      change (Rebalance.started t.gaps ⟨s.here.world, []⟩).now.now = _
      rw [← map_started]
      rfl
    rw [hreading, ← map_started, exec_comap observes] at h
    exact h
  · cases h

theorem same_surveyed (hkept : s.here.Kept) (hcalm : Calm (fun o => ∀ c ∈ o.commands, Allows Residence.Spares c)
    t.gaps) :
    Residence.Same s.here (s.started t).now.world.now (s.met F t) ∧ s.here.world.now ≤ (s.started t).now.world.now ∧
      ∀ x ∈ (s.surveyed F t).1.2,
        Passes (fun w => w.state.replicasDesired = s.here.world.state.replicasDesired) t.source
        s.memory (s.started t).now.world.now x.c := by
  have harrive : ∀ time, Steady system (fun o => ∀ c ∈ o.commands, Allows Residence.Spares c)
      (fun c => Residence.Same s.here time c.now) := by
    intro time g c hg hc
    rw [System.arrive]
    cases hothers : g.others with
    | none => exact hc
    | some o => exact same_disturb (hg o (by rw [hothers]; rfl)) hc
  have hstarted : Residence.Same s.here s.here.world.now (s.started t).now :=
    harrive _ _ _ (calm_nextGap (calm_suffix hcalm (tail_suffix _)))
      (harrive _ _ _ (calm_nextGap hcalm) ⟨hkept, rfl, rfl, Int.le_refl _⟩)
  have hrest : Calm (fun o => ∀ c ∈ o.commands, Allows Residence.Spares c) t.gaps.tail.tail :=
    calm_suffix hcalm ((tail_suffix _).trans (tail_suffix _))
  have htriple := exec_within (M := system) (A := fun o => ∀ c ∈ o.commands, Allows Residence.Spares c)
    (I := fun c => Residence.Same s.here (s.started t).now.world.now c.now) (fun c hc => hc.table) (harrive _)
    (fun x c fate hx hc => ?_) (within_comap world (survey_passes F
      (R := fun w => w.state.replicasDesired = s.here.world.state.replicasDesired) t.source s.memory
      (s.started t).now.world.now))
  · obtain ⟨hsame, -, hpasses⟩ := htriple t.gaps.tail.tail (s.started t) hrest
      ⟨hstarted.kept, hstarted.since, hstarted.table, Int.le_refl _⟩
    have hlater : Calm (fun o => ∀ c ∈ o.commands, Allows Residence.Spares c) (s.surveyed F t).2.1 :=
      calm_suffix hrest (exec_rest system _ _ _)
    refine ⟨?_, hstarted.time, hpasses⟩
    exact harrive _ _ _ (calm_nextGap (calm_suffix hlater (tail_suffix _)))
      (harrive _ _ _ (calm_nextGap hlater) hsame)
  · have hspares : Allows Residence.Spares x := allows_mono (fun p hp => audit_writes hp (by decide)) hx
    cases fate with
    | acked => exact same_commit hspares hc
    | unacked => exact same_commit hspares hc
    | lost => exact hc

theorem resides_of_accounted {id : String} (hkept : s.here.Kept) {e : Event K} (h : s.Accounted id e) :
    s.Resides F id e := by
  cases e with
  | others o => trivial
  | cycle t =>
    obtain ⟨hknown, hcalm⟩ := h
    intro m hm
    obtain ⟨x, hx, hmoved⟩ := (cycle_tallied F t.source s.memory t.gaps ⟨s.here.world, []⟩).2 m hm
    refine ⟨x, hx, hmoved, fun hid => ?_⟩
    obtain ⟨hsame, hstart, hpasses⟩ := same_surveyed F hkept hcalm
    have hpass := hpasses x (surveyed_chosen F hx)
    have hxid : x.c.replica.id = id := by
      rw [hmoved] at hid
      exact hid
    obtain ⟨w, hw, hget⟩ := hpass.read.replica
    rw [hw, hxid] at hget
    have hstood := hkept id
    rw [hget] at hstood
    obtain ⟨since, hsince⟩ := Option.isSome_iff_exists.1 hstood
    refine ⟨x.c.replica, since, by rw [hsame.table]; exact hget, hpass.read.hot, by rw [hsame.since]; exact hsince, ?_⟩
    have htime := hsame.time
    rcases hknown since hsince with hold | ⟨u, hu, hle⟩
    · linarith
    · rw [← hxid] at hu
      have hcooled := hpass.cooled.replica u hu
      linarith

theorem kept_step {s : Household K} (h : s.here.Kept) (e : Event K) : (s.step F e).here.Kept := by
  cases e with
  | others o => exact kept_disturb o h
  | cycle t =>
    have htriple := exec_within (M := system) (A := fun _ => True) (I := fun c => c.now.Kept)
      (R := fun _ => True) (G := fun _ => True) (Q := fun _ => True) (fun _ _ => trivial) (fun g c _ hc => ?_)
      (fun x c fate _ hc => ?_) (within_trivial ((cycle F t.source s.memory).comap world))
    · exact (htriple t.gaps ⟨s.here, []⟩ (fun _ _ _ _ => trivial) h).1
    · rw [System.arrive]
      cases g.others with
      | none => exact hc
      | some o => exact kept_disturb o hc
    · cases fate with
      | acked => exact kept_commit x hc
      | unacked => exact kept_commit x hc
      | lost => exact hc

def begin (cfg : Config K) (w : World) (placed : String → Timestamp) : Household K where
  memory := { cfg := cfg }
  here := ⟨w, fun id => (w.state.replicasDesired.get id).map (fun _ => placed id)⟩

omit [Field K] [LinearOrder K] in
theorem kept_begin (cfg : Config K) (w : World) (placed : String → Timestamp) : (begin cfg w placed).here.Kept :=
  fun _ => Option.isSome_map

end Household

open Household

theorem moved_replicas_reside (cfg : Config K) (w : World) (placed : String → Timestamp) (id : String)
    (events : List (Event K)) (h : Along (step F) (fun s e => s.Accounted id e) (begin cfg w placed) events) :
    Along (step F) (fun s e => s.Resides F id e) (begin cfg w placed) events :=
  (along_of_invariant (step F) (fun s => s.here.Kept) (fun s e => s.Accounted id e) (fun s e => s.Resides F id e)
    (fun _ e hs he => ⟨kept_step F hs e, resides_of_accounted F hs he⟩) _ events (kept_begin cfg w placed) h).2

namespace Stay

def start : World := { Heat.start with state := { Heat.start.state with replicasDesired := .empty } }

def place : Event ℚ := .others { commands := [Scheduler.upsertCommand 0 (Relocation.Traffic.Sample.record "1.27")] }

def wait (seconds : Nat) : Event ℚ := .others { elapsed := seconds * 10 ^ 9 }

def tick : Event ℚ := .cycle Heat.full

def unplaced : Household ℚ := begin defaultConfig start (fun _ => 0)

end Stay

theorem calm_full : Calm (fun o => ∀ c ∈ o.commands, Allows Residence.Spares c) Heat.full.gaps := by
  intro g hg o ho c hc
  cases mem_singleton.1 hg
  cases ho
  cases hc

open Stay in
theorem moved_after_the_cooldown : (movesIn (record cluster (cycle Sample.floats Heat.full.source
      (run (step Sample.floats) unplaced [place, wait 600, tick]).memory) Heat.full.gaps
      ⟨(run (step Sample.floats) unplaced [place, wait 600, tick]).here.world, []⟩)).length = 1 ∧
    Along (step Sample.floats) (fun s e => s.Resides Sample.floats "sample-web-0" e) unplaced
      [place, wait 600, tick, tick] := by
  refine ⟨by decide +kernel, moved_replicas_reside Sample.floats defaultConfig start (fun _ => 0) "sample-web-0" _ ?_⟩
  have hold : ∀ before : List (Event ℚ), (run (step Sample.floats) unplaced before).here.since "sample-web-0" = some 0 →
      (run (step Sample.floats) unplaced before).memory.cfg.cooldownReplica ≤
        (run (step Sample.floats) unplaced before).here.world.now →
      (run (step Sample.floats) unplaced before).Accounted "sample-web-0" tick := by
    refine fun before hsince hnow => ⟨fun since hmem => ?_, calm_full⟩
    rw [hsince] at hmem
    cases hmem
    exact .inl (by rw [Int.sub_zero]; exact hnow)
  refine ⟨trivial, trivial, hold [place, wait 600] ?_ ?_, hold [place, wait 600, tick] ?_ ?_, trivial⟩
  · decide +kernel
  · decide +kernel
  · decide +kernel
  · decide +kernel

open Stay in
theorem moved_within_the_cooldown :
    ¬ Along (step Sample.floats) (fun s e => s.Resides Sample.floats "sample-web-0" e) unplaced
    [place, tick, tick] := by
  rintro ⟨-, -, hresides, -⟩
  have hmoves : (movesIn (record cluster (cycle Sample.floats Heat.full.source
      (run (step Sample.floats) unplaced [place, tick]).memory) Heat.full.gaps
      ⟨(run (step Sample.floats) unplaced [place, tick]).here.world, []⟩)).map (·.1.id) = ["sample-web-0"] := by
    decide +kernel
  obtain ⟨m, hm, hid⟩ := mem_map.1 (hmoves ▸ mem_singleton_self "sample-web-0")
  obtain ⟨x, -, -, hstood⟩ := hresides m hm
  obtain ⟨rep, since, -, -, hsince, hcooled⟩ := hstood hid
  have hmet : ((run (step Sample.floats) unplaced [place, tick]).met Sample.floats Heat.full).since "sample-web-0" =
      some 0 := by decide +kernel
  cases hmet.symm.trans hsince
  exact absurd hcooled (by decide +kernel)

end Jaco.Rebalance
