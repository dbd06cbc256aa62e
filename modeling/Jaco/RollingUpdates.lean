import Jaco.PassProgress

namespace Jaco.Scheduler

open Interleaving Placement Rollout Runs List

inductive Event where
  | pass (gs : List (Gap Others))
  | others (o : Others)

section Runs

variable (P : Parsers)

def runPass (gs : List (Gap Others)) (w : World) : Round × Config World :=
  let r := exec cluster (reconcile P) gs ⟨w, []⟩
  (r.1, r.2.2)

def Event.next (w : World) : Event → World
  | .pass gs => (runPass P gs w).2.now
  | .others o => w.disturb o

def Event.met (w : World) : Event → List World
  | .pass gs => (runPass P gs w).2.seen
  | .others o => [w.disturb o]

def visited (w : World) : List Event → List World
  | [] => []
  | e :: es => e.met P w ++ visited (e.next P w) es

/-- The existing replicas of the service whose image or spec hash the pass changes. -/
def altered (D S : String) (w : World) (gs : List (Gap Others)) : List String :=
  ((runPass P gs w).1.upserts.filter (alters w D S)).map (·.id)

end Runs

variable (P : Parsers) (D S : String)

/-- No submission of a pass fails, observations apart nobody writes while it runs, and only images are to be changed.
Between passes the plans are left alone. -/
def Controlled (w : World) : Event → Prop
  | .pass gs => WellNamed w.state ∧ ImageOnly P w D S ∧ Calm Observing gs ∧ Acked gs
  | .others o => ∀ c ∈ o.commands, Allows (fun p => ∀ plan, p ≠ .rolloutPlanUpdate plan) c

def StaysInRollout (w : World) (e : Event) : Prop := ∀ v ∈ e.next P w :: e.met P w, inRollout D S v = true

def readySince (since : Timestamp) (id : String) (w : World) : Bool :=
  (w.state.replicasObserved.get id).any (fun obs =>
    obs.state = .running && isFresh w.now obs.lastHealthAt && obs.lastHealthAt.any (since ≤ ·))

section Steps

variable {P D S} {w : World} {k : Nat} (hS : NulFree S)

include hS

theorem pass_tracked {gs : List (Gap Others)} (hgs : Controlled P D S w (.pass gs)) :
    Tracked w D S (runPass P gs w).1 (runPass P gs w).2 := by
  obtain ⟨hw, himages, hcalm, hacked⟩ := hgs
  exact reconcile_tracked hS hw himages gs ⟨w, []⟩ hcalm hacked
    ⟨framed_refl w.state, nofun, fun _ _ hat _ => .inl hat, nofun⟩

theorem step_of_altered {gs : List (Gap Others)} (hgs : Controlled P D S w (.pass gs))
    (hroll : inRollout D S ((Event.pass gs).next P w) = true) {id : String} (h : id ∈ altered P D S w gs) :
    ∃ k : Nat, k < 2 ^ 31 ∧ id = replicaID D S k ∧ AtStep D S k ((Event.pass gs).next P w) := by
  obtain ⟨r, hr, rfl⟩ := mem_map.1 h
  obtain ⟨hmem, halters⟩ := mem_filter.1 hr
  obtain ⟨p, hp, hprog⟩ := (Option.any_eq_true _ _).1 hroll
  simp only [Bool.and_eq_true, decide_eq_true_eq] at hprog
  obtain ⟨k, hk, hstep, hid⟩ := (pass_tracked hS hgs).held r hmem halters p hp hprog.1 hprog.2
  exact ⟨k, hk, hid, p, hp, hprog.1, hstep⟩

theorem step_waits (hk : k < 2 ^ 31) (hat : AtStep D S k w) {e : Event} (he : Controlled P D S w e)
    (hroll : StaysInRollout P D S w e) :
    AtStep D S k (e.next P w) ∨ ∃ v ∈ e.met P w, isReady (replicaID D S k) v = true := by
  cases e with
  | pass gs => exact (pass_tracked hS he).waits k hk hat hroll
  | others o =>
    obtain ⟨p, hp, -⟩ := (Option.any_eq_true _ _).1 (hroll _ mem_cons_self)
    have hplan : planAt D S w = some p :=
      disturb_keeps (Q := fun s => ∀ q, s.rolloutPlans.get (rolloutPlanKey D S) = some q → planAt D S w = some q)
        (fun idx s e he hs q hq => hs q ((get_rolloutPlans_entry hq).resolve_right (he (some q)))) o w he
        (fun _ h => h) p hp
    exact .inl (atStep_of_planAt (hp.trans hplan.symm) hat)

theorem run_waits (hk : k < 2 ^ 31) (es : List Event) (w : World) (hat : AtStep D S k w)
    (hes : Along (Event.next P) (Controlled P D S) w es) (hroll : Along (Event.next P) (StaysInRollout P D S) w es) :
    AtStep D S k (run (Event.next P) w es) ∨ ∃ v ∈ visited P w es, isReady (replicaID D S k) v = true := by
  induction es generalizing w with
  | nil => exact .inl hat
  | cons e es ih =>
    rcases step_waits hS hk hat hes.1 hroll.1 with hat' | ⟨v, hv, hready⟩
    · exact (ih _ hat' hes.2 hroll.2).imp_right (fun ⟨v, hv, hready⟩ => ⟨v, mem_append_right _ hv, hready⟩)
    · exact .inr ⟨v, mem_append_left _ hv, hready⟩

omit hS in
theorem atStep_unique {i j : Int} (hi : AtStep D S i w) (hj : AtStep D S j w) : i = j := by
  obtain ⟨p, hp, -, hpi⟩ := hi
  obtain ⟨q, hq, -, hqj⟩ := hj
  cases Option.some.inj (hp.symm.trans hq)
  exact hpi.symm.trans hqj

omit hS in
theorem id_of_steps {i j : Nat} (hi : AtStep D S i w) (hj : AtStep D S j w) : replicaID D S i = replicaID D S j := by
  rw [Int.ofNat_inj.1 (atStep_unique hi hj)]

end Steps

namespace Sample

def running (id : String) (elapsed : Nat) : Others where
  commands := [.single ⟨"node-a", none, .replicaObservedUpdate (some
    { id := id, state := .running, lastHealthAt := some elapsed })⟩]
  elapsed := elapsed

def updated : World := placed.commit (.single (applied 2 "1.28"))

def reported : List Event := [.others (running "sample-web-0" 5000000000)]

end Sample

namespace Sample

def edited : World :=
  (undisturbed ((World.commit (node "node-a") { state := .new, index := 0, now := 0 }).commit
    (.single (applied 1 "1.28")))).commit (.single (applied 2 "1.28\n    environment:\n      DB_PASS: x"))

def moved : World :=
  ((placed.commit (node "node-b")).commit (.single ⟨"ops", none, .nodeRemove "node-a"⟩)).commit
    (.single (applied 2 "1.28"))

def stale : World := (placed.disturb (running "sample-web-0" 0)).commit (.single (applied 2 "1.28"))

/-- The submission of the plan, the fourteenth access of a pass, is refused. -/
def unplanned : List (Gap Others) := List.replicate 13 ⟨none, .acked⟩ ++ [⟨none, .lost⟩]

end Sample

end Jaco.Scheduler
