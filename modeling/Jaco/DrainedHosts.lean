import Jaco.GracefulRemoval
import Jaco.SchedulerOffers
import Jaco.RestartPolicy

namespace Jaco.Relocation

open Interleaving Placement Runs Scheduler

def displaced (hostname : String) (s : State) (r : ReplicaDesired) : Bool :=
  r.host = hostname && ((s.deployments.get r.deployment).bind (fun d => d.services.find? (·.name = r.service))).any
    (fun spec => spec.placement ≠ .global)

def evictees (hostname : String) (s : State) : List String :=
  (s.replicasDesired.list.filter (displaced hostname s)).map (·.id)

structure Ledger where
  world : World
  migrated : List (String × String) := []
  confirmed : List String := []

def Ledger.commit : Call → Ledger → Ledger
  | .command c, l =>
    { l with world := l.world.commit c, migrated := l.migrated ++ (upsertsIn c).map (fun r => (r.id, r.host)) }
  | _, l => l

def passSubmits : Payload → Bool
  | .deploymentStatusUpdate _ | .deploymentRollback _ _ | .rolloutPlanUpdate _ | .auditAppend _
  | .replicaDesiredUpsert _ | .replicaDesiredRemove _ => true
  | _ => false

instance (c : Command) : Decidable (Allows (fun p => passSubmits p = true) c) :=
  inferInstanceAs (Decidable (∀ e ∈ c.entries, passSubmits e.payload = true))

structure Removing where
  ledger : Ledger
  thread : Program World Call (Except Status Unit)

namespace Removing

inductive Event where
  | observe (host : String) (obs : ReplicaObserved)
  | other (c : Command)
  | act (fate : Fate)
  | elapse (time : Nat) (leader : Bool) (order : String → Nat)

local instance lawfulBEq_migrated : LawfulBEq (String × String) := inferInstance

def observed (l : Ledger) (host : String) (obs : ReplicaObserved) : Ledger :=
  { l with
    world := l.world.commit (RestartPolicy.observeCommand obs)
    confirmed := if obs.state = .running ∧ (obs.id, host) ∈ l.migrated then l.confirmed ++ [obs.id] else l.confirmed }

def step (s : Removing) : Event → Removing
  | .observe host obs => { s with ledger := observed s.ledger host obs }
  | .other c =>
    if Allows (fun p => passSubmits p = true) c then
      { s with ledger := { s.ledger with world := s.ledger.world.commit c } }
    else s
  | .act fate =>
    match s.thread with
    | .ret _ => s
    | .look k => { s with thread := k s.ledger.world }
    | .submit c k =>
      match fate with
      | .acked => ⟨s.ledger.commit c, k true⟩
      | .unacked => ⟨s.ledger.commit c, k false⟩
      | .lost => { s with thread := k false }
  | .elapse time leader order =>
    { s with ledger := { s.ledger with
      world := { s.ledger.world with now := s.ledger.world.now + time, leader := leader, order := order } } }

def removes (hostname : String) : Payload → Bool
  | .nodeRemove h => h = hostname
  | _ => false

/-- `RemoveServer` comes after every migrated replica is confirmed, and the node leaves the state with nothing of a
declared service, GLOBAL ones apart, on it. -/
def Sound (hostname : String) : Call → Ledger → Prop
  | .removeServer _, l => ∀ p ∈ l.migrated, p.1 ∈ l.confirmed
  | .command c, l => (∃ e ∈ c.entries, removes hostname e.payload = true) →
      ∀ r ∈ l.world.state.replicasDesired.list, displaced hostname l.world.state r = false
  | .prepareForRemoval _, _ => True

instance (hostname : String) (l : Ledger) : (c : Call) → Decidable (Sound hostname c l)
  | .removeServer _ => inferInstanceAs (Decidable (∀ p ∈ l.migrated, p.1 ∈ l.confirmed))
  | .command c => inferInstanceAs (Decidable ((∃ e ∈ c.entries, removes hostname e.payload = true) →
      ∀ r ∈ l.world.state.replicasDesired.list, displaced hostname l.world.state r = false))
  | .prepareForRemoval _ => isTrue trivial

def calling (s : Removing) : Option Call :=
  match s.thread with
  | .submit c _ => some c
  | _ => none

def Orderly (hostname : String) (s : Removing) : Event → Prop
  | .act _ => ∀ c ∈ s.calling, Sound hostname c s.ledger
  | _ => True

instance (hostname : String) (s : Removing) : (e : Event) → Decidable (s.Orderly hostname e)
  | .act _ => inferInstanceAs (Decidable (∀ c ∈ s.calling, Sound hostname c s.ledger))
  | .observe _ _ | .other _ | .elapse _ _ _ => isTrue trivial

/-- The host's replicas are reported RUNNING only by the host each is migrated to, and no pass puts another on the
host. -/
def Meets (hostname : String) (going : List String) (s : Removing) : Event → Prop
  | .observe host obs => obs.state = .running → obs.id ∈ going → (obs.id, host) ∈ s.ledger.migrated
  | .other c => ∀ r ∈ upsertsIn c, displaced hostname s.ledger.world.state r = false
  | _ => True

instance (hostname : String) (going : List String) (s : Removing) : (e : Event) → Decidable (s.Meets hostname going e)
  | .observe host obs =>
    inferInstanceAs (Decidable (obs.state = .running → obs.id ∈ going → (obs.id, host) ∈ s.ledger.migrated))
  | .other c => inferInstanceAs (Decidable (∀ r ∈ upsertsIn c, displaced hostname s.ledger.world.state r = false))
  | .act _ | .elapse _ _ _ => isTrue trivial

section Reliance

variable (hostname : String) (going : List String)

def Honest (l : Ledger) : Prop :=
  ∀ id ∈ going, ∀ obs, l.world.state.replicasObserved.get id = some obs → obs.state = .running → id ∈ l.confirmed

def SameServices (s t : State) : Prop :=
  ∀ name d, t.deployments.get name = some d → ∃ d₀, s.deployments.get name = some d₀ ∧ d.services = d₀.services

structure Undisturbed (l m : Ledger) : Prop where
  migrated : m.migrated = l.migrated
  confirmed : l.confirmed ⊆ m.confirmed
  services : SameServices l.world.state m.world.state
  placed : ∀ r, m.world.state.replicasDesired.get r.id = some r → displaced hostname m.world.state r = true →
    l.world.state.replicasDesired.get r.id = some r
  honest : Honest going l → Honest going m

variable {hostname going}

theorem displaced_back {s t : State} (h : SameServices s t) {r : ReplicaDesired} (hr : displaced hostname t r = true) :
    displaced hostname s r = true := by
  rw [displaced, Bool.and_eq_true, decide_eq_true_eq] at hr ⊢
  refine ⟨hr.1, ?_⟩
  cases hd : t.deployments.get r.deployment with
  | none =>
    rw [hd] at hr
    exact absurd hr.2 Bool.false_ne_true
  | some d =>
    obtain ⟨d₀, hd₀, hsame⟩ := h r.deployment d hd
    rw [hd, Option.bind_some, hsame] at hr
    rw [hd₀, Option.bind_some]
    exact hr.2

theorem undisturbed_refl (l : Ledger) : Undisturbed hostname going l l :=
  ⟨rfl, List.Subset.refl _, fun _ d hd => ⟨d, hd, rfl⟩, fun _ h _ => h, fun h => h⟩

theorem undisturbed_trans (l m n : Ledger) (h : Undisturbed hostname going l m) (h' : Undisturbed hostname going m n) :
    Undisturbed hostname going l n where
  migrated := h'.migrated.trans h.migrated
  confirmed := List.Subset.trans h.confirmed h'.confirmed
  services name d hd := by
    obtain ⟨d₁, hd₁, he₁⟩ := h'.services name d hd
    obtain ⟨d₀, hd₀, he₀⟩ := h.services name d₁ hd₁
    exact ⟨d₀, hd₀, he₁.trans he₀⟩
  placed r hr hd := h.placed r (h'.placed r hr hd) (displaced_back h'.services hd)
  honest hl := h'.honest (h.honest hl)

theorem undisturbed_elapse (l : Ledger) (now : Timestamp) (leader : Bool) (order : String → Nat) :
    Undisturbed hostname going l { l with world := { l.world with now := now, leader := leader, order := order } } :=
  ⟨rfl, List.Subset.refl _, fun _ d hd => ⟨d, hd, rfl⟩, fun _ h _ => h, fun h => h⟩

theorem undisturbed_observe (l : Ledger) (host : String) (obs : ReplicaObserved)
    (h : obs.state = .running → obs.id ∈ going → (obs.id, host) ∈ l.migrated) :
    Undisturbed hostname going l (observed l host obs) := by
  let e : Entry := { identity := "runtime", ts := none, payload := .replicaObservedUpdate (some obs) }
  have hstate : (observed l host obs).world.state = applyEntry (l.world.index + 1) l.world.state e :=
    commit_single l.world e
  have hdeployments : (observed l host obs).world.state.deployments = l.world.state.deployments := by
    rw [hstate]
    exact applyEntry_agree _ _ e .deployments (by simp [e, writes]) (by decide)
  have hdesired : (observed l host obs).world.state.replicasDesired = l.world.state.replicasDesired := by
    rw [hstate]
    exact applyEntry_agree _ _ e .replicasDesired (by simp [e, writes]) (by decide)
  have hobserved : (observed l host obs).world.state.replicasObserved = l.world.state.replicasObserved.apply obs := by
    rw [hstate]
    exact applyEntry_agree_mutate _ _ e .replicasObserved (by decide)
  have hgrows : l.confirmed ⊆ (observed l host obs).confirmed := by
    change l.confirmed ⊆ if _ then _ else _
    split
    · exact List.subset_append_left _ _
    · exact List.Subset.refl _
  refine ⟨rfl, hgrows, fun name d hd => ?_, fun r hr _ => ?_, fun hl id hid o ho hrun => ?_⟩
  · rw [hdeployments] at hd
    exact ⟨d, hd, rfl⟩
  · rw [hdesired] at hr
    exact hr
  · rw [hobserved, Store.get_apply] at ho
    split at ho
    · rename_i hsame
      cases ho
      change id ∈ if _ then _ else _
      rw [if_pos ⟨hrun, h hrun (hsame ▸ hid)⟩, ← hsame]
      exact List.mem_append_right _ (List.mem_singleton_self _)
    · exact hgrows (hl id hid o ho hrun)

structure Passes (hostname : String) (s t : State) : Prop where
  services : SameServices s t
  placed : ∀ r, t.replicasDesired.get r.id = some r → displaced hostname t r = true →
    s.replicasDesired.get r.id = some r
  observed : ∀ id obs, t.replicasObserved.get id = some obs → s.replicasObserved.get id = some obs

theorem sameServices_entry (idx : Nat) (s : State) (e : Entry) (he : passSubmits e.payload = true) :
    SameServices s (applyEntry idx s e) := by
  intro name d hd
  have hno : NoApply name e.payload := by
    cases hp : e.payload with
    | deploymentApply da => simp [hp, passSubmits] at he
    | _ => trivial
  obtain ⟨d₀, hd₀, -, hsame⟩ := get_deployments_entry idx s e hno hd
  exact ⟨d₀, hd₀, hsame⟩

theorem observed_entry (idx : Nat) (s : State) (e : Entry) (he : passSubmits e.payload = true) (id : String)
    (obs : ReplicaObserved) (h : (applyEntry idx s e).replicasObserved.get id = some obs) :
    s.replicasObserved.get id = some obs := by
  by_cases hw : Part.replicasObserved ∈ writes e.payload
  · have hsame : (applyEntry idx s e).replicasObserved = (mutate s e.ts idx e.payload).replicasObserved :=
      applyEntry_agree_mutate idx s e .replicasObserved (by decide)
    rw [hsame] at h
    cases hp : e.payload with
    | replicaDesiredRemove id' =>
      rw [hp] at h
      exact Store.get_of_remove h
    | replicaObservedUpdate r => simp [hp, passSubmits] at he
    | deploymentDelete name => simp [hp, passSubmits] at he
    | _ => simp [hp, writes] at hw
  · have hsame : (applyEntry idx s e).replicasObserved = s.replicasObserved :=
      applyEntry_agree idx s e .replicasObserved hw (by decide)
    rwa [hsame] at h

theorem passes_commit (w : World) (c : Command) (hc : Allows (fun p => passSubmits p = true) c)
    (hup : ∀ r ∈ upsertsIn c, displaced hostname w.state r = false) :
    Passes hostname w.state (w.commit c).state := by
  refine commit_keeps (Q := fun t => Passes hostname w.state t)
    (G := fun p => passSubmits p = true ∧ ∀ r, p = .replicaDesiredUpsert (some r) →
      displaced hostname w.state r = false)
    (fun idx t e he ht => ?_) c w (fun e he => ⟨hc e he, fun r hr => hup r ?_⟩) ?_
  · have hservices : SameServices w.state (applyEntry idx t e) := by
      intro name d hd
      obtain ⟨d₁, hd₁, he₁⟩ := sameServices_entry idx t e he.1 name d hd
      obtain ⟨d₀, hd₀, he₀⟩ := ht.services name d₁ hd₁
      exact ⟨d₀, hd₀, he₁.trans he₀⟩
    refine ⟨hservices, fun r hr hd => ?_, fun id obs hobs => ht.observed id obs
      (observed_entry idx t e he.1 id obs hobs)⟩
    rcases get_replicasDesired_entry hr with hold | ⟨r₀, hp, rfl⟩
    · exact ht.placed r hold (displaced_back (sameServices_entry idx t e he.1) hd)
    · have hfalse := he.2 r₀ hp
      have htrue : displaced hostname w.state { r₀ with raftIndex := idx } = true := displaced_back hservices hd
      exact absurd (hfalse.symm.trans htrue) Bool.false_ne_true
  · exact List.mem_filterMap.2 ⟨e, he, by rw [hr]⟩
  · exact ⟨fun _ d hd => ⟨d, hd, rfl⟩, fun _ h _ => h, fun _ _ h => h⟩

theorem undisturbed_other (l : Ledger) (c : Command) (hc : Allows (fun p => passSubmits p = true) c)
    (hup : ∀ r ∈ upsertsIn c, displaced hostname l.world.state r = false) :
    Undisturbed hostname going l { l with world := l.world.commit c } := by
  have hpasses := passes_commit l.world c hc hup
  exact ⟨rfl, List.Subset.refl _, hpasses.services, hpasses.placed,
    fun hl id hid obs hobs hrun => hl id hid obs (hpasses.observed id obs hobs) hrun⟩

variable (hostname going)

def reliance : Reliance Ledger World Call where
  view := Ledger.world
  commit := Ledger.commit
  others := Undisturbed hostname going
  refl := undisturbed_refl
  trans := undisturbed_trans

end Reliance

end Removing

end Jaco.Relocation
