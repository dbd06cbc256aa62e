import Jaco.RestartPolicy

namespace Jaco.RestartPolicy

open Interleaving Runs List Store

def observedOf : Payload → Option ReplicaObserved
  | .replicaObservedUpdate obs => obs
  | _ => none

def reports : Payload → Bool
  | .replicaObservedUpdate _ => true
  | .restartCounterUpdate _ _ => true
  | _ => false

def NoReport (p : Payload) : Prop := reports p = false

instance (c : Command) : Decidable (Allows NoReport c) :=
  inferInstanceAs (Decidable (∀ e ∈ c.entries, reports e.payload = false))

structure Restarter where
  events : List ReplicaObserved := []
  current : Option (String × Task Unit) := none

structure Reports where
  world : World
  submitted : List ReplicaObserved := []
  restarters : List Restarter
  removed : List String := []

namespace Reports

inductive Event where
  | observe (obs : ReplicaObserved)
  | land (i : Nat) (fate : Fate)
  | react (j : Nat)
  | act (j : Nat) (fate : Fate)
  | overflow (j : Nat)
  | other (c : Command)
  | elapse (time : Nat) (leader : Bool) (order : String → Nat)

def boot (restarters : Nat) : Reports :=
  { world := { state := .new, index := 0, now := 0 }, restarters := List.replicate restarters {} }

def dropped (w : World) (c : Command) : List String :=
  (w.state.replicasDesired.list.map (·.id)).filter (fun id => ((w.commit c).state.replicasDesired.get id).isNone)

def commit (s : Reports) (c : Command) : Reports :=
  { s with
    world := s.world.commit c
    restarters := s.restarters.map (fun r =>
      { r with events := r.events ++ c.entries.filterMap (fun e => observedOf e.payload) })
    removed := s.removed ++ dropped s.world c }

def settle (s : Reports) (c : Command) (fate : Fate) : Reports := if fate = .lost then s else s.commit c

def next (r : Restarter) : Restarter :=
  match r.current, r.events with
  | none, obs :: events => ⟨events, some (obs.id, handle obs)⟩
  | _, _ => r

def set (s : Reports) (j : Nat) (current : Option (String × Task Unit)) : Reports :=
  { s with restarters := s.restarters.modify j (fun r => { r with current := current }) }

def actAt (s : Reports) (j : Nat) (fate : Fate) : Option (String × Task Unit) → Reports
  | none => s
  | some (_, .ret _) => s.set j none
  | some (id, .look k) => s.set j (some (id, k s.world))
  | some (id, .submit c k) => (s.set j (some (id, k (fate = .acked)))).settle c fate

def step (s : Reports) : Event → Reports
  | .observe obs => { s with submitted := s.submitted ++ [obs] }
  | .land i fate =>
    match s.submitted[i]? with
    | some obs => { s with submitted := s.submitted.eraseIdx i }.settle (observeCommand obs) fate
    | none => s
  | .react j => { s with restarters := s.restarters.modify j next }
  | .act j fate =>
    match s.restarters[j]? with
    | some r => s.actAt j fate r.current
    | none => s
  | .overflow j => { s with restarters := s.restarters.modify j (fun r => { r with events := [] }) }
  | .other c => if Allows NoReport c then s.commit c else s
  | .elapse time leader order =>
    { s with world := { s.world with now := s.world.now + time, leader := leader, order := order } }

def busyWith (r : Restarter) : List String := r.events.map (·.id) ++ (r.current.map (·.1)).toList

def inFlight (s : Reports) : List String := s.submitted.map (·.id) ++ s.restarters.flatMap busyWith

def Cleared (s : Reports) : Prop :=
  ∀ id ∈ s.removed, s.world.state.replicasDesired.get id = none → id ∉ s.inFlight →
    s.world.state.replicasObserved.get id = none ∧ s.world.state.restartCounters.get id = none

instance (s : Reports) : Decidable s.Cleared :=
  inferInstanceAs (Decidable (∀ id ∈ s.removed, _ → _ → _ ∧ _))

/-- A runtime reports only on replicas that are desired, and a removal finds no report on its replica on the way. -/
def Meets (s : Reports) : Event → Prop
  | .observe obs => s.world.state.replicasDesired.get obs.id ≠ none
  | .other c => ∀ id ∈ s.inFlight, id ∉ dropped s.world c
  | _ => True

instance (s : Reports) : (e : Event) → Decidable (s.Meets e)
  | .observe obs => inferInstanceAs (Decidable (s.world.state.replicasDesired.get obs.id ≠ none))
  | .other c => inferInstanceAs (Decidable (∀ id ∈ s.inFlight, id ∉ dropped s.world c))
  | .land _ _ | .react _ | .act _ _ | .overflow _ | .elapse _ _ _ => isTrue trivial

end Reports

section Entries

def Tidy (s : State) : Prop :=
  ∀ id, s.replicasDesired.get id = none → s.replicasObserved.get id = none ∧ s.restartCounters.get id = none

variable {s : State}

theorem tidy_removeReplicaDesired (h : Tidy s) (id : String) : Tidy (s.removeReplicaDesired id) := by
  intro id' hid'
  simp only [State.removeReplicaDesired, get_remove] at hid' ⊢
  split
  · exact ⟨rfl, rfl⟩
  · rename_i hne
    rw [if_neg hne] at hid'
    exact h id' hid'

theorem tidy_removeReplicasOf (h : Tidy s) (name : String) : Tidy (s.removeReplicasOf name) := by
  unfold State.removeReplicasOf
  generalize s.replicasDesired.list.filter (·.deployment = name) = l
  induction l generalizing s with
  | nil => exact h
  | cons r l ih => exact ih (tidy_removeReplicaDesired h r.id)

theorem tidy_of_agree {t : State} (hd : s.replicasDesired = t.replicasDesired)
    (ho : s.replicasObserved = t.replicasObserved) (hc : s.restartCounters = t.restartCounters) (h : Tidy t) :
    Tidy s := by
  unfold Tidy
  rw [hd, ho, hc]
  exact h

theorem tidy_entry (idx : Nat) {s : State} {e : Entry} (hp : NoReport e.payload) (h : Tidy s) :
    Tidy (applyEntry idx s e) := by
  refine tidy_of_agree (applyEntry_agree_mutate idx s e .replicasDesired (by decide))
    (applyEntry_agree_mutate idx s e .replicasObserved (by decide))
    (applyEntry_agree_mutate idx s e .restartCounters (by decide)) ?_
  have hframe : ∀ p, Part.replicasDesired ∉ writes p → Part.replicasObserved ∉ writes p →
      Part.restartCounters ∉ writes p → Tidy (mutate s e.ts idx p) := fun p hd ho hc =>
    tidy_of_agree (mutate_agree s e.ts idx p .replicasDesired hd) (mutate_agree s e.ts idx p .replicasObserved ho)
      (mutate_agree s e.ts idx p .restartCounters hc) h
  cases hpay : e.payload with
  | deploymentDelete name =>
    have hrep := tidy_removeReplicasOf (s := { s with
        routes := s.routes.removeWhere (·.deployment = name)
        tcpRoutes := s.tcpRoutes.removeWhere (·.deployment = name) }) h name
    exact fun id hid => hrep id hid
  | replicaDesiredRemove id => exact tidy_removeReplicaDesired h id
  | replicaDesiredUpsert r =>
    cases r with
    | none => exact h
    | some r =>
      intro id hid
      simp only [mutate, get_apply] at hid ⊢
      split at hid
      · cases hid
      · exact h id hid
  | replicaObservedUpdate r => simp [NoReport, reports, hpay] at hp
  | restartCounterUpdate id a => simp [NoReport, reports, hpay] at hp
  | _ => exact hframe _ (by simp [writes]) (by simp [writes]) (by simp [writes])

theorem tidy_about (idx : Nat) {s : State} {e : Entry} {id : String} (hp : About id e.payload) (h : Tidy s)
    (hid : s.replicasDesired.get id ≠ none) :
    (applyEntry idx s e).replicasDesired = s.replicasDesired ∧ Tidy (applyEntry idx s e) := by
  have hsame : (applyEntry idx s e).replicasDesired = s.replicasDesired := by
    refine applyEntry_agree idx s e .replicasDesired ?_ (by decide)
    cases hpay : e.payload <;> simp [hpay, About] at hp <;> simp [writes]
  refine ⟨hsame, fun id' hid' => ?_⟩
  rw [hsame] at hid'
  have hne : id ≠ id' := fun he => hid (he ▸ hid')
  have ho : (applyEntry idx s e).replicasObserved = (mutate s e.ts idx e.payload).replicasObserved :=
    applyEntry_agree_mutate idx s e .replicasObserved (by decide)
  have hc : (applyEntry idx s e).restartCounters = (mutate s e.ts idx e.payload).restartCounters :=
    applyEntry_agree_mutate idx s e .restartCounters (by decide)
  rw [ho, hc]
  obtain ⟨hobs, hctr⟩ := h id' hid'
  cases hpay : e.payload with
  | replicaObservedUpdate r =>
    cases r with
    | none => exact ⟨hobs, hctr⟩
    | some r =>
      have hr : r.id = id := by simpa [hpay, About] using hp
      simp only [mutate, get_apply, if_neg (hr ▸ hne)]
      exact ⟨hobs, hctr⟩
  | restartCounterUpdate id'' a =>
    have hr : id'' = id := by simpa [hpay, About] using hp
    subst hr
    cases a with
    | unspecified => exact ⟨hobs, hctr⟩
    | increment =>
      simp only [mutate, bumpRestartCounter, get_apply, if_neg hne]
      exact ⟨hobs, hctr⟩
    | reset =>
      simp only [mutate, bumpRestartCounter, get_remove, if_neg hne]
      exact ⟨hobs, hctr⟩
  | replicaCommandIssue id'' op => exact ⟨hobs, hctr⟩
  | _ => simp [hpay, About] at hp

theorem tidy_report {w : World} {c : Command} {id : String} (hc : Allows (About id) c) (h : Tidy w.state)
    (hid : w.state.replicasDesired.get id ≠ none) :
    (w.commit c).state.replicasDesired = w.state.replicasDesired ∧ Tidy (w.commit c).state := by
  refine commit_keeps (Q := fun s => s.replicasDesired = w.state.replicasDesired ∧ Tidy s) (fun idx s e he hs => ?_)
    c w hc ⟨rfl, h⟩
  obtain ⟨hsame, htidy⟩ := tidy_about idx he hs.2 (hs.1 ▸ hid)
  exact ⟨hsame.trans hs.1, htidy⟩

end Entries

namespace Reports

structure Sound (s : Reports) : Prop where
  tidy : Tidy s.world.state
  desired : ∀ id ∈ s.inFlight, s.world.state.replicasDesired.get id ≠ none
  handling : ∀ r ∈ s.restarters, ∀ cur ∈ r.current, Within (fun _ => True) (Allows (About cur.1)) (fun _ => True) cur.2

variable {s : Reports} {id : String} {c : Command}

theorem cleared_of_sound (h : s.Sound) : s.Cleared := fun id _ hid _ => h.tidy id hid

theorem mem_inFlight : id ∈ s.inFlight ↔ (∃ obs ∈ s.submitted, obs.id = id) ∨
      ∃ r ∈ s.restarters, (∃ obs ∈ r.events, obs.id = id) ∨ ∃ cur ∈ r.current, cur.1 = id := by
  simp only [inFlight, busyWith, mem_append, mem_map, mem_flatMap, Option.mem_toList,
    Option.map_eq_some_iff, Option.mem_def]

theorem observed_about (hc : Allows (About id) c) :
    ∀ obs ∈ c.entries.filterMap (fun e => observedOf e.payload), obs.id = id := by
  intro obs hobs
  obtain ⟨e, he, hsome⟩ := mem_filterMap.1 hobs
  have habout := hc e he
  cases hp : e.payload with
  | replicaObservedUpdate r =>
    rw [hp] at habout hsome
    cases hsome
    exact habout
  | _ =>
    rw [hp] at hsome
    cases hsome

theorem observed_of_noReport (hc : Allows NoReport c) : c.entries.filterMap (fun e => observedOf e.payload) = [] := by
  rw [filterMap_eq_nil_iff]
  intro e he
  have hno := hc e he
  cases hp : e.payload with
  | replicaObservedUpdate r => simp [NoReport, reports, hp] at hno
  | _ => rfl

theorem inFlight_commit (h : id ∈ (s.commit c).inFlight) :
    id ∈ s.inFlight ∨ ∃ obs ∈ c.entries.filterMap (fun e => observedOf e.payload), obs.id = id := by
  rw [mem_inFlight] at h
  rcases h with h | ⟨r, hr, h⟩
  · exact .inl (mem_inFlight.2 (.inl h))
  · obtain ⟨r₀, hr₀, rfl⟩ := mem_map.1 hr
    rcases h with ⟨obs, hobs, hid⟩ | h
    · rcases mem_append.1 hobs with hobs | hobs
      · exact .inl (mem_inFlight.2 (.inr ⟨r₀, hr₀, .inl ⟨obs, hobs, hid⟩⟩))
      · exact .inr ⟨obs, hobs, hid⟩
    · exact .inl (mem_inFlight.2 (.inr ⟨r₀, hr₀, .inr h⟩))

theorem handling_commit (h : s.Sound) (c : Command) : ∀ r ∈ (s.commit c).restarters, ∀ cur ∈ r.current,
    Within (fun _ => True) (Allows (About cur.1)) (fun _ => True) cur.2 := by
  intro r hr cur hcur
  obtain ⟨r₀, hr₀, rfl⟩ := mem_map.1 hr
  exact h.handling r₀ hr₀ cur hcur

theorem sound_report (h : s.Sound) (hc : Allows (About id) c)
    (hid : s.world.state.replicasDesired.get id ≠ none) (fate : Fate) : (s.settle c fate).Sound := by
  unfold settle
  split
  · exact h
  · obtain ⟨hsame, htidy⟩ := tidy_report hc h.tidy hid
    refine ⟨htidy, fun id' hid' => ?_, handling_commit h c⟩
    change (s.world.commit c).state.replicasDesired.get id' ≠ none
    rw [hsame]
    rcases inFlight_commit hid' with hold | ⟨obs, hobs, rfl⟩
    · exact h.desired id' hold
    · rw [observed_about hc obs hobs]
      exact hid

theorem mem_dropped {w : World} :
    id ∈ dropped w c ↔ w.state.replicasDesired.get id ≠ none ∧ (w.commit c).state.replicasDesired.get id = none := by
  rw [dropped, mem_filter, mem_map, Option.isNone_iff_eq_none]
  refine and_congr_left (fun _ => ⟨?_, fun h => ?_⟩)
  · rintro ⟨r, hr, rfl⟩
    rw [mem_list.1 hr]
    exact Option.some_ne_none r
  · obtain ⟨r, hr⟩ := Option.ne_none_iff_exists'.1 h
    exact ⟨r, mem_list_of_get hr, get_key hr⟩

theorem sound_other (h : s.Sound) (c : Command) (hc : Allows NoReport c)
    (hmeets : ∀ id ∈ s.inFlight, id ∉ dropped s.world c) : (s.commit c).Sound := by
  refine ⟨commit_keeps (fun idx t e he ht => tidy_entry idx he ht) c s.world hc h.tidy, fun id hid => ?_,
    handling_commit h c⟩
  rcases inFlight_commit hid with hold | ⟨obs, hobs, -⟩
  · exact fun hnone => hmeets id hold (mem_dropped.2 ⟨h.desired id hold, hnone⟩)
  · rw [observed_of_noReport hc] at hobs
    cases hobs

theorem sound_modify (h : s.Sound) {j : Nat} {f : Restarter → Restarter}
    (hf : ∀ r, s.restarters[j]? = some r → (∀ id ∈ busyWith (f r), id ∈ busyWith r) ∧
      ∀ cur ∈ (f r).current, Within (fun _ => True) (Allows (About cur.1)) (fun _ => True) cur.2) :
    { s with restarters := s.restarters.modify j f }.Sound := by
  have hcases : ∀ r ∈ s.restarters.modify j f, r ∈ s.restarters ∨ ∃ r₀, s.restarters[j]? = some r₀ ∧ r = f r₀ := by
    intro r hr
    obtain ⟨i, hi⟩ := mem_iff_getElem?.1 hr
    rcases getElem?_modify_cases hi with ⟨hij, r₀, hr₀, rfl⟩ | ⟨-, hold⟩
    · exact .inr ⟨r₀, hij ▸ hr₀, rfl⟩
    · exact .inl (mem_of_getElem? hold)
  refine ⟨h.tidy, fun id hid => h.desired id ?_, fun r hr cur hcur => ?_⟩
  · rw [inFlight, mem_append, mem_flatMap] at hid ⊢
    rcases hid with hid | ⟨r, hr, hid⟩
    · exact .inl hid
    · rcases hcases r hr with hold | ⟨r₀, hr₀, rfl⟩
      · exact .inr ⟨r, hold, hid⟩
      · exact .inr ⟨r₀, mem_of_getElem? hr₀, (hf r₀ hr₀).1 id hid⟩
  · rcases hcases r hr with hold | ⟨r₀, hr₀, rfl⟩
    · exact h.handling r hold cur hcur
    · exact (hf r₀ hr₀).2 cur hcur

theorem sound_land (h : s.Sound) (i : Nat) (fate : Fate) : (s.step (.land i fate)).Sound := by
  simp only [step]
  split
  · rename_i obs hobs
    have hrest : { s with submitted := s.submitted.eraseIdx i }.Sound := by
      refine ⟨h.tidy, fun id hid => h.desired id ?_, h.handling⟩
      rw [mem_inFlight] at hid ⊢
      rcases hid with ⟨obs', hobs', hid⟩ | hid
      · exact .inl ⟨obs', mem_of_mem_eraseIdx hobs', hid⟩
      · exact .inr hid
    have hid : obs.id ∈ s.inFlight := mem_inFlight.2 (.inl ⟨obs, mem_of_getElem? hobs, rfl⟩)
    have habout : Allows (About obs.id) (observeCommand obs) := allows_single (G := About obs.id) rfl
    exact sound_report hrest habout (h.desired obs.id hid) fate
  · exact h

theorem sound_act (h : s.Sound) {j : Nat} {r : Restarter} (hr : s.restarters[j]? = some r) (fate : Fate) :
    (s.actAt j fate r.current).Sound := by
  cases hcur : r.current with
  | none => exact h
  | some cur =>
    obtain ⟨id, p⟩ := cur
    have hp := h.handling r (mem_of_getElem? hr) (id, p) hcur
    have hset : ∀ q, Within (fun _ => True) (Allows (About id)) (fun _ => True) q → (s.set j (some (id, q))).Sound := by
      intro q hq
      refine sound_modify h (fun r' hr' => ⟨fun id' hid' => ?_, fun cur hcur' => ?_⟩)
      · rw [hr] at hr'
        cases hr'
        rw [busyWith, hcur]
        exact hid'
      · cases hcur'
        exact hq
    cases p with
    | ret u =>
      refine sound_modify h (fun r' _ => ⟨fun id' hid' => ?_, fun cur hcur' => by cases hcur'⟩)
      exact mem_append_left _ (by simpa [busyWith] using hid')
    | look k => exact hset _ (hp s.world trivial)
    | submit c k =>
      have hid : id ∈ s.inFlight := mem_inFlight.2 (.inr ⟨r, mem_of_getElem? hr, .inr ⟨(id, _), hcur, rfl⟩⟩)
      exact sound_report (hset _ (hp.2 _)) hp.1 (h.desired id hid) fate

theorem sound_react (h : s.Sound) (j : Nat) : { s with restarters := s.restarters.modify j next }.Sound := by
  refine sound_modify h (fun r hr => ?_)
  unfold next
  split
  · rename_i obs events hcur hevents
    refine ⟨fun id hid => ?_, fun cur hcur' => ?_⟩
    · rw [busyWith, hevents]
      simp only [busyWith, mem_append, map_cons, mem_cons, Option.map_some, Option.toList_some,
        not_mem_nil, or_false] at hid ⊢
      tauto
    · cases hcur'
      exact handle_about obs
  · exact ⟨fun id hid => hid, h.handling r (mem_of_getElem? hr)⟩

theorem sound_step (h : s.Sound) (e : Event) (hmeets : s.Meets e) : (s.step e).Sound := by
  cases e with
  | observe obs =>
    refine ⟨h.tidy, fun id hid => ?_, h.handling⟩
    rw [mem_inFlight] at hid
    rcases hid with ⟨obs', hobs', rfl⟩ | hid
    · rcases mem_append.1 hobs' with hold | hnew
      · exact h.desired obs'.id (mem_inFlight.2 (.inl ⟨obs', hold, rfl⟩))
      · rw [mem_singleton.1 hnew]
        exact hmeets
    · exact h.desired id (mem_inFlight.2 (.inr hid))
  | land i fate => exact sound_land h i fate
  | react j => exact sound_react h j
  | act j fate =>
    simp only [step]
    split
    · rename_i r hr
      exact sound_act h hr fate
    · exact h
  | overflow j =>
    refine sound_modify h (fun r hr => ⟨fun id hid => ?_, h.handling r (mem_of_getElem? hr)⟩)
    exact mem_append_right _ (by simpa [busyWith] using hid)
  | other c =>
    simp only [step]
    split
    · rename_i hc
      exact sound_other h c hc hmeets
    · exact h
  | elapse time leader order => exact { h with }

theorem sound_boot (restarters : Nat) : (boot restarters).Sound := by
  have hidle : ∀ r ∈ (boot restarters).restarters, r = {} := fun r hr => eq_of_mem_replicate hr
  refine ⟨fun id _ => ⟨rfl, rfl⟩, fun id hid => ?_, fun r hr cur hcur => ?_⟩
  · rw [mem_inFlight] at hid
    rcases hid with ⟨obs, hobs, -⟩ | ⟨r, hr, hid⟩
    · cases hobs
    · rw [hidle r hr] at hid
      rcases hid with ⟨obs, hobs, -⟩ | ⟨cur, hcur, -⟩
      · cases hobs
      · cases hcur
  · rw [hidle r hr] at hcur
    cases hcur

theorem removed_replicas_stay_cleared (restarters : Nat) (es : List Event)
    (hmeets : Along step Meets (boot restarters) es) :
    ∀ fs, fs <+: es → (run step (boot restarters) fs).Cleared := by
  rintro fs ⟨gs, rfl⟩
  have hfs := ((along_append step Meets (boot restarters) fs gs).1 hmeets).1
  exact cleared_of_sound (along_of_invariant step Sound Meets (fun _ _ => True)
    (fun s e hs he => ⟨sound_step hs e he, trivial⟩) (boot restarters) fs (sound_boot restarters) hfs).1

namespace Sample

def upsert : Event :=
  .other (.single ⟨"scheduler", none, .replicaDesiredUpsert (some
    { id := "sample-web-0", deployment := "sample", service := "web", host := "node-a", image := "nginx:1.27" })⟩)

def remove : Event := .other (.single ⟨"scheduler", none, .replicaDesiredRemove "sample-web-0"⟩)

def poll : Event := .observe { id := "sample-web-0", state := .failed, code := "container_exited" }

def lands : List Event := [.land 0 .acked, .react 0] ++ List.replicate 7 (.act 0 .acked)

end Sample

theorem removal_after_reports : let es := Sample.upsert :: Sample.poll :: (Sample.lands ++ [Sample.remove])
    (run step (boot 1) es).removed = ["sample-web-0"] ∧ (run step (boot 1) es).Cleared :=
  ⟨by decide +kernel, removed_replicas_stay_cleared 1 _ (by decide +kernel) _ (prefix_refl _)⟩

theorem late_report_returns :
    let s := run step (boot 1) (Sample.upsert :: Sample.poll :: Sample.remove :: Sample.lands)
    s.inFlight = [] ∧ (s.world.state.replicasObserved.get "sample-web-0").isSome ∧
      (s.world.state.restartCounters.get "sample-web-0").isSome ∧ ¬ s.Cleared := by
  decide +kernel

end Reports

end Jaco.RestartPolicy
