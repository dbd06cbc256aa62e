import Jaco.DrainedHosts
import Jaco.HostMoves

namespace Jaco.Relocation.Removing

open Interleaving Placement Runs Scheduler List Store

variable {hostname : String} {going : List String}

structure Draining (hostname : String) (going : List String) (all rest : List Migration) (l : Ledger) : Prop where
  left : ∀ r, l.world.state.replicasDesired.get r.id = some r → displaced hostname l.world.state r = true →
    ∃ m ∈ rest, m.replicaID = r.id
  migrated : ∀ p ∈ l.migrated, ∃ m ∈ all, m.replicaID = p.1
  honest : Honest going l

variable {all : List Migration} {l k : Ledger}

theorem draining_others {rest : List Migration} (h : Draining hostname going all rest l)
    (hlk : Undisturbed hostname going l k) : Draining hostname going all rest k where
  left r hr hd := h.left r (hlk.placed r hr hd) (displaced_back hlk.services hd)
  migrated p hp := h.migrated p (hlk.migrated ▸ hp)
  honest := hlk.honest h.honest

theorem draining_migrate {rest : List Migration} {m : Migration}
    (h : Draining hostname going all (m :: rest) l) (hm : m ∈ all) (hto : m.toHost ≠ hostname) (now : Timestamp) :
    Draining hostname going all rest (l.commit (.command (migrationCommand hostname now m))) := by
  let record : ReplicaDesired :=
    { id := m.replicaID, deployment := m.deployment, service := m.service, host := m.toHost, image := m.image }
  let e : Entry :=
    { identity := "drain:" ++ hostname, ts := some now, payload := .replicaDesiredUpsert (some record) }
  have hstate : (l.world.commit (migrationCommand hostname now m)).state =
      applyEntry (l.world.index + 1) l.world.state e := commit_single l.world e
  have hdesired : (l.world.commit (migrationCommand hostname now m)).state.replicasDesired =
      l.world.state.replicasDesired.apply { record with raftIndex := l.world.index + 1 } := by
    rw [hstate]
    exact applyEntry_agree_mutate _ _ e .replicasDesired (by decide)
  have hservices : SameServices l.world.state (l.world.commit (migrationCommand hostname now m)).state := by
    rw [hstate]
    exact sameServices_entry _ _ e rfl
  have hobserved : (l.world.commit (migrationCommand hostname now m)).state.replicasObserved =
      l.world.state.replicasObserved := by
    rw [hstate]
    exact applyEntry_agree _ _ e .replicasObserved (by simp [e, writes]) (by decide)
  refine ⟨fun r hr hd => ?_, fun p hp => ?_, fun id hid obs hobs hrun => ?_⟩
  · change (l.world.commit _).state.replicasDesired.get r.id = some r at hr
    rw [hdesired, get_apply] at hr
    split at hr
    · cases hr
      rw [displaced, Bool.and_eq_true, decide_eq_true_eq] at hd
      exact absurd hd.1 hto
    · rename_i hne
      obtain ⟨m', hm', hid⟩ := h.left r hr (displaced_back hservices hd)
      rcases mem_cons.1 hm' with rfl | hm'
      · exact absurd hid hne
      · exact ⟨m', hm', hid⟩
  · rcases mem_append.1 hp with hp | hp
    · exact h.migrated p hp
    · obtain ⟨r, hr, rfl⟩ := mem_map.1 hp
      rw [upsertsIn, migrationCommand, entries_single] at hr
      have hrecord : r = record := by simpa using hr
      exact ⟨m, hm, by rw [hrecord]⟩
  · change (l.world.commit _).state.replicasObserved.get id = some obs at hobs
    rw [hobserved] at hobs
    exact h.honest id hid obs hobs hrun

theorem sound_migration (l : Ledger) (now : Timestamp) (m : Migration) :
    Sound hostname (.command (migrationCommand hostname now m)) l := by
  rintro ⟨e, he, hremoves⟩
  rw [migrationCommand, entries_single, mem_singleton] at he
  subst he
  cases hremoves

/-- The drain's part of a removal, as a run of its commands among the others'. -/
abbrev Drains {α : Type} (hostname : String) (going : List String) (Q : α → Ledger → Prop) (p : Task α) (l : Ledger) :
    Prop :=
  Secure ((reliance hostname going).through Call.command) (fun c => Sound hostname (.command c)) Q p l

theorem drains_error {Q : Ledger → Prop} (e : Status) (k : Ledger) :
    Drains hostname going (fun result k => result = .ok () → Q k)
      (pure (.error e) : Task (Except Status Unit)) k :=
  secure_ret (fun _ _ herror => by cases herror)

theorem applyMigrations_secure (now : Timestamp) (rest : List Migration)
    (hrest : ∀ m ∈ rest, m ∈ all ∧ m.toHost ≠ hostname) (l : Ledger) (h : Draining hostname going all rest l) :
    Drains hostname going (fun result k => result = .ok () → Draining hostname going all [] k)
      (applyMigrations hostname now rest) l := by
  induction rest generalizing l with
  | nil => exact secure_ret (fun k hk _ => draining_others h hk)
  | cons m rest ih =>
    obtain ⟨hm, hto⟩ := hrest m mem_cons_self
    refine secure_send (fun k hk => ⟨sound_migration k now m, ?_, drains_error _ _, drains_error _ k⟩)
    exact ih (fun m' hm' => hrest m' (mem_cons_of_mem m hm')) _ (draining_migrate (draining_others h hk) hm hto now)

theorem drainComplete_secure (ms : List Migration) (hms : ∀ m ∈ ms, m.replicaID ∈ going)
    (sure : List String) (l : Ledger) (h : Draining hostname going all [] l) (hsure : sure ⊆ l.confirmed) :
    Drains hostname going (fun complete k => Draining hostname going all [] k ∧
        (complete = true → sure ++ ms.map (·.replicaID) ⊆ k.confirmed)) (drainComplete ms) l := by
  induction ms generalizing l sure with
  | nil =>
    refine secure_ret (fun k hk => ⟨draining_others h hk, fun _ => ?_⟩)
    rw [map_nil, append_nil]
    exact List.Subset.trans hsure hk.confirmed
  | cons m ms ih =>
    refine secure_read (fun k hk => ?_)
    have hk' := draining_others h hk
    have hno : Drains hostname going (fun complete k => Draining hostname going all [] k ∧
          (complete = true → sure ++ (m :: ms).map (·.replicaID) ⊆ k.confirmed)) (pure false : Task Bool) k :=
      secure_ret (fun n hn => ⟨draining_others hk' hn, fun hfalse => by cases hfalse⟩)
    split
    · exact hno
    · rename_i obs hobs
      split
      · exact hno
      · rename_i hrun
        rw [ne_eq, not_not] at hrun
        have hconfirmed : m.replicaID ∈ k.confirmed := hk'.honest m.replicaID (hms m mem_cons_self) obs hobs hrun
        have hsure' : sure ++ [m.replicaID] ⊆ k.confirmed :=
          append_subset.2 ⟨List.Subset.trans hsure hk.confirmed, cons_subset.2 ⟨hconfirmed, nil_subset _⟩⟩
        have hrest := ih (fun m' hm' => hms m' (mem_cons_of_mem m hm')) (sure ++ [m.replicaID]) k hk' hsure'
        rw [append_assoc, singleton_append] at hrest
        exact hrest

def Drained (hostname : String) (l : Ledger) : Prop :=
  (∀ p ∈ l.migrated, p.1 ∈ l.confirmed) ∧
    ∀ r ∈ l.world.state.replicasDesired.list, displaced hostname l.world.state r = false

theorem drained_of_draining (h : Draining hostname going all [] l)
    (hall : all.map (·.replicaID) ⊆ l.confirmed) : Drained hostname l := by
  refine ⟨fun p hp => ?_, fun r hr => ?_⟩
  · obtain ⟨m, hm, he⟩ := h.migrated p hp
    exact he ▸ hall (mem_map_of_mem hm)
  · rw [← Bool.not_eq_true]
    intro hd
    obtain ⟨m, hm, -⟩ := h.left r (mem_list.1 hr) hd
    cases hm

theorem drained_others (h : Drained hostname l) (hlk : Undisturbed hostname going l k) : Drained hostname k := by
  refine ⟨fun p hp => hlk.confirmed (h.1 p (hlk.migrated ▸ hp)), fun r hr => ?_⟩
  rw [← Bool.not_eq_true]
  intro hd
  have hold := h.2 r (mem_list.2 (hlk.placed r (mem_list.1 hr) hd))
  rw [displaced_back hlk.services hd] at hold
  cases hold

theorem awaitDrain_secure (hall : ∀ m ∈ all, m.replicaID ∈ going) (deadline : Timestamp)
    (polls : Nat) (l : Ledger) (h : Draining hostname going all [] l) :
    Drains hostname going (fun result k => result = .ok () → Drained hostname k) (awaitDrain all deadline polls) l := by
  induction polls generalizing l with
  | zero => exact drains_error _ l
  | succ polls ih =>
    refine secure_read (fun k hk => ?_)
    split
    · refine secure_bind (secure_mono (fun complete n hn => ?_)
        (drainComplete_secure all hall [] k (draining_others h hk) (nil_subset _)))
      obtain ⟨hdraining, hcomplete⟩ := hn
      split
      · rename_i htrue
        have hdrained := drained_of_draining hdraining (hcomplete htrue)
        exact secure_ret (fun o ho _ => drained_others hdrained ho)
      · exact ih n hdraining
    · exact drains_error _ k

theorem specOf_listing (w : World) (deployment service : String) :
    specOf (w.listing w.state.deployments) deployment service =
      (w.state.deployments.get deployment).bind (fun d => d.services.find? (·.name = service)) := by
  rw [specOf]
  exact congrArg (Option.bind · _) (find?_of_perm (listing_perm w w.state.deployments) deployment)

theorem displaced_iff_evicted (w : World) (r : ReplicaDesired) :
    displaced hostname w.state r = true ↔ ∃ spec, Evicted hostname (w.listing w.state.deployments) r spec := by
  rw [displaced, Bool.and_eq_true, decide_eq_true_eq, ← specOf_listing, Option.any_eq_true]
  constructor
  · rintro ⟨hhost, spec, hspec, hplacement⟩
    exact ⟨spec, hhost, hspec, of_decide_eq_true hplacement⟩
  · rintro ⟨spec, hhost, hspec, hplacement⟩
    exact ⟨hhost, spec, hspec, decide_eq_true hplacement⟩

theorem draining_plan {n : Ledger} {nodes : List Node} {ms : List Migration} (hl : Honest going l)
    (hnone : l.migrated = []) (hlk : Undisturbed hostname going l k) (hkn : Undisturbed hostname going k n)
    (hplan : plan hostname nodes (k.world.listing k.world.state.replicasDesired)
      (n.world.listing n.world.state.deployments) = .ok ms) : Draining hostname going ms ms n := by
  refine ⟨fun r hr hd => ?_, fun p hp => ?_, hkn.honest (hlk.honest hl)⟩
  · obtain ⟨spec, hevicted⟩ := (displaced_iff_evicted n.world r).1 hd
    exact plan_covers hplan r ((mem_listing k.world _ r).2 (hkn.placed r hr hd)) spec hevicted
  · rw [hkn.migrated, hlk.migrated, hnone] at hp
    cases hp

def Goes (hostname : String) (going : List String) (s : State) : Prop :=
  ∀ r, s.replicasDesired.get r.id = some r → displaced hostname s r = true → r.id ∈ going

theorem plan_going {n : Ledger} {nodes : List Node} {ms : List Migration}
    (hgoing : Goes hostname going l.world.state)
    (hlk : Undisturbed hostname going l k) (hkn : Undisturbed hostname going k n)
    (hplan : plan hostname nodes (k.world.listing k.world.state.replicasDesired)
      (n.world.listing n.world.state.deployments) = .ok ms) (m : Migration) (hm : m ∈ ms) :
    m.replicaID ∈ going ∧ m.toHost ≠ hostname := by
  obtain ⟨r, hr, spec, hevicted, hplaced⟩ := plan_moves hplan m hm
  have hdk : displaced hostname k.world.state r = true :=
    displaced_back hkn.services ((displaced_iff_evicted n.world r).2 ⟨spec, hevicted⟩)
  have hget := hlk.placed r ((mem_listing k.world _ r).1 hr) hdk
  refine ⟨?_, placed_elsewhere hplaced⟩
  obtain ⟨counts, newHost, -, rfl⟩ := hplaced
  exact hgoing r hget (displaced_back hlk.services hdk)

theorem drainToEnd_secure (polls : Nat) (l : Ledger) (hl : Honest going l) (hnone : l.migrated = [])
    (hgoing : Goes hostname going l.world.state) :
    Drains hostname going (fun result k => result = .ok () → Drained hostname k) (drainToEnd hostname polls) l := by
  refine secure_read (fun j hlj => secure_read (fun k hjk => secure_read (fun n hkn => ?_)))
  have hlk := undisturbed_trans l j k hlj hjk
  split
  · exact drains_error _ n
  · rename_i hplan
    have hdrained := drained_of_draining (draining_plan hl hnone hlk hkn hplan) (nil_subset _)
    exact secure_ret (fun o ho _ => drained_others hdrained ho)
  · rename_i m ms hplan
    have hmoves := plan_going hgoing hlk hkn hplan
    refine secure_read (fun o hno => secure_bind (secure_mono (fun result q hq => ?_)
      (applyMigrations_secure o.world.now (m :: ms) (fun m' hm' => ⟨hm', (hmoves m' hm').2⟩) o
        (draining_others (draining_plan hl hnone hlk hkn hplan) hno))))
    cases result with
    | error e => exact drains_error e q
    | ok u =>
      refine secure_read (fun v hqv => ?_)
      exact awaitDrain_secure (fun m' hm' => (hmoves m' hm').1) _ polls v (draining_others (hq rfl) hqv)

theorem nodeRemove_secure (identity : String) (polls : Nat) (l : Ledger) (hl : Honest going l)
    (hnone : l.migrated = [])
    (hgoing : Goes hostname going l.world.state) :
    Secure (reliance hostname going) (Sound hostname) (fun _ _ => True) (nodeRemove identity hostname polls) l := by
  have hend : ∀ (r : Except Status Unit) (k : Ledger), Secure (reliance hostname going) (Sound hostname)
      (fun _ _ => True) (pure r : Program World Call (Except Status Unit)) k :=
    fun r k => secure_ret (fun _ _ => trivial)
  refine secure_read (fun k hlk => ?_)
  split
  · exact hend _ k
  · split
    · exact hend _ k
    · refine secure_bind (secure_mono (fun result n hn => ?_) (secure_mapCommand (drainToEnd_secure polls k
        (hlk.honest hl) (hlk.migrated.trans hnone)
        (fun r hr hd => hgoing r (hlk.placed r hr hd) (displaced_back hlk.services hd)))))
      cases result with
      | error e => exact hend _ n
      | ok u =>
        refine secure_send (fun o hno => ⟨trivial, ?_, hend _ _, hend _ _⟩)
        have ho := drained_others (hn rfl) hno
        refine secure_send (fun q hoq => ⟨(drained_others ho hoq).1, ?_, hend _ _, hend _ _⟩)
        have hq := drained_others ho hoq
        refine secure_read (fun v hqv => secure_send (fun x hvx => ⟨fun _ => ?_, hend _ _, hend _ _, hend _ _⟩))
        exact (drained_others (drained_others hq hqv) hvx).2

theorem secure_step {s : Removing} {e : Event}
    (h : Secure (reliance hostname going) (Sound hostname) (fun _ _ => True) s.thread s.ledger)
    (hmeets : s.Meets hostname going e) :
    Secure (reliance hostname going) (Sound hostname) (fun _ _ => True) (s.step e).thread (s.step e).ledger ∧
      s.Orderly hostname e := by
  obtain ⟨l, thread⟩ := s
  cases e with
  | observe host obs => exact ⟨secure_others h (undisturbed_observe l host obs hmeets), trivial⟩
  | other c =>
    refine ⟨?_, trivial⟩
    simp only [step]
    split
    · rename_i hc
      exact secure_others h (undisturbed_other l c hc hmeets)
    · exact h
  | elapse time leader order => exact ⟨secure_others h (undisturbed_elapse l _ leader order), trivial⟩
  | act fate =>
    cases thread with
    | ret r => exact ⟨h, fun c hc => by cases hc⟩
    | look k => exact ⟨h l (undisturbed_refl l), fun c hc => by cases hc⟩
    | submit c k =>
      obtain ⟨hsound, hacked, hunacked, hlost⟩ := h l (undisturbed_refl l)
      refine ⟨?_, fun c' hc' => ?_⟩
      · cases fate with
        | acked => exact hacked
        | unacked => exact hunacked
        | lost => exact hlost
      · cases hc'
        exact hsound

theorem removal_is_orderly (identity hostname : String) (polls : Nat) (w : World) (es : List Event)
    (hstart : ∀ id ∈ evictees hostname w.state, ∀ obs ∈ w.state.replicasObserved.get id, obs.state ≠ .running)
    (hmeets : Along step (Meets hostname (evictees hostname w.state))
      ⟨{ world := w }, nodeRemove identity hostname polls⟩ es) :
    Along step (Orderly hostname) ⟨{ world := w }, nodeRemove identity hostname polls⟩ es := by
  have hhonest : Honest (evictees hostname w.state) { world := w } :=
    fun id hid obs hobs hrun => absurd hrun (hstart id hid obs hobs)
  have hgoing : Goes hostname (evictees hostname w.state) w.state :=
    fun r hr hd => mem_map_of_mem (mem_filter.2 ⟨mem_list.2 hr, hd⟩)
  exact (along_of_invariant step
    (fun s => Secure (reliance hostname (evictees hostname w.state)) (Sound hostname) (fun _ _ => True)
      s.thread s.ledger)
    (Meets hostname (evictees hostname w.state)) (Orderly hostname) (fun _ _ hs he => secure_step hs he) _ es
    (nodeRemove_secure identity polls { world := w } hhonest rfl hgoing) hmeets).2

namespace Sample

def web (state : ReplicaState) : ReplicaObserved := { id := "sample-web-0", state := state }

def fresh (w : World) : Removing := ⟨{ world := w }, nodeRemove "ops" "node-a" 1⟩

def acts (n : Nat) : List Event := List.replicate n (.act .acked)

def reported (host : String) : List Event := acts 8 ++ .observe host (web .running) :: acts 5

def runningOnA : World := Traffic.Sample.start.commit (RestartPolicy.observeCommand (web .running))

end Sample

open Sample

theorem confirmed_removal_ends :
    (run step (fresh Traffic.Sample.start) (reported "node-b")).ledger.world.state.nodes.get "node-a" =
        none ∧
      Along step (Orderly "node-a") (fresh Traffic.Sample.start) (reported "node-b") :=
  ⟨by decide +kernel, removal_is_orderly _ _ _ _ _ (by decide +kernel) (by decide +kernel)⟩

theorem stale_observation_ends_wait : ¬ Along step (Orderly "node-a") (fresh runningOnA) (acts 11) ∧
      ¬ Along step (Orderly "node-a") (fresh Traffic.Sample.start) (reported "node-a") := by
  decide +kernel

end Jaco.Relocation.Removing
