import Jaco.WatchView

namespace Jaco.Watch

open Runs List

section

variable {depFilter : String}

variable {w : World} {t : EntityType}

theorem newBroker_pos (buffer : Int) : 0 < newBroker buffer := by
  unfold newBroker defaultBuffer
  split <;> omega

variable (h : Tracked depFilter w)

include h

theorem tracked_send : Tracked depFilter (step depFilter w (.send t)) := by
  simp only [step, World.send]
  split
  · exact h
  · rename_i st hst
    split
    · rename_i n hhand
      split
      · apply tracked_setStream h
        · intro u hu
          rw [filterMap_append, filterMap_cons, only_note_of_ne n hu]
          exact ⟨append_nil _, rfl⟩
        · intro x hx
          rcases mem_append.mp hx with hx | hx
          · exact .inr (h.subscribed x hx)
          · rw [mem_singleton] at hx
            rw [hx]
            exact .inl rfl
        · intro k
          have hold := h.settled_open hst k
          simp only [hhand, Hand.undecided, Hand.decided, nil_append] at hold
          simp only [Hand.undecided, Hand.decided, filterMap_append, filterMap_cons, only_self,
            filterMap_nil, append_nil, nil_append]
          exact hold
        · exact h.roomy t st hst
        · exact fun hf => h.calm hf t st hst
        · exact fun hp => ⟨hp, h.quiet hp t st hst⟩
      · exact h
    · exact h

theorem tracked_receive : Tracked depFilter (step depFilter w .receive) := by
  simp only [step, World.receive]
  split
  · exact h
  · rename_i t n rest hmerged
    have hsome : (w.streams t).isSome = true := h.subscribed ⟨t, n⟩ (by rw [hmerged]; exact mem_cons_self)
    obtain ⟨st, hst⟩ := Option.isSome_iff_exists.mp hsome
    have hself : w.merged.filterMap (only t) = n :: rest.filterMap (only t) := by
      rw [hmerged, filterMap_cons, only_self]
    have hothers : ∀ u ≠ t, rest.filterMap (only u) = w.merged.filterMap (only u) ∧
        pendingNotes w.pending u = pendingNotes w.pending u := by
      intro u hu
      rw [hmerged, filterMap_cons, only_note_of_ne n hu]
      exact ⟨rfl, rfl⟩
    have hsub : ∀ x ∈ rest, x.1 = t ∨ (w.streams x.1).isSome = true := fun x hx =>
      .inr (h.subscribed x (by rw [hmerged]; exact mem_cons_of_mem _ hx))
    simp only [hst]
    cases n with
    | event _ | resync =>
      refine tracked_setStream h hothers hsub ?_ (h.roomy t st hst) (fun hf => h.calm hf t st hst)
        (fun hp => ⟨hp, h.quiet hp t st hst⟩)
      intro k
      have hold := h.settled_open hst k
      rw [hself, cons_append] at hold
      first | exact hold | (simp only [Change.fold_apply]; exact hold)

theorem filterMap_only_of_closed (ht : w.streams t = none) : w.merged.filterMap (only t) = [] := by
  rw [filterMap_eq_nil_iff]
  rintro ⟨u, n⟩ hx
  apply only_of_ne
  rintro rfl
  have hsome := h.subscribed _ hx
  rw [ht] at hsome
  cases hsome

theorem tracked_subscribe (buffer : Int) : Tracked depFilter (step depFilter w (.subscribe t buffer)) := by
  simp only [step]
  split
  · rename_i hst
    refine tracked_setStream h (fun _ _ => ⟨rfl, rfl⟩) (fun x hx => .inr (h.subscribed x hx)) ?_
      ⟨newBroker_pos buffer, Nat.zero_le _, nofun⟩ (fun _ => ⟨by simp [Stream.fetch], by simp [Stream.fetch]⟩)
      (fun hp => ⟨hp, rfl⟩)
    intro k
    have hold := h.settled t k
    simp only [World.base, World.decided, World.undecided, hst] at hold
    simpa [Stream.fetch, Hand.undecided, Hand.decided, Subscription.notes] using hold
  · exact h

theorem tracked_publish : Tracked depFilter (step depFilter w .publish) := by
  simp only [step]
  split
  · exact h
  · rename_i t c hpending
    have hquiet := h.quiet (by rw [hpending]; rfl)
    have hother : ∀ u ≠ t, pendingNotes none u = pendingNotes w.pending u := by
      intro u hu
      simp [pendingNotes, hpending, only_change_of_ne c hu]
    have hself : pendingNotes w.pending t = [.event c] := by
      simp [pendingNotes, hpending]
    unfold World.publish
    dsimp only
    split
    · rename_i hst
      refine { h with settled := ?_, quiet := by simp }
      intro u k
      by_cases hu : u = t
      · subst hu
        simp only [World.base, World.decided, World.undecided, hst, filterMap_only_of_closed h hst]
        rfl
      · have hold := h.settled u k
        simp only [World.base, World.decided, World.undecided, ← hother u hu] at hold ⊢
        exact hold
    · rename_i st hst
      refine tracked_setStream h (fun u hu => ⟨rfl, hother u hu⟩) (fun x hx => .inr (h.subscribed x hx)) ?_
        ((h.roomy t st hst).publish c) (fun _ => ⟨by simp [Subscription.publish], by simp [Subscription.publish]⟩)
        (by simp)
      intro k
      have hold := h.settled_open hst k
      have hnotes : st.sub.notes = st.sub.queue := by
        simp [Subscription.notes, hquiet t st hst]
      rw [hself, hnotes, append_assoc] at hold
      simpa [pendingNotes, Subscription.notes, Subscription.publish] using hold

theorem tracked_command {gap : Nat} {c : Command} : Tracked depFilter (step depFilter w (.command gap c)) := by
  simp only [step]
  split
  · rename_i hidle
    obtain ⟨hentries, hops, _⟩ := hidle
    have hops : w.ops = [] := List.isEmpty_iff.mp hops
    refine { h with reaches := ?_ }
    have hnow := h.reaches
    rw [hentries, hops, foldl_nil, foldl_nil] at hnow
    rw [hops, foldl_nil, hnow, stateTables_apply]
  · exact h

theorem tracked_entry (rank : String → Nat) : Tracked depFilter (step depFilter w (.entry rank)) := by
  simp only [step]
  split
  · rename_i e es hentries hops
    refine { h with reaches := ?_ }
    have hnow := h.reaches
    rw [hentries, hops, foldl_cons, foldl_nil, applyEntryOps, foldl_opsOf _ _ _ _ rank] at hnow
    exact hnow
  · exact h

omit h in
theorem idle_of_publisherIdle (h : w.publisherIdle = true) :
    w.pending = none ∧ ∀ t st, w.streams t = some st → st.sub.publishing = .idle := by
  unfold World.publisherIdle at h
  rw [Bool.and_eq_true, List.all_eq_true] at h
  refine ⟨Option.isNone_iff_eq_none.mp h.1, ?_⟩
  intro t st hst
  have ht := h.2 t (by cases t <;> decide)
  rw [hst, Option.all_some] at ht
  split at ht
  · assumption
  · cases ht

theorem settled_closed (hst : w.streams t = none) (hpending : w.pending = none) :
    w.decided t = [] ∧ w.undecided t = [] := by
  simp [World.decided, World.undecided, hst, hpending, pendingNotes, filterMap_only_of_closed h hst]

theorem settled_writeOp_table {u : EntityType} {wr : Write u.Record} {rest : List Op}
    (hpending : w.pending = none) (hops : w.ops = .table u wr :: rest) (hc : Undisturbed depFilter w .write)
    (t : EntityType) (k : String) :
    Settles depFilter (w.writeOp (.table u wr) rest).tables t k ((w.writeOp (.table u wr) rest).base depFilter t k)
      ((w.writeOp (.table u wr) rest).decided t) ((w.writeOp (.table u wr) rest).undecided t) := by
  have hold := h.settled t k
  by_cases ht : t = u
  · subst ht
    cases hchange : wr.change (w.tables.store t) with
    | none =>
      have hshown : shown depFilter (w.tables.apply (.table t wr)) t k = shown depFilter w.tables t k := by
        unfold shown
        rw [Tables.apply, store_set_self, get_write_of_no_change hchange]
        rfl
      simp only [World.base, World.decided, World.undecided, World.writeOp, hchange, hpending, Option.map_none,
        hshown] at hold ⊢
      exact settles_of_same hold hshown (fun _ _ => rfl)
    | some c =>
      cases hst : w.streams t with
      | none =>
        have hnil := settled_closed h hst hpending
        simp only [World.decided, World.undecided, hst, hpending] at hnil
        simp only [World.base, World.decided, World.undecided, World.writeOp, hchange, hst, hnil.1]
        have hclosed := @settles_write_closed depFilter _ _ _ _ k hchange
        simpa [pendingNotes] using hclosed
      | some st =>
        have hmove : ∀ v, wr = .put v → ∀ before ∈ (w.tables.store t).get (t.key v),
            passes depFilter w.tables t (label t (some before)) → passes depFilter w.tables t (label t (some v)) := by
          rintro v rfl before hbefore hpass
          rcases hc with hf | hc
          · simp [passes, hf]
          · simp only [hops] at hc
            exact hc (by rw [hst]; rfl) before hbefore hpass
        simp only [World.base, World.decided, World.undecided, hst, hpending] at hold
        simp only [World.base, World.decided, World.undecided, World.writeOp, hchange, hst]
        have hwrite := settles_write hchange hmove hold
        simpa [pendingNotes] using hwrite
  · have hstore : (w.tables.apply (.table u wr)).store t = w.tables.store t := store_set_of_ne _ _ ht
    have hshown : shown depFilter (w.tables.apply (.table u wr)) t k = shown depFilter w.tables t k := by
      unfold shown
      rw [hstore]
      rfl
    have hnotes : pendingNotes ((wr.change (w.tables.store u)).map (fun c => ⟨u, c⟩)) t = pendingNotes w.pending t := by
      rw [hpending]
      cases wr.change (w.tables.store u) with
      | none => rfl
      | some c => simp [pendingNotes, only_change_of_ne c ht]
    simp only [World.base, World.decided, World.undecided, World.writeOp, hnotes, hshown] at hold ⊢
    exact settles_of_same hold hshown (fun _ _ => rfl)

omit h in
theorem passes_desired_of_ne {T : Tables} {wr : Write ReplicaDesired} {l : String}
    (h : t = .replicasObserved → l ≠ wr.key ReplicaDesired.id) :
    passes depFilter (T.apply (.desired wr)) t l = passes depFilter T t l := by
  cases t with
  | replicasObserved =>
    simp only [passes, Tables.apply]
    rw [get_write, if_neg (Ne.symm (h rfl))]
  | _ => rfl

theorem settled_writeOp_desired {wr : Write ReplicaDesired} {rest : List Op} (hpending : w.pending = none)
    (hops : w.ops = .desired wr :: rest) (hc : Undisturbed depFilter w .write) (t : EntityType) (k : String) :
    Settles depFilter (w.writeOp (.desired wr) rest).tables t k ((w.writeOp (.desired wr) rest).base depFilter t k)
      ((w.writeOp (.desired wr) rest).decided t) ((w.writeOp (.desired wr) rest).undecided t) := by
  have hold := h.settled t k
  cases hst : w.streams t with
  | none =>
    obtain ⟨hdecided, hundecided⟩ := settled_closed h hst hpending
    have hd : (w.writeOp (.desired wr) rest).decided t = [] := hdecided
    have hu : (w.writeOp (.desired wr) rest).undecided t = [] := by
      rw [World.undecided, hpending] at hundecided
      exact hundecided
    rw [hd, hu]
    simp only [World.base, World.writeOp, hst]
    rfl
  | some st =>
    -- a label counts when a record or a note on its way bears it
    have hpasses : ∀ l, (((w.tables.store t).get l).isSome ∨ ∃ n ∈ w.undecided t, label t n.record = l) →
        passes depFilter (w.tables.apply (.desired wr)) t l = passes depFilter w.tables t l := by
      intro l hl
      by_cases hto : t = .replicasObserved ∧ l = wr.key ReplicaDesired.id
      · obtain ⟨rfl, rfl⟩ := hto
        rcases hc with hf | hc
        · simp [passes, hf]
        · simp only [hops] at hc
          exact hc (by rw [hst]; rfl) hl
      · exact passes_desired_of_ne (fun ht hl => hto ⟨ht, hl⟩)
    have hshown : shown depFilter (w.tables.apply (.desired wr)) t k = shown depFilter w.tables t k := by
      unfold shown
      have hstore : (w.tables.apply (.desired wr)).store t = w.tables.store t := rfl
      rw [hstore]
      cases hget : (w.tables.store t).get k with
      | none => rfl
      | some v =>
        have hv : passes depFilter (w.tables.apply (.desired wr)) t (label t (some v)) =
            passes depFilter w.tables t (label t (some v)) := by
          by_cases ht : t = .replicasObserved
          · subst ht
            have hkey : v.id = k := Store.get_key hget
            apply hpasses
            left
            have hlabel : label .replicasObserved (some v) = k := hkey
            rw [hlabel, hget]
            rfl
          · exact passes_desired_of_ne (fun h => absurd h ht)
        simp only [Option.filter_some, hv]
    have hu : (w.writeOp (.desired wr) rest).undecided t = w.undecided t := by
      simp only [World.undecided, World.writeOp, hpending]
    have hb : (w.writeOp (.desired wr) rest).base depFilter t k = w.base depFilter t k := by
      simp only [World.base, World.writeOp, hst]
    rw [hu, hb]
    exact settles_of_same hold hshown (fun n hn => hpasses _ (.inr ⟨n, hn, rfl⟩))

theorem tracked_write (hc : Undisturbed depFilter w .write) : Tracked depFilter (step depFilter w .write) := by
  simp only [step]
  split
  · exact h
  · rename_i op rest hops
    split
    · rename_i hidle
      obtain ⟨hpending, hquiet⟩ := idle_of_publisherIdle hidle
      refine { h with settled := ?_, quiet := fun _ => hquiet, reaches := ?_ }
      · cases op with
        | table u wr => exact settled_writeOp_table h hpending hops hc
        | desired wr => exact settled_writeOp_desired h hpending hops hc
      · have hnow := h.reaches
        rw [hops] at hnow
        exact hnow
    · exact h

theorem tracked_step (e : Event) (hc : Undisturbed depFilter w e) : Tracked depFilter (step depFilter w e) := by
  cases e with
  | command gap c => exact tracked_command h
  | entry rank => exact tracked_entry h rank
  | write => exact tracked_write h hc
  | publish => exact tracked_publish h
  | advance t => exact tracked_advance h hc
  | subscribe t buffer => exact tracked_subscribe h buffer
  | take t => exact tracked_take h
  | judge t => exact tracked_judge h
  | send t => exact tracked_send h
  | receive => exact tracked_receive h
  | refetch t => exact tracked_refetch h

omit h in
theorem tracked_start (index : Nat) (s : State) : Tracked depFilter (World.start index s) where
  settled := fun _ _ => rfl
  roomy := fun _ _ hst => (nomatch hst)
  calm := fun _ _ _ hst => (nomatch hst)
  quiet := nofun
  subscribed := fun _ hx => (nomatch hx)
  reaches := rfl

theorem Tracked.current : Current depFilter w := by
  intro hd t st hst k
  have htables : w.tables = stateTables w.state := by
    have hnow := h.reaches
    rwa [hd.entries, hd.ops] at hnow
  obtain ⟨hqueue, hidle, hhand⟩ := hd.streams t st hst
  have hold := h.settled_open hst k
  simp only [hd.merged, hd.pending, hhand, Hand.undecided, Hand.decided, Subscription.notes, hqueue, hidle,
    htables] at hold
  exact hold

omit h in
theorem subscribed_views_current (depFilter : String) (index : Nat) (s : State) (es : List Event)
    (h : Along (step depFilter) (Undisturbed depFilter) (World.start index s) es) :
    Along (step depFilter) (fun w e => Current depFilter (step depFilter w e)) (World.start index s) es :=
  (along_of_invariant (step depFilter) (Tracked depFilter) (Undisturbed depFilter)
    (fun w e => Current depFilter (step depFilter w e))
    (fun _ e hw he => ⟨tracked_step hw e he, (tracked_step hw e he).current⟩)
    (World.start index s) es (tracked_start index s) h).2

end

def Stream.drained {α : Type} (st : Stream α) : Bool :=
  match st.sub.queue, st.sub.publishing, st.hand with
  | [], .idle, .empty => true
  | _, _, _ => false

def World.drained (w : World) : Bool :=
  w.entries.isEmpty && w.ops.isEmpty && w.pending.isNone && w.merged.isEmpty &&
    [EntityType.deployments, .replicasObserved, .routes, .tcpRoutes].all (fun t => (w.streams t).all Stream.drained)

theorem drained_of_drained {w : World} (h : w.drained = true) : Drained w := by
  simp only [World.drained, Bool.and_eq_true, List.isEmpty_iff, Option.isNone_iff_eq_none, List.all_eq_true] at h
  obtain ⟨⟨⟨⟨hentries, hops⟩, hpending⟩, hmerged⟩, hstreams⟩ := h
  refine ⟨hentries, hops, hpending, hmerged, ?_⟩
  intro t st hst
  have ht := hstreams t (by cases t <;> decide)
  rw [hst, Option.all_some, Stream.drained] at ht
  split at ht
  · rename_i hqueue hidle hhand
    exact ⟨hqueue, hidle, hhand⟩
  · cases ht

def World.stale (depFilter : String) (w : World) (t : EntityType) (k : String) : Bool :=
  w.drained && (w.streams t).any (fun st => st.view k ≠ shown depFilter (stateTables w.state) t k)

theorem not_current_of_stale {depFilter : String} {w : World} {t : EntityType} {k : String}
    (h : w.stale depFilter t k = true) : ¬ Current depFilter w := by
  intro hc
  rw [World.stale, Bool.and_eq_true, Option.any_eq_true] at h
  obtain ⟨hdrained, st, hst, hne⟩ := h
  have heq := hc (drained_of_drained hdrained) t st hst k
  simp [heq] at hne

namespace Sample

def web : Deployment :=
  { name := "web", appliedRevision := 1, status := .active, services := [] }

def webRoute : Route :=
  { domain := "example.org", deployment := "web", service := "app", port := 80, tlsAuto := true, path := "/",
    stripPath := false }

def replica : ReplicaDesired :=
  { id := "web-app-0", deployment := "web", service := "app", host := "a", image := "app:1" }

def state : State :=
  { State.new with
    deployments := State.new.deployments.apply web
    replicasDesired := State.new.replicasDesired.apply replica
    replicasObserved := State.new.replicasObserved.apply { id := "web-app-0", state := .running }
    routes := State.new.routes.apply webRoute }

def command (p : Payload) : Command := .single ⟨"root", none, p⟩

def status (st : DeploymentStatus) : Command := command (.deploymentStatusUpdate ⟨"web", st, []⟩)

def written (c : Command) : List Event := [.command 0 c, .entry (fun _ => 0), .write, .publish]

def delivered (t : EntityType) : List Event := [.take t, .judge t, .send t, .receive]

end Sample

open Sample

theorem status_reaches_filtered_view : Along (step "web") (Undisturbed "web") (World.start 0 state)
        ([.subscribe .deployments 256, .subscribe .replicasObserved 256] ++ written (status .pending) ++
          [.advance .deployments] ++ delivered .deployments) ∧
      Along (step "web") (fun w e => Current "web" (step "web" w e)) (World.start 0 state)
        ([.subscribe .deployments 256, .subscribe .replicasObserved 256] ++ written (status .pending) ++
          [.advance .deployments] ++ delivered .deployments) :=
  ⟨by decide +kernel, subscribed_views_current "web" 0 state _ (by decide +kernel)⟩

theorem filtered_views_go_stale : ¬ Current "web" (run (step "web") (World.start 0 state)
        ([.subscribe .replicasObserved 256, .command 0 (command (.replicaDesiredRemove "web-app-0")),
          .entry (fun _ => 0), .write, .write, .publish, .advance .replicasObserved] ++ delivered .replicasObserved)) ∧
      ¬ Current "web" (run (step "web") (World.start 0 state)
        ([.subscribe .routes 256] ++ written (command (.routeUpsert (some { webRoute with deployment := "api" }))) ++
          [.advance .routes] ++ delivered .routes)) ∧
      ¬ Current "web" (run (step "web") (World.start 0 state)
        ([.subscribe .deployments 2] ++ written (status .pending) ++ [.advance .deployments] ++
          written (status .pending) ++ [.advance .deployments] ++ written (status .active) ++
          List.replicate 3 (.advance .deployments) ++ delivered .deployments ++ delivered .deployments)) :=
  ⟨not_current_of_stale (t := .replicasObserved) (k := "web-app-0") (by decide +kernel),
    not_current_of_stale (t := .routes) (k := webRoute.key) (by decide +kernel),
    not_current_of_stale (t := .deployments) (k := "web") (by decide +kernel)⟩

end Jaco.Watch
