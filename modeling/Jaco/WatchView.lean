import Jaco.WatchSubscribe

namespace Jaco.Watch

open Runs List

section

variable {F : EntityType → Type}

def only (t : EntityType) (x : (t : EntityType) × F t) : Option (F t) :=
  if h : x.1 = t then some (h ▸ x.2) else none

@[simp] theorem only_self (t : EntityType) (x : F t) : only t ⟨t, x⟩ = some x := dif_pos rfl

theorem only_of_ne {t : EntityType} {x : (t : EntityType) × F t} (h : x.1 ≠ t) : only t x = none := dif_neg h

end

theorem only_note_of_ne {t u : EntityType} (n : Note (Change t.Record)) (h : u ≠ t) :
    only u (⟨t, n⟩ : (t : EntityType) × Note (Change t.Record)) = none :=
  only_of_ne h.symm

theorem only_change_of_ne {t u : EntityType} (c : Change t.Record) (h : u ≠ t) :
    only u (⟨t, c⟩ : (t : EntityType) × Change t.Record) = none :=
  only_of_ne h.symm

def Hand.undecided {α : Type} : Hand α → List (Note α)
  | .taken n => [n]
  | _ => []

def Hand.decided {α : Type} : Hand α → List (Note α)
  | .kept n => [n]
  | _ => []

def pendingNotes (pending : Option ((t : EntityType) × Change t.Record)) (t : EntityType) :
    List (Note (Change t.Record)) := ((pending.bind (only t)).map Note.event).toList

/-- The notes of a type on their way to the client that the filter has still to judge. -/
def World.undecided (w : World) (t : EntityType) : List (Note (Change t.Record)) :=
  (match w.streams t with
    | none => []
    | some st => st.hand.undecided ++ st.sub.notes) ++ pendingNotes w.pending t

def World.decided (w : World) (t : EntityType) : List (Note (Change t.Record)) :=
  w.merged.filterMap (only t) ++ (match w.streams t with
    | none => []
    | some st => st.hand.decided)

section

variable (depFilter : String)

/-- Under a filter: no queue overflows, no write takes a record away from the filtered deployment, and a replica
with an observation, or with one on its way, does not change hands. -/
def Undisturbed (w : World) : Event → Prop
  | .advance t => depFilter = "" ∨ ∀ st ∈ w.streams t, st.sub.overflows = false
  | .write => depFilter = "" ∨ match w.ops with
    | .table t (.put v) :: _ => (w.streams t).isSome → ∀ before ∈ (w.tables.store t).get (t.key v),
        passes depFilter w.tables t (label t (some before)) → passes depFilter w.tables t (label t (some v))
    | .desired wr :: _ => (w.streams .replicasObserved).isSome →
        (((w.tables.store .replicasObserved).get (wr.key ReplicaDesired.id)).isSome ∨
          ∃ n ∈ w.undecided .replicasObserved, label .replicasObserved n.record = wr.key ReplicaDesired.id) →
        passes depFilter (w.tables.apply (.desired wr)) .replicasObserved (wr.key ReplicaDesired.id) =
          passes depFilter w.tables .replicasObserved (wr.key ReplicaDesired.id)
    | _ => True
  | _ => True

instance (w : World) (e : Event) : Decidable (Undisturbed depFilter w e) := by
  cases e
  case advance t =>
    unfold Undisturbed
    infer_instance
  case write =>
    unfold Undisturbed
    refine @instDecidableOr _ _ _ ?_
    split <;> infer_instance
  all_goals exact isTrue trivial

def Settles (T : Tables) (t : EntityType) (k : String) (seen : Option t.Record)
    (decided undecided : List (Note (Change t.Record))) : Prop :=
  settle t.key k (shown depFilter T t k) seen (decided ++ undecided.filter (keep depFilter T t)) = shown depFilter T t k

def World.base (w : World) (t : EntityType) (k : String) : Option t.Record :=
  match w.streams t with
  | none => shown depFilter w.tables t k
  | some st => st.view k

structure Tracked (w : World) : Prop where
  settled : ∀ t k, Settles depFilter w.tables t k (w.base depFilter t k) (w.decided t) (w.undecided t)
  roomy : ∀ t st, w.streams t = some st → st.sub.Roomy
  calm : depFilter ≠ "" → ∀ t st, w.streams t = some st → st.sub.Calm
  quiet : w.pending.isSome = true → ∀ t st, w.streams t = some st → st.sub.publishing = .idle
  subscribed : ∀ x ∈ w.merged, (w.streams x.1).isSome = true
  reaches : w.entries.foldl (applyEntryOps w.index) (w.ops.foldl Tables.apply w.tables) = stateTables w.state

variable {depFilter}

variable {T : Tables} {t : EntityType} {k : String} {w : World}

variable {seen : Option t.Record} {d u : List (Note (Change t.Record))}

theorem Settles.judge_keep {n : Note (Change t.Record)} (h : Settles depFilter T t k seen d (n :: u))
    (hn : keep depFilter T t n = true) : Settles depFilter T t k seen (d ++ [n]) u := by
  unfold Settles at h ⊢
  rw [filter_cons_of_pos hn] at h
  rwa [append_assoc, singleton_append]

theorem Settles.judge_drop {n : Note (Change t.Record)} (h : Settles depFilter T t k seen d (n :: u))
    (hn : keep depFilter T t n = false) : Settles depFilter T t k seen d u := by
  unfold Settles at h ⊢
  rwa [filter_cons_of_neg (by simp [hn])] at h

theorem Settles.refetch (h : Settles depFilter T t k seen d u) :
    Settles depFilter T t k (shown depFilter T t k) d u :=
  settle_refetched h

theorem settles_resync (T : Tables) (t : EntityType) (k : String) (seen : Option t.Record)
    (d u : List (Note (Change t.Record))) (hf : depFilter = "") :
    Settles depFilter T t k seen d (u ++ [.resync]) := by
  have hkeep : keep depFilter T t .resync = true := by simp [keep, passes, hf]
  unfold Settles
  rw [filter_append, filter_cons_of_pos hkeep, filter_nil, ← append_assoc]
  exact settle_resync_last ..

theorem shown_write {wr : Write t.Record} {c : Change t.Record} (hc : wr.change (T.store t) = some c) (k : String) :
    shown depFilter (T.apply (.table t wr)) t k =
      if t.key c.record = k then c.after.filter (fun v => passes depFilter T t (label t (some v)))
      else shown depFilter T t k := by
  unfold shown
  have hstore : (T.apply (.table t wr)).store t = wr.apply (T.store t) := store_set_self ..
  rw [hstore, get_write_of_change hc]
  split <;> rfl

theorem after_filter_of_keep {c : Change t.Record} (hk : keep depFilter T t (.event c) = true) :
    c.after.filter (fun v => passes depFilter T t (label t (some v))) = c.after := by
  cases c with
  | added v => exact Option.filter_some_pos hk
  | updated b v => exact Option.filter_some_pos hk
  | removed b => rfl

theorem after_filter_of_not_keep {c : Change t.Record} (hk : keep depFilter T t (.event c) = false) :
    c.after.filter (fun v => passes depFilter T t (label t (some v))) = none := by
  cases c with
  | added v => exact Option.filter_some_neg hk
  | updated b v => exact Option.filter_some_neg hk
  | removed b => rfl

section

variable {wr : Write t.Record} {c : Change t.Record} (hc : wr.change (T.store t) = some c)
  (hmove : ∀ v, wr = .put v → ∀ before ∈ (T.store t).get (t.key v),
    passes depFilter T t (label t (some before)) → passes depFilter T t (label t (some v)))

include hc hmove

theorem shown_of_not_keep (hk : keep depFilter T t (.event c) = false) :
    shown depFilter T t (t.key c.record) = none := by
  unfold shown
  rw [Option.filter_eq_none_iff]
  intro before hbefore
  cases wr with
  | put v =>
    have hrec : c.record = v := by
      simp only [Write.change, Option.some.injEq] at hc
      subst hc
      cases (T.store t).get (t.key v) <;> rfl
    intro hpass
    rw [hrec] at hbefore
    have hv := hmove v rfl before hbefore hpass
    rw [keep, Note.record, hrec] at hk
    exact absurd hv (Bool.eq_false_iff.mp hk)
  | drop key =>
    obtain ⟨b, hb, rfl⟩ := Option.map_eq_some_iff.mp hc
    have hkey : t.key b = key := Store.get_key hb
    rw [Change.record, hkey, hb] at hbefore
    cases hbefore
    exact Bool.eq_false_iff.mp hk

theorem settles_write (h : Settles depFilter T t k seen d u) :
    Settles depFilter (T.apply (.table t wr)) t k seen d (u ++ [.event c]) := by
  have hkeep : keep depFilter (T.apply (.table t wr)) t = keep depFilter T t := rfl
  unfold Settles at h ⊢
  rw [hkeep, filter_append, ← append_assoc, settle_append, shown_write hc]
  by_cases hk : t.key c.record = k
  · rw [if_pos hk]
    cases hn : keep depFilter T t (.event c) with
    | true =>
      rw [filter_cons_of_pos hn, after_filter_of_keep hn]
      simp only [filter_nil, settle, if_pos hk]
    | false =>
      have hnone := shown_of_not_keep hc hmove hn
      rw [hk] at hnone
      rw [hnone] at h
      rw [filter_cons_of_neg (Bool.eq_false_iff.mp hn), after_filter_of_not_keep hn]
      exact h
  · rw [if_neg hk, h]
    cases hn : keep depFilter T t (.event c) with
    | true =>
      rw [filter_cons_of_pos hn]
      simp only [filter_nil, settle, if_neg hk]
    | false =>
      rw [filter_cons_of_neg (Bool.eq_false_iff.mp hn)]
      rfl

end

theorem settles_write_closed {wr : Write t.Record} {c : Change t.Record} (k : String)
    (hc : wr.change (T.store t) = some c) :
    Settles depFilter (T.apply (.table t wr)) t k (shown depFilter (T.apply (.table t wr)) t k) [] [.event c] := by
  have hkeep : keep depFilter (T.apply (.table t wr)) t = keep depFilter T t := rfl
  unfold Settles
  rw [hkeep, nil_append]
  cases hn : keep depFilter T t (.event c) with
  | true =>
    rw [filter_cons_of_pos hn, shown_write hc, after_filter_of_keep hn]
    simp only [filter_nil, settle]
    split <;> rfl
  | false =>
    rw [filter_cons_of_neg (Bool.eq_false_iff.mp hn)]
    rfl

theorem settles_of_same {T' : Tables} (h : Settles depFilter T t k seen d u)
    (hshown : shown depFilter T' t k = shown depFilter T t k)
    (hkeep : ∀ n ∈ u, keep depFilter T' t n = keep depFilter T t n) : Settles depFilter T' t k seen d u := by
  unfold Settles at h ⊢
  rw [hshown, filter_congr hkeep]
  exact h

variable (h : Tracked depFilter w)

include h

theorem tracked_setStream {st : Stream t.Record} {merged : List ((t : EntityType) × Note (Change t.Record))}
    {pending : Option ((t : EntityType) × Change t.Record)}
    (hothers : ∀ u ≠ t, merged.filterMap (only u) = w.merged.filterMap (only u) ∧
      pendingNotes pending u = pendingNotes w.pending u)
    (hsub : ∀ x ∈ merged, x.1 = t ∨ (w.streams x.1).isSome = true)
    (hsettled : ∀ k, Settles depFilter w.tables t k (st.view k) (merged.filterMap (only t) ++ st.hand.decided)
      (st.hand.undecided ++ st.sub.notes ++ pendingNotes pending t))
    (hroomy : st.sub.Roomy) (hcalm : depFilter ≠ "" → st.sub.Calm)
    (hquiet : pending.isSome = true → w.pending.isSome = true ∧ st.sub.publishing = .idle) :
    Tracked depFilter { w.setStream t st with merged := merged, pending := pending } := by
  have hself : (w.setStream t st).streams t = some st := Function.update_self ..
  have hne : ∀ u, u ≠ t → (w.setStream t st).streams u = w.streams u := fun u hu => Function.update_of_ne hu ..
  have hcases : ∀ {P : (u : EntityType) → Stream u.Record → Prop}, P t st →
      (∀ u s, w.streams u = some s → P u s) → ∀ u s, (w.setStream t st).streams u = some s → P u s := by
    intro P ht hothers u s hs
    by_cases hu : u = t
    · subst hu
      rw [hself] at hs
      cases hs
      exact ht
    · rw [hne u hu] at hs
      exact hothers u s hs
  constructor
  · intro u k
    by_cases hu : u = t
    · subst hu
      simp only [World.base, World.decided, World.undecided, hself]
      exact hsettled k
    · have hold := h.settled u k
      simp only [World.base, World.decided, World.undecided, hne u hu, (hothers u hu).1, (hothers u hu).2] at hold ⊢
      exact hold
  · exact hcases hroomy h.roomy
  · exact fun hf => hcases (hcalm hf) (h.calm hf)
  · exact fun hp => hcases (hquiet hp).2 (h.quiet (hquiet hp).1)
  · intro x hx
    by_cases hxt : x.1 = t
    · dsimp only
      rw [hxt, hself]
      rfl
    · dsimp only
      rw [hne _ hxt]
      exact (hsub x hx).resolve_left hxt
  · exact h.reaches

theorem tracked_onStream {f : Stream t.Record → Stream t.Record} (hf : ∀ st, w.streams t = some st →
      (∀ k, Settles depFilter w.tables t k ((f st).view k) (w.merged.filterMap (only t) ++ (f st).hand.decided)
        ((f st).hand.undecided ++ (f st).sub.notes ++ pendingNotes w.pending t)) ∧
      (f st).sub.Roomy ∧ (depFilter ≠ "" → (f st).sub.Calm) ∧
      (w.pending.isSome = true → (f st).sub.publishing = .idle)) : Tracked depFilter (w.onStream t f) := by
  unfold World.onStream
  split
  · exact h
  · rename_i st hst
    obtain ⟨hsettled, hroomy, hcalm, hquiet⟩ := hf st hst
    exact tracked_setStream h (fun _ _ => ⟨rfl, rfl⟩) (fun x hx => Or.inr (h.subscribed x hx)) hsettled hroomy
      hcalm (fun hp => ⟨hp, hquiet hp⟩)

theorem Tracked.settled_open {st : Stream t.Record} (hst : w.streams t = some st) (k : String) :
    Settles depFilter w.tables t k (st.view k) (w.merged.filterMap (only t) ++ st.hand.decided)
      (st.hand.undecided ++ st.sub.notes ++ pendingNotes w.pending t) := by
  have hold := h.settled t k
  simp only [World.base, World.decided, World.undecided, hst] at hold
  exact hold

theorem tracked_advance
    (hc : Undisturbed depFilter w (.advance t)) : Tracked depFilter (step depFilter w (.advance t)) := by
  apply tracked_onStream h
  intro st hst
  have hroomy := h.roomy t st hst
  have hover : depFilter ≠ "" → st.sub.overflows = false := fun hf => hc.resolve_left hf st hst
  refine ⟨?_, hroomy.advance, fun hf => (h.calm hf t st hst).advance (hover hf), ?_⟩
  · intro k
    rcases Subscription.notes_advance hroomy with hsame | ⟨hloud, ns, hns⟩
    · simp only [Stream.advance, hsame]
      exact h.settled_open hst k
    · have hf : depFilter = "" := by
        by_contra hf
        rcases hloud with hloud | hloud
        · rw [hover hf] at hloud
          cases hloud
        · exact hloud (h.calm hf t st hst)
      have hpending : pendingNotes w.pending t = [] := by
        cases hp : w.pending with
        | none => simp [pendingNotes]
        | some x =>
          have hidle := h.quiet (by rw [hp]; rfl) t st hst
          rcases hloud with hloud | hloud
          · simp [Subscription.overflows, hidle] at hloud
          · simp [Subscription.Calm, hidle] at hloud
      simp only [Stream.advance, hns, hpending, append_nil]
      rw [← append_assoc]
      exact settles_resync _ _ _ _ _ _ hf
  · intro hp
    have hidle := h.quiet hp t st hst
    simp [Stream.advance, Subscription.advance, hidle]

theorem tracked_take : Tracked depFilter (step depFilter w (.take t)) := by
  apply tracked_onStream h
  intro st hst
  have hold := h.settled_open hst
  unfold Stream.take
  split
  · rename_i n rest hhand hqueue
    refine ⟨?_, (h.roomy t st hst).take, fun hf => h.calm hf t st hst, fun hp => h.quiet hp t st hst⟩
    intro k
    have hnotes : n :: st.sub.take.notes = st.sub.notes := by
      simp [Subscription.notes, Subscription.take, hqueue]
    have := hold k
    simp only [hhand, Hand.undecided, Hand.decided, nil_append, ← hnotes] at this
    exact this
  · exact ⟨hold, h.roomy t st hst, fun hf => h.calm hf t st hst, fun hp => h.quiet hp t st hst⟩

theorem tracked_judge : Tracked depFilter (step depFilter w (.judge t)) := by
  apply tracked_onStream h
  intro st hst
  have hold := h.settled_open hst
  unfold Stream.judge
  split
  · rename_i n hhand
    refine ⟨?_, h.roomy t st hst, fun hf => h.calm hf t st hst, fun hp => h.quiet hp t st hst⟩
    intro k
    have hk := hold k
    simp only [hhand, Hand.undecided, Hand.decided, append_nil] at hk
    cases hn : keep depFilter w.tables t n with
    | true => simpa [Hand.undecided, Hand.decided] using hk.judge_keep hn
    | false => simpa [Hand.undecided, Hand.decided] using hk.judge_drop hn
  · exact ⟨hold, h.roomy t st hst, fun hf => h.calm hf t st hst, fun hp => h.quiet hp t st hst⟩

theorem tracked_refetch : Tracked depFilter (step depFilter w (.refetch t)) := by
  apply tracked_onStream h
  intro st hst
  exact ⟨fun k => (h.settled_open hst k).refetch, h.roomy t st hst,
    fun hf => h.calm hf t st hst, fun hp => h.quiet hp t st hst⟩

end

end Jaco.Watch
