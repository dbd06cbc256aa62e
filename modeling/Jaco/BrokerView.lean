import Jaco.ChangeFeed
import Jaco.Runs

/-!
One store, its single writer, and a subscriber that fetches the store after subscribing, folds the changes it
receives and fetches again on a resync. A fetch comes some time after what asked for it.
-/

namespace Jaco.Watch

open Runs List

/-- A place in the queue; a dropped or discarded event leaves its place empty. -/
inductive Slot (α : Type) where
  | kept (n : Note α)
  | lost

section Slots

variable {α : Type}

def keptNotes (slots : List (Slot α)) : List (Note α) :=
  slots.filterMap (fun s => match s with | .kept n => some n | .lost => none)

def loseFirst : List (Slot α) → List (Slot α)
  | [] => []
  | .kept _ :: slots => .lost :: slots
  | .lost :: slots => .lost :: loseFirst slots

def takeFirst : List (Slot α) → List (Slot α)
  | [] => []
  | .kept _ :: slots => slots
  | .lost :: slots => takeFirst slots

def Followed (slots : List (Slot α)) : Prop :=
  ∀ pre post, slots = pre ++ .lost :: post → .kept .resync ∈ post

theorem keptNotes_append (l m : List (Slot α)) : keptNotes (l ++ m) = keptNotes l ++ keptNotes m :=
  filterMap_append

theorem keptNotes_loseFirst (l : List (Slot α)) : keptNotes (loseFirst l) = (keptNotes l).tail := by
  induction l with
  | nil => rfl
  | cons x l ih =>
    cases x with
    | kept n => rfl
    | lost => exact ih

theorem keptNotes_takeFirst (l : List (Slot α)) : keptNotes (takeFirst l) = (keptNotes l).tail := by
  induction l with
  | nil => rfl
  | cons x l ih =>
    cases x with
    | kept n => rfl
    | lost => exact ih

theorem takeFirst_suffix (l : List (Slot α)) : takeFirst l <:+ l := by
  induction l with
  | nil => exact suffix_refl []
  | cons x l ih =>
    cases x with
    | kept n => exact suffix_cons _ l
    | lost => exact ih.trans (suffix_cons _ l)

variable {l : List (Slot α)}

theorem followed_suffix {m : List (Slot α)} (h : Followed m) (hsuf : l <:+ m) : Followed l := by
  obtain ⟨t, rfl⟩ := hsuf
  intro pre post hl
  exact h (t ++ pre) post (by rw [hl, append_assoc])

theorem lost_before_kept {pre post : List (Slot α)} {n : Note α} (h : l ++ [.kept n] = pre ++ .lost :: post) :
    ∃ t, l = pre ++ .lost :: t ∧ post = t ++ [.kept n] := by
  rcases append_eq_append_iff.1 h with ⟨t, -, ht⟩ | ⟨t, hl, ht⟩
  · rcases append_eq_singleton_iff.1 ht.symm with ⟨-, hpost⟩ | ⟨-, hpost⟩
    · cases hpost
    · cases hpost
  · cases t with
    | nil => cases ht
    | cons x t =>
      obtain ⟨rfl, rfl⟩ := List.cons.inj ht
      exact ⟨t, hl, rfl⟩

theorem followed_resync_last (l : List (Slot α)) : Followed (l ++ [.kept .resync]) := by
  intro pre post h
  obtain ⟨t, -, rfl⟩ := lost_before_kept h
  exact mem_append_right t (mem_singleton_self _)

theorem followed_kept_last (h : Followed l) (n : Note α) : Followed (l ++ [.kept n]) := by
  intro pre post hl
  obtain ⟨t, hl', rfl⟩ := lost_before_kept hl
  exact mem_append_left _ (h pre t hl')

end Slots

structure Feed {α : Type} (keyFn : α → String) where
  store : Store α keyFn
  pending : Option (Change α) := none
  sub : Option (Subscription (Change α)) := none
  slots : List (Slot (Change α)) := []
  fetching : Bool := true
  view : String → Option α := fun _ => none

namespace Feed

variable {α : Type} {keyFn : α → String}

inductive Event (α : Type) where
  | write (w : Write α)
  | publish
  | advance
  | subscribe (buffer : Int)
  | receive
  | fetch

def start (s : Store α keyFn) : Feed keyFn := { store := s }

def writing (f : Feed keyFn) : Bool :=
  f.pending.isSome || f.sub.any (fun sub => match sub.publishing with | .idle => false | _ => true)

def moveSlots (sub : Subscription (Change α)) (slots : List (Slot (Change α))) : List (Slot (Change α)) :=
  match sub.publishing with
  | .idle => slots
  | .offer a => if sub.queue.length < sub.buffer then slots ++ [.kept (.event a)] else slots ++ [.lost]
  | .drop => loseFirst slots
  | .resync => if sub.queue.length < sub.buffer then slots ++ [.kept .resync] else slots

def receive (f : Feed keyFn) (sub : Subscription (Change α)) : Feed keyFn :=
  match sub.queue with
  | [] => f
  | n :: _ =>
    let f := { f with sub := some sub.take, slots := takeFirst f.slots }
    match n with
    | .event c => { f with view := c.fold keyFn f.view }
    | .resync => { f with fetching := true }

def step (f : Feed keyFn) : Event α → Feed keyFn
  | .write w => if f.writing then f else { f with store := w.apply f.store, pending := w.change f.store }
  | .publish =>
    match f.pending with
    | none => f
    | some c => { f with pending := none, sub := f.sub.map (·.publish c) }
  | .advance =>
    match f.sub with
    | none => f
    | some sub => { f with sub := some sub.advance, slots := moveSlots sub f.slots }
  | .subscribe buffer =>
    match f.sub with
    | none => { f with sub := some { buffer := newBroker buffer } }
    | some _ => f
  | .receive =>
    match f.sub with
    | none => f
    | some sub => if f.fetching then f else f.receive sub
  | .fetch => if f.sub.isSome && f.fetching then { f with view := f.store.get, fetching := false } else f

/-- What the subscriber has yet to take in, with the fetch it owes first. -/
def ahead (f : Feed keyFn) (sub : Subscription (Change α)) : List (Note (Change α)) :=
  (if f.fetching then [.resync] else []) ++ sub.notes ++ (f.pending.map Note.event).toList

structure Good (f : Feed keyFn) : Prop where
  unsubscribed : f.sub = none → f.slots = [] ∧ f.fetching = true
  roomy : ∀ sub, f.sub = some sub → sub.Roomy
  queue : ∀ sub, f.sub = some sub → keptNotes f.slots = sub.queue
  followed : ∀ sub, f.sub = some sub → sub.Calm → Followed f.slots
  single : ∀ sub, f.sub = some sub → f.pending.isSome → sub.publishing = .idle
  settles : ∀ sub, f.sub = some sub → ∀ k, settle keyFn k (f.store.get k) (f.view k) (f.ahead sub) = f.store.get k
  pending : ∀ c, f.pending = some c → f.store.get (keyFn c.record) = c.after

theorem settle_written {s : Store α keyFn} {w : Write α} (k : String) (seen : Option α) (ns : List (Note (Change α)))
    (h : settle keyFn k (s.get k) seen ns = s.get k) :
    settle keyFn k ((w.apply s).get k) seen (ns ++ ((w.change s).map Note.event).toList) = (w.apply s).get k := by
  cases hc : w.change s with
  | none =>
    rw [get_write_of_no_change hc]
    simpa using h
  | some c =>
    rw [get_write_of_change hc, settle_append]
    simp only [Option.map_some, Option.toList_some, settle]
    by_cases hk : keyFn c.record = k
    · simp only [if_pos hk]
    · simp only [if_neg hk]
      exact h

theorem good_start (s : Store α keyFn) : (start s).Good :=
  ⟨fun _ => ⟨rfl, rfl⟩, nofun, nofun, nofun, nofun, nofun, nofun⟩

variable {f : Feed keyFn} {sub : Subscription (Change α)}

theorem idle_of_not_writing (h : f.writing = false) :
    f.pending = none ∧ ∀ sub, f.sub = some sub → sub.publishing = .idle := by
  simp only [writing, Bool.or_eq_false_iff, Option.isSome_eq_false_iff, Option.isNone_iff_eq_none] at h
  refine ⟨h.1, fun sub hsub => ?_⟩
  have hidle := h.2
  rw [hsub, Option.any_some] at hidle
  cases hp : sub.publishing with
  | idle => rfl
  | offer a => simp [hp] at hidle
  | drop => simp [hp] at hidle
  | resync => simp [hp] at hidle

theorem good_write (h : f.Good) (w : Write α) : (f.step (.write w)).Good := by
  simp only [step]
  split
  · exact h
  · rename_i hfree
    obtain ⟨hnone, hidle⟩ := idle_of_not_writing (Bool.eq_false_of_not_eq_true hfree)
    refine ⟨h.unsubscribed, h.roomy, h.queue, h.followed, fun sub hsub _ => hidle sub hsub, fun sub hsub k => ?_,
      fun c hc => ?_⟩
    · have hold := h.settles sub hsub k
      rw [ahead, hnone, Option.map_none, Option.toList_none, append_nil] at hold
      exact settle_written k (f.view k) _ hold
    · exact (get_write_of_change hc _).trans (if_pos rfl)

theorem good_publish (h : f.Good) : (f.step .publish).Good := by
  simp only [step]
  split
  · exact h
  · rename_i c hc
    cases hsub : f.sub with
    | none =>
      obtain ⟨hslots, hfetching⟩ := h.unsubscribed hsub
      exact ⟨fun _ => ⟨hslots, hfetching⟩, nofun, nofun, nofun, nofun, nofun, nofun⟩
    | some sub =>
      have hidle : sub.publishing = .idle := h.single sub hsub (by rw [hc]; rfl)
      have hcalm : sub.Calm := ⟨by rw [hidle]; nofun, by rw [hidle]; nofun⟩
      refine ⟨nofun, ?_, ?_, ?_, ?_, ?_, nofun⟩
      · rintro _ ⟨rfl⟩
        exact (h.roomy sub hsub).publish c
      · rintro _ ⟨rfl⟩
        exact h.queue sub hsub
      · rintro _ ⟨rfl⟩ _
        exact h.followed sub hsub hcalm
      · rintro _ ⟨rfl⟩ hsome
        cases hsome
      · rintro _ ⟨rfl⟩ k
        have hold := h.settles sub hsub k
        simpa [ahead, hc, hidle, Subscription.notes, Subscription.publish] using hold

theorem good_subscribe (h : f.Good) (buffer : Int) : (f.step (.subscribe buffer)).Good := by
  simp only [step]
  split
  · rename_i hsub
    obtain ⟨hslots, hfetching⟩ := h.unsubscribed hsub
    have hpos : 0 < newBroker buffer := by
      unfold newBroker
      split
      · decide
      · omega
    refine ⟨nofun, ?_, ?_, ?_, ?_, ?_, h.pending⟩
    · rintro _ ⟨rfl⟩
      exact ⟨hpos, Nat.zero_le _, nofun⟩
    · rintro _ ⟨rfl⟩
      exact congrArg keptNotes hslots
    · rintro _ ⟨rfl⟩ _
      rw [hslots]
      exact fun pre post hnil => absurd hnil (by simp)
    · rintro _ ⟨rfl⟩ _
      rfl
    · rintro _ ⟨rfl⟩ k
      simp only [ahead, hfetching, if_true, Subscription.notes, append_nil, singleton_append, settle]
      cases hc : f.pending with
      | none => rfl
      | some c =>
        simp only [Option.map_some, Option.toList_some, settle]
        split
        · rename_i hk
          rw [← hk]
          exact (h.pending c hc).symm
        · rfl
  · exact h

theorem keptNotes_moveSlots {slots : List (Slot (Change α))}
    (h : keptNotes slots = sub.queue) : keptNotes (moveSlots sub slots) = sub.advance.queue := by
  unfold moveSlots Subscription.advance
  cases sub.publishing with
  | idle => exact h
  | offer a =>
    dsimp only
    split
    · rw [keptNotes_append, h]
      rfl
    · rw [keptNotes_append, h]
      exact append_nil _
  | drop => exact (keptNotes_loseFirst slots).trans (congrArg List.tail h)
  | resync =>
    dsimp only
    split
    · rw [keptNotes_append, h]
      rfl
    · exact h

theorem followed_moveSlots {slots : List (Slot (Change α))} (hroomy : sub.Roomy)
    (h : sub.Calm → Followed slots) (hcalm : sub.advance.Calm) : Followed (moveSlots sub slots) := by
  unfold Subscription.advance at hcalm
  unfold moveSlots
  cases hp : sub.publishing with
  | idle => exact h ⟨by rw [hp]; nofun, by rw [hp]; nofun⟩
  | offer a =>
    simp only [hp] at hcalm
    dsimp only
    split at hcalm
    · rename_i hroom
      rw [if_pos hroom]
      exact followed_kept_last (h ⟨by rw [hp]; nofun, by rw [hp]; nofun⟩) _
    · exact absurd rfl hcalm.1
  | drop =>
    simp only [hp] at hcalm
    exact absurd rfl hcalm.2
  | resync =>
    dsimp only
    rw [if_pos (hroomy.room hp)]
    exact followed_resync_last slots

theorem settle_advanced (h : f.Good) (hsub : f.sub = some sub) (k : String) : settle keyFn k (f.store.get k) (f.view k)
      ((if f.fetching then [.resync] else []) ++ sub.advance.notes ++ (f.pending.map Note.event).toList) =
        f.store.get k := by
  rcases Subscription.notes_advance (h.roomy sub hsub) with hsame | ⟨hover, ns, hns⟩
  · rw [hsame]
    exact h.settles sub hsub k
  · have hnone : f.pending = none := by
      rw [← Option.not_isSome_iff_eq_none]
      intro hsome
      have hidle := h.single sub hsub hsome
      rcases hover with hover | hcalm
      · simp [Subscription.overflows, hidle] at hover
      · exact hcalm ⟨by simp [hidle], by simp [hidle]⟩
    rw [hns, hnone, Option.map_none, Option.toList_none, append_nil, ← append_assoc]
    exact settle_resync_last k _ _ _

theorem good_advance (h : f.Good) : (f.step .advance).Good := by
  simp only [step]
  split
  · exact h
  · rename_i sub hsub
    refine ⟨nofun, ?_, ?_, ?_, ?_, ?_, h.pending⟩
    · rintro _ ⟨rfl⟩
      exact (h.roomy sub hsub).advance
    · rintro _ ⟨rfl⟩
      exact keptNotes_moveSlots (h.queue sub hsub)
    · rintro _ ⟨rfl⟩ hcalm
      exact followed_moveSlots (h.roomy sub hsub) (h.followed sub hsub) hcalm
    · rintro _ ⟨rfl⟩ hsome
      have hidle := h.single sub hsub hsome
      rw [Subscription.advance, hidle]
      exact hidle
    · rintro _ ⟨rfl⟩ k
      exact settle_advanced h hsub k

theorem good_receive (h : f.Good) : (f.step .receive).Good := by
  simp only [step]
  split
  · exact h
  · rename_i sub hsub
    split
    · exact h
    · rename_i hfetched
      unfold receive
      cases hq : sub.queue with
      | nil => exact h
      | cons n queue =>
        have hsettle := h.settles sub hsub
        have hkept : keptNotes (takeFirst f.slots) = sub.take.queue := by
          rw [keptNotes_takeFirst, h.queue sub hsub]
          rfl
        have hfollowed : sub.take.Calm → Followed (takeFirst f.slots) := fun hcalm =>
          followed_suffix (h.followed sub hsub hcalm) (takeFirst_suffix f.slots)
        refine ⟨by cases n <;> simp, ?_, ?_, ?_, ?_, ?_, by cases n <;> exact h.pending⟩
        · rintro _ hs
          cases n <;> cases hs <;> exact (h.roomy sub hsub).take
        · rintro _ hs
          cases n <;> cases hs <;> exact hkept
        · rintro _ hs
          cases n <;> cases hs <;> exact hfollowed
        · rintro _ hs
          cases n <;> cases hs <;> exact h.single sub hsub
        · rintro _ hs k
          cases n <;> cases hs <;> simpa [ahead, hfetched, Subscription.notes, Subscription.take, hq, settle,
            Change.fold_apply] using hsettle k

theorem good_fetch (h : f.Good) : (f.step .fetch).Good := by
  simp only [step]
  split
  · rename_i hfetch
    rw [Bool.and_eq_true] at hfetch
    refine ⟨fun hnone => ?_, h.roomy, h.queue, h.followed, h.single, fun sub hsub k => ?_, h.pending⟩
    · rw [hnone] at hfetch
      cases hfetch.1
    · have hold := h.settles sub hsub k
      simpa [ahead, hfetch.2, settle] using hold
  · exact h

theorem good_step (h : f.Good) (e : Event α) : (f.step e).Good := by
  cases e with
  | write w => exact good_write h w
  | publish => exact good_publish h
  | advance => exact good_advance h
  | subscribe buffer => exact good_subscribe h buffer
  | receive => exact good_receive h
  | fetch => exact good_fetch h

theorem good_run (s : Store α keyFn) (es : List (Event α)) : (run step (start s) es).Good :=
  (along_of_invariant step Good (fun _ _ => True) (fun _ _ => True) (fun _ e h _ => ⟨good_step h e, trivial⟩)
    (start s) es (good_start s) ((along_iff_split step _ _ es).2 (fun _ _ _ _ => trivial))).1

theorem view_follows_store (s : Store α keyFn) (es : List (Event α)) (sub : Subscription (Change α)) :
    let f := run step (start s) es
    f.sub = some sub →
      keptNotes f.slots = sub.queue ∧
        (sub.Calm → Followed f.slots) ∧
          (f.writing = false → f.fetching = false → sub.queue = [] → f.view = f.store.get) := by
  intro f hsub
  have h : f.Good := good_run s es
  refine ⟨h.queue sub hsub, h.followed sub hsub, fun hwriting hfetched hempty => ?_⟩
  obtain ⟨hnone, hidle⟩ := idle_of_not_writing hwriting
  funext k
  have hsettle := h.settles sub hsub k
  simpa [ahead, hfetched, hnone, Subscription.notes, hempty, hidle sub hsub, settle] using hsettle

def overflow : List (Event (String × Nat)) :=
  [.subscribe 1, .fetch, .write (.put ("a", 1)), .publish, .advance, .write (.put ("b", 1)), .publish, .advance,
    .advance, .write (.drop "a"), .advance, .receive, .write (.put ("b", 2)), .fetch, .publish, .advance, .receive]

theorem overflow_heals : let f := run step (start (Store.empty : Store (String × Nat) Prod.fst)) overflow
    f.sub = some { buffer := 1 } ∧ f.view = f.store.get := by
  have hsub : (run step (start (Store.empty : Store (String × Nat) Prod.fst)) overflow).sub = some { buffer := 1 } := by
    decide +kernel
  exact ⟨hsub, (view_follows_store Store.empty overflow _ hsub).2.2 (by decide +kernel) (by decide +kernel) rfl⟩

end Feed

end Jaco.Watch
