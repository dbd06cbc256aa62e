import Jaco.Broker
import Jaco.KeyedStore

/-!
Changes of a keyed store, and the view a reader keeps by folding them. A reader may also fetch the store anew, and
does so on a resync; `settle` is what one key of its view comes to if it fetched at once wherever it has to.
-/

namespace Jaco.Watch

inductive Write (α : Type) where
  | put (v : α)
  | drop (key : String)

inductive Change (α : Type) where
  | added (after : α)
  | updated (before after : α)
  | removed (before : α)
  deriving DecidableEq

variable {α : Type} {keyFn : α → String}

def Write.key (keyFn : α → String) : Write α → String
  | .put v => keyFn v
  | .drop key => key

def Write.value : Write α → Option α
  | .put v => some v
  | .drop _ => none

def Write.apply (s : Store α keyFn) : Write α → Store α keyFn
  | .put v => s.apply v
  | .drop key => s.remove key

def Write.change (s : Store α keyFn) : Write α → Option (Change α)
  | .put v => some (match s.get (keyFn v) with
      | none => .added v
      | some before => .updated before v)
  | .drop key => (s.get key).map .removed

def Change.record : Change α → α
  | .added after => after
  | .updated _ after => after
  | .removed before => before

def Note.record : Note (Change α) → Option α
  | .event c => some c.record
  | .resync => none

def Change.after : Change α → Option α
  | .added after => some after
  | .updated _ after => some after
  | .removed _ => none

def Change.fold (keyFn : α → String) (c : Change α) (view : String → Option α) : String → Option α :=
  Function.update view (keyFn c.record) c.after

def settle (keyFn : α → String) (k : String) (now : Option α) (seen : Option α) :
    List (Note (Change α)) → Option α
  | [] => seen
  | .resync :: ns => settle keyFn k now now ns
  | .event c :: ns => settle keyFn k now (if keyFn c.record = k then c.after else seen) ns

theorem Change.fold_apply (c : Change α) (view : String → Option α) (k : String) :
    c.fold keyFn view k = if keyFn c.record = k then c.after else view k := by
  unfold Change.fold
  rw [Function.update_apply]
  exact if_congr eq_comm rfl rfl

theorem settle_append (k : String) (now seen : Option α) (ns ms : List (Note (Change α))) :
    settle keyFn k now seen (ns ++ ms) = settle keyFn k now (settle keyFn k now seen ns) ms := by
  induction ns generalizing seen with
  | nil => rfl
  | cons n ns ih =>
    cases n with
    | event c => exact ih _
    | resync => exact ih _

theorem settle_resync_last (k : String) (now seen : Option α) (ns : List (Note (Change α))) :
    settle keyFn k now seen (ns ++ [.resync]) = now := by
  rw [settle_append]
  rfl

variable (keyFn) in
theorem settle_const_or_id (k : String) (now : Option α) (ns : List (Note (Change α))) :
    (∀ seen, settle keyFn k now seen ns = seen) ∨
      ∀ seen seen', settle keyFn k now seen ns = settle keyFn k now seen' ns := by
  induction ns with
  | nil => exact .inl (fun _ => rfl)
  | cons n ns ih =>
    cases n with
    | resync => exact .inr (fun _ _ => rfl)
    | event c =>
      by_cases hk : keyFn c.record = k
      · exact .inr (fun _ _ => by simp only [settle, if_pos hk])
      · simp only [settle, if_neg hk]
        exact ih

theorem settle_refetched {k : String} {now seen : Option α} {ns : List (Note (Change α))}
    (h : settle keyFn k now seen ns = now) : settle keyFn k now now ns = now := by
  rcases settle_const_or_id keyFn k now ns with hid | hconst
  · exact hid now
  · exact (hconst now seen).trans h

theorem get_write (s : Store α keyFn) (w : Write α) (k : String) :
    (w.apply s).get k = if w.key keyFn = k then w.value else s.get k := by
  cases w with
  | put v => exact s.get_apply v k
  | drop key => exact s.get_remove key k

variable {s : Store α keyFn} {w : Write α}

theorem key_of_change {c : Change α} (h : w.change s = some c) : keyFn c.record = w.key keyFn := by
  cases w with
  | put v =>
    simp only [Write.change, Option.some.injEq] at h
    subst h
    split <;> rfl
  | drop key =>
    obtain ⟨before, hb, rfl⟩ := Option.map_eq_some_iff.mp h
    exact Store.get_key hb

theorem get_write_of_change {c : Change α} (h : w.change s = some c) (k : String) :
    (w.apply s).get k = if keyFn c.record = k then c.after else s.get k := by
  rw [get_write, key_of_change h]
  cases w with
  | put v =>
    simp only [Write.change, Option.some.injEq] at h
    subst h
    refine if_congr Iff.rfl ?_ rfl
    cases s.get (keyFn v) <;> rfl
  | drop key =>
    obtain ⟨before, hb, rfl⟩ := Option.map_eq_some_iff.mp h
    rfl

theorem get_write_of_no_change (h : w.change s = none) (k : String) : (w.apply s).get k = s.get k := by
  cases w with
  | put v => cases h
  | drop key =>
    have hnone : s.get key = none := by simpa [Write.change] using h
    rw [get_write]
    split
    · rename_i hk
      rw [← hk]
      exact hnone.symm
    · rfl

end Jaco.Watch
