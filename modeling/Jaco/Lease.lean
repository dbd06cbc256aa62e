import Mathlib

namespace Jaco.Lease

structure Record (ν : Type) where
  holder : Option ν
  deadline : Option Int

variable {ν : Type} [DecidableEq ν]

def free : Record ν := ⟨none, none⟩

def heldAgainst (r : Record ν) (n : ν) (ts : Int) : Bool := r.holder.any (· ≠ n) && r.deadline.any (ts < ·)

def acquire (r : Record ν) (n : ν) (ts deadline : Int) : Record ν :=
  if heldAgainst r n ts then r else ⟨some n, some deadline⟩

theorem heldAgainst_iff (r : Record ν) (n : ν) (ts : Int) :
    heldAgainst r n ts = true ↔ ∃ m d, r.holder = some m ∧ m ≠ n ∧ r.deadline = some d ∧ ts < d := by
  obtain ⟨holder, deadline⟩ := r
  cases holder <;> cases deadline <;> simp [heldAgainst]

variable (r : Record ν) (n : ν) (ts deadline : Int)

theorem acquire_of_held (h : heldAgainst r n ts = true) : acquire r n ts deadline = r := if_pos h

theorem acquire_of_not_held (h : heldAgainst r n ts = false) : acquire r n ts deadline = ⟨some n, some deadline⟩ := by
  rw [acquire, h]
  rfl

theorem expired_of_taken (r : Record ν) (m n : ν) (ts d : Int) (h : heldAgainst r n ts = false)
    (hm : r.holder = some m) (hd : r.deadline = some d) (hne : m ≠ n) : d ≤ ts := by
  by_contra hlt
  have hheld := (heldAgainst_iff r n ts).mpr ⟨m, d, hm, hne, hd, by omega⟩
  rw [h] at hheld
  cases hheld

end Jaco.Lease
