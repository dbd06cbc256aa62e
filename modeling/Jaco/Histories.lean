import Mathlib

namespace Jaco

structure History (S : Type) where
  past : List S
  now : S

namespace History

variable {S : Type}

def start (s : S) : History S := ⟨[], s⟩

def states (h : History S) : List S := h.now :: h.past

/-- What a reader `lag` changes behind sees; one that lags further than the history goes sees the current value. -/
def read (h : History S) (lag : Nat) : S := h.states.getD lag h.now

def push (h : History S) (s : S) : History S := ⟨h.now :: h.past, s⟩

@[simp] theorem states_start (s : S) : (start s).states = [s] := rfl

theorem now_mem (h : History S) : h.now ∈ h.states := List.mem_cons_self

theorem read_mem (h : History S) (lag : Nat) : h.read lag ∈ h.states := by
  unfold read
  rw [List.getD_eq_getElem?_getD]
  cases hs : h.states[lag]? with
  | none => exact h.now_mem
  | some s => exact List.mem_of_getElem? hs

end History

end Jaco
