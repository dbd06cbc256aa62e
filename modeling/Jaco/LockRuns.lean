import Jaco.CertLease
import Jaco.Runs

namespace Jaco.CertLease

open Lease Runs

inductive Phase where
  | submitted | applied | refused | held | overtaken | released
  deriving DecidableEq

structure Call where
  node : String
  phase : Phase
  deriving DecidableEq

inductive Submission where
  | lock (call : Nat) (node : String) (ts : Timestamp)
  | renew (node : String) (ts : Timestamp)
  | unlock (node : String) (ts : Timestamp)

/-- The lock calls of all nodes on one name, the raft entries still under way and the replicated state. `leases` is
the deadline of the lease each node was last granted. -/
structure World where
  fsm : State
  now : Timestamp
  calls : List Call
  flight : List Submission
  renewers : List String
  leases : String → Option Timestamp

inductive Event where
  | advance (d : Nat)
  | lock (node : String)
  | commit (i idx : Nat)
  | lose (i : Nat)
  | giveUp (call : Nat)
  | finish (call : Nat) (seen : State)
  | unlock (call : Nat)
  | renew (node : String)
  | other (idx : Nat) (e : Entry)

def movePhase (calls : List Call) (i : Nat) (old new : Phase) : List Call :=
  calls.modify i (fun c => if c.phase = old then { c with phase := new } else c)

variable (name : String)

def Submission.entry : Submission → Entry
  | .lock _ node ts | .renew node ts => lockEntry name node ts
  | .unlock _ ts => unlockEntry name ts

def Submission.node : Submission → String
  | .lock _ node _ | .renew node _ | .unlock node _ => node

def Submission.ts : Submission → Timestamp
  | .lock _ _ ts | .renew _ ts | .unlock _ ts => ts

def Submission.isUnlock : Submission → Bool
  | .unlock _ _ => true
  | _ => false

def World.granted (w : World) (sub : Submission) : String → Option Timestamp :=
  if sub.isUnlock = false ∧ grants w.fsm name sub.node sub.ts = true then
    Function.update w.leases sub.node (some (sub.ts + lockTTL))
  else w.leases

def World.commit (w : World) (i idx : Nat) (sub : Submission) : World :=
  { w with
    fsm := applyEntry idx w.fsm (sub.entry name)
    flight := w.flight.eraseIdx i
    leases := w.granted name sub
    calls := match sub with
      | .lock call _ _ => movePhase w.calls call .submitted .applied
      | _ => w.calls }

def World.finish (w : World) (call : Nat) (c : Call) (seen : State) : World :=
  if lockResult seen name c.node none = .acquired then
    { w with calls := movePhase w.calls call .applied .held, renewers := c.node :: w.renewers }
  else { w with calls := movePhase w.calls call .applied .refused }

def World.unlock (w : World) (call : Nat) (c : Call) : World :=
  { w with
    calls := movePhase (w.calls.map (fun d =>
      if d.node = c.node ∧ d.phase = .held then { d with phase := .overtaken } else d)) call .overtaken .released
    renewers := w.renewers.filter (· ≠ c.node)
    flight := .unlock c.node w.now :: w.flight }

def step (w : World) : Event → World
  | .advance d => { w with now := w.now + d }
  | .lock node => { w with
      calls := w.calls ++ [⟨node, .submitted⟩]
      flight := .lock w.calls.length node w.now :: w.flight }
  | .commit i idx =>
    match w.flight[i]? with
    | none => w
    | some sub => w.commit name i idx sub
  | .lose i => { w with flight := w.flight.eraseIdx i }
  | .giveUp call => { w with calls := movePhase w.calls call .submitted .refused }
  | .finish call seen =>
    match w.calls[call]? with
    | some c => if c.phase = .applied then w.finish name call c seen else w
    | none => w
  | .unlock call =>
    match w.calls[call]? with
    | some c => if c.phase = .held ∨ c.phase = .overtaken then w.unlock call c else w
    | none => w
  | .renew node => if node ∈ w.renewers then { w with flight := .renew node w.now :: w.flight } else w
  | .other idx e => { w with fsm := applyEntry idx w.fsm e }

def World.alive (w : World) (node : String) : Prop := ∃ d, w.leases node = some d ∧ w.now < d

def World.Holds (w : World) (c : Call) : Prop := (c.phase = .held ∨ c.phase = .overtaken) ∧ w.alive c.node

def World.CallExclusion (w : World) : Prop :=
  ∀ (i j : Nat) (c d : Call), w.calls[i]? = some c → w.calls[j]? = some d → w.Holds c → w.Holds d → i = j

def World.NodeHolds (w : World) (c : Call) : Prop := c.phase = .held ∧ w.alive c.node

def World.NodeExclusion (w : World) : Prop :=
  ∀ c ∈ w.calls, ∀ d ∈ w.calls, w.NodeHolds c → w.NodeHolds d → c.node = d.node

def start (s : State) (now : Timestamp) : World where
  fsm := s
  now := now
  calls := []
  flight := []
  renewers := []
  leases := fun n => if (recordOf s name).holder = some n then (recordOf s name).deadline else none

variable (calls : List Call) (i : Nat) (old new : Phase) (c : Call)

theorem mem_movePhase (h : c ∈ movePhase calls i old new) :
    c ∈ calls ∨ ∃ d, calls[i]? = some d ∧ d.phase = old ∧ c = { d with phase := new } := by
  obtain ⟨j, hj⟩ := List.mem_iff_getElem?.mp h
  rw [movePhase, List.getElem?_modify] at hj
  by_cases hij : i = j
  · subst hij
    cases hd : calls[i]? with
    | none => simp [hd] at hj
    | some d =>
      simp only [hd, ↓reduceIte, Option.map_eq_map, Option.map_some, Option.some.injEq] at hj
      by_cases hp : d.phase = old
      · rw [if_pos hp] at hj
        exact .inr ⟨d, rfl, hp, hj.symm⟩
      · rw [if_neg hp] at hj
        exact .inl (hj ▸ List.mem_of_getElem? hd)
  · simp only [hij, ↓reduceIte, Option.map_eq_map] at hj
    exact .inl (List.mem_of_getElem? (by simpa using hj))

theorem mem_movePhase_held (hnew : new ≠ .held)
    (h : c ∈ movePhase calls i old new) (hc : c.phase = .held) : c ∈ calls := by
  rcases mem_movePhase calls i old new c h with h | ⟨d, -, -, rfl⟩
  · exact h
  · exact absurd hc hnew

theorem node_of_mem_movePhase (h : c ∈ movePhase calls i old new) : ∃ d ∈ calls, d.node = c.node := by
  rcases mem_movePhase calls i old new c h with h | ⟨d, hd, -, rfl⟩
  · exact ⟨c, h, rfl⟩
  · exact ⟨d, List.mem_of_getElem? hd, rfl⟩

end Jaco.CertLease
