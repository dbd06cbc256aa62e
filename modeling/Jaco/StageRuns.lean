import Jaco.StageFirst
import Jaco.Runs

namespace Jaco.StageFirst

open Runs Function

theorem prodBackoff_shifts : ∀ s < 64, (if (BitVec.ofInt 64 prodBackoffBase <<< s).toInt ≤ 0 ∨
        prodBackoffMax < (BitVec.ofInt 64 prodBackoffBase <<< s).toInt then prodBackoffMax
      else (BitVec.ofInt 64 prodBackoffBase <<< s).toInt) = min (prodBackoffBase * 2 ^ s) prodBackoffMax := by
  decide +kernel

theorem prodBackoffFor_eq (k : Int) (hk : 1 ≤ k) :
    prodBackoffFor k = min (prodBackoffBase * 2 ^ (k - 1).toNat) prodBackoffMax := by
  rw [prodBackoffFor, if_neg (by omega)]
  dsimp only
  by_cases hs : (k - 1).toNat < 64
  · exact prodBackoff_shifts _ hs
  · -- every bit is shifted out, and the guard takes the zero to the ceiling
    rw [BitVec.shiftLeft_eq_zero (not_lt.1 hs), if_pos (.inl (by decide)), min_eq_right]
    have hpow : (4 : Int) ≤ 2 ^ (k - 1).toNat := calc (4 : Int) = 2 ^ 2 := by norm_num
        _ ≤ 2 ^ (k - 1).toNat := pow_le_pow_right₀ (by norm_num) (by omega)
    calc prodBackoffMax = prodBackoffBase * 4 := by decide
      _ ≤ prodBackoffBase * 2 ^ (k - 1).toNat := mul_le_mul_of_nonneg_left hpow (by decide)

structure Slot where
  staging : Bool
  backoff : Option Timestamp
  prodFails : Nat
  prodBackoff : Option Timestamp
  pendingProd : Option Timestamp

def Controller.slot (c : Controller) (domain : String) : Slot :=
  ⟨domain ∈ c.staging, c.backoff domain, c.prodFails domain, c.prodBackoff domain, c.pendingProd domain⟩

def Slot.converge (s : Slot) : Slot := { s with pendingProd := none, prodFails := 0, prodBackoff := none }

inductive Decided (domain : String) (now : Timestamp) (s : Slot) : List Note → Slot → Prop where
  | declined (issued : Bool) : Decided domain now s [.asked domain issued] s
  | held (hpast : ∀ till ∈ s.prodBackoff, till ≤ now) :
      Decided domain now s [.asked domain false] { s with prodBackoff := none }
  | staged (hpast : ∀ till ∈ s.prodBackoff, till ≤ now) :
      Decided domain now s [.asked domain false, .staged domain]
        { s with staging := true, prodBackoff := none, backoff := none }

inductive Turn (domain : String) (now : Timestamp) (s : Slot) : List Note → Slot → Prop where
  | converged (h : s.staging = true) :
      Turn domain now s [.asked domain true, .prodIssued domain] { s.converge with staging := false }
  | waiting (h : s.staging = true ∨ s.pendingProd ≠ none) : Turn domain now s [.asked domain false] s
  | stageFailed (h : s.staging = true) (err : String) :
      Turn domain now s [.asked domain false, .stageFailed domain err]
        { s with staging := false, backoff := some (now + backoffWindow) }
  | promoted (h : s.staging = true) :
      Turn domain now s [.asked domain false, .cleared domain, .promoted domain]
        { s with staging := false, pendingProd := some (now + pendingProdWindow) }
  | expired (h : s.staging = false) (till : Timestamp) (hp : s.pendingProd = some till) (hpast : till ≤ now) :
      Turn domain now s [.asked domain false, .prodFailed domain (prodBackoffFor ↑(s.prodFails + 1))]
        { s with
          pendingProd := none
          prodFails := s.prodFails + 1
          prodBackoff := some (now + prodBackoffFor ↑(s.prodFails + 1)) }
  | landed (h : s.staging = false) (hp : s.pendingProd ≠ none) {notes : List Note} {s' : Slot}
      (hd : Decided domain now s.converge notes s') :
      Turn domain now s ([.asked domain true, .prodIssued domain] ++ notes) s'
  | fresh (h : s.staging = false) (hp : s.pendingProd = none) {notes : List Note} {s' : Slot}
      (hd : Decided domain now s notes s') : Turn domain now s notes s'

section Visit

variable (now : Timestamp) (a : Answers) (domain : String) (c : Controller)

theorem slot_converge : (c.converge domain).slot domain = (c.slot domain).converge := by
  simp only [Controller.slot, Controller.converge, Slot.converge, update_self]
  rfl

theorem slot_converge_other {other : String} (h : other ≠ domain) : (c.converge domain).slot other = c.slot other := by
  simp only [Controller.slot, Controller.converge, update_of_ne h]
  rfl

theorem stageNew_decided :
    Decided domain now (c.slot domain) (c.stageNew now a domain).notes
    ((c.stageNew now a domain).controller.slot domain) := by
  simp only [Controller.stageNew]
  split
  · exact .declined _
  · rename_i hstage
    have hissued : a.issuedAgain = false := by
      by_contra hissued
      rw [Bool.not_eq_false] at hissued
      rw [shouldStage_issued hissued] at hstage
      exact hstage rfl
    rw [hissued]
    split
    · exact .declined _
    · rename_i hprod
      have hpast : ∀ till ∈ (c.slot domain).prodBackoff, till ≤ now := by
        intro till htill
        change c.prodBackoff domain = some till at htill
        rw [htill] at hprod
        simpa using hprod
      split
      · have hdecided : Decided domain now _ _ _ := .held hpast
        simpa [Controller.slot] using hdecided
      · have hdecided : Decided domain now _ _ _ := .staged hpast
        simpa [Controller.slot] using hdecided

theorem stageNew_other {other : String} (h : other ≠ domain) :
    (c.stageNew now a domain).controller.slot other = c.slot other := by
  simp only [Controller.stageNew]
  split
  · rfl
  · split
    · rfl
    · split
      · simp only [Controller.slot, update_of_ne h]
      · simp only [Controller.slot, update_of_ne h, Finset.mem_insert, h, false_or]

theorem checkStaged_turn (hs : domain ∈ c.staging) :
    Turn domain now (c.slot domain) (c.checkStaged now a domain).notes
      ((c.checkStaged now a domain).controller.slot domain) := by
  have hstaging : (c.slot domain).staging = true := decide_eq_true hs
  simp only [Controller.checkStaged]
  split
  · have hturn : Turn domain now _ _ _ := .converged hstaging
    rw [slot_converge]
    simpa [Controller.slot, Slot.converge] using hturn
  · split
    · exact .waiting (.inl hstaging)
    · split
      · rename_i err herr
        have hturn : Turn domain now _ _ _ := .stageFailed hstaging err
        simpa [Controller.slot] using hturn
      · have hturn : Turn domain now _ _ _ := .promoted hstaging
        simpa [Controller.slot] using hturn

theorem checkStaged_other {other : String} (h : other ≠ domain) :
    (c.checkStaged now a domain).controller.slot other = c.slot other := by
  have hmem : decide (other ∈ c.staging.erase domain) = decide (other ∈ c.staging) := by simp [h]
  simp only [Controller.checkStaged]
  split
  · rw [slot_converge_other domain _ h, Controller.slot, hmem]
    rfl
  · split
    · rfl
    · split
      · simp only [Controller.slot, update_of_ne h, hmem]
      · simp only [Controller.slot, update_of_ne h, hmem]

theorem visit_turn : Turn domain now (c.slot domain) (c.visit now a domain).notes
    ((c.visit now a domain).controller.slot domain) := by
  rw [Controller.visit]
  split
  · rename_i hs
    exact checkStaged_turn now a domain c hs
  · rename_i hs
    have hstaging : (c.slot domain).staging = false := decide_eq_false hs
    split
    · rename_i hp
      exact .fresh hstaging hp (stageNew_decided now a domain c)
    · rename_i till hp
      have hpending : (c.slot domain).pendingProd = some till := hp
      have hwaits : (c.slot domain).pendingProd ≠ none := hpending ▸ Option.some_ne_none till
      split
      · have hdecided := stageNew_decided now a domain (c.converge domain)
        rw [slot_converge] at hdecided
        rw [Pass.andThen_notes, Pass.andThen_controller]
        exact .landed hstaging hwaits hdecided
      · split
        · exact .waiting (.inr hwaits)
        · rename_i hlt
          have hturn : Turn domain now _ _ _ := .expired hstaging till hpending (not_lt.1 hlt)
          simpa [Controller.slot] using hturn

theorem visit_other {other : String} (h : other ≠ domain) :
    (c.visit now a domain).controller.slot other = c.slot other := by
  rw [Controller.visit]
  split
  · exact checkStaged_other now a domain c h
  · split
    · exact stageNew_other now a domain c h
    · split
      · rw [Pass.andThen_controller]
        exact (stageNew_other now a domain (c.converge domain) h).trans (slot_converge_other domain c h)
      · split
        · rfl
        · simp only [Controller.slot, update_of_ne h]

end Visit

end Jaco.StageFirst
