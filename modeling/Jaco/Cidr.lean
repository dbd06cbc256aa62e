import Mathlib

namespace Jaco.Cidr

inductive Addr where
  | v4 (a : BitVec 32)
  | v6 (a : BitVec 128)
  deriving DecidableEq

structure Prefix4 where
  base : BitVec 32
  bits : Nat
  bits_le : bits ≤ 32
  deriving DecidableEq

def Prefix4.contains (c : Prefix4) (a : BitVec 32) : Bool := a >>> (32 - c.bits) == c.base >>> (32 - c.bits)

theorem Prefix4.contains_base (c : Prefix4) : c.contains c.base = true := by
  simp [Prefix4.contains]

def Prefix4.apart (c d : Prefix4) : Bool :=
  c.base >>> (32 - min c.bits d.bits) != d.base >>> (32 - min c.bits d.bits)

theorem Prefix4.shift_eq_of_contains (c : Prefix4) (a : BitVec 32) (k : Nat) (hk : k ≤ c.bits)
    (h : c.contains a = true) : a >>> (32 - k) = c.base >>> (32 - k) := by
  have hb := c.bits_le
  have hsum : 32 - k = (32 - c.bits) + (c.bits - k) := by omega
  have he : a >>> (32 - c.bits) = c.base >>> (32 - c.bits) := by simpa [Prefix4.contains] using h
  rw [hsum, BitVec.shiftRight_add, BitVec.shiftRight_add, he]

theorem Prefix4.not_contains_of_apart (c d : Prefix4) (h : c.apart d = true) (a : BitVec 32) :
    ¬ (c.contains a = true ∧ d.contains a = true) := by
  rintro ⟨hc, hd⟩
  have h₁ := c.shift_eq_of_contains a (min c.bits d.bits) (Nat.min_le_left _ _) hc
  have h₂ := d.shift_eq_of_contains a (min c.bits d.bits) (Nat.min_le_right _ _) hd
  simp [Prefix4.apart, ← h₁, ← h₂] at h

theorem Prefix4.exists_contains_of_not_apart (c d : Prefix4) (h : c.apart d = false) :
    ∃ a, c.contains a = true ∧ d.contains a = true := by
  have he : c.base >>> (32 - min c.bits d.bits) = d.base >>> (32 - min c.bits d.bits) := by
    simpa [Prefix4.apart] using h
  -- the longer prefix lies in the shorter one
  rcases Nat.le_total c.bits d.bits with hle | hle
  · rw [Nat.min_eq_left hle] at he
    exact ⟨d.base, by simp [Prefix4.contains, he], d.contains_base⟩
  · rw [Nat.min_eq_right hle] at he
    exact ⟨c.base, c.contains_base, by simp [Prefix4.contains, he]⟩

def splitAtChar (sep : Char) : List Char → List (List Char)
  | [] => [[]]
  | c :: cs =>
    match splitAtChar sep cs with
    | [] => [[c]]
    | piece :: rest => if c = sep then [] :: piece :: rest else (c :: piece) :: rest

def parseDecimal (max : Nat) (cs : List Char) : Option Nat :=
  if cs ≠ [] ∧ cs.all Char.isDigit = true then
    let n := cs.foldl (fun acc c => 10 * acc + (c.toNat - 48)) 0
    if n ≤ max then some n else none
  else none

/-- An octet of an address has no leading zero; the length of a prefix may. -/
def parseOctet (cs : List Char) : Option Nat :=
  if cs.length = 1 ∨ cs.head? ≠ some '0' then parseDecimal 255 cs else none

def parseAddr4 (cs : List Char) : Option (BitVec 32) :=
  match (splitAtChar '.' cs).map parseOctet with
  | [some a, some b, some c, some d] => some (BitVec.ofNat 32 (((a * 256 + b) * 256 + c) * 256 + d))
  | _ => none

def parse (s : String) : Option Prefix4 :=
  match splitAtChar '/' s.toList with
  | [addr, len] =>
    match parseAddr4 addr, parseDecimal 32 len with
    | some a, some n => if h : n ≤ 32 then some ⟨a, n, h⟩ else none
    | _, _ => none
  | _ => none

def covers (s : String) : Addr → Bool
  | .v4 a => ((parse s).map (·.contains a)).getD false
  | .v6 _ => false

theorem exists_covers (s : String) (h : (parse s).isSome = true) : ∃ a, covers s a = true := by
  obtain ⟨c, hc⟩ := Option.isSome_iff_exists.mp h
  exact ⟨.v4 c.base, by simp [covers, hc, c.contains_base]⟩

def apart (s t : String) : Bool :=
  match parse s, parse t with
  | some c, some d => c.apart d
  | _, _ => true

theorem not_covers_of_apart (s t : String) (h : apart s t = true) (a : Addr) :
    ¬ (covers s a = true ∧ covers t a = true) := by
  cases a with
  | v6 a => simp [covers]
  | v4 a =>
    unfold apart at h
    cases hs : parse s with
    | none => simp [covers, hs]
    | some c =>
      cases ht : parse t with
      | none => simp [covers, ht]
      | some d =>
        simp only [hs, ht] at h
        simpa [covers, hs, ht] using c.not_contains_of_apart d h a

end Jaco.Cidr
