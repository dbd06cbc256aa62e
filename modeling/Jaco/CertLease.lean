import Jaco.FsmFrames
import Jaco.Lease

namespace Jaco.CertLease

open Lease Store

def lockTTL : Int := 5 * 60 * 10 ^ 9

def lockEntry (name lessee : String) (now : Timestamp) : Entry :=
  ⟨"ingress", some now, .certLock ⟨name, lessee, some (now + lockTTL)⟩⟩

def unlockEntry (name : String) (now : Timestamp) : Entry := ⟨"ingress", some now, .certUnlock name⟩

inductive LockResult where
  | acquired
  | held
  | failed (err : String)
  deriving DecidableEq

def lockResult (st : State) (name lessee : String) (applyErr : Option String) : LockResult :=
  match applyErr with
  | some err => .failed err
  | none =>
    match st.certs.get name with
    | none => .held
    | some c => if c.lessee ≠ lessee then .held else .acquired

def recordOf (s : State) (name : String) : Record String :=
  match s.certs.get name with
  | none => free
  | some c => ⟨if c.lessee = "" then none else some c.lessee, c.lockUntil⟩

theorem lockResult_acquired_iff (st : State) (name lessee : String) (applyErr : Option String) (hn : lessee ≠ "") :
    lockResult st name lessee applyErr = .acquired ↔
      applyErr = none ∧ (recordOf st name).holder = some lessee := by
  cases applyErr with
  | some err => simp [lockResult]
  | none =>
    cases hc : st.certs.get name with
    | none => simp [lockResult, recordOf, hc, free]
    | some c =>
      by_cases hl : c.lessee = lessee
      · simp [lockResult, recordOf, hc, hl, hn]
      · by_cases he : c.lessee = ""
        · simp [lockResult, recordOf, hc, he, hn.symm]
        · simp [lockResult, recordOf, hc, hl, he]

theorem leaseHeldByOther_iff (c : Cert) (lessee : String) (ts : Timestamp) : leaseHeldByOther c lessee ts =
      heldAgainst ⟨if c.lessee = "" then none else some c.lessee, c.lockUntil⟩ lessee ts := by
  by_cases he : c.lessee = ""
  · simp [leaseHeldByOther, heldAgainst, he]
  · simp [leaseHeldByOther, heldAgainst, he]

theorem recordOf_lock (s : State) (idx : Nat) (name lessee : String) (now : Timestamp) (hn : lessee ≠ "") :
    recordOf (applyEntry idx s (lockEntry name lessee now)) name =
      acquire (recordOf s name) lessee now (now + lockTTL) := by
  have happly : applyEntry idx s (lockEntry name lessee now) =
      lockCert s ⟨name, lessee, some (now + lockTTL)⟩ (some now) := rfl
  rw [happly, lockCert]
  cases hc : s.certs.get name with
  | none => simp [recordOf, hc, acquire, heldAgainst, free, hn]
  | some c =>
    have hd : c.domain = name := get_key hc
    simp only [Option.getD_some, leaseHeldByOther_iff]
    cases hh : heldAgainst ⟨if c.lessee = "" then none else some c.lessee, c.lockUntil⟩ lessee now with
    | true => simp [recordOf, hc, acquire, hh]
    | false => simp [recordOf, hc, acquire, hh, hd, hn]

theorem recordOf_unlock (s : State) (idx : Nat) (name : String) (now : Timestamp) :
    recordOf (applyEntry idx s (unlockEntry name now)) name = free := by
  have happly : applyEntry idx s (unlockEntry name now) = unlockCert s name := rfl
  rw [happly, unlockCert]
  cases hc : s.certs.get name with
  | none => simp [recordOf, hc]
  | some c =>
    have hd : c.domain = name := get_key hc
    simp [recordOf, hd, free]

def isAbout (name : String) : Payload → Bool
  | .certLock l => l.name = name
  | .certUnlock n => n = name
  | _ => false

theorem get_lockCert_of_ne (s : State) (l : CertLock) (ts : Option Timestamp) (name : String) (h : l.name ≠ name) :
    (lockCert s l ts).certs.get name = s.certs.get name := by
  unfold lockCert
  cases hc : s.certs.get l.name with
  | none => simp [get_apply, h]
  | some c =>
    have hd : c.domain = l.name := get_key hc
    dsimp only
    split
    · rfl
    · simp [get_apply, hd, h]

theorem get_unlockCert_of_ne (s : State) (n name : String) (h : n ≠ name) :
    (unlockCert s n).certs.get name = s.certs.get name := by
  unfold unlockCert
  cases hc : s.certs.get n with
  | none => rfl
  | some c =>
    have hd : c.domain = n := get_key hc
    simp [get_apply, hd, h]

theorem get_certs_other (s : State) (idx : Nat) (e : Entry) (name : String) (h : isAbout name e.payload = false) :
    (applyEntry idx s e).certs.get name = s.certs.get name := by
  have hcerts : (applyEntry idx s e).certs = (mutate s e.ts idx e.payload).certs :=
    applyEntry_agree_mutate idx s e .certs (by decide)
  rw [hcerts]
  cases hp : e.payload with
  | certLock l => exact get_lockCert_of_ne s l e.ts name (by simpa [hp, isAbout] using h)
  | certUnlock n => exact get_unlockCert_of_ne s n name (by simpa [hp, isAbout] using h)
  | _ =>
    have hag : (mutate s e.ts idx e.payload).certs = s.certs :=
      mutate_agree s e.ts idx e.payload .certs (by rw [hp]; simp [writes])
    rw [hp] at hag
    rw [hag]

theorem recordOf_other (s : State) (idx : Nat) (e : Entry) (name : String) (h : isAbout name e.payload = false) :
    recordOf (applyEntry idx s e) name = recordOf s name := by
  rw [recordOf, get_certs_other s idx e name h, recordOf]

def grants (s : State) (name lessee : String) (now : Timestamp) : Bool :=
  match s.certs.get name with
  | none => true
  | some c => !leaseHeldByOther c lessee now

theorem grants_eq (s : State) (name lessee : String) (now : Timestamp) :
    grants s name lessee now = !heldAgainst (recordOf s name) lessee now := by
  cases hc : s.certs.get name with
  | none => simp [grants, recordOf, hc, heldAgainst, free]
  | some c => simp [grants, recordOf, hc, leaseHeldByOther_iff]

end Jaco.CertLease
