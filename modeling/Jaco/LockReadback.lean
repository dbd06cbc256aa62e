import Jaco.CertLease
import Jaco.Snapshot

namespace Jaco.CertLease

/-- One `Lock` call seen from the log: its own entry stands at `pos`, and when the call reads its verdict the node
has applied the first `seen` entries. -/
structure LockCall where
  log : List Log
  pos : Nat
  seen : Nat
  name : String
  node : String
  now : Timestamp
  applyErr : Option String

namespace LockCall

def before (c : LockCall) : State := replay .new (c.log.take c.pos)
def after (c : LockCall) : State := replay .new (c.log.take (c.pos + 1))
def readBack (c : LockCall) : State := replay .new (c.log.take c.seen)

def result (c : LockCall) : LockResult := lockResult c.readBack c.name c.node c.applyErr
def granted (c : LockCall) : Bool := grants c.before c.name c.node c.now

structure Truthful (c : LockCall) : Prop where
  acquired_iff : c.result = .acquired ↔ c.granted = true
  not_held_of_granted : c.granted = true → c.result ≠ .held
  not_acquired_of_refused : c.granted = false → c.result ≠ .acquired

theorem truthful_iff_acquired (c : LockCall) : c.Truthful ↔ (c.result = .acquired ↔ c.granted = true) := by
  constructor
  · exact Truthful.acquired_iff
  · intro h
    refine ⟨h, ?_, ?_⟩
    · intro hg
      rw [h.mpr hg]
      simp
    · intro hg hr
      rw [h.mp hr] at hg
      cases hg

end LockCall

section Turns

variable (name node : String)

def lessee (s : State) : Bool := (s.certs.get name).any (·.lessee = node)

/-- Whether the entry gives the lock to the node or takes it away, where it takes effect. -/
def turn (s : State) (e : Entry) : Option Bool :=
  match e.payload with
  | .certLock l => if l.name = name ∧ grants s name l.lessee (e.ts.getD 0) = true then some (l.lessee = node) else none
  | .certUnlock n => if n = name then some false else none
  | _ => none

def lastTurn (s : State) : List (Nat × Entry) → Option Bool
  | [] => none
  | e :: es => (lastTurn (applyEntry e.1 s e.2) es).or (turn name node s e.2)

def entriesIn (logs : List Log) : List (Nat × Entry) :=
  logs.flatMap (fun l => (l.data.elim [] Command.entries).map (fun e => (l.index, e)))

theorem replay_eq_foldl (s : State) (logs : List Log) :
    replay s logs = (entriesIn logs).foldl (fun s e => applyEntry e.1 s e.2) s := by
  induction logs generalizing s with
  | nil => rfl
  | cons l logs ih =>
    have happly : l.apply s =
        ((l.data.elim [] Command.entries).map (fun e => (l.index, e))).foldl (fun s e => applyEntry e.1 s e.2) s := by
      rw [Log.apply, List.foldl_map]
      cases l.data with
      | none => rfl
      | some c => exact Command.apply_eq_foldl l.index s c
    change replay (l.apply s) logs = _
    rw [ih, happly]
    simp only [entriesIn, List.flatMap_cons, List.foldl_append]

variable {name node}

theorem lessee_entry (hn : node ≠ "") (s : State) (idx : Nat) (e : Entry) :
    lessee name node (applyEntry idx s e) = (turn name node s e).getD (lessee name node s) := by
  have hcerts : (applyEntry idx s e).certs = (mutate s e.ts idx e.payload).certs :=
    applyEntry_agree_mutate idx s e .certs (by decide)
  by_cases habout : isAbout name e.payload = true
  · cases hp : e.payload with
    | certLock l =>
      obtain rfl : l.name = name := by simpa [hp, isAbout] using habout
      have hlock : (applyEntry idx s e).certs = (lockCert s l e.ts).certs := by rw [hcerts, hp]; rfl
      simp only [lessee, hlock, lockCert, turn, hp, grants]
      cases hc : s.certs.get l.name with
      | none => simp
      | some c =>
        have hd : c.domain = l.name := Store.get_key hc
        cases hheld : leaseHeldByOther c l.lessee (e.ts.getD 0) with
        | true => simp [hheld, hc]
        | false => simp [hheld, hd]
    | certUnlock n =>
      obtain rfl : n = name := by simpa [hp, isAbout] using habout
      have hunlock : (applyEntry idx s e).certs = (unlockCert s n).certs := by rw [hcerts, hp]; rfl
      simp only [lessee, hunlock, unlockCert, turn, hp]
      cases hc : s.certs.get n with
      | none => simp [hc]
      | some c =>
        have hd : c.domain = n := Store.get_key hc
        simp [hd, hn.symm]
    | _ => simp [hp, isAbout] at habout
  · rw [Bool.not_eq_true] at habout
    have hnone : turn name node s e = none := by
      unfold turn
      cases hp : e.payload with
      | certLock l => exact if_neg (fun h => by simp [hp, isAbout, h.1] at habout)
      | certUnlock n => exact if_neg (fun h => by simp [hp, isAbout, h] at habout)
      | _ => rfl
    rw [hnone, lessee, get_certs_other s idx e name habout]
    rfl

theorem lessee_foldl (hn : node ≠ "") (s : State) (es : List (Nat × Entry)) :
    lessee name node (es.foldl (fun s e => applyEntry e.1 s e.2) s) =
      (lastTurn name node s es).getD (lessee name node s) := by
  induction es generalizing s with
  | nil => rfl
  | cons e es ih =>
    rw [List.foldl_cons, ih, lessee_entry hn, lastTurn]
    cases lastTurn name node (applyEntry e.1 s e.2) es <;> rfl

end Turns

namespace LockCall

variable (c : LockCall)

def earlier : State := replay .new (c.log.take (min c.seen (c.pos + 1)))

/-- The entries by which the prefix read back and the prefix that ends with the call's own entry differ. -/
def apart : List (Nat × Entry) :=
  entriesIn ((c.log.take (max c.seen (c.pos + 1))).drop (min c.seen (c.pos + 1)))

variable {c}

theorem lessee_later (hn : c.node ≠ "") : lessee c.name c.node (replay .new (c.log.take (max c.seen (c.pos + 1)))) =
      (lastTurn c.name c.node c.earlier c.apart).getD (lessee c.name c.node c.earlier) := by
  have hsplit : c.log.take (max c.seen (c.pos + 1)) = c.log.take (min c.seen (c.pos + 1)) ++
      (c.log.take (max c.seen (c.pos + 1))).drop (min c.seen (c.pos + 1)) := by
    have h := List.take_append_drop (min c.seen (c.pos + 1)) (c.log.take (max c.seen (c.pos + 1)))
    rw [List.take_take, min_eq_left min_le_max] at h
    exact h.symm
  rw [hsplit, replay_append, replay_eq_foldl (replay .new _) _]
  exact lessee_foldl hn _ _

theorem lessee_after {idx : Nat} (hn : c.node ≠ "")
    (hentry : c.log[c.pos]? = some ⟨idx, some (.single (lockEntry c.name c.node c.now))⟩) :
    lessee c.name c.node c.after = c.granted := by
  have hafter : c.after = applyEntry idx c.before (lockEntry c.name c.node c.now) := by
    rw [after, List.take_add_one, hentry, replay_append]
    rfl
  rw [hafter, lessee_entry hn, granted]
  cases hgranted : grants c.before c.name c.node c.now with
  | true => simp [turn, lockEntry, hgranted]
  | false =>
    have hother : lessee c.name c.node c.before = false := by
      -- the lock is refused only while somebody else holds it
      cases hc : c.before.certs.get c.name with
      | none => simp [grants, hc] at hgranted
      | some cert =>
        simp only [grants, hc, leaseHeldByOther, Bool.not_eq_false', Bool.and_eq_true, decide_eq_true_eq] at hgranted
        simp [lessee, hc, hgranted.1.2]
    simp [turn, lockEntry, hgranted, hother]

theorem result_acquired_iff : c.result = .acquired ↔ c.applyErr = none ∧ lessee c.name c.node c.readBack = true := by
  simp only [result, lockResult, lessee]
  cases c.applyErr with
  | some err => simp
  | none =>
    cases c.readBack.certs.get c.name with
    | none => simp
    | some cert => by_cases h : cert.lessee = c.node <;> simp [h]

theorem agree_iff (hn : c.node ≠ "") : lessee c.name c.node c.readBack = lessee c.name c.node c.after ↔
      lastTurn c.name c.node c.earlier c.apart ≠ some (!lessee c.name c.node c.earlier) := by
  have hlater := lessee_later hn
  have hsame : lessee c.name c.node c.readBack = lessee c.name c.node c.after ↔
      lessee c.name c.node (replay .new (c.log.take (max c.seen (c.pos + 1)))) = lessee c.name c.node c.earlier := by
    rcases le_total c.seen (c.pos + 1) with hle | hle
    · rw [max_eq_right hle, earlier, min_eq_left hle]
      exact eq_comm
    · rw [max_eq_left hle, earlier, min_eq_right hle]
      exact Iff.rfl
  rw [hsame, hlater]
  cases lastTurn c.name c.node c.earlier c.apart with
  | none => simp
  | some b => cases b <;> simp

end LockCall

theorem lock_truthful_iff (c : LockCall) (idx : Nat) (hn : c.node ≠ "")
    (hentry : c.log[c.pos]? = some ⟨idx, some (.single (lockEntry c.name c.node c.now))⟩) :
    c.Truthful ↔
      (c.applyErr = none → lastTurn c.name c.node c.earlier c.apart ≠ some (!lessee c.name c.node c.earlier)) ∧
      (c.applyErr ≠ none → grants c.before c.name c.node c.now = false) := by
  rw [c.truthful_iff_acquired, LockCall.result_acquired_iff, ← LockCall.agree_iff hn, LockCall.lessee_after hn hentry,
    LockCall.granted]
  by_cases he : c.applyErr = none
  · simp only [he, true_and, forall_const, ne_eq, not_true_eq_false, false_implies, and_true]
    exact Bool.eq_iff_iff.symm
  · simp [he]

def lockLog (name : String) (locks : List (String × Timestamp)) : List Log :=
  locks.zipIdx.map (fun l => ⟨l.2 + 1, some (.single (lockEntry name l.1.1 l.1.2))⟩)

def leaderCall : LockCall := ⟨lockLog "issue" [("a", 0), ("b", 1), ("a", 2)], 1, 3, "issue", "b", 1, none⟩

theorem leaderCall_truthful : leaderCall.Truthful :=
  (lock_truthful_iff leaderCall 2 (by decide) rfl).mpr ⟨fun _ => by decide +kernel, fun h => absurd rfl h⟩

def laggingCall : LockCall := ⟨lockLog "issue" [("a", 0)], 0, 0, "issue", "a", 0, none⟩

def staleCall : LockCall :=
  ⟨lockLog "issue" [("a", 0), ("b", lockTTL), ("a", lockTTL + 1)], 2, 1, "issue", "a", lockTTL + 1, none⟩

theorem lag_turns_verdicts : (laggingCall.granted = true ∧ laggingCall.result = .held) ∧
      (staleCall.granted = false ∧ staleCall.result = .acquired) ∧
      ¬ laggingCall.Truthful ∧ ¬ staleCall.Truthful := by
  refine ⟨⟨by decide +kernel, by decide +kernel⟩, ⟨by decide +kernel, by decide +kernel⟩, ?_, ?_⟩
  · intro h
    exact h.not_held_of_granted (by decide +kernel) (by decide +kernel)
  · intro h
    exact h.not_acquired_of_refused (by decide +kernel) (by decide +kernel)

end Jaco.CertLease
