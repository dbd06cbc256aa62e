import Jaco.Broker
import Jaco.FsmFrames
import Jaco.Runs

namespace Jaco.Audit

open Watch Runs List

def entryAudits (idx : Nat) (e : Entry) : List AuditEvent :=
  let own := match e.payload with
    | .auditAppend (some ev) => [{ ev with raftIndex := idx }]
    | _ => []
  let (type, payload) := auditOf e.payload
  if type ≠ .unspecified then own ++ [⟨idx, type, e.identity, e.ts, payload⟩] else own

def auditsOf (idx : Nat) (c : Command) : List AuditEvent := c.entries.flatMap (entryAudits idx)

theorem auditEvents_mutate (s : State) (ts : Option Timestamp) (idx : Nat) (p : Payload)
    (h : ∀ ev, p ≠ .auditAppend (some ev)) : (mutate s ts idx p).auditEvents = s.auditEvents := by
  by_cases hp : Part.auditEvents ∈ writes p
  · cases p with
    | auditAppend ev =>
      cases ev with
      | none => rfl
      | some ev => exact absurd rfl (h ev)
    | _ => simp [writes] at hp
  · exact mutate_agree s ts idx p .auditEvents hp

theorem auditEvents_applyEntry (idx : Nat) (s : State) (e : Entry) :
    (applyEntry idx s e).auditEvents = s.auditEvents ++ entryAudits idx e := by
  obtain ⟨identity, ts, p⟩ := e
  by_cases h : ∃ ev, p = .auditAppend (some ev)
  · obtain ⟨ev, rfl⟩ := h
    rfl
  · have hp : ∀ ev, p ≠ .auditAppend (some ev) := fun ev hev => h ⟨ev, hev⟩
    have hown : (match p with | .auditAppend (some ev) => [{ ev with raftIndex := idx }] | _ => []) = [] := by
      split
      · exact absurd rfl (hp _)
      · rfl
    unfold applyEntry applyPayload entryAudits
    dsimp only
    rw [hown]
    split
    · rw [nil_append, State.appendAudit, auditEvents_mutate s ts idx p hp]
    · rw [auditEvents_mutate s ts idx p hp, append_nil]

theorem auditEvents_apply (idx : Nat) (s : State) (c : Command) :
    (c.apply idx s).auditEvents = s.auditEvents ++ auditsOf idx c := by
  rw [Command.apply_eq_foldl, auditsOf]
  generalize c.entries = es
  induction es generalizing s with
  | nil => simp
  | cons e es ih => rw [foldl_cons, ih, auditEvents_applyEntry, flatMap_cons, append_assoc]

theorem raftIndex_of_mem_entryAudits {idx : Nat} {e : Entry} {ev : AuditEvent} (h : ev ∈ entryAudits idx e) :
    ev.raftIndex = idx := by
  have hown : ∀ x ∈ (match e.payload with
      | .auditAppend (some ev) => [{ ev with raftIndex := idx }]
      | _ => []), x.raftIndex = idx := by
    intro x hx
    split at hx
    · rw [mem_singleton] at hx
      rw [hx]
    · cases hx
  unfold entryAudits at h
  dsimp only at h
  split at h
  · rcases mem_append.mp h with h | h
    · exact hown ev h
    · rw [mem_singleton] at h
      rw [h]
  · exact hown ev h

theorem raftIndex_of_mem_auditsOf {idx : Nat} {c : Command} {ev : AuditEvent} (h : ev ∈ auditsOf idx c) :
    ev.raftIndex = idx := by
  obtain ⟨e, _, he⟩ := mem_flatMap.mp h
  exact raftIndex_of_mem_entryAudits he

structure AuditQueryRequest where
  types : List AuditEventType := []
  since : Option Timestamp := none
  until_ : Option Timestamp := none

def buildMatcher (req : AuditQueryRequest) (ev : AuditEvent) : Bool :=
  (req.types.isEmpty || req.types.contains ev.type) &&
  (match req.since.filter (· ≠ zeroTime) with
    | none => true
    | some since => ev.ts.any (fun t => ¬ t < since)) &&
  (match req.until_.filter (· ≠ zeroTime) with
    | none => true
    | some until_ => ev.ts.all (fun t => ¬ until_ < t))

/-- The replicated log of audit events as one node appends and publishes it, and one follow stream. `sub` queues
positions of `log`; `watermark` is the stream's `lastIdx` once it has read the history; `covered` marks the
positions that were delivered to the stream or were in the log at a resync. -/
structure World where
  index : Nat
  fsm : State
  log : List AuditEvent
  todo : List AuditEvent := []
  pending : Option Nat := none
  sub : Option (Subscription Nat) := none
  watermark : Option Nat := none
  sent : List AuditEvent := []
  covered : Nat → Bool := fun _ => false

inductive Event where
  | command (gap : Nat) (c : Command)
  | append
  | publish
  | advance
  | subscribe (buffer : Int)
  | history
  | receive

def applied (past : List (Nat × Command)) : Nat × State :=
  past.foldl (fun (idx, s) (gap, c) => (idx + gap + 1, c.apply (idx + gap + 1) s)) (0, State.new)

def World.start (past : List (Nat × Command)) : World where
  index := (applied past).1
  fsm := (applied past).2
  log := (applied past).2.auditEvents

def World.fsmIdle (w : World) : Bool :=
  w.pending.isNone && (w.sub.all (fun s => s.publishing = .idle))

section

variable (matching : AuditEvent → Bool)

def scan (last : Nat) : List AuditEvent → Nat × List AuditEvent
  | [] => (last, [])
  | ev :: evs =>
    if ev.raftIndex ≤ last then scan last evs
    else
      let (last', sent) := scan ev.raftIndex evs
      (last', if matching ev then ev :: sent else sent)

def maxIndex (last : Nat) (evs : List AuditEvent) : Nat := evs.foldl (fun last ev => max last ev.raftIndex) last

def World.history (w : World) : World :=
  { w with
    watermark := some (maxIndex 0 w.log)
    sent := w.log.filter matching
    covered := fun k => k < w.log.length }

def World.receiveEvent (w : World) (s : Subscription Nat) (last k : Nat) : World :=
  let w := { w with sub := some s.take, covered := Function.update w.covered k true }
  match w.log[k]? with
  | none => w
  | some ev =>
    if ev.raftIndex ≤ last then w
    else { w with
      watermark := some ev.raftIndex
      sent := if matching ev then w.sent ++ [ev] else w.sent }

def World.receiveResync (w : World) (s : Subscription Nat) (last : Nat) : World :=
  { w with
    sub := some s.take
    watermark := some (scan matching last w.log).1
    sent := w.sent ++ (scan matching last w.log).2
    covered := fun k => w.covered k || k < w.log.length }

def step (w : World) : Event → World
  | .command gap c =>
    if w.todo = [] ∧ w.fsmIdle = true then
      { w with
        index := w.index + gap + 1
        fsm := c.apply (w.index + gap + 1) w.fsm
        todo := auditsOf (w.index + gap + 1) c }
    else w
  | .append =>
    match w.todo with
    | [] => w
    | ev :: todo =>
      if w.fsmIdle then { w with log := w.log ++ [ev], todo := todo, pending := some w.log.length } else w
  | .publish =>
    match w.pending with
    | none => w
    | some k => { w with pending := none, sub := w.sub.map (fun s => s.publish k) }
  | .advance => { w with sub := w.sub.map Subscription.advance }
  | .subscribe buffer => if w.sub.isNone then { w with sub := some { buffer := newBroker buffer } } else w
  | .history => if w.sub.isSome ∧ w.watermark = none then w.history matching else w
  | .receive =>
    match w.sub, w.watermark with
    | some s, some last =>
      match s.queue with
      | [] => w
      | .event k :: _ => w.receiveEvent matching s last k
      | .resync :: _ => w.receiveResync matching s last
    | _, _ => w

def SentExactly (w : World) : Prop :=
  w.sent = (w.log.zipIdx.filter (fun p => w.covered p.2 && matching p.1)).map Prod.fst

instance (w : World) : Decidable (SentExactly matching w) := by
  unfold SentExactly
  infer_instance

end

def World.next (w : World) : Option Nat :=
  match w.sub, w.watermark with
  | some s, some _ =>
    match s.queue with
    | .event k :: _ => some k
    | _ => none
  | _, _ => none

/-- A command appends at most one event, and the stream takes an event off the queue only when every earlier one
has been delivered or resynced. -/
def Undisturbed (w : World) : Event → Prop
  | .command gap c => (auditsOf (w.index + gap + 1) c).length ≤ 1
  | .receive => ∀ k ∈ w.next, ∀ j < k, w.covered j = true
  | _ => True

instance (w : World) (e : Event) : Decidable (Undisturbed w e) := by
  cases e <;> unfold Undisturbed <;> infer_instance

end Jaco.Audit
