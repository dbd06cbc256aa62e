import Jaco.Interleaving
import Jaco.FsmFrames

namespace Jaco.CertStorage

open Interleaving Runs List Function

inductive Op where
  | store (key : String) (value : Bytes)
  | load (key : String)
  | delete (key : String)
  deriving DecidableEq

def Op.key : Op → String
  | .store key _ | .load key | .delete key => key

/-- Where a call stands between two of its steps. `seen` is how many log entries the node had applied when the call
read the replicated blobs, `position` where in the log the removal was committed. -/
inductive Phase where
  | issued
  | written
  | missed (seen : Nat)
  | hit (value : Bytes) (seen : Nat)
  | got (value : Bytes) (seen : Nat)
  | removed (position : Nat)
  | cleared (position : Nat)
  | finished
  deriving DecidableEq

structure Call where
  node : String
  op : Op
  phase : Phase := .issued
  deriving DecidableEq

structure Deletion where
  removal : Nat
  since : Nat
  deriving DecidableEq

structure World where
  base : State
  log : List Log := []
  applied : String → Nat := fun _ => 0
  disk : String → String → Option Bytes := fun _ _ => none
  calls : List Call := []
  deleted : List Deletion := []

def upsert (key : String) (value : Bytes) (now : Timestamp) : Command :=
  .single ⟨"ingress", some now, .certBlobUpsert (some ⟨key, value, some now⟩)⟩

def removal (key : String) (now : Timestamp) : Command := .single ⟨"ingress", some now, .certBlobRemove key⟩

def World.commit (w : World) (c : Command) : World := { w with log := w.log ++ [⟨w.log.length + 1, some c⟩] }

def World.stateAt (w : World) (k : Nat) : State := replay w.base (w.log.take k)

def World.moveTo (w : World) (i : Nat) (phase : Phase) : World :=
  { w with calls := w.calls.modify i (fun c => { c with phase := phase }) }

def Spares (key : String) : Payload → Prop
  | .certBlobUpsert (some b) => b.key ≠ key
  | _ => True

structure Unrelated (key : String) where
  command : Command
  frame : ∀ e ∈ command.entries, Spares key e.payload

inductive Event (key : String) where
  | begin (node : String) (op : Op)
  | look (i : Nat)
  | submit (i : Nat) (fate : Fate) (now : Timestamp)
  | mirror (i : Nat) (ok : Bool)
  | ret (i : Nat)
  | catchUp (node : String)
  | other (c : Unrelated key)

section

variable (sha256 : Bytes → Bytes) (caching : String → Bool) (key : String)

def cachePath (key : String) : String := GoStrings.hexEncode (sha256 key.toUTF8.toList)

def cacheRead (w : World) (node key : String) : Option Bytes :=
  if caching node then w.disk node (cachePath sha256 key) else none

def mirrorFile (w : World) (node key : String) (ok : Bool) (content : Option Bytes) : World :=
  if caching node && ok then
    { w with disk := update w.disk node (update (w.disk node) (cachePath sha256 key) content) }
  else w

def World.storeCommitted (w : World) (i : Nat) (k : String) (c : Command) : World :=
  { w.commit c with deleted := if k = key then w.deleted.filter (fun d => i < d.since) else w.deleted }

def stepLook (w : World) (i : Nat) : World :=
  match w.calls[i]? with
  | some ⟨n, .load k, .issued⟩ =>
    match (w.stateAt (w.applied n)).certBlobs.get k with
    | some b => w.moveTo i (.got b.value (w.applied n))
    | none => w.moveTo i (.missed (w.applied n))
  | some ⟨n, .load k, .missed seen⟩ =>
    match cacheRead sha256 caching w n k with
    | some v => w.moveTo i (.hit v seen)
    | none => w.moveTo i .finished
  | _ => w

def stepSubmit (w : World) (i : Nat) (fate : Fate) (now : Timestamp) : World :=
  match w.calls[i]? with
  | some ⟨_, .store k v, .issued⟩ =>
    if k = "" then w.moveTo i .finished
    else match fate with
      | .acked => (w.storeCommitted key i k (upsert k v now)).moveTo i .written
      | .unacked => (w.storeCommitted key i k (upsert k v now)).moveTo i .finished
      | .lost => w.moveTo i .finished
  | some ⟨_, .load k, .hit v seen⟩ =>
    match fate with
    | .lost => w.moveTo i (.got v seen)
    | _ => (w.commit (upsert k v now)).moveTo i (.got v seen)
  | some ⟨_, .delete k, .issued⟩ =>
    match fate with
    | .acked => (w.commit (removal k now)).moveTo i (.removed (w.log.length + 1))
    | .unacked => (w.commit (removal k now)).moveTo i .finished
    | .lost => w.moveTo i .finished
  | _ => w

def stepMirror (w : World) (i : Nat) (ok : Bool) : World :=
  match w.calls[i]? with
  | some ⟨n, .store k v, .written⟩ => (mirrorFile sha256 caching w n k ok (some v)).moveTo i .finished
  | some ⟨n, .delete k, .removed r⟩ => (mirrorFile sha256 caching w n k ok none).moveTo i (.cleared r)
  | _ => w

def stepReturn (w : World) (i : Nat) : World :=
  match w.calls[i]? with
  | some ⟨_, .load _, .got _ _⟩ => w.moveTo i .finished
  | some ⟨_, .delete k, .cleared r⟩ =>
    { w.moveTo i .finished with deleted := if k = key then ⟨r, w.calls.length⟩ :: w.deleted else w.deleted }
  | _ => w

def step (w : World) : Event key → World
  | .begin node op => { w with calls := w.calls ++ [{ node := node, op := op }] }
  | .look i => stepLook sha256 caching w i
  | .submit i fate now => stepSubmit key w i fate now
  | .mirror i ok => stepMirror sha256 caching w i ok
  | .ret i => stepReturn key w i
  | .catchUp n =>
    if w.applied n < w.log.length then { w with applied := update w.applied n (w.applied n + 1) } else w
  | .other c => w.commit c.command

/-- No Load that read a state with the removal returns a value while the deletion is unanswered. -/
def LoadsMiss (w : World) : Event key → Prop
  | .ret i => ∀ n v seen, w.calls[i]? = some ⟨n, .load key, .got v seen⟩ → ∀ d ∈ w.deleted, ¬ d.removal ≤ seen
  | _ => True

/-- When a Delete of the key returns, no node has a disk copy, no other call on the key is under way, and nothing
has been stored under the key since the removal. -/
def ReturnsQuiet (w : World) : Event key → Prop
  | .ret i => ∀ n r, w.calls[i]? = some ⟨n, .delete key, .cleared r⟩ →
      key ≠ "" ∧ (∀ m, cacheRead sha256 caching w m key = none) ∧
      (∀ j c, j ≠ i → w.calls[j]? = some c → c.op.key = key → c.phase = .finished) ∧
      (∀ l ∈ w.log.drop r, ∀ c ∈ l.data, ∀ e ∈ c.entries, Spares key e.payload)
  | _ => True

end

theorem absent_entry (key : String) (idx : Nat) (s : State) (e : Entry) (he : Spares key e.payload)
    (hs : s.certBlobs.get key = none) : (applyEntry idx s e).certBlobs.get key = none := by
  have hmutate : (applyEntry idx s e).certBlobs = (mutate s e.ts idx e.payload).certBlobs :=
    applyEntry_agree_mutate idx s e .certBlobs (by decide)
  rw [hmutate]
  by_cases hw : Part.certBlobs ∈ writes e.payload
  · generalize e.payload = p at he hw ⊢
    cases p with
    | certBlobUpsert blob =>
      cases blob with
      | none => exact hs
      | some b =>
        simp only [mutate, Store.get_apply]
        exact (if_neg he).trans hs
    | certBlobRemove k =>
      simp only [mutate]
      split
      · rw [Store.get_remove, hs, ite_self]
      · exact hs
    | _ => simp [writes] at hw
  · rw [show (mutate s e.ts idx e.payload).certBlobs = s.certBlobs from mutate_agree s e.ts idx e.payload .certBlobs hw]
    exact hs

theorem absent_command {key : String} {idx : Nat} {s : State} {c : Command}
    (hc : ∀ e ∈ c.entries, Spares key e.payload) (hs : s.certBlobs.get key = none) :
    (c.apply idx s).certBlobs.get key = none :=
  Command.apply_keeps (Q := fun t => t.certBlobs.get key = none) (G := Spares key) (absent_entry key) idx c hc s hs

theorem absent_removal {key : String} (idx : Nat) (s : State) (now : Timestamp) (hkey : key ≠ "") :
    ((removal key now).apply idx s).certBlobs.get key = none := by
  rw [Command.apply_eq_foldl, removal, entries_single, foldl_cons, foldl_nil]
  have hmutate : (applyEntry idx s ⟨"ingress", some now, .certBlobRemove key⟩).certBlobs =
      (mutate s (some now) idx (.certBlobRemove key)).certBlobs :=
    applyEntry_agree_mutate idx s _ .certBlobs (by decide)
  rw [hmutate]
  simp only [mutate, if_pos hkey, Store.get_remove, if_true]

theorem absent_replay {key : String} {s : State} {logs : List Log}
    (h : ∀ l ∈ logs, ∀ c ∈ l.data, ∀ e ∈ c.entries, Spares key e.payload) (hs : s.certBlobs.get key = none) :
    (replay s logs).certBlobs.get key = none :=
  replay_keeps (Q := fun t => t.certBlobs.get key = none) (G := Spares key) (absent_entry key) logs h s hs

def AbsentFrom (key : String) (w : World) (position : Nat) : Prop :=
  ∀ k, position ≤ k → (w.stateAt k).certBlobs.get key = none

theorem stateAt_of_length_le {w : World} {k : Nat} (h : w.log.length ≤ k) : w.stateAt k = replay w.base w.log := by
  rw [World.stateAt, take_of_length_le h]

theorem absentFrom_commit {key : String} {w : World} {position : Nat} {c : Command}
    (hc : ∀ e ∈ c.entries, Spares key e.payload) (h : AbsentFrom key w position) :
    AbsentFrom key (w.commit c) position := by
  intro k hk
  by_cases hle : k ≤ w.log.length
  · have hsame : (w.commit c).stateAt k = w.stateAt k := by
      rw [World.stateAt, World.stateAt, World.commit, take_append_of_le_length hle]
    rw [hsame]
    exact h k hk
  · have hlast : (replay w.base w.log).certBlobs.get key = none := by
      rw [← stateAt_of_length_le (le_max_right _ _)]
      exact h _ (hk.trans (le_max_left _ _))
    have hlen : (w.commit c).log.length ≤ k := by
      simp only [World.commit, length_append, length_singleton]
      omega
    rw [stateAt_of_length_le hlen]
    simp only [World.commit, replay, foldl_append, foldl_cons, foldl_nil, Log.apply]
    exact absent_command hc hlast

def RemovalAt (w : World) (k : String) (position : Nat) : Prop :=
  ∃ now pre post, w.log = pre ++ ⟨position, some (removal k now)⟩ :: post ∧ pre.length + 1 = position

theorem absentFrom_removal {key : String} {w : World} {position : Nat} (hkey : key ≠ "")
    (h : RemovalAt w key position)
    (hafter : ∀ l ∈ w.log.drop position, ∀ c ∈ l.data, ∀ e ∈ c.entries, Spares key e.payload) :
    AbsentFrom key w position := by
  obtain ⟨now, pre, post, hlog, hlen⟩ := h
  intro k hk
  have hdrop : w.log.drop position = post := by
    rw [hlog, ← hlen, ← drop_drop, drop_left]
    rfl
  obtain ⟨m, rfl⟩ := Nat.exists_eq_add_of_le hk
  have htake : w.log.take (position + m) = pre ++ ⟨position, some (removal key now)⟩ :: post.take m := by
    rw [hlog, ← hlen, Nat.add_assoc, take_length_add_append, Nat.add_comm, take_succ_cons]
  rw [World.stateAt, htake, replay, foldl_append, foldl_cons]
  refine absent_replay (fun l hl => hafter l ?_) (absent_removal position _ now hkey)
  rw [hdrop]
  exact mem_of_mem_take hl

/-- What a call on the key may be doing while the deletion stands: a Store must have been issued after it, and a
Load may hold a value only if it read a state older than the removal. -/
def Harmless (d : Deletion) (i : Nat) (c : Call) : Prop :=
  match c.op, c.phase with
  | .store _ _, .issued => d.since ≤ i
  | .store _ _, .written => False
  | .load _, .hit _ _ => False
  | .load _, .got _ seen => seen < d.removal
  | _, _ => True

section

variable (sha256 : Bytes → Bytes) (caching : String → Bool) (key : String)

structure Stands (w : World) (d : Deletion) : Prop where
  disk : ∀ n, cacheRead sha256 caching w n key = none
  absent : AbsentFrom key w d.removal
  calls : ∀ (i : Nat) (c : Call), w.calls[i]? = some c → c.op.key = key → Harmless d i c
  since : d.since ≤ w.calls.length

def Anchored (w : World) : Prop :=
  ∀ c ∈ w.calls, ∀ k r, c.op = .delete k → (c.phase = .removed r ∨ c.phase = .cleared r) → RemovalAt w k r

structure Sound (w : World) : Prop where
  stands : ∀ d ∈ w.deleted, Stands sha256 caching key w d
  anchored : Anchored w

variable {sha256 caching key}

variable {w : World} {d : Deletion}

theorem removalAt_commit {k : String} {r : Nat} {c : Command} (h : RemovalAt w k r) : RemovalAt (w.commit c) k r := by
  obtain ⟨now, pre, post, hlog, hlen⟩ := h
  refine ⟨now, pre, post ++ [⟨w.log.length + 1, some c⟩], ?_, hlen⟩
  rw [World.commit, hlog, append_assoc, cons_append]

theorem anchored_commit {c : Command} (h : Anchored w) : Anchored (w.commit c) :=
  fun d hd k r hop hphase => removalAt_commit (h d hd k r hop hphase)

theorem stands_commit {c : Command} (hc : ∀ e ∈ c.entries, Spares key e.payload)
    (h : Stands sha256 caching key w d) : Stands sha256 caching key (w.commit c) d :=
  ⟨h.disk, absentFrom_commit hc h.absent, h.calls, h.since⟩

theorem spares_upsert {k : String} (v : Bytes) (now : Timestamp) (h : k ≠ key) :
    ∀ e ∈ (upsert k v now).entries, Spares key e.payload := by
  intro e he
  rw [upsert, entries_single, mem_singleton] at he
  rw [he]
  exact h

theorem spares_removal {k : String} {now : Timestamp} : ∀ e ∈ (removal k now).entries, Spares key e.payload := by
  intro e he
  rw [removal, entries_single, mem_singleton] at he
  rw [he]
  trivial

theorem harmless_finished (d : Deletion) (i : Nat) (c : Call) : Harmless d i { c with phase := .finished } := by
  obtain ⟨n, op, phase⟩ := c
  cases op <;> trivial

variable (h : Sound sha256 caching key w)

include h

theorem sound_moveTo {i : Nat} {c : Call} {phase : Phase} (hcall : w.calls[i]? = some c)
    (hharm : ∀ d ∈ w.deleted, c.op.key = key → Harmless d i { c with phase := phase })
    (hat : ∀ k r, c.op = .delete k → (phase = .removed r ∨ phase = .cleared r) → RemovalAt w k r) :
    Sound sha256 caching key (w.moveTo i phase) := by
  refine ⟨fun d hd => ⟨(h.stands d hd).disk, (h.stands d hd).absent, fun j a ha hkey => ?_, ?_⟩,
    fun a ha k r hop hphase => ?_⟩
  · rcases getElem?_modify_cases ha with ⟨rfl, b, hb, rfl⟩ | ⟨-, hother⟩
    · cases hcall.symm.trans hb
      exact hharm d hd hkey
    · exact (h.stands d hd).calls j a hother hkey
  · rw [World.moveTo, length_modify]
    exact (h.stands d hd).since
  · obtain ⟨j, hj⟩ := List.getElem?_of_mem ha
    rcases getElem?_modify_cases hj with ⟨rfl, b, hb, rfl⟩ | ⟨-, hother⟩
    · cases hcall.symm.trans hb
      exact hat k r hop hphase
    · exact h.anchored a (mem_of_getElem? hother) k r hop hphase

theorem sound_finish {i : Nat} {c : Call} (hcall : w.calls[i]? = some c) :
    Sound sha256 caching key (w.moveTo i .finished) :=
  sound_moveTo h hcall (fun d _ _ => harmless_finished d i c) (by simp)

theorem sound_commit (c : Command) (hc : ∀ e ∈ c.entries, Spares key e.payload) :
    Sound sha256 caching key (w.commit c) :=
  ⟨fun d hd => stands_commit hc (h.stands d hd), anchored_commit h.anchored⟩

theorem sound_look {i : Nat} : Sound sha256 caching key (stepLook sha256 caching w i) := by
  unfold stepLook
  split
  · rename_i n k hcall
    split
    · rename_i b hb
      refine sound_moveTo h hcall (fun d hd hkey => ?_) (by simp)
      have hk : k = key := hkey
      subst hk
      -- a state that includes the removal has no blob to find
      by_contra hseen
      have habsent := (h.stands d hd).absent (w.applied n) (Nat.le_of_not_lt hseen)
      rw [habsent] at hb
      cases hb
    · exact sound_moveTo h hcall (fun _ _ _ => trivial) (by simp)
  · rename_i n k seen hcall
    split
    · rename_i v hv
      refine sound_moveTo h hcall (fun d hd hkey => ?_) (by simp)
      have hk : k = key := hkey
      rw [hk, (h.stands d hd).disk n] at hv
      cases hv
    · exact sound_finish h hcall
  · exact h

theorem storeCommitted_clears {i : Nat} {n : String} {v : Bytes} {c : Command}
    (hcall : w.calls[i]? = some ⟨n, .store key v, .issued⟩) (d : Deletion) :
    d ∉ (w.storeCommitted key i key c).deleted := by
  intro hd
  simp only [World.storeCommitted, if_true, mem_filter, decide_eq_true_eq] at hd
  have hsince : d.since ≤ i := (h.stands d hd.1).calls i _ hcall rfl
  exact absurd hd.2 (Nat.not_lt.mpr hsince)

theorem sound_storeCommitted {i : Nat} {n k : String} {v : Bytes} (now : Timestamp)
    (hcall : w.calls[i]? = some ⟨n, .store k v, .issued⟩) :
    Sound sha256 caching key (w.storeCommitted key i k (upsert k v now)) := by
  refine ⟨?_, anchored_commit h.anchored⟩
  intro d hd
  by_cases hk : k = key
  · subst hk
    exact absurd hd (storeCommitted_clears h hcall d)
  · simp only [World.storeCommitted, if_neg hk] at hd
    have hstands := stands_commit (spares_upsert v now hk) (h.stands d hd)
    exact { hstands with }

theorem not_deleted_of_harmful {i : Nat} {c : Call} (hcall : w.calls[i]? = some c) (hkey : c.op.key = key)
    (hharm : ∀ d, ¬ Harmless d i c) : ∀ d, d ∉ w.deleted :=
  fun d hd => hharm d ((h.stands d hd).calls i c hcall hkey)

theorem sound_submit (i : Nat) (fate : Fate) (now : Timestamp) :
    Sound sha256 caching key (stepSubmit key w i fate now) := by
  unfold stepSubmit
  split
  · rename_i n k v hcall
    split
    · exact sound_finish h hcall
    · have hcommitted := sound_storeCommitted h now hcall
      cases fate with
      | acked =>
        refine sound_moveTo hcommitted hcall (fun d hd hkey => ?_) (by simp)
        have hk : k = key := hkey
        subst hk
        exact absurd hd (storeCommitted_clears h hcall d)
      | unacked => exact sound_finish hcommitted hcall
      | lost => exact sound_finish h hcall
  · rename_i n k v seen hcall
    have hclear : k = key → ∀ d, d ∉ w.deleted := fun hk => not_deleted_of_harmful h hcall hk (fun _ hf => hf)
    have hrepair : Sound sha256 caching key (w.commit (upsert k v now)) := by
      refine ⟨fun d hd => ?_, anchored_commit h.anchored⟩
      by_cases hk : k = key
      · exact absurd hd (hclear hk d)
      · exact stands_commit (spares_upsert v now hk) (h.stands d hd)
    cases fate with
    | acked | unacked => exact sound_moveTo hrepair hcall (fun d hd hkey => absurd hd (hclear hkey d)) (by simp)
    | lost => exact sound_moveTo h hcall (fun d hd hkey => absurd hd (hclear hkey d)) (by simp)
  · rename_i n k hcall
    have hremoved := sound_commit h (removal k now) spares_removal
    cases fate with
    | acked =>
      refine sound_moveTo hremoved hcall (fun _ _ _ => trivial) ?_
      intro k' r hop hphase
      cases hop
      rcases hphase with hr | hr <;> cases hr
      exact ⟨now, w.log, [], rfl, rfl⟩
    | unacked => exact sound_finish hremoved hcall
    | lost => exact sound_finish h hcall
  · exact h

variable (hsha : ∀ k, cachePath sha256 k = cachePath sha256 key → k = key)

omit h in
include hsha in
theorem cacheRead_mirrorFile (w : World) (n k : String) (ok : Bool) (content : Option Bytes)
    (hw : ∀ m, cacheRead sha256 caching w m key = none) (hk : k = key → content = none) (m : String) :
    cacheRead sha256 caching (mirrorFile sha256 caching w n k ok content) m key = none := by
  unfold mirrorFile
  split
  · unfold cacheRead
    split
    · rename_i hm
      have hold := hw m
      rw [cacheRead, if_pos hm] at hold
      by_cases hmn : m = n
      · subst hmn
        simp only [update_self, update_apply]
        split
        · rename_i hpath
          exact hk (hsha k hpath.symm)
        · exact hold
      · simp only [update_of_ne hmn]
        exact hold
    · rfl
  · exact hw m

include hsha in
theorem sound_mirrorFile (n k : String) (ok : Bool) (content : Option Bytes)
    (hk : k = key → content = none ∨ ∀ d, d ∉ w.deleted) :
    Sound sha256 caching key (mirrorFile sha256 caching w n k ok content) := by
  have hdisk : ∀ d ∈ w.deleted, ∀ m,
      cacheRead sha256 caching (mirrorFile sha256 caching w n k ok content) m key = none :=
    fun d hd => cacheRead_mirrorFile hsha w n k ok content (h.stands d hd).disk
      (fun he => (hk he).resolve_right (fun hnone => hnone d hd))
  unfold mirrorFile at hdisk ⊢
  split
  · rename_i hwrites
    rw [if_pos hwrites] at hdisk
    exact ⟨fun d hd => { h.stands d hd with disk := hdisk d hd }, h.anchored⟩
  · exact h

omit h in
theorem calls_mirrorFile (w : World) (n k : String) (ok : Bool) (content : Option Bytes) :
    (mirrorFile sha256 caching w n k ok content).calls = w.calls := by
  unfold mirrorFile
  split <;> rfl

include hsha in
theorem sound_mirror (i : Nat) (ok : Bool) : Sound sha256 caching key (stepMirror sha256 caching w i ok) := by
  unfold stepMirror
  split
  · rename_i n k v hcall
    refine sound_finish (sound_mirrorFile h hsha n k ok (some v) (fun hk => .inr ?_)) (by rw [calls_mirrorFile, hcall])
    exact not_deleted_of_harmful h hcall hk (fun _ hf => hf)
  · rename_i n k r hcall
    have hmirrored := sound_mirrorFile h hsha n k ok none (fun _ => .inl rfl)
    have hcall' : (mirrorFile sha256 caching w n k ok none).calls[i]? = some ⟨n, .delete k, .removed r⟩ := by
      rw [calls_mirrorFile, hcall]
    refine sound_moveTo hmirrored hcall' (fun _ _ _ => trivial) (fun k' r' hop hphase => ?_)
    cases hop
    rcases hphase with hr | hr <;> cases hr
    exact hmirrored.anchored _ (mem_of_getElem? hcall') k r rfl (.inl rfl)
  · exact h

theorem sound_return {i : Nat} (hquiet : ReturnsQuiet sha256 caching key w (.ret i)) :
    Sound sha256 caching key (stepReturn key w i) := by
  unfold stepReturn
  split
  · rename_i hcall
    exact sound_finish h hcall
  · rename_i n k r hcall
    have hfin := sound_finish h hcall
    refine ⟨?_, hfin.anchored⟩
    intro d hd
    by_cases hk : k = key
    · subst hk
      simp only [if_true, mem_cons] at hd
      rcases hd with rfl | hd
      · obtain ⟨hkey, hdisk, hothers, hlog⟩ := hquiet n r hcall
        have hat := h.anchored _ (mem_of_getElem? hcall) k r rfl (.inr rfl)
        have habsent : AbsentFrom k w r := absentFrom_removal hkey hat hlog
        refine ⟨hdisk, habsent, ?_, by simp [World.moveTo]⟩
        intro j c hc hckey
        rcases getElem?_modify_cases hc with ⟨rfl, a, ha, rfl⟩ | ⟨hij, hother⟩
        · exact harmless_finished _ _ a
        · have hphase := hothers j c (Ne.symm hij) hother hckey
          obtain ⟨m, op, phase⟩ := c
          cases hphase
          exact harmless_finished _ _ ⟨m, op, .finished⟩
      · have hold := hfin.stands d hd
        exact { hold with }
    · simp only [if_neg hk] at hd
      have hold := hfin.stands d hd
      exact { hold with }
  · exact h

theorem sound_begin {node : String} {op : Op} :
    Sound sha256 caching key { w with calls := w.calls ++ [{ node := node, op := op }] } := by
  refine ⟨?_, ?_⟩
  · intro d hd
    have hold := h.stands d hd
    refine ⟨hold.disk, hold.absent, ?_, ?_⟩
    · intro i c hc hkey
      rw [List.getElem?_append] at hc
      split at hc
      · exact hold.calls i c hc hkey
      · rename_i hi
        have hlast : c = { node := node, op := op } := mem_singleton.mp (mem_of_getElem? hc)
        subst hlast
        cases op with
        | store k v => exact hold.since.trans (Nat.le_of_not_lt hi)
        | load k => trivial
        | delete k => trivial
    · rw [length_append]
      exact hold.since.trans (Nat.le_add_right _ _)
  · intro c hc k r hop hphase
    rcases mem_append.mp hc with hc | hc
    · exact h.anchored c hc k r hop hphase
    · rw [mem_singleton] at hc
      subst hc
      rcases hphase with hp | hp <;> cases hp

include hsha in
theorem sound_step (e : Event key) (hquiet : ReturnsQuiet sha256 caching key w e) :
    Sound sha256 caching key (step sha256 caching key w e) ∧ LoadsMiss key w e := by
  cases e with
  | begin node op => exact ⟨sound_begin h, trivial⟩
  | look i => exact ⟨sound_look h, trivial⟩
  | submit i fate now => exact ⟨sound_submit h i fate now, trivial⟩
  | mirror i ok => exact ⟨sound_mirror h hsha i ok, trivial⟩
  | ret i =>
    refine ⟨sound_return h hquiet, ?_⟩
    intro n v seen hcall d hd
    have hseen : seen < d.removal := (h.stands d hd).calls i _ hcall rfl
    exact Nat.not_le.mpr hseen
  | catchUp n =>
    refine ⟨?_, trivial⟩
    simp only [step]
    split
    · exact ⟨fun d hd => { h.stands d hd with }, h.anchored⟩
    · exact h
  | other c => exact ⟨sound_commit h c.command c.frame, trivial⟩

omit h in
theorem deleted_blob_stays_deleted (sha256 : Bytes → Bytes) (caching : String → Bool) (key : String)
    (hsha : ∀ k, cachePath sha256 k = cachePath sha256 key → k = key) (base : State)
    (disk : String → String → Option Bytes) (es : List (Event key))
    (hquiet : Along (step sha256 caching key) (ReturnsQuiet sha256 caching key) { base := base, disk := disk } es) :
    Along (step sha256 caching key) (LoadsMiss key) { base := base, disk := disk } es := by
  have hstart : Sound sha256 caching key { base := base, disk := disk } := ⟨nofun, nofun⟩
  exact (along_of_invariant (step sha256 caching key) (Sound sha256 caching key) (ReturnsQuiet sha256 caching key)
    (LoadsMiss key) (fun _ e h => sound_step h hsha e) _ es hstart hquiet).2

end

namespace Sample

def digest : Bytes :=
  [0x82, 0x54, 0xc3, 0x29, 0xa9, 0x28, 0x50, 0xf6, 0xd5, 0x39, 0xdd, 0x37, 0x6f, 0x48, 0x16, 0xee,
   0x27, 0x64, 0x51, 0x7d, 0xa5, 0xe0, 0x23, 0x55, 0x14, 0xaf, 0x43, 0x31, 0x64, 0x48, 0x0d, 0x7a]

def sha256 (bs : Bytes) : Bytes := if bs = "k".toUTF8.toList then digest else 0 :: bs

def storing (i : Nat) (node : String) (value : Bytes) : List (Event "k") :=
  [.begin node (.store "k" value), .submit i .acked 1, .mirror i true]

def deleting (i : Nat) (node : String) : List (Event "k") :=
  [.begin node (.delete "k"), .submit i .acked 1, .mirror i true, .ret i]

def loading (i : Nat) (node : String) : List (Event "k") :=
  [.catchUp node, .catchUp node, .catchUp node, .begin node (.load "k"), .look i, .look i]

theorem cachePath_unique (k : String) (h : cachePath Sample.sha256 k = cachePath Sample.sha256 "k") : k = "k" := by
  have hdigest := GoStrings.hexEncode_injective h
  rw [Sample.sha256, Sample.sha256, if_pos rfl] at hdigest
  split at hdigest
  · rename_i hbytes
    exact GoStrings.utf8_injective hbytes
  · cases hdigest

theorem disk_cleared (m : String) : cacheRead Sample.sha256 (fun _ => true)
      (run (step Sample.sha256 (fun _ => true) "k") { base := .new }
        (storing 0 "node-a" [1] ++ [.begin "node-a" (.delete "k"), .submit 1 .acked 1, .mirror 1 true])) m "k" =
          none := by
  have hdisk : (run (step Sample.sha256 (fun _ => true) "k") { base := .new }
      (storing 0 "node-a" [1] ++ [.begin "node-a" (.delete "k"), .submit 1 .acked 1, .mirror 1 true])).disk =
        update (update (fun _ _ => none) "node-a"
          (update (fun _ => none) (cachePath Sample.sha256 "k") (some [1]))) "node-a"
          (update (update (fun _ => none) (cachePath Sample.sha256 "k") (some [1]))
            (cachePath Sample.sha256 "k") none) := rfl
  rw [cacheRead, if_pos rfl, hdisk]
  by_cases hm : m = "node-a"
  · subst hm
    simp
  · simp [hm]

end Sample

open Sample in
theorem lone_cache_deletes : Along (step Sample.sha256 (fun _ => true) "k") (LoadsMiss "k") { base := .new }
      (storing 0 "node-a" [1] ++ deleting 1 "node-a" ++ loading 2 "node-b") := by
  refine deleted_blob_stays_deleted Sample.sha256 (fun _ => true) "k" cachePath_unique .new (fun _ _ => none) _ ?_
  refine ⟨trivial, trivial, trivial, trivial, trivial, trivial, ?_,
    trivial, trivial, trivial, trivial, trivial, trivial, trivial⟩
  intro n r hcall
  cases hcall
  refine ⟨by decide, disk_cleared, ?_, ?_⟩
  · intro j c hj hc _
    match j, hc with
    | 0, hc => cases hc; rfl
    | 1, _ => exact absurd rfl hj
  · intro l hl
    cases hl

open Sample in
theorem other_node_brings_it_back :
    ¬ Along (step Sample.sha256 (fun _ => true) "k") (LoadsMiss "k") { base := .new }
      (storing 0 "node-a" [1] ++ storing 1 "node-b" [2] ++ deleting 2 "node-a" ++ loading 3 "node-b" ++
        [.submit 3 .acked 2, .ret 3]) := by
  intro h
  rw [along_iff_split] at h
  have hmiss := h (storing 0 "node-a" [1] ++ storing 1 "node-b" [2] ++ deleting 2 "node-a" ++ loading 3 "node-b" ++
    [.submit 3 .acked 2]) (.ret 3) [] (by simp)
  exact hmiss "node-b" [2] 3 (by decide +kernel) ⟨3, 3⟩ (by decide +kernel) (le_refl 3)

end Jaco.CertStorage
