import Jaco.FsmFrames
import Jaco.Interleaving

namespace Jaco

open Interleaving

/-- What the leader's loops share: the replicated state, the wall clock, whether this node leads, and the
order a range over a Go map happens to take. -/
structure World where
  state : State
  index : Nat
  now : Timestamp
  leader : Bool := true
  order : String → Nat := fun _ => 0

def World.commit (c : Command) (w : World) : World :=
  { w with state := c.apply (w.index + 1) w.state, index := w.index + 1 }

theorem commit_single (w : World) (e : Entry) :
    (w.commit (.single e)).state = applyEntry (w.index + 1) w.state e := by
  change (Command.single e).apply (w.index + 1) w.state = _
  rw [Command.apply_eq_foldl, entries_single]
  rfl

structure Others where
  commands : List Command := []
  elapsed : Nat := 0
  leader : Bool := true
  order : String → Nat := fun _ => 0

def World.disturb (o : Others) (w : World) : World :=
  { o.commands.foldl (fun v c => v.commit c) w with
    now := w.now + o.elapsed
    leader := o.leader
    order := o.order }

def cluster : System World Command Others where
  commit := World.commit
  disturb := World.disturb

def Allows (G : Payload → Prop) (c : Command) : Prop := ∀ e ∈ c.entries, G e.payload

variable {G : Payload → Prop} {Q : State → Prop}

theorem allows_single {e : Entry} (h : G e.payload) : Allows G (.single e) := by
  intro e' he
  rw [entries_single, List.mem_singleton] at he
  exact he ▸ h

theorem allows_batch {identity : String} {ts : Option Timestamp} {cs : List Command}
    (h : ∀ c ∈ cs, Allows G c) : Allows G (.batch identity ts cs) := by
  intro e he
  rw [entries_batch, List.mem_flatMap] at he
  obtain ⟨c, hc, hce⟩ := he
  exact h c hc e hce

theorem allows_mono {G' : Payload → Prop} (hg : ∀ p, G p → G' p) {c : Command} (h : Allows G c) : Allows G' c :=
  fun e he => hg _ (h e he)

theorem commit_keeps
    (h : ∀ idx s e, G e.payload → Q s → Q (applyEntry idx s e)) (c : Command) (w : World) (hc : Allows G c)
    (hw : Q w.state) : Q (w.commit c).state :=
  Command.apply_keeps h (w.index + 1) c hc w.state hw

theorem disturb_keeps (h : ∀ idx s e, G e.payload → Q s → Q (applyEntry idx s e)) (o : Others) (w : World)
    (ho : ∀ c ∈ o.commands, Allows G c) (hw : Q w.state) : Q (w.disturb o).state := by
  change Q (o.commands.foldl (fun v c => v.commit c) w).state
  generalize o.commands = cs at ho ⊢
  induction cs generalizing w with
  | nil => exact hw
  | cons c cs ih =>
    exact ih (w.commit c) (commit_keeps h c w (ho c List.mem_cons_self) hw)
      (fun c' hc' => ho c' (List.mem_cons_of_mem c hc'))

theorem settle_keeps_state
    (h : ∀ idx s e, G e.payload → Q s → Q (applyEntry idx s e)) (c : Command) (w : World) (fate : Fate)
    (hc : Allows G c) (hw : Q w.state) : Q (cluster.settle c w fate).2.state :=
  settle_keeps (R := fun v : World => Q v.state) (G := Allows G) cluster (fun c v hc hv => commit_keeps h c v hc hv)
    c w fate hc hw

def World.listing {α : Type} {keyFn : α → String} (w : World) (s : Store α keyFn) : List α :=
  (s.ranked w.order).items

theorem listing_perm {α : Type} {keyFn : α → String} (w : World) (s : Store α keyFn) : (w.listing s).Perm s.list :=
  (s.ranked w.order).perm

theorem mem_listing {α : Type} {keyFn : α → String} (w : World) (s : Store α keyFn) (v : α) :
    v ∈ w.listing s ↔ s.get (keyFn v) = some v :=
  (listing_perm w s).mem_iff.trans Store.mem_list

abbrev Task := Program World Command

def clock : Task Timestamp := Program.read World.now

end Jaco
