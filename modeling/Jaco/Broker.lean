import Mathlib

/-!
A bounded queue between a publisher that never blocks and one subscriber. When the queue is full the publisher
drops the oldest note, queues a resync and discards what it meant to publish; the subscriber may take notes at any
point in between.
-/

namespace Jaco.Watch

open List

def defaultBuffer : Nat := 256

def newBroker (buffer : Int) : Nat := if buffer ≤ 0 then defaultBuffer else buffer.toNat

inductive Note (α : Type) where
  | event (a : α)
  | resync
  deriving DecidableEq

inductive Publishing (α : Type) where
  | idle
  | offer (a : α)
  | drop
  | resync
  deriving DecidableEq

structure Subscription (α : Type) where
  buffer : Nat
  queue : List (Note α) := []
  publishing : Publishing α := .idle
  deriving DecidableEq

namespace Subscription

variable {α : Type}

def publish (s : Subscription α) (a : α) : Subscription α := { s with publishing := .offer a }

def advance (s : Subscription α) : Subscription α :=
  match s.publishing with
  | .idle => s
  | .offer a =>
    if s.queue.length < s.buffer then { s with queue := s.queue ++ [.event a], publishing := .idle }
    else { s with publishing := .drop }
  | .drop => { s with queue := s.queue.tail, publishing := .resync }
  | .resync =>
    if s.queue.length < s.buffer then { s with queue := s.queue ++ [.resync], publishing := .idle }
    else { s with publishing := .idle }

def take (s : Subscription α) : Subscription α := { s with queue := s.queue.tail }

def overflows (s : Subscription α) : Bool :=
  match s.publishing with
  | .offer _ => s.buffer ≤ s.queue.length
  | _ => false

def notes (s : Subscription α) : List (Note α) :=
  s.queue ++ match s.publishing with
    | .idle => []
    | .offer a => [.event a]
    | .drop => [.resync]
    | .resync => [.resync]

structure Roomy (s : Subscription α) : Prop where
  pos : 0 < s.buffer
  le : s.queue.length ≤ s.buffer
  room : s.publishing = .resync → s.queue.length < s.buffer

def Calm (s : Subscription α) : Prop := s.publishing ≠ .drop ∧ s.publishing ≠ .resync

def Underway (s : Subscription α) (a : α) : Prop := .event a ∈ s.queue ∨ s.publishing = .offer a

variable {s : Subscription α} {a : α}

theorem underway_publish {b : α} (h : (s.publish a).Underway b) : s.Underway b ∨ b = a := by
  rcases h with h | h
  · exact .inl (.inl h)
  · exact .inr (Publishing.offer.inj h).symm

theorem underway_advance (h : s.advance.Underway a) : s.Underway a := by
  unfold advance at h
  cases hp : s.publishing with
  | idle =>
    simp only [hp] at h
    exact h
  | offer b =>
    simp only [hp] at h
    split at h
    · rcases h with h | h
      · rcases mem_append.mp h with h | h
        · exact .inl h
        · rw [mem_singleton] at h
          cases h
          exact .inr hp
      · cases h
    · rcases h with h | h
      · exact .inl h
      · cases h
  | drop =>
    simp only [hp] at h
    rcases h with h | h
    · exact .inl (mem_of_mem_tail h)
    · cases h
  | resync =>
    simp only [hp] at h
    split at h
    · rcases h with h | h
      · rcases mem_append.mp h with h | h
        · exact .inl h
        · rw [mem_singleton] at h
          cases h
      · cases h
    · rcases h with h | h
      · exact .inl h
      · cases h

theorem underway_take (h : s.take.Underway a) : s.Underway a :=
  h.imp_left mem_of_mem_tail

theorem Roomy.take (h : s.Roomy) : s.take.Roomy := by
  have hlen : s.queue.tail.length ≤ s.queue.length := by simp
  exact ⟨h.pos, hlen.trans h.le, fun hp => Nat.lt_of_le_of_lt hlen (h.room hp)⟩

theorem Roomy.publish (h : s.Roomy) (a : α) : (s.publish a).Roomy :=
  ⟨h.pos, h.le, nofun⟩

theorem Roomy.advance (h : s.Roomy) : s.advance.Roomy := by
  unfold Subscription.advance
  split
  · exact h
  · split
    · rename_i hlt
      exact ⟨h.pos, by simpa using hlt, nofun⟩
    · exact ⟨h.pos, h.le, nofun⟩
  · have hpos := h.pos
    have hle := h.le
    refine ⟨hpos, ?_, fun _ => ?_⟩
    · simp only [length_tail]
      omega
    · simp only [length_tail]
      omega
  · split
    · rename_i hlt
      exact ⟨h.pos, by simpa using hlt, nofun⟩
    · exact ⟨h.pos, h.le, nofun⟩

theorem Calm.advance (h : s.Calm) (ho : s.overflows = false) : s.advance.Calm := by
  cases hp : s.publishing with
  | idle =>
    rw [Subscription.advance, hp]
    exact h
  | offer a =>
    have hlt : s.queue.length < s.buffer := by simpa [overflows, hp] using ho
    simp [Subscription.advance, hp, hlt, Calm]
  | drop => exact absurd hp h.1
  | resync => exact absurd hp h.2

theorem notes_advance (h : s.Roomy) :
    s.advance.notes = s.notes ∨ ((s.overflows = true ∨ ¬ s.Calm) ∧ ∃ ns, s.advance.notes = ns ++ [.resync]) := by
  unfold Subscription.advance
  cases hp : s.publishing with
  | idle => exact .inl rfl
  | offer a =>
    dsimp only
    split
    · left
      simp [notes, hp]
    · rename_i hlt
      right
      refine ⟨.inl ?_, s.queue, rfl⟩
      simpa [overflows, hp] using hlt
  | drop =>
    right
    exact ⟨.inr (fun hc => hc.1 hp), s.queue.tail, rfl⟩
  | resync =>
    rw [if_pos (h.room hp)]
    left
    simp [notes, hp]

theorem notes_advance_ne_nil (h : s.Roomy) (hn : s.notes ≠ []) : s.advance.notes ≠ [] := by
  rcases notes_advance h with he | ⟨-, ns, he⟩
  · rwa [he]
  · rw [he]
    simp

theorem notes_publish_ne_nil (s : Subscription α) (a : α) : (s.publish a).notes ≠ [] := by
  simp [publish, notes]

end Subscription

end Jaco.Watch
