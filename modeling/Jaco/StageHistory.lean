import Jaco.StageRuns

namespace Jaco.StageFirst

open Runs List

abbrev History := List (Timestamp × Note)

def failures (d : String) (h : History) : Nat :=
  (h.rtakeWhile (fun x => x.2 ≠ .prodIssued d)).countP (fun x => x.2 matches .prodFailed _ _ && x.2.domain = d)

def issuedSince (d : String) (h : History) : Nat :=
  (h.rtakeWhile (fun x => x.2 ≠ .staged d)).countP (fun x => x.2 = .prodIssued d)

def Open (d : String) (h : History) (t : Timestamp) : Prop :=
  (t, .promoted d) ∈ h.rtakeWhile (fun x => x.2 ≠ .asked d true)

section Snoc

variable (d : String) (h : History) (t : Timestamp)

theorem failures_snoc {n : Note} (hissued : n ≠ .prodIssued d) (hfailed : ∀ r, n ≠ .prodFailed d r) :
    failures d (h ++ [(t, n)]) = failures d h := by
  rw [failures, rtakeWhile_concat_pos _ _ _ (by simpa using hissued), countP_append, failures]
  simp only [countP_singleton]
  cases n <;> simp_all [Note.domain]

theorem failures_issued : failures d (h ++ [(t, .prodIssued d)]) = 0 := by
  rw [failures, rtakeWhile_concat_neg _ _ _ (by simp)]
  rfl

theorem failures_failed (r : Int) : failures d (h ++ [(t, .prodFailed d r)]) = failures d h + 1 := by
  rw [failures, rtakeWhile_concat_pos _ _ _ (by simp), countP_append, failures]
  simp [Note.domain]

theorem issuedSince_snoc {n : Note} (hstaged : n ≠ .staged d) (hissued : n ≠ .prodIssued d) :
    issuedSince d (h ++ [(t, n)]) = issuedSince d h := by
  rw [issuedSince, rtakeWhile_concat_pos _ _ _ (by simpa using hstaged), countP_append, issuedSince]
  simp [hissued]

theorem issuedSince_issued : issuedSince d (h ++ [(t, .prodIssued d)]) = issuedSince d h + 1 := by
  rw [issuedSince, rtakeWhile_concat_pos _ _ _ (by simp), countP_append, issuedSince]
  simp

theorem issuedSince_staged : issuedSince d (h ++ [(t, .staged d)]) = 0 := by
  rw [issuedSince, rtakeWhile_concat_neg _ _ _ (by simp)]
  rfl

variable {d h t}

theorem mem_of_open {p : Timestamp} (hp : Open d h p) : (p, Note.promoted d) ∈ h :=
  (rtakeWhile_suffix _ h).subset hp

theorem open_snoc {n : Note} (hn : n ≠ .promoted d) {p : Timestamp} (hp : Open d (h ++ [(t, n)]) p) : Open d h p := by
  by_cases hasked : n = .asked d true
  · rw [Open, rtakeWhile_concat_neg _ _ _ (by simpa using hasked)] at hp
    cases hp
  · rw [Open, rtakeWhile_concat_pos _ _ _ (by simpa using hasked), mem_append, mem_singleton] at hp
    rcases hp with hp | hp
    · exact hp
    · cases hp
      exact absurd rfl hn

theorem open_promoted {p : Timestamp} (hp : Open d (h ++ [(t, .promoted d)]) p) : Open d h p ∨ p = t := by
  rw [Open, rtakeWhile_concat_pos _ _ _ (by simp), mem_append, mem_singleton] at hp
  rcases hp with hp | hp
  · exact .inl hp
  · cases hp
    exact .inr rfl

theorem not_open_answered (p : Timestamp) : ¬ Open d (h ++ [(t, .asked d true)]) p := by
  rw [Open, rtakeWhile_concat_neg _ _ _ (by simp)]
  exact not_mem_nil

end Snoc

def nextPromotion (t : Timestamp) (k : Nat) : Timestamp := t + pendingProdWindow + prodBackoffFor k

structure Lawful (d : String) (h : History) : Prop where
  once : ∀ pre, pre <+: h → issuedSince d pre ≤ 1
  spaced : ∀ pre t₂ post, h = pre ++ (t₂, .promoted d) :: post →
    ∀ t₁, Open d pre t₁ → nextPromotion t₁ (failures d pre) ≤ t₂

theorem lawful_snoc {d : String} {h : History} {t : Timestamp} {n : Note} (hlaw : Lawful d h)
    (honce : issuedSince d (h ++ [(t, n)]) ≤ 1)
    (hspaced : n = .promoted d → ∀ t₁, Open d h t₁ → nextPromotion t₁ (failures d h) ≤ t) :
    Lawful d (h ++ [(t, n)]) := by
  refine ⟨fun pre hpre => ?_, fun pre t₂ post hsplit t₁ hopen => ?_⟩
  · rcases prefix_concat_iff.1 hpre with rfl | hpre
    · exact honce
    · exact hlaw.once pre hpre
  · rcases eq_nil_or_concat post with rfl | ⟨post, last, rfl⟩
    · obtain ⟨rfl, hlast⟩ := append_inj' hsplit rfl
      cases hlast
      exact hspaced rfl t₁ hopen
    · rw [concat_eq_append, ← cons_append, ← append_assoc] at hsplit
      exact hlaw.spaced pre t₂ post (append_inj' hsplit rfl).1 t₁ hopen

inductive Waits (s : Slot) (h : History) (t : Timestamp) : Prop where
  | pending (till : Timestamp) (hp : s.pendingProd = some till) (hle : t + pendingProdWindow ≤ till)
  | backingOff (till : Timestamp) (hp : s.pendingProd = none) (hs : s.staging = false) (hb : s.prodBackoff = some till)
      (hle : nextPromotion t s.prodFails ≤ till)
  | passed (hp : s.pendingProd = none) (time : Timestamp) (hat : ∃ n, (time, n) ∈ h)
    (hle : nextPromotion t s.prodFails ≤ time)

structure Kept (d : String) (s : Slot) (h : History) : Prop where
  lawful : Lawful d h
  apart : s.staging = true → s.pendingProd = none
  fails : s.prodFails = failures d h
  quiet : s.staging = true ∨ s.pendingProd ≠ none → issuedSince d h = 0
  waits : ∀ t, Open d h t → Waits s h t

theorem waits_later {s : Slot} {h : History} {t : Timestamp} (x : Timestamp × Note) (hw : Waits s h t) :
    Waits s (h ++ [x]) t := by
  cases hw with
  | pending till hp hle => exact .pending till hp hle
  | backingOff till hp hs hb hle => exact .backingOff till hp hs hb hle
  | passed hp time hat hle =>
    obtain ⟨n, hn⟩ := hat
    exact .passed hp time ⟨n, mem_append_left _ hn⟩ hle

section Steps

variable {d : String} {s : Slot} {h : History} {t : Timestamp}

variable (hkept : Kept d s h)

include hkept

theorem kept_note {n : Note} (hstaged : n ≠ .staged d) (hissued : n ≠ .prodIssued d)
    (hfailed : ∀ r, n ≠ .prodFailed d r) (hpromoted : n ≠ .promoted d) : Kept d s (h ++ [(t, n)]) where
  lawful := by
    refine lawful_snoc hkept.lawful ?_ (fun hn => absurd hn hpromoted)
    rw [issuedSince_snoc d h t hstaged hissued]
    exact hkept.lawful.once h (prefix_refl h)
  apart := hkept.apart
  fails := by rw [failures_snoc d h t hissued hfailed, hkept.fails]
  quiet hq := by rw [issuedSince_snoc d h t hstaged hissued, hkept.quiet hq]
  waits p hp := waits_later _ (hkept.waits p (open_snoc hpromoted hp))

theorem kept_asked (issued : Bool) : Kept d s (h ++ [(t, .asked d issued)]) :=
  kept_note hkept (by simp) (by simp) (by simp) (by simp)

theorem kept_issued (hactive : s.staging = true ∨ s.pendingProd ≠ none) :
    Kept d { s.converge with staging := false } (h ++ [(t, .asked d true)] ++ [(t, .prodIssued d)]) where
  lawful := by
    refine lawful_snoc (kept_asked hkept true).lawful ?_ (fun hn => by cases hn)
    rw [issuedSince_issued, (kept_asked hkept true).quiet hactive]
  apart _ := rfl
  fails := (failures_issued d _ t).symm
  quiet hq := by simp [Slot.converge] at hq
  waits p hp := absurd (open_snoc (by simp) hp) (not_open_answered p)

theorem kept_dropped (b : Option Timestamp) : Kept d { s with staging := false, backoff := b } h := by
  refine ⟨hkept.lawful, fun hs => (by cases hs), hkept.fails, fun hq => hkept.quiet ?_, fun p hp => ?_⟩
  · exact .inr (hq.resolve_left (by simp))
  · cases hkept.waits p hp with
    | pending till hp hle => exact .pending till hp hle
    | backingOff till hp hs hb hle => exact .backingOff till hp rfl hb hle
    | passed hp time hat hle => exact .passed hp time hat hle

theorem staging_over (hs : s.staging = true) (hnow : ∀ x ∈ h, x.1 ≤ t) {p : Timestamp}
    (hp : Open d h p) : nextPromotion p (failures d h) ≤ t := by
  rw [← hkept.fails]
  cases hkept.waits p hp with
  | pending till hpend hle =>
    rw [hkept.apart hs] at hpend
    cases hpend
  | backingOff till hpend hs' hb hle =>
    rw [hs] at hs'
    cases hs'
  | passed hpend time hat hle =>
    obtain ⟨n, hn⟩ := hat
    exact hle.trans (hnow _ hn)

theorem kept_promoted (hs : s.staging = true) (hnow : ∀ x ∈ h, x.1 ≤ t) :
    Kept d { s with staging := false, pendingProd := some (t + pendingProdWindow) } (h ++ [(t, .promoted d)]) where
  lawful := by
    refine lawful_snoc hkept.lawful ?_ (fun _ p hp => staging_over hkept hs hnow hp)
    rw [issuedSince_snoc d h t (by simp) (by simp)]
    exact hkept.lawful.once h (prefix_refl h)
  apart hs' := by cases hs'
  fails := by rw [failures_snoc d h t (by simp) (by simp), hkept.fails]
  quiet _ := by rw [issuedSince_snoc d h t (by simp) (by simp), hkept.quiet (.inl hs)]
  waits p hp := by
    have hle : p ≤ t := by
      rcases open_promoted hp with hp | rfl
      · exact hnow _ (mem_of_open hp)
      · exact le_refl p
    exact .pending _ rfl (Int.add_le_add_right hle _)

theorem kept_expired (hs : s.staging = false) {till : Timestamp} (hp : s.pendingProd = some till)
    (hpast : till ≤ t) (r : Int) :
    Kept d { s with
        pendingProd := none
        prodFails := s.prodFails + 1
        prodBackoff := some (t + prodBackoffFor ↑(s.prodFails + 1)) } (h ++ [(t, .prodFailed d r)]) where
  lawful := by
    refine lawful_snoc hkept.lawful ?_ (fun hn => by cases hn)
    rw [issuedSince_snoc d h t (by simp) (by simp)]
    exact hkept.lawful.once h (prefix_refl h)
  apart _ := rfl
  fails := by rw [failures_failed, hkept.fails]
  quiet hq := by simp [hs] at hq
  waits p hopen := by
    have hwindow : p + pendingProdWindow ≤ t := by
      cases hkept.waits p (open_snoc (by simp) hopen) with
      | pending till' hp' hle =>
        rw [hp] at hp'
        cases hp'
        exact hle.trans hpast
      | backingOff till' hp' _ _ _ =>
        rw [hp] at hp'
        cases hp'
      | passed hp' _ _ _ =>
        rw [hp] at hp'
        cases hp'
    exact .backingOff _ rfl hs rfl (Int.add_le_add_right hwindow _)

theorem kept_held (hseen : ∃ n, (t, n) ∈ h) (hpast : ∀ till ∈ s.prodBackoff, till ≤ t) :
    Kept d { s with prodBackoff := none } h := by
  refine ⟨hkept.lawful, hkept.apart, hkept.fails, hkept.quiet, fun p hp => ?_⟩
  cases hkept.waits p hp with
  | pending till hp hle => exact .pending till hp hle
  | backingOff till hp hs hb hle => exact .passed hp t hseen (hle.trans (hpast till hb))
  | passed hp time hat hle => exact .passed hp time hat hle

theorem kept_staged (hpend : s.pendingProd = none) (hseen : ∃ n, (t, n) ∈ h)
    (hpast : ∀ till ∈ s.prodBackoff, till ≤ t) :
    Kept d { s with staging := true, prodBackoff := none, backoff := none } (h ++ [(t, .staged d)]) where
  lawful := by
    refine lawful_snoc hkept.lawful ?_ (fun hn => by cases hn)
    rw [issuedSince_staged]
    exact Nat.zero_le 1
  apart _ := hpend
  fails := by rw [failures_snoc d h t (by simp) (by simp), hkept.fails]
  quiet _ := issuedSince_staged d h t
  waits p hp := by
    cases (kept_held hkept hseen hpast).waits p (open_snoc (by simp) hp) with
    | pending till hp' hle =>
      rw [hpend] at hp'
      cases hp'
    | backingOff till hp' hs hb hle => cases hb
    | passed hp' time hat hle =>
      obtain ⟨n, hn⟩ := hat
      exact .passed hp' time ⟨n, mem_append_left _ hn⟩ hle

end Steps

def stamp (t : Timestamp) (notes : List Note) : History := notes.map (t, ·)

section Turns

variable {d : String} {s s' : Slot} {h : History} {t : Timestamp} {notes : List Note}

theorem kept_decided (hkept : Kept d s h) (hpend : s.pendingProd = none) (hd : Decided d t s notes s') :
    Kept d s' (h ++ stamp t notes) := by
  have hseen : ∃ n, (t, n) ∈ h ++ [(t, Note.asked d false)] := ⟨_, mem_append_right _ (mem_singleton_self _)⟩
  cases hd with
  | declined issued => exact kept_asked hkept issued
  | held hpast => exact kept_held (kept_asked hkept false) hseen hpast
  | staged hpast =>
    have hstaged := kept_staged (kept_asked (t := t) hkept false) hpend hseen hpast
    rw [append_assoc] at hstaged
    exact hstaged

theorem kept_turn (hkept : Kept d s h) (hnow : ∀ x ∈ h, x.1 ≤ t) (hturn : Turn d t s notes s') :
    Kept d s' (h ++ stamp t notes) := by
  have hasked : ∀ x ∈ h ++ [(t, Note.asked d false)], x.1 ≤ t := Runs.forall_mem_snoc hnow le_rfl
  cases hturn with
  | converged hs =>
    have hissued := kept_issued (t := t) hkept (.inl hs)
    rw [append_assoc] at hissued
    exact hissued
  | waiting hactive => exact kept_asked hkept false
  | stageFailed hs err =>
    have hnote : Kept d s (h ++ [(t, .asked d false)] ++ [(t, .stageFailed d err)]) :=
      kept_note (kept_asked hkept false) (by simp) (by simp) (by simp) (by simp)
    have hfailed := kept_dropped hnote (some (t + backoffWindow))
    rw [append_assoc] at hfailed
    exact hfailed
  | promoted hs =>
    have hcleared : Kept d s (h ++ [(t, .asked d false)] ++ [(t, .cleared d)]) :=
      kept_note (kept_asked hkept false) (by simp) (by simp) (by simp) (by simp)
    have hcleared' : ∀ x ∈ h ++ [(t, Note.asked d false)] ++ [(t, .cleared d)], x.1 ≤ t :=
      Runs.forall_mem_snoc hasked le_rfl
    have hpromoted := kept_promoted hcleared hs hcleared'
    rw [append_assoc, append_assoc] at hpromoted
    exact hpromoted
  | expired hs till hp hpast =>
    have hexpired := kept_expired (t := t) (kept_asked (t := t) hkept false) hs hp hpast
      (prodBackoffFor ↑(s.prodFails + 1))
    rw [append_assoc] at hexpired
    exact hexpired
  | landed hs hp hd =>
    have hissued := kept_issued (t := t) hkept (.inr hp)
    have hsame : { s.converge with staging := false } = s.converge := by
      rw [Slot.converge, hs]
    rw [hsame] at hissued
    have hdecided := kept_decided hissued rfl hd
    rw [append_assoc, append_assoc] at hdecided
    exact hdecided
  | fresh hs hp hd => exact kept_decided hkept hp hd

theorem kept_others (hkept : Kept d s h) (hother : ∀ n ∈ notes, n.domain ≠ d) : Kept d s (h ++ stamp t notes) := by
  induction notes generalizing h with
  | nil =>
    rw [stamp, map_nil, append_nil]
    exact hkept
  | cons n notes ih =>
    have hne := hother n mem_cons_self
    have hnote : Kept d s (h ++ [(t, n)]) := by
      refine kept_note hkept ?_ ?_ ?_ ?_
      · rintro rfl
        exact hne rfl
      · rintro rfl
        exact hne rfl
      · rintro r rfl
        exact hne rfl
      · rintro rfl
        exact hne rfl
    have hrest := ih hnote (fun m hm => hother m (mem_cons_of_mem n hm))
    rw [append_assoc] at hrest
    exact hrest

theorem turn_domain (hturn : Turn d t s notes s') : ∀ n ∈ notes, n.domain = d := by
  have hdecided : ∀ {s s' : Slot} {notes : List Note}, Decided d t s notes s' → ∀ n ∈ notes, n.domain = d := by
    intro s s' notes hd
    cases hd <;> simp [Note.domain]
  cases hturn with
  | landed hs hp hd =>
    intro n hn
    rcases mem_append.1 hn with hn | hn
    · simp only [mem_cons, not_mem_nil, or_false] at hn
      rcases hn with rfl | rfl <;> rfl
    · exact hdecided hd n hn
  | fresh hs hp hd => exact hdecided hd
  | _ => simp [Note.domain]

end Turns

section Calls

variable {d : String} {c : Controller} {h : History} {t : Timestamp}

theorem kept_visit (hkept : Kept d (c.slot d) h) (hnow : ∀ x ∈ h, x.1 ≤ t) (a : Answers) (domain : String) :
    Kept d ((c.visit t a domain).controller.slot d) (h ++ stamp t (c.visit t a domain).notes) := by
  have hturn := visit_turn t a domain c
  by_cases hd : d = domain
  · subst hd
    exact kept_turn hkept hnow hturn
  · rw [visit_other t a domain c hd]
    exact kept_others hkept (fun n hn hdomain => hd (hdomain.symm.trans (turn_domain hturn n hn)))

theorem stamp_append (t : Timestamp) (ms ns : List Note) : stamp t (ms ++ ns) = stamp t ms ++ stamp t ns :=
  map_append

theorem stamped_le (hnow : ∀ x ∈ h, x.1 ≤ t) (notes : List Note) : ∀ x ∈ h ++ stamp t notes, x.1 ≤ t := by
  intro x hx
  rcases mem_append.1 hx with hx | hx
  · exact hnow x hx
  · obtain ⟨n, -, rfl⟩ := mem_map.1 hx
    exact le_refl t

theorem kept_sweep (hkept : Kept d (c.slot d) h) (domains : List String) :
    Kept d ((c.sweep domains).controller.slot d) h := by
  by_cases hlive : d ∈ domains
  · have hslot : (c.sweep domains).controller.slot d = c.slot d := by simp [Controller.slot, Controller.sweep, hlive]
    rw [hslot]
    exact hkept
  · have hslot : (c.sweep domains).controller.slot d = { c.slot d with staging := false, backoff := c.backoff d } := by
      simp [Controller.slot, Controller.sweep, hlive]
    rw [hslot]
    exact kept_dropped hkept _

theorem kept_reconcile (hkept : Kept d (c.slot d) h) (tick : Tick) (hnow : ∀ x ∈ h, x.1 ≤ tick.now) :
    Kept d ((c.reconcile tick).controller.slot d) (h ++ stamp tick.now (c.reconcile tick).notes) := by
  have hall : ∀ (domains : List String) (p : Pass), Kept d (p.controller.slot d) (h ++ stamp tick.now p.notes) →
      let q := domains.foldl (fun p e => p.andThen (Controller.visit tick.now (tick.answers e) e)) p
      Kept d (q.controller.slot d) (h ++ stamp tick.now q.notes) := by
    intro domains
    induction domains with
    | nil => exact fun _ hp => hp
    | cons e domains ih =>
      intro p hp
      refine ih _ ?_
      rw [Pass.andThen_controller, Pass.andThen_notes, stamp_append, ← append_assoc]
      exact kept_visit hp (stamped_le hnow p.notes) (tick.answers e) e
  refine hall tick.domains (c.sweep tick.domains) ?_
  have hnil : stamp tick.now (c.sweep tick.domains).notes = [] := rfl
  rw [hnil, append_nil]
  exact kept_sweep hkept tick.domains

end Calls

structure Desk where
  controller : Controller
  history : History := []

def Desk.tick (s : Desk) (t : Tick) : Desk :=
  let p := s.controller.reconcile t
  ⟨p.controller, s.history ++ stamp t.now p.notes⟩

def Desk.fresh (configuredCA : String) (skipStaging : Bool) : Desk :=
  ⟨{ configuredCA := configuredCA, skipStaging := skipStaging }, []⟩

theorem kept_fresh (ca : String) (skip : Bool) (d : String) : Kept d ((Desk.fresh ca skip).controller.slot d) [] where
  lawful := by
    refine ⟨fun pre hpre => ?_, fun pre t₂ post hsplit => ?_⟩
    · rw [prefix_nil.1 hpre]
      exact Nat.zero_le 1
    · simp at hsplit
  apart _ := rfl
  fails := rfl
  quiet _ := rfl
  waits t ht := absurd (mem_of_open ht) not_mem_nil

theorem kept_run (d : String) (ticks : List Tick) (s : Desk) (hkept : Kept d (s.controller.slot d) s.history)
    (hclock : ticks.Pairwise (·.now ≤ ·.now)) (hpast : ∀ x ∈ s.history, ∀ t ∈ ticks, x.1 ≤ t.now) :
    Kept d ((run Desk.tick s ticks).controller.slot d) (run Desk.tick s ticks).history := by
  induction ticks generalizing s with
  | nil => exact hkept
  | cons t ticks ih =>
    have hnow : ∀ x ∈ s.history, x.1 ≤ t.now := fun x hx => hpast x hx t mem_cons_self
    obtain ⟨hfirst, hrest⟩ := pairwise_cons.1 hclock
    refine ih (s.tick t) (kept_reconcile hkept t hnow) hrest (fun x hx t' ht' => ?_)
    exact (stamped_le hnow _ x hx).trans (hfirst t' ht')

theorem reconcile_runs (configuredCA : String) (skipStaging : Bool) (ticks : List Tick)
    (hclock : ticks.Pairwise (·.now ≤ ·.now)) (d : String) :
    let s := run Desk.tick (Desk.fresh configuredCA skipStaging) ticks
    ¬ (d ∈ s.controller.staging ∧ (s.controller.pendingProd d).isSome) ∧
      (s.controller.prodFails d = failures d s.history ∧
        ∀ pre t₂ post, s.history = pre ++ (t₂, .promoted d) :: post → ∀ t₁, Open d pre t₁ →
          t₁ + pendingProdWindow + prodBackoffFor (failures d pre) ≤ t₂) ∧
      (∀ pre post, s.history = pre ++ post → issuedSince d pre ≤ 1) ∧
      ∀ k, 1 ≤ k → prodBackoffFor k = min (15 * minute * 2 ^ (k - 1).toNat) (60 * minute) := by
  intro s
  have hkept : Kept d (s.controller.slot d) s.history :=
    kept_run d ticks _ (kept_fresh configuredCA skipStaging d) hclock nofun
  refine ⟨?_, ⟨hkept.fails, hkept.lawful.spaced⟩, fun pre post hsplit => ?_, prodBackoffFor_eq⟩
  · rintro ⟨hstaging, hpending⟩
    have hnone : s.controller.pendingProd d = none := hkept.apart (decide_eq_true hstaging)
    rw [hnone] at hpending
    cases hpending
  · exact hkept.lawful.once pre ⟨post, hsplit.symm⟩

namespace Sample

def call (now : Timestamp) (a : Answers) : Tick := ⟨now, ["example.com"], nodup_singleton _, fun _ => a⟩

def lapsed : List Tick :=
  [call 0 {}, call minute { chain := some [] }, call (6 * minute) {}, call (21 * minute) {},
    call (21 * minute) { chain := some [] }]

end Sample

theorem lapsed_promotes_again : let s := run Desk.tick (Desk.fresh "" false) Sample.lapsed
    (s.history.filter (·.2 = .promoted "example.com")).map (·.1) = [minute, 21 * minute] ∧
      ∀ pre t₂ post, s.history = pre ++ (t₂, .promoted "example.com") :: post → ∀ t₁, Open "example.com" pre t₁ →
        t₁ + pendingProdWindow + prodBackoffFor (failures "example.com" pre) ≤ t₂ :=
  ⟨by decide +kernel, (reconcile_runs "" false Sample.lapsed (by decide +kernel) "example.com").2.1.2⟩

end Jaco.StageFirst
