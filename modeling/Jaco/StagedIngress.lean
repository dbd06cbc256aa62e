import Jaco.CertBlobs
import Jaco.StageRuns
import Jaco.TlsPolicies

namespace Jaco.StageFirst

open Runs CertKeys TlsPolicies List

section Visit

variable (now : Timestamp) (a : Answers) (domain : String) (c : Controller)

def Slot.Held (s : Slot) : Prop :=
  s.staging = true ∨ s.pendingProd ≠ none ∨ s.prodBackoff ≠ none ∨ s.backoff ≠ none

theorem visit_configuration : (c.visit now a domain).controller.configuredCA = c.configuredCA ∧
    (c.visit now a domain).controller.skipStaging = c.skipStaging := by
  have hnew : ∀ c : Controller, (c.stageNew now a domain).controller.configuredCA = c.configuredCA ∧
      (c.stageNew now a domain).controller.skipStaging = c.skipStaging := by
    intro c
    simp only [Controller.stageNew]
    split_ifs <;> exact ⟨rfl, rfl⟩
  rw [Controller.visit]
  split
  · simp only [Controller.checkStaged]
    split
    · exact ⟨rfl, rfl⟩
    · split
      · exact ⟨rfl, rfl⟩
      · split <;> exact ⟨rfl, rfl⟩
  · split
    · exact hnew c
    · split
      · rw [Pass.andThen_controller, (hnew (c.converge domain)).1, (hnew (c.converge domain)).2]
        exact ⟨rfl, rfl⟩
      · split <;> exact ⟨rfl, rfl⟩

theorem stageNew_held (hca : isProdCA c.configuredCA = true) (hskip : c.skipStaging = false)
    (ha : a.issuedAgain = false) : ((c.stageNew now a domain).controller.slot domain).Held := by
  have hstage : (shouldStage ⟨domain, c.configuredCA, c.skipStaging, a.issuedAgain⟩).stage = true := by
    simp [shouldStage, hca, hskip, ha]
  simp only [Controller.stageNew, hstage, Bool.not_true, Bool.false_eq_true, if_false]
  split
  · rename_i hb
    refine .inr (.inr (.inl ?_))
    change c.prodBackoff domain ≠ none
    intro hnone
    rw [hnone] at hb
    cases hb
  · split
    · rename_i hb
      refine .inr (.inr (.inr ?_))
      change c.backoff domain ≠ none
      intro hnone
      simp only [hnone] at hb
      cases hb
    · left
      simp [Controller.slot]

theorem visit_held (hca : isProdCA c.configuredCA = true) (hskip : c.skipStaging = false) (ha : a.issued = false)
    (ha' : a.issuedAgain = false) : ((c.visit now a domain).controller.slot domain).Held := by
  rw [Controller.visit]
  split
  · rename_i hs
    simp only [Controller.checkStaged, ha, Bool.false_eq_true, if_false]
    split
    · exact .inl (decide_eq_true hs)
    · split
      · exact .inr (.inr (.inr (by simp [Controller.slot])))
      · exact .inr (.inl (by simp [Controller.slot]))
  · split
    · exact stageNew_held now a domain c hca hskip ha'
    · rename_i till hp
      rw [ha]
      simp only [Bool.false_eq_true, if_false]
      split
      · exact .inr (.inl (by simp [Controller.slot, hp]))
      · exact .inr (.inr (.inl (by simp [Controller.slot])))

theorem decided_pending {s s' : Slot} {notes : List Note} (h : Decided domain now s notes s') :
    s'.pendingProd = s.pendingProd := by
  cases h <;> rfl

theorem visit_pending {other : String} {till : Timestamp}
    (h : (c.visit now a domain).controller.pendingProd other = some till) :
    c.pendingProd other = some till ∨
      other = domain ∧ till = now + pendingProdWindow ∧ .promoted domain ∈ (c.visit now a domain).notes := by
  by_cases hother : other = domain
  · subst hother
    change ((c.visit now a other).controller.slot other).pendingProd = some till at h
    change (c.slot other).pendingProd = some till ∨ _
    generalize hslot : (c.visit now a other).controller.slot other = s' at h
    generalize hnotes : (c.visit now a other).notes = notes
    have hturn := visit_turn now a other c
    rw [hslot, hnotes] at hturn
    cases hturn with
    | converged hs => cases h
    | waiting hs => exact .inl h
    | stageFailed hs err => exact .inl h
    | promoted hs =>
      cases h
      exact .inr ⟨rfl, rfl, by simp⟩
    | expired hs till' hp hpast => cases h
    | landed hs hp hd =>
      rw [decided_pending now other hd] at h
      cases h
    | fresh hs hp hd =>
      rw [decided_pending now other hd] at h
      exact .inl h
  · left
    have hsame := congrArg Slot.pendingProd (visit_other now a domain c hother)
    exact hsame.symm.trans h

theorem stageNew_notes : ∀ n ∈ (c.stageNew now a domain).notes, n ≠ .promoted domain := by
  intro n hn
  have hdecided := stageNew_decided now a domain c
  generalize (c.stageNew now a domain).notes = notes at hn hdecided
  generalize (c.stageNew now a domain).controller.slot domain = s' at hdecided
  cases hdecided with
  | declined issued =>
    rw [mem_singleton.1 hn]
    simp
  | held hpast =>
    rw [mem_singleton.1 hn]
    simp
  | staged hpast =>
    simp only [mem_cons, not_mem_nil, or_false] at hn
    rcases hn with rfl | rfl <;> simp

theorem promoted_passed (h : .promoted domain ∈ (c.visit now a domain).notes) :
    a.selfCheck = none ∧ a.chain ≠ none := by
  rw [Controller.visit] at h
  split at h
  · simp only [Controller.checkStaged] at h
    split at h
    · simp at h
    · split at h
      · simp at h
      · rename_i hchain
        split at h
        · simp at h
        · rename_i hcheck
          exact ⟨hcheck, by rw [hchain]; simp⟩
  · split at h
    · exact absurd rfl (stageNew_notes now a domain c _ h)
    · split at h
      · rw [Pass.andThen_notes, mem_append] at h
        rcases h with h | h
        · simp at h
        · exact absurd rfl (stageNew_notes now a domain _ _ h)
      · split at h <;> simp at h

end Visit

structure Promotion where
  domain : String
  chain : Bytes
  time : Timestamp

/-- A node that leads. `reviewed` are the domains that had no production certificate when the last `Reconcile` came to
them. -/
structure Ingress where
  world : World
  controller : Controller
  promotions : List Promotion := []
  reviewed : List String := []
  acmeEmail : String := ""

namespace Ingress

variable (selfCheck : String → Bytes → Option String)

def issuedProd (s : Ingress) (d : String) : Bool := prodCertIssued (s.world.listing s.world.state.certBlobs) d

def chain (s : Ingress) (d : String) : Option Bytes := loadStagingChain (s.world.listing s.world.state.certBlobs) d

def answers (s : Ingress) (d : String) : Answers where
  issued := s.issuedProd d
  issuedAgain := s.issuedProd d
  chain := s.chain d
  selfCheck := (s.chain d).bind (selfCheck d)

def clearStagingCert (deletes : String → Bool) (d : String) (w : World) : World :=
  ((stagingKeys (w.listing w.state.certBlobs) d).filter deletes).foldl
    (fun w key => w.commit (CertStorage.removal key w.now)) w

def visit (deletes : String → Bool) (s : Ingress) (d : String) : Ingress :=
  let a := s.answers selfCheck d
  let p := s.controller.visit s.world.now a d
  { s with
    world := if .cleared d ∈ p.notes then clearStagingCert deletes d s.world else s.world
    controller := p.controller
    promotions := if .promoted d ∈ p.notes then s.promotions ++ [⟨d, a.chain.getD [], s.world.now⟩] else s.promotions
    reviewed := if a.issued then s.reviewed.filter (· ≠ d) else d :: s.reviewed }

def reconcile (deletes : String → Bool) (s : Ingress) : Ingress :=
  let domains := tlsAutoDomains s.world
  domains.foldl (visit selfCheck deletes)
    { s with controller := (s.controller.sweep domains).controller, reviewed := [] }

def config (s : Ingress) : List Policy :=
  buildTLSPolicies (routeViews s.world)
    { acmeEmail := s.acmeEmail
      acmeCA := s.controller.configuredCA
      acmeStagingCA := leStagingCA
      stagingDomains := stagingDomainsForBuilder s.world s.controller.staging }

inductive Event where
  | commit (c : Command)
  | elapse (time : Nat) (order : String → Nat)
  | reconcile (deletes : String → Bool)
  | rebuild

def step (s : Ingress) : Event → Ingress
  | .commit c => { s with world := s.world.commit c }
  | .elapse time order => { s with world := { s.world with now := s.world.now + time, order := order } }
  | .reconcile deletes => s.reconcile selfCheck deletes
  | .rebuild => s

/-- A domain without a production certificate is put under the production directory within the window of a promotion. -/
def Staged (s : Ingress) : Event → Prop
  | .rebuild => ∀ d, Under s.controller.configuredCA d s.config → s.issuedProd d = false →
      ∃ p ∈ s.promotions, p.domain = d ∧ selfCheck d p.chain = none ∧ p.time ≤ s.world.now ∧
        s.world.now < p.time + pendingProdWindow
  | _ => True

/-- A rebuild comes after the controller has seen its new domains, none of them is past its production window, and one
that failed its self-check still has its chain. -/
def Meets (s : Ingress) : Event → Prop
  | .rebuild => ∀ d ∈ tlsAutoDomains s.world, s.issuedProd d = false →
      d ∈ s.reviewed ∧ (∀ till ∈ s.controller.pendingProd d, s.world.now < till) ∧ s.controller.prodBackoff d = none ∧
        (s.controller.backoff d ≠ none → s.chain d ≠ none)
  | _ => True

instance (s : Ingress) : (e : Event) → Decidable (s.Meets e)
  | .rebuild => by
    dsimp only [Meets]
    infer_instance
  | .commit _ | .elapse _ _ | .reconcile _ => isTrue trivial

structure Sound (s : Ingress) : Prop where
  leads : s.world.leader = true
  prod : isProdCA s.controller.configuredCA = true
  staging : s.controller.skipStaging = false
  held : ∀ d ∈ s.reviewed, (s.controller.slot d).Held
  promoted : ∀ d till, s.controller.pendingProd d = some till → ∃ p ∈ s.promotions, p.domain = d ∧
    selfCheck d p.chain = none ∧ p.time ≤ s.world.now ∧ till = p.time + pendingProdWindow

variable {selfCheck}

theorem clear_now (deletes : String → Bool) (d : String) (w : World) :
    (clearStagingCert deletes d w).now = w.now ∧ (clearStagingCert deletes d w).leader = w.leader := by
  rw [clearStagingCert]
  generalize (stagingKeys (w.listing w.state.certBlobs) d).filter deletes = keys
  induction keys generalizing w with
  | nil => exact ⟨rfl, rfl⟩
  | cons key keys ih => exact ih (w.commit (CertStorage.removal key w.now))

theorem visit_now (deletes : String → Bool) (s : Ingress) (d : String) :
    (s.visit selfCheck deletes d).world.now = s.world.now ∧
    (s.visit selfCheck deletes d).world.leader = s.world.leader := by
  simp only [visit]
  split
  · exact clear_now deletes d s.world
  · exact ⟨rfl, rfl⟩

theorem promotions_visit (deletes : String → Bool) (s : Ingress) (d : String) :
    s.promotions ⊆ (s.visit selfCheck deletes d).promotions := by
  simp only [visit]
  split
  · exact subset_append_left _ _
  · exact List.Subset.refl _

theorem sound_visit {s : Ingress} (h : Sound selfCheck s) (deletes : String → Bool) (d : String) :
    Sound selfCheck (s.visit selfCheck deletes d) := by
  obtain ⟨hnow, hleader⟩ := @visit_now selfCheck deletes s d
  obtain ⟨hca, hskip⟩ := visit_configuration s.world.now (s.answers selfCheck d) d s.controller
  refine ⟨hleader.trans h.leads, ?_, hskip.trans h.staging, fun e he => ?_, fun e till hp => ?_⟩
  · change isProdCA (s.controller.visit s.world.now (s.answers selfCheck d) d).controller.configuredCA = true
    rw [hca]
    exact h.prod
  · change e ∈ (if s.issuedProd d then s.reviewed.filter (· ≠ d) else d :: s.reviewed) at he
    change ((s.controller.visit s.world.now (s.answers selfCheck d) d).controller.slot e).Held
    cases hissued : s.issuedProd d with
    | true =>
      rw [hissued, if_pos rfl, mem_filter, decide_eq_true_eq] at he
      rw [visit_other _ _ _ _ he.2]
      exact h.held e he.1
    | false =>
      rw [hissued, if_neg Bool.false_ne_true, mem_cons] at he
      by_cases hed : e = d
      · rw [hed]
        exact visit_held _ _ _ _ h.prod h.staging hissued hissued
      · rw [visit_other _ _ _ _ hed]
        exact h.held e (he.resolve_left hed)
  · rcases visit_pending _ _ _ _ hp with hold | ⟨rfl, rfl, hnote⟩
    · obtain ⟨p, hmem, hdomain, hcheck, htime, htill⟩ := h.promoted e till hold
      exact ⟨p, promotions_visit deletes s d hmem, hdomain, hcheck, hnow ▸ htime, htill⟩
    · obtain ⟨hcheck, hchain⟩ := promoted_passed _ _ _ _ hnote
      obtain ⟨chain, hchain⟩ := Option.ne_none_iff_exists'.1 hchain
      refine ⟨⟨e, chain, s.world.now⟩, ?_, rfl, ?_, hnow ▸ le_refl _, rfl⟩
      · simp only [visit, if_pos hnote, hchain, Option.getD_some]
        exact mem_append_right _ (mem_singleton_self _)
      · change (s.chain e).bind (selfCheck e) = none at hcheck
        change s.chain e = some chain at hchain
        rw [hchain, Option.bind_some] at hcheck
        exact hcheck

theorem sound_reconcile {s : Ingress} (h : Sound selfCheck s) (deletes : String → Bool) :
    Sound selfCheck (s.reconcile selfCheck deletes) := by
  have hall : ∀ (domains : List String) (s : Ingress), Sound selfCheck s →
      Sound selfCheck (domains.foldl (visit selfCheck deletes) s) := by
    intro domains
    induction domains with
    | nil => exact fun _ hs => hs
    | cons d domains ih => exact fun s hs => ih _ (sound_visit hs deletes d)
  exact hall _ _ { h with held := nofun }

theorem sound_step {s : Ingress} (h : Sound selfCheck s) (e : Event) : Sound selfCheck (s.step selfCheck e) := by
  cases e with
  | commit c => exact { h with }
  | elapse time order =>
    refine { h with promoted := fun d till hp => ?_ }
    obtain ⟨p, hmem, hdomain, hcheck, htime, htill⟩ := h.promoted d till hp
    exact ⟨p, hmem, hdomain, hcheck, htime.trans (Int.le_add_of_nonneg_right (Int.natCast_nonneg time)), htill⟩
  | reconcile deletes => exact sound_reconcile h deletes
  | rebuild => exact h

theorem staged_rebuild {s : Ingress} (h : Sound selfCheck s) (hmeets : s.Meets .rebuild) :
    s.Staged selfCheck .rebuild := by
  intro d hunder hissued
  have hcas : leStagingCA ≠ s.controller.configuredCA := by
    intro hca
    have hprod := h.prod
    rw [← hca] at hprod
    exact absurd hprod (by decide +kernel)
  obtain ⟨hauto, hstaging⟩ := under_prod hcas hunder
  have hd : d ∈ tlsAutoDomains s.world := (mem_tlsAutoDomains s.world d).2 hauto
  obtain ⟨hreviewed, hwindow, hprodBackoff, hchain⟩ := hmeets d hd hissued
  have hnamed : leStagingCA ≠ "" := by decide
  have hout : stagingDomainsForBuilder s.world s.controller.staging d = false := by
    rw [← Bool.not_eq_true]
    exact fun hin => hstaging ⟨hin, hnamed⟩
  rw [stagingDomainsForBuilder, h.leads, Bool.true_and, Bool.or_eq_false_iff, decide_eq_false_iff_not,
    decide_eq_false_iff_not] at hout
  have hnochain : s.chain d = none := by
    by_contra hsome
    refine hout.1 (mem_filter.2 ⟨hd, ?_⟩)
    change (!s.issuedProd d && (s.chain d).isSome) = true
    rw [hissued, Option.isSome_iff_ne_none.2 hsome]
    rfl
  rcases h.held d hreviewed with hs | hp | hb | hb
  · exact absurd (of_decide_eq_true hs) hout.2
  · obtain ⟨till, hp⟩ := Option.ne_none_iff_exists'.1 hp
    obtain ⟨p, hmem, hdomain, hcheck, htime, rfl⟩ := h.promoted d till hp
    exact ⟨p, hmem, hdomain, hcheck, htime, hwindow _ hp⟩
  · exact absurd hprodBackoff hb
  · exact absurd hnochain (hchain hb)

def start (configuredCA : String) (w : World) : Ingress :=
  { world := w, controller := { configuredCA := configuredCA } }

theorem sound_start {configuredCA : String} {w : World} (hprod : isProdCA configuredCA = true)
    (hleads : w.leader = true) : Sound selfCheck (start configuredCA w) where
  leads := hleads
  prod := hprod
  staging := rfl
  held _ hd := absurd hd not_mem_nil
  promoted _ _ hp := absurd hp (by simp [start])

namespace Sample

def route : Route where
  domain := "example.com"
  deployment := "sample"
  service := "web"
  port := 80
  tlsAuto := true
  path := ""
  stripPath := false

def routed : Event := .commit (.single ⟨"ops", none, .routeUpsert (some route)⟩)

def leader : Ingress := start leProdCA { state := .new, index := 0, now := 0 }

def unparsed (domain : String) (_ : Bytes) : Option String :=
  some ("stage self-check \"" ++ domain ++ "\": no CERTIFICATE block in chain")

end Sample

open Ingress.Sample

end Ingress

end Jaco.StageFirst
