import Jaco.Entities
import Jaco.GoStrings

/-!
The stage-first controller: a new domain is issued against the staging directory first, and goes to production once its
staging chain passes a self-check.
-/

namespace Jaco.StageFirst

open Function

def leProdCA : String := "https://acme-v02.api.letsencrypt.org/directory"

def leStagingCA : String := "https://acme-staging-v02.api.letsencrypt.org/directory"

def isProdCA (ca : String) : Bool :=
  let c := String.ofList (GoStrings.trimSpace ca.toList)
  c = "" || c = leProdCA

structure Decision where
  stage : Bool
  stagingCA : String := ""
  prodCA : String
  reason : String

structure Params where
  domain : String
  configuredCA : String
  skipStaging : Bool
  alreadyIssued : Bool

def shouldStage (p : Params) : Decision :=
  let prod := if p.configuredCA = "" then leProdCA else p.configuredCA
  if !isProdCA p.configuredCA then
    { stage := false, prodCA := prod, reason := "configured CA is already non-prod; staging skipped" }
  else if p.skipStaging then
    { stage := false, prodCA := prod, reason := "acme_skip_staging set; issuing directly against prod" }
  else if p.alreadyIssued then
    { stage := false, prodCA := prod, reason := "domain already has a cert; no staging dry-run needed" }
  else
    { stage := true, stagingCA := leStagingCA, prodCA := prod,
      reason := "new domain on prod CA; staging dry-run first" }

theorem shouldStage_issued {p : Params} (h : p.alreadyIssued = true) : (shouldStage p).stage = false := by
  simp only [shouldStage, h, if_true]
  split <;> [rfl; split <;> rfl]

def minute : Int := 60 * 10 ^ 9

def backoffWindow : Int := 60 * minute

def pendingProdWindow : Int := 5 * minute

def prodBackoffBase : Int := 15 * minute

def prodBackoffMax : Int := 60 * minute

/-- The shift is one of a 64-bit integer, which drops what goes past the top. -/
def prodBackoffFor (n : Int) : Int :=
  if n ≤ 0 then prodBackoffBase
  else
    let d := (BitVec.ofInt 64 prodBackoffBase <<< (n - 1).toNat).toInt
    if d ≤ 0 ∨ prodBackoffMax < d then prodBackoffMax else d

structure Controller where
  configuredCA : String := ""
  skipStaging : Bool := false
  staging : Finset String := ∅
  backoff : String → Option Timestamp := fun _ => none
  prodFails : String → Nat := fun _ => 0
  prodBackoff : String → Option Timestamp := fun _ => none
  pendingProd : String → Option Timestamp := fun _ => none

/-- What the callbacks answer in a visit to one domain; `IssuedProd` is asked again before the staging decision. -/
structure Answers where
  issued : Bool := false
  issuedAgain : Bool := false
  chain : Option Bytes := none
  selfCheck : Option String := none

inductive Note where
  | asked (domain : String) (issued : Bool)
  | staged (domain : String)
  | stageFailed (domain err : String)
  | cleared (domain : String)
  | promoted (domain : String)
  | prodIssued (domain : String)
  | prodFailed (domain : String) (retryAfter : Int)
  deriving DecidableEq

def Note.domain : Note → String
  | .asked domain _ | .staged domain | .stageFailed domain _ | .cleared domain | .promoted domain | .prodIssued domain
  | .prodFailed domain _ => domain

structure Pass where
  controller : Controller
  notes : List Note := []
  changed : Bool := false

def Pass.andThen (p : Pass) (f : Controller → Pass) : Pass :=
  let q := f p.controller
  ⟨q.controller, p.notes ++ q.notes, p.changed || q.changed⟩

@[simp] theorem Pass.andThen_controller (p : Pass) (f : Controller → Pass) :
    (p.andThen f).controller = (f p.controller).controller := rfl

@[simp] theorem Pass.andThen_notes (p : Pass) (f : Controller → Pass) :
    (p.andThen f).notes = p.notes ++ (f p.controller).notes := rfl

namespace Controller

def converge (c : Controller) (domain : String) : Controller :=
  { c with
    pendingProd := update c.pendingProd domain none
    prodFails := update c.prodFails domain 0
    prodBackoff := update c.prodBackoff domain none }

def checkStaged (now : Timestamp) (a : Answers) (domain : String) (c : Controller) : Pass :=
  let left := { c with staging := c.staging.erase domain }
  if a.issued then ⟨left.converge domain, [.asked domain true, .prodIssued domain], true⟩
  else
    match a.chain with
    | none => ⟨c, [.asked domain false], false⟩
    | some _ =>
      match a.selfCheck with
      | some err =>
        ⟨{ left with backoff := update c.backoff domain (some (now + backoffWindow)) },
          [.asked domain false, .stageFailed domain err], true⟩
      | none =>
        ⟨{ left with pendingProd := update c.pendingProd domain (some (now + pendingProdWindow)) },
          [.asked domain false, .cleared domain, .promoted domain], true⟩

def stageNew (now : Timestamp) (a : Answers) (domain : String) (c : Controller) : Pass :=
  let asked := [Note.asked domain a.issuedAgain]
  if !(shouldStage ⟨domain, c.configuredCA, c.skipStaging, a.issuedAgain⟩).stage then ⟨c, asked, false⟩
  else if (c.prodBackoff domain).any (now < ·) then ⟨c, asked, false⟩
  else
    let c := { c with prodBackoff := update c.prodBackoff domain none }
    if (c.backoff domain).any (now < ·) then ⟨c, asked, false⟩
    else
      ⟨{ c with backoff := update c.backoff domain none, staging := insert domain c.staging },
        asked ++ [.staged domain], true⟩

def visit (now : Timestamp) (a : Answers) (domain : String) (c : Controller) : Pass :=
  if domain ∈ c.staging then c.checkStaged now a domain
  else
    match c.pendingProd domain with
    | none => c.stageNew now a domain
    | some till =>
      if a.issued then
        Pass.andThen ⟨c.converge domain, [.asked domain true, .prodIssued domain], false⟩ (stageNew now a domain)
      else if now < till then ⟨c, [.asked domain false], false⟩
      else
        let fails := c.prodFails domain + 1
        let d := prodBackoffFor fails
        ⟨{ c with
            prodFails := update c.prodFails domain fails
            prodBackoff := update c.prodBackoff domain (some (now + d))
            pendingProd := update c.pendingProd domain none },
          [.asked domain false, .prodFailed domain d], false⟩

def sweep (domains : List String) (c : Controller) : Pass :=
  let kept := c.staging.filter (· ∈ domains)
  ⟨{ c with staging := kept }, [], kept ≠ c.staging⟩

end Controller

structure Tick where
  now : Timestamp
  domains : List String
  nodup : domains.Nodup
  answers : String → Answers

def Controller.reconcile (t : Tick) (c : Controller) : Pass :=
  t.domains.foldl (fun p domain => p.andThen (Controller.visit t.now (t.answers domain) domain)) (c.sweep t.domains)

end Jaco.StageFirst
