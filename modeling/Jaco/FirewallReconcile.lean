import Jaco.ForwardIsolation
import Jaco.Runs

namespace Jaco.Firewall

open PacketFilter Cidr

structure NftChain where
  name : String
  hook : String
  priority : Int
  policy : String

structure NftEntry where
  chain : Option NftChain
  set : Option String

structure SelfTestError where
  code : String
  message : String
  missing : List String
  extra : List String

def gotChain (entries : List NftEntry) (name : String) : Option NftChain :=
  (entries.filterMap (·.chain)).reverse.find? (fun c => c.name = name)

def gotSets (entries : List NftEntry) : List String := entries.filterMap (·.set)

def wantSets (expected : RuleInput) : List String :=
  expected.subnets.map Subnet.setName ++ if expected.subnets = [] then [] else ["jaco_pool"]

def baseChains : List String := ["forward", "input", "output"]

def chainFindings (entries : List NftEntry) (name : String) : List String :=
  match gotChain entries name with
  | none => ["chain:" ++ name]
  | some got =>
    (if got.hook ≠ name then ["chain:" ++ name ++ ".hook=" ++ got.hook ++ " (want " ++ name ++ ")"] else []) ++
    (if got.policy ≠ "" ∧ got.policy ≠ "accept" then
      ["chain:" ++ name ++ ".policy=" ++ got.policy ++ " (want accept)"] else []) ++
    (if got.priority ≠ 0 then
      ["chain:" ++ name ++ ".priority=" ++ toString got.priority ++ " (want 0)"] else [])

def missingFindings (entries : List NftEntry) (expected : RuleInput) : List String :=
  baseChains.flatMap (chainFindings entries) ++
    ((wantSets expected).eraseDups.filter (fun n => n ∉ gotSets entries)).map ("set:" ++ ·)

def extraFindings (entries : List NftEntry) (expected : RuleInput) : List String :=
  ((gotSets entries).eraseDups.filter (fun n => n ∉ wantSets expected)).map ("set:" ++ ·)

def selfTest (entries : List NftEntry) (expected : RuleInput) : Option SelfTestError :=
  let missing := sortStrings (missingFindings entries expected)
  let extra := sortStrings (extraFindings entries expected)
  if missing ≠ [] ∨ extra ≠ [] then
    some ⟨"isolation_self_test_failed",
      "nftables state diverges: missing=[" ++ " ".intercalate missing ++ "] extra=[" ++ " ".intercalate extra ++ "]",
      missing, extra⟩
  else none

abbrev Live := Option (Table Addr String)

def nftList (live : Live) : List NftEntry :=
  match live with
  | none => []
  | some t =>
    t.sets.map (fun s => ⟨none, some s.1⟩) ++ t.chains.map (fun c => ⟨some ⟨c.name, c.hook, c.prio, c.policy⟩, none⟩)

inductive ListResult where
  | failed (err : String)
  | garbled (err : String)
  | read

inductive Effect where
  | audit (code : String) (details : List (String × String))
  | status (status reason : String)
  | nftApply (ruleset : String)

structure TickEnv where
  pool : String
  ensureSNAT : Option (Option String)
  ensureOverlay : Option (Option String)
  first : RuleInput
  list : ListResult
  second : RuleInput
  applyErr : Option String
  statusErr : Option String
  auditErr : Option String

structure Reconciler where
  live : Live
  degraded : Bool

def exemption (pool code : String) (ensure : Option (Option String)) : List Effect :=
  match ensure with
  | some (some err) => if pool = "" then [] else [.audit code [("error", err)]]
  | _ => []

def exemptions (env : TickEnv) : List Effect :=
  exemption env.pool "SNAT_EXEMPT_FAILED" env.ensureSNAT ++
    exemption env.pool "OVERLAY_EXEMPT_FAILED" env.ensureOverlay

def summarizeDrift (e : SelfTestError) : String :=
  ",".intercalate (sortStrings (e.missing.map ("missing:" ++ ·) ++ e.extra.map ("extra:" ++ ·)))

def drift (live : Live) (env : TickEnv) : Option String :=
  match env.list with
  | .garbled err => some ("parse nft json: " ++ err)
  | _ => (selfTest (nftList live) env.first).map summarizeDrift

def orErr (err : Option String) : Except String Unit :=
  match err with
  | some e => .error e
  | none => .ok ()

def settle (r : Reconciler) (env : TickEnv) : Reconciler × Except String Unit × List Effect :=
  if r.degraded then
    let ready := Effect.status "ready" "isolation_reload_recovered"
    match env.statusErr with
    | some err => ({ r with degraded := false }, .error err, [ready])
    | none => ({ r with degraded := false }, orErr env.auditErr,
        [ready, .audit "ISOLATION_RULESET_RECONCILED" [("action", "recovered")]])
  else (r, .ok (), [])

def reload (r : Reconciler) (env : TickEnv) (summary : String) : Reconciler × Except String Unit × List Effect :=
  let apply := Effect.nftApply (render env.second)
  match env.applyErr with
  | some err => ({ r with degraded := true }, .error ("apply ruleset: " ++ err),
      [apply, .status "isolation_unavailable" err])
  | none =>
    let audit := Effect.audit "ISOLATION_RULESET_RECONCILED" [("action", "applied"), ("summary", summary)]
    match env.auditErr with
    | some err => ({ r with live := some (renderTable env.second) }, .error err, [apply, audit])
    | none => (⟨some (renderTable env.second), false⟩, .ok (),
        apply :: audit :: if r.degraded then [.status "ready" "isolation_reload_recovered"] else [])

def reconcile (r : Reconciler) (env : TickEnv) : Reconciler × Except String Unit × List Effect :=
  match env.list with
  | .failed err => (r, .error ("nft list: " ++ err), [])
  | _ => match drift r.live env with
    | none => settle r env
    | some summary => reload r env summary

def tick (r : Reconciler) (env : TickEnv) : Reconciler × Except String Unit × List Effect :=
  ((reconcile r env).1, (reconcile r env).2.1, exemptions env ++ (reconcile r env).2.2)

end Jaco.Firewall
