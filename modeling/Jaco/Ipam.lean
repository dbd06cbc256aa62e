import Jaco.SharedCluster
import Jaco.Admission
import Jaco.Cidr

namespace Jaco.Ipam

open Interleaving

structure AddressPool where
  first : UInt8 := 10
  second : UInt8 := 244

def AddressPool.slot (pool : AddressPool) (third : Nat) : String :=
  toString pool.first ++ "." ++ toString pool.second ++ "." ++ toString third ++ ".0/24"

def AddressPool.text (pool : AddressPool) : String :=
  toString pool.first ++ "." ++ toString pool.second ++ ".0.0/16"

def thirdOctet (cidr : String) : Option Nat :=
  if '/' ∈ cidr.toList then
    (Cidr.parseAddr4 (cidr.toList.takeWhile (· ≠ '/'))).map (fun a => a.toNat / 256 % 256)
  else none

structure IPAMError where
  code : String
  message : String

def nextFree (pool : AddressPool) (subnets : List Subnet) : Except IPAMError String :=
  let taken := subnets.filterMap (fun s => thirdOctet s.cidr)
  match (List.range 256).find? (fun n => n ∉ taken) with
  | some n => .ok (pool.slot n)
  | none => .error
      { code := "ipam_pool_exhausted"
        message := "ipam pool " ++ pool.text ++ " is fully allocated (256 / 256 /24s)" }

structure EnsureSubnetRequest where
  deployment : String
  network : String
  host : String

def allocateCommand (req : EnsureSubnetRequest) (cidr : String) (now : Timestamp) : Command :=
  .single
    { identity := "scheduler", ts := some now
      payload := .subnetAllocate
        { deployment := req.deployment, network := req.network, cidr := cidr, host := req.host } }

/-- `i.mu` keeps two allocations of one process apart; nothing keeps other writers out. -/
def allocate (pool : AddressPool) (req : EnsureSubnetRequest) : Task (Except IPAMError (Option Subnet)) := do
  if req.deployment = "" ∨ req.network = "" ∨ req.host = "" then
    pure (.error ⟨"", "Allocate: deployment + network + host are required"⟩)
  else
    let key := subnetKey req.deployment req.network req.host
    match ← Program.read (fun w => w.state.subnets.get key) with
    | some existing => pure (.ok (some existing))
    | none =>
      let subnets ← Program.read (fun w => w.listing w.state.subnets)
      match nextFree pool subnets with
      | .error e => pure (.error e)
      | .ok cidr =>
        let now ← clock
        let ok ← Program.send (allocateCommand req cidr now)
        if !ok then pure (.error ⟨"", "raft apply"⟩)
        else
          let allocated ← Program.read (fun w => w.state.subnets.get key)
          pure (.ok allocated)

def ensureSubnet (pool : AddressPool) (req : EnsureSubnetRequest) : Task (Except Status String) := do
  let leader ← Program.read World.leader
  if !leader then pure (.error ⟨.unavailable, "no_leader", "no_leader: forward to the current leader"⟩)
  else if req.deployment = "" ∨ req.network = "" ∨ req.host = "" then
    pure (.error ⟨.invalidArgument, "", "deployment, network and host are required"⟩)
  else
    match ← allocate pool req with
    | .ok sn => pure (.ok ((sn.map (·.cidr)).getD ""))
    | .error e =>
      if e.code = "ipam_pool_exhausted" then
        pure (.error ⟨.resourceExhausted, "subnet_pool_exhausted", "subnet_pool_exhausted: " ++ req.deployment ++ "/" ++
          req.network ++ " on " ++ req.host ++ ": " ++ e.message⟩)
      else pure (.error ⟨.internal, "", "subnet allocate: " ++ e.message⟩)

def Allocates (req : EnsureSubnetRequest) : Payload → Prop
  | .subnetAllocate sa => sa.deployment = req.deployment ∧ sa.network = req.network ∧ sa.host = req.host
  | _ => False

variable (R : World → Prop) (pool : AddressPool) (req : EnsureSubnetRequest)

theorem allocate_within : Within R (Allows (Allocates req)) (fun _ => True) (allocate pool req) := by
  unfold allocate
  split
  · exact within_ret trivial
  · refine within_look (fun existing => ?_)
    cases existing with
    | some sn => exact within_ret trivial
    | none =>
      refine within_look (fun subnets => ?_)
      split
      · exact within_ret trivial
      · rename_i cidr _
        refine within_look (fun now => ?_)
        refine within_bind_any (within_send ?_) (fun ok => ?_)
        · intro e he
          rw [allocateCommand, entries_single, List.mem_singleton] at he
          subst he
          exact ⟨rfl, rfl, rfl⟩
        · split
          · exact within_ret trivial
          · exact within_look (fun sn => within_ret trivial)

theorem ensureSubnet_within : Within R (Allows (Allocates req)) (fun _ => True) (ensureSubnet pool req) := by
  refine within_look (fun leader => ?_)
  split
  · exact within_ret trivial
  · split
    · exact within_ret trivial
    · refine within_bind_any (allocate_within R pool req) (fun result => ?_)
      cases result with
      | ok sn => exact within_ret trivial
      | error e =>
        dsimp only
        split
        · exact within_ret trivial
        · exact within_ret trivial

end Jaco.Ipam
