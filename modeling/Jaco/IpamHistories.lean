import Jaco.Emission
import Jaco.SubnetSlots

namespace Jaco.Ipam

open Interleaving Runs

def freeCommand (req : EnsureSubnetRequest) (now : Timestamp) : Command :=
  .single
    { identity := "scheduler", ts := some now
      payload := .subnetFree { deployment := req.deployment, network := req.network, host := req.host } }

def free (req : EnsureSubnetRequest) : Task (Except IPAMError Unit) := do
  if req.deployment = "" ∨ req.network = "" ∨ req.host = "" then
    pure (.error ⟨"", "Free: deployment + network + host are required"⟩)
  else
    match ← Program.read (fun w => w.state.subnets.get (subnetKey req.deployment req.network req.host)) with
    | none => pure (.ok ())
    | some _ =>
      let now ← clock
      let ok ← Program.send (freeCommand req now)
      if !ok then pure (.error ⟨"", "raft apply"⟩) else pure (.ok ())

inductive Release where
  | subnets (sf : SubnetFree)
  | node (hostname : String)
  | deployment (name : String)

def Release.payload : Release → Payload
  | .subnets sf => .subnetFree sf
  | .node hostname => .nodeRemove hostname
  | .deployment name => .deploymentDelete name

inductive Call where
  | allocate (req : EnsureSubnetRequest)
  | free (req : EnsureSubnetRequest)
  | release (identity : String) (ts : Option Timestamp) (r : Release)
  | wait (elapsed : Nat) (order : String → Nat)

def call (pool : AddressPool) (w : World) : Call → World
  | .allocate req => (follow cluster (allocate pool req) [] w).now
  | .free req => (follow cluster (free req) [] w).now
  | .release identity ts r => w.commit (.single ⟨identity, ts, r.payload⟩)
  | .wait elapsed order => { w with now := w.now + elapsed, order := order }

def start (base : State) (index : Nat) (now : Timestamp) (order : String → Nat) : World :=
  { state := { base with subnets := .empty }, index, now, order }

def Used (s : State) (n : Nat) : Prop := ∃ sn, s.subnets.get sn.key = some sn ∧ thirdOctet sn.cidr = some n

def DistinctCIDRs (s : State) : Prop :=
  ∀ sn sn', s.subnets.get sn.key = some sn → s.subnets.get sn'.key = some sn' → sn.cidr = sn'.cidr → sn = sn'

def EnsureSubnetRequest.Complete (req : EnsureSubnetRequest) : Prop :=
  req.deployment ≠ "" ∧ req.network ≠ "" ∧ req.host ≠ ""

structure AllocatesLowest (pool : AddressPool) (req : EnsureSubnetRequest) (w : World)
    (answer : Except IPAMError (Option Subnet)) (w' : World) : Prop where
  existing : ∀ sn, w.state.subnets.get (subnetKey req.deployment req.network req.host) = some sn →
    answer = .ok (some sn) ∧ w' = w
  lowest : w.state.subnets.get (subnetKey req.deployment req.network req.host) = none → ∀ n < 256, ¬ Used w.state n →
    (∀ m < n, Used w.state m) →
    answer = .ok (some ⟨req.deployment, req.network, pool.slot n, some w.now, req.host⟩) ∧
      w'.state.subnets = w.state.subnets.apply ⟨req.deployment, req.network, pool.slot n, some w.now, req.host⟩
  exhausted : w.state.subnets.get (subnetKey req.deployment req.network req.host) = none →
    ((∃ e, answer = .error e ∧ e.code = "ipam_pool_exhausted") ↔ ∀ n < 256, Used w.state n)

theorem mem_taken (w : World) (n : Nat) :
    n ∈ (w.listing w.state.subnets).filterMap (fun s => thirdOctet s.cidr) ↔ Used w.state n := by
  simp only [List.mem_filterMap, mem_listing]
  rfl

theorem nextFree_lowest (pool : AddressPool) (w : World) (n : Nat) (hn : n < 256) (hfree : ¬ Used w.state n)
    (hbelow : ∀ m < n, Used w.state m) : nextFree pool (w.listing w.state.subnets) = .ok (pool.slot n) := by
  have hfind : (List.range 256).find? (fun n => decide (n ∉ (w.listing w.state.subnets).filterMap
      (fun s => thirdOctet s.cidr))) = some n := by
    rw [List.find?_range_eq_some]
    refine ⟨decide_eq_true (fun h => hfree ((mem_taken w n).1 h)), List.mem_range.2 hn, fun m hm => ?_⟩
    simp only [Bool.not_eq_true', decide_eq_false_iff_not, not_not]
    exact (mem_taken w m).2 (hbelow m hm)
  simp only [nextFree, hfind]

theorem nextFree_cases (pool : AddressPool) (w : World) : ((∀ n < 256, Used w.state n) ∧
      ∃ e, nextFree pool (w.listing w.state.subnets) = .error e ∧ e.code = "ipam_pool_exhausted") ∨
    ((∃ n < 256, ¬ Used w.state n) ∧ ∃ cidr, nextFree pool (w.listing w.state.subnets) = .ok cidr) := by
  simp only [nextFree]
  cases hfind : (List.range 256).find? (fun n => decide (n ∉ (w.listing w.state.subnets).filterMap
      (fun s => thirdOctet s.cidr))) with
  | none =>
    refine Or.inl ⟨fun n hn => ?_, _, rfl, rfl⟩
    have hall := List.find?_eq_none.1 hfind n (List.mem_range.2 hn)
    rw [decide_eq_true_eq, not_not] at hall
    exact (mem_taken w n).1 hall
  | some n =>
    have hfree := List.find?_some hfind
    rw [decide_eq_true_eq] at hfree
    exact Or.inr ⟨⟨n, List.mem_range.1 (List.mem_of_find?_eq_some hfind), fun h => hfree ((mem_taken w n).2 h)⟩, _, rfl⟩

theorem not_incomplete {req : EnsureSubnetRequest} (hreq : req.Complete) :
    ¬ (req.deployment = "" ∨ req.network = "" ∨ req.host = "") := by
  rintro (h | h | h)
  · exact hreq.1 h
  · exact hreq.2.1 h
  · exact hreq.2.2 h

variable (pool : AddressPool) (req : EnsureSubnetRequest) (w : World)

theorem follow_allocate_refused (hreq : ¬ req.Complete) : (follow cluster (allocate pool req) [] w).answer =
        .error ⟨"", "Allocate: deployment + network + host are required"⟩ ∧
      (follow cluster (allocate pool req) [] w).now = w := by
  have hempty : req.deployment = "" ∨ req.network = "" ∨ req.host = "" := by
    simp only [EnsureSubnetRequest.Complete] at hreq
    tauto
  rw [allocate, if_pos hempty]
  exact ⟨rfl, rfl⟩

theorem follow_allocate (hreq : req.Complete) :
    ((follow cluster (allocate pool req) [] w).answer, (follow cluster (allocate pool req) [] w).now) =
      match w.state.subnets.get (subnetKey req.deployment req.network req.host) with
      | some sn => (.ok (some sn), w)
      | none =>
        match nextFree pool (w.listing w.state.subnets) with
        | .error e => (.error e, w)
        | .ok cidr =>
          (.ok ((w.commit (allocateCommand req cidr w.now)).state.subnets.get
            (subnetKey req.deployment req.network req.host)), w.commit (allocateCommand req cidr w.now)) := by
  rw [allocate, if_neg (not_incomplete hreq), follow_read_bind]
  cases w.state.subnets.get (subnetKey req.deployment req.network req.host) with
  | some sn => rfl
  | none =>
    dsimp only
    rw [follow_read_bind]
    cases nextFree pool (w.listing w.state.subnets) with
    | error e => rfl
    | ok cidr => rfl

theorem subnets_allocateCommand (req : EnsureSubnetRequest) (cidr : String) (w : World) :
    (w.commit (allocateCommand req cidr w.now)).state.subnets =
      w.state.subnets.apply ⟨req.deployment, req.network, cidr, some w.now, req.host⟩ := by
  rw [allocateCommand, commit_single]
  exact applyEntry_agree_mutate _ _ _ .subnets (by decide)

theorem allocatesLowest_follow (hreq : req.Complete) :
    AllocatesLowest pool req w (follow cluster (allocate pool req) [] w).answer
      (follow cluster (allocate pool req) [] w).now := by
  have hfollow := follow_allocate pool req w hreq
  refine ⟨fun sn hsn => ?_, fun hnone n hn hfree hbelow => ?_, fun hnone => ?_⟩
  · rw [hsn] at hfollow
    exact Prod.mk.inj hfollow
  · rw [hnone, nextFree_lowest pool w n hn hfree hbelow] at hfollow
    obtain ⟨hanswer, hnow⟩ := Prod.mk.inj hfollow
    rw [hanswer, hnow, subnets_allocateCommand, Store.get_apply]
    exact ⟨congrArg Except.ok (if_pos rfl), rfl⟩
  · rw [hnone] at hfollow
    rcases nextFree_cases pool w with ⟨hused, e, he, hcode⟩ | ⟨⟨n, hn, hfree⟩, cidr, hcidr⟩
    · rw [he] at hfollow
      exact ⟨fun _ => hused, fun _ => ⟨e, (Prod.mk.inj hfollow).1, hcode⟩⟩
    · rw [hcidr] at hfollow
      refine ⟨fun ⟨e, he, _⟩ => ?_, fun h => absurd (h n hn) hfree⟩
      rw [(Prod.mk.inj hfollow).1] at he
      cases he

theorem slotted_allocation (hw : Slotted w.state) : Slotted (follow cluster (allocate pool req) [] w).now.state := by
  by_cases hreq : req.Complete
  · have hnow := (Prod.ext_iff.1 (follow_allocate pool req w hreq)).2
    dsimp only at hnow
    rw [hnow]
    split
    · exact hw
    · split
      · exact hw
      · rename_i cidr hcidr
        obtain ⟨n, hn, rfl, hunused⟩ := nextFree_unused hcidr
        refine slotted_allocate hw ⟨pool, req, n, w.now, rfl, hn, fun key sn hsn => hunused sn ?_⟩
        rw [mem_listing, Store.get_key hsn]
        exact hsn
  · rw [(follow_allocate_refused pool req w hreq).2]
    exact hw

theorem slotted_free (req : EnsureSubnetRequest) (w : World) (hw : Slotted w.state) :
    Slotted (follow cluster (free req) [] w).now.state := by
  rw [free]
  split
  · exact hw
  · rw [follow_read_bind]
    cases w.state.subnets.get (subnetKey req.deployment req.network req.host) with
    | none => exact hw
    | some sn =>
      have hfewer := commit_fewer w (freeCommand req w.now) (allows_single rfl)
      exact slotted_fewer hfewer hw

theorem slotted_call (pool : AddressPool) (w : World) (c : Call) (hw : Slotted w.state) :
    Slotted (call pool w c).state := by
  cases c with
  | allocate req => exact slotted_allocation pool req w hw
  | free req => exact slotted_free req w hw
  | release identity ts r =>
    have hallows : Allows NoAllocation (.single ⟨identity, ts, r.payload⟩) := by
      apply allows_single
      cases r <;> rfl
    exact slotted_fewer (commit_fewer w _ hallows) hw
  | wait elapsed order => exact hw

theorem slotted_start (base : State) (index : Nat) (now : Timestamp) (order : String → Nat) :
    Slotted (start base index now order).state :=
  ⟨nofun, nofun⟩

theorem slotted_distinct {s : State} (hs : Slotted s) : DistinctCIDRs s := by
  intro sn sn' hsn hsn' hcidr
  have hkey := hs.apart _ _ sn sn' hsn hsn' (congrArg thirdOctet hcidr)
  rw [hkey, hsn'] at hsn
  exact (Option.some.inj hsn).symm

theorem allocations_exact (pool : AddressPool) (base : State) (index : Nat) (now : Timestamp) (order : String → Nat)
    (calls : List Call) :
    let w := run (call pool) (start base index now order) calls
    DistinctCIDRs w.state ∧ ∀ req : EnsureSubnetRequest,
      (req.Complete → AllocatesLowest pool req w (follow cluster (allocate pool req) [] w).answer
        (follow cluster (allocate pool req) [] w).now) ∧
      (¬ req.Complete → (follow cluster (allocate pool req) [] w).answer =
          .error ⟨"", "Allocate: deployment + network + host are required"⟩ ∧
        (follow cluster (allocate pool req) [] w).now = w) := by
  intro w
  have hslotted : Slotted w.state :=
    run_invariant (call pool) (fun w => Slotted w.state) (slotted_call pool) (slotted_start base index now order) calls
  exact ⟨slotted_distinct hslotted, fun req => ⟨allocatesLowest_follow pool req w, follow_allocate_refused pool req w⟩⟩

def twoHosts : World :=
  run (call {}) (start .new 0 0 (fun _ => 0)) [.allocate ⟨"shop", "default", "alpha"⟩,
    .allocate ⟨"shop", "default", "beta"⟩,
    .free ⟨"shop", "default", "alpha"⟩]

theorem second_host_keeps_its_subnet : EnsureSubnetRequest.Complete ⟨"shop", "default", "beta"⟩ ∧
      twoHosts.state.subnets.get (subnetKey "shop" "default" "beta") =
        some ⟨"shop", "default", "10.244.1.0/24", some 0, "beta"⟩ ∧
      (follow cluster (allocate {} ⟨"shop", "default", "beta"⟩) [] twoHosts).answer =
        .ok (some ⟨"shop", "default", "10.244.1.0/24", some 0, "beta"⟩) := by
  have hcomplete : EnsureSubnetRequest.Complete ⟨"shop", "default", "beta"⟩ := by
    simp [EnsureSubnetRequest.Complete]
  have hget : twoHosts.state.subnets.get (subnetKey "shop" "default" "beta") =
      some ⟨"shop", "default", "10.244.1.0/24", some 0, "beta"⟩ := by
    decide +kernel
  have hexact := (allocations_exact {} .new 0 0 (fun _ => 0) [.allocate ⟨"shop", "default", "alpha"⟩,
    .allocate ⟨"shop", "default", "beta"⟩, .free ⟨"shop", "default", "alpha"⟩]).2 ⟨"shop", "default", "beta"⟩
  exact ⟨hcomplete, hget, ((hexact.1 hcomplete).existing _ hget).1⟩

end Jaco.Ipam
