import Jaco.Emission
import Jaco.SharedCluster

/-!
The migration that frees the subnets recorded without a host. The state machine reads the empty host of its commands
as a wildcard.
-/

namespace Jaco.Ipam

open Interleaving

def freeHostless (sn : Subnet) (now : Timestamp) : Command :=
  .single
    { identity := "migration", ts := some now
      payload := .subnetFree { deployment := sn.deployment, network := sn.network, host := "" } }

def purgeLoop (purged : Nat) : List Subnet → Task (Nat × Option String)
  | [] => pure (purged, none)
  | sn :: rest =>
    if sn.host ≠ "" then purgeLoop purged rest
    else do
      let now ← clock
      let ok ← Program.send (freeHostless sn now)
      if !ok then pure (purged, some "raft apply") else purgeLoop (purged + 1) rest

def purgeHostlessSubnets : Task (Nat × Option String) := do
  let subnets ← Program.read (fun w => w.listing w.state.subnets)
  purgeLoop 0 subnets

/-- What freeing the host-less `sn` takes along: an empty field of `sn` matches anything. -/
def swept (sn v : Subnet) : Bool :=
  (sn.deployment = "" || v.deployment = sn.deployment) && (sn.network = "" || v.network = sn.network)

theorem get_freeHostless (sn : Subnet) (now : Timestamp) (w : World) (k : String) :
    (w.commit (freeHostless sn now)).state.subnets.get k = (w.state.subnets.get k).filter (fun v => !swept sn v) := by
  have hsubnets : (w.commit (freeHostless sn now)).state.subnets =
      (mutate w.state (some now) (w.index + 1) (.subnetFree ⟨sn.deployment, sn.network, ""⟩)).subnets := by
    rw [freeHostless, commit_single]
    exact applyEntry_agree_mutate _ _ _ .subnets (by decide)
  rw [hsubnets]
  simp only [mutate, freeSubnets, ne_eq, not_true_eq_false, decide_false, Bool.and_false, if_false,
    Store.get_removeWhere,
    decide_true, Bool.true_or, Bool.and_true, Bool.false_eq_true, swept]

theorem get_purgeLoop (l : List Subnet) (purged : Nat) (w : World) (k : String) :
    (follow cluster (purgeLoop purged l) [] w).now.state.subnets.get k =
      (w.state.subnets.get k).filter (fun v => !l.any (fun sn => sn.host = "" && swept sn v)) := by
  induction l generalizing purged w with
  | nil =>
    change w.state.subnets.get k = _
    cases w.state.subnets.get k <;> rfl
  | cons sn rest ih =>
    rw [purgeLoop]
    by_cases hhost : sn.host ≠ ""
    · rw [if_pos hhost, ih]
      simp [hhost]
    · rw [if_neg hhost]
      have hnow : (follow cluster (do
          let now ← clock
          let ok ← Program.send (freeHostless sn now)
          if !ok then pure (purged, some "raft apply") else purgeLoop (purged + 1) rest : Task (Nat × Option String))
          [] w).now = (follow cluster (purgeLoop (purged + 1) rest) [] (w.commit (freeHostless sn w.now))).now := rfl
      rw [hnow, ih, get_freeHostless, Option.filter_filter]
      congr 1
      funext v
      have hempty : sn.host = "" := not_not.1 hhost
      simp [hempty]

theorem purge_exact_iff (w : World) : (∀ k, (follow cluster purgeHostlessSubnets [] w).now.state.subnets.get k =
        (w.state.subnets.get k).filter (fun v => v.host ≠ "")) ↔
      ∀ sn v, w.state.subnets.get sn.key = some sn → w.state.subnets.get v.key = some v → sn.host = "" →
        v.host ≠ "" → swept sn v = false := by
  have hget : ∀ k, (follow cluster purgeHostlessSubnets [] w).now.state.subnets.get k = (w.state.subnets.get k).filter
        (fun v => !(w.listing w.state.subnets).any (fun sn => sn.host = "" && swept sn v)) :=
    fun k => get_purgeLoop (w.listing w.state.subnets) 0 w k
  constructor
  · intro h sn v hsn hv hhost hvhost
    have hkept := h v.key
    rw [hget, hv, Option.filter_some, Option.filter_some, if_pos (decide_eq_true hvhost)] at hkept
    by_contra hnot
    have hswept : swept sn v = true := Bool.eq_true_of_not_eq_false hnot
    have hany : (w.listing w.state.subnets).any (fun sn => sn.host = "" && swept sn v) = true := by
      apply List.any_eq_true.2
      exact ⟨sn, (mem_listing w _ sn).2 hsn, by simp [hhost, hswept]⟩
    rw [hany] at hkept
    cases hkept
  · intro h k
    rw [hget]
    cases hk : w.state.subnets.get k with
    | none => rfl
    | some v =>
      have hv : w.state.subnets.get v.key = some v := by
        rw [Store.get_key hk]
        exact hk
      rw [Option.filter_some, Option.filter_some]
      have hiff : (!(w.listing w.state.subnets).any (fun sn => sn.host = "" && swept sn v)) = true ↔
          decide (v.host ≠ "") = true := by
        simp only [Bool.not_eq_true', List.any_eq_false, Bool.and_eq_true, decide_eq_true_eq, not_and,
          Bool.not_eq_true]
        constructor
        · intro hno hvhost
          have hself := hno v ((mem_listing w _ v).2 hv) hvhost
          simp [swept] at hself
        · intro hvhost sn hsn hhost
          exact h sn v ((mem_listing w _ sn).1 hsn) hv hhost hvhost
      simp only [hiff]

namespace Sample

def subnet (cidr host : String) : Subnet :=
  { deployment := "shop", network := "front", cidr := cidr, host := host }

def mixed : World :=
  { state := { State.new with
      subnets := (Store.empty.apply (subnet "10.244.0.0/24" "")).apply (subnet "10.244.1.0/24" "node-a") }
    index := 7, now := 0 }

end Sample

theorem purge_takes_a_hosts_subnet :
    Sample.mixed.state.subnets.get (subnetKey "shop" "front" "node-a") = some (Sample.subnet "10.244.1.0/24" "node-a") ∧
      (follow cluster purgeHostlessSubnets [] Sample.mixed).now.state.subnets.get (subnetKey "shop" "front" "node-a") =
        none := by
  decide +kernel

end Jaco.Ipam
