import Jaco.Manifest
import Jaco.ExceptLists

namespace Jaco.Placement

open List

structure PlacementError where
  code : String
  message : String
  details : StringMap
  deriving DecidableEq

def replicaID (deployment service : String) (index : Nat) : String :=
  deployment ++ "-" ++ service ++ "-" ++ toString index

theorem replicaID_inj {deployment name : String} {i j : Nat}
    (h : replicaID deployment name i = replicaID deployment name j) :
    i = j := by
  have hdigits : toString i = toString j := by
    have hlists := congrArg String.toList h
    simp only [replicaID, String.toList_append, append_cancel_left_eq] at hlists
    exact String.toList_inj.1 hlists
  exact Nat.repr_injective hdigits

def keptInHost (c : Char) : Bool :=
  ('a' ≤ c && c ≤ 'z') || ('A' ≤ c && c ≤ 'Z') || ('0' ≤ c && c ≤ '9') || c = '_' || c = '.' || c = '-'

def sanitizeHost (host : String) : String :=
  String.ofList (host.toList.map (fun c => if keptInHost c then c else '-'))

def replicaIDForHost (deployment service host : String) : String :=
  deployment ++ "-" ++ service ++ "-" ++ sanitizeHost host

def eligibleHosts (spec : ServiceSpec) (nodes : List Node) : List String :=
  let healthy := (nodes.filter (·.status = .ready)).map (·.hostname)
  let healthy := if spec.placement = .hosts && spec.hosts ≠ [] then healthy.filter (· ∈ spec.hosts) else healthy
  sortNames healthy

def fnv1a (s : String) : UInt32 :=
  (s.toList.flatMap String.utf8EncodeChar).foldl (fun h b => (h ^^^ b.toUInt32) * 16777619) 2166136261

def pickSpreadHost (deployment service : String) (eligible : List String) (replicaIndex : Int) : String :=
  let h := fnv1a (deployment ++ "-" ++ service ++ "-" ++ toString replicaIndex)
  eligible.getD (h.toNat % eligible.length) ""

def pickPackHost (eligible : List String) (counts : String → Nat) : String :=
  eligible.tail.foldl
    (fun best h => if counts h < counts best || (counts h = counts best && h < best) then h else best)
    (eligible.headD "")

def cannotSatisfy (spec : ServiceSpec) (eligible : Nat) (message : String) : PlacementError where
  code := "cannot_satisfy_host_placement"
  message := message
  details := [("service", spec.name), ("requested", toString spec.replicas), ("eligible", toString eligible)]

def placeReplica (deployment : String) (spec : ServiceSpec) (eligible : List String) (replicaIndex : Int)
    (counts : String → Nat) : Except PlacementError String :=
  if eligible = [] then
    .error (cannotSatisfy spec 0 ("service " ++ GoStrings.quote spec.name ++ ": no eligible hosts"))
  else
    let sorted := sortNames eligible
    match spec.placement with
    | .hosts =>
      if spec.replicas > sorted.length then
        .error (cannotSatisfy spec sorted.length
          ("service " ++ GoStrings.quote spec.name ++ ": only " ++ toString sorted.length ++
            " eligible host(s) but " ++ toString spec.replicas ++ " replicas requested"))
      else .ok (sorted.getD (replicaIndex.tmod sorted.length).toNat "")
    | .pack => .ok (pickPackHost sorted counts)
    | _ => .ok (pickSpreadHost deployment spec.name sorted replicaIndex)

theorem pickPackHost_mem {hosts : List String} (h : hosts ≠ []) (counts : String → Nat) :
    pickPackHost hosts counts ∈ hosts := by
  have hfold : ∀ (l : List String) (best : String), best ∈ hosts → (∀ x ∈ l, x ∈ hosts) →
      l.foldl (fun best h => if counts h < counts best || (counts h = counts best && h < best) then h else best)
        best ∈ hosts := by
    intro l
    induction l with
    | nil => exact fun best hbest _ => hbest
    | cons x l ih =>
      intro best hbest hl
      rw [foldl_cons]
      refine ih _ ?_ (fun y hy => hl y (mem_cons_of_mem x hy))
      split
      · exact hl x mem_cons_self
      · exact hbest
  cases hosts with
  | nil => exact absurd rfl h
  | cons x l => exact hfold l x mem_cons_self (fun y hy => mem_cons_of_mem x hy)

theorem placeReplica_mem {deployment : String} {spec : ServiceSpec} {eligible : List String} {index : Int}
    {counts : String → Nat} {host : String} (h : placeReplica deployment spec eligible index counts = .ok host) :
    host ∈ eligible := by
  have hperm : (sortNames eligible).Perm eligible := perm_insertionSort _ eligible
  have hget : ∀ i < (sortNames eligible).length, (sortNames eligible).getD i "" ∈ eligible := by
    intro i hi
    rw [getD_eq_getElem _ _ hi]
    exact hperm.mem_iff.1 (getElem_mem hi)
  unfold placeReplica at h
  split at h
  · cases h
  · rename_i hne
    have hpos : 0 < (sortNames eligible).length := by
      rw [hperm.length_eq]
      exact length_pos_of_ne_nil hne
    dsimp only at h
    split at h
    · split at h
      · cases h
      · cases h
        have hmod := Int.tmod_lt_of_pos index (Int.natCast_pos.2 hpos)
        exact hget _ (by omega)
    · cases h
      exact hperm.mem_iff.1 (pickPackHost_mem (ne_nil_of_length_pos hpos) counts)
    · cases h
      exact hget _ (Nat.mod_lt _ hpos)

end Jaco.Placement
