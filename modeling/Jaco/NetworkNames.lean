import Jaco.ReplicaStarts

namespace Jaco.Bridge

open GoStrings List

def implicitDefault (network : String) : String := if network = "default" then "_default" else network

def dockerNetworkName (deployment network : String) : String :=
  "jaco_" ++ deployment ++ "_" ++ implicitDefault network

def networkNameFromDockerName (s : String) : String :=
  if "jaco_".toList <+: s.toList then
    match (cut '_' (s.toList.drop 5)).2 with
    | none => ""
    | some rest => String.ofList rest
  else ""

def volumeName (deployment key : String) (overrides : StringMap) : String :=
  match (overrides.lookup key).filter (· ≠ "") with
  | some literal => literal
  | none => "jaco_" ++ deployment ++ "_" ++ key

theorem toList_dockerNetworkName (d n : String) :
    (dockerNetworkName d n).toList = "jaco_".toList ++ (d.toList ++ '_' :: (implicitDefault n).toList) := by
  simp [dockerNetworkName]

theorem networkNameFromDockerName_of_cut {d n : String} {rest : List Char}
    (h : (cut '_' (d.toList ++ '_' :: (implicitDefault n).toList)).2 = some rest) :
    networkNameFromDockerName (dockerNetworkName d n) = String.ofList rest := by
  have hdrop : (dockerNetworkName d n).toList.drop 5 = d.toList ++ '_' :: (implicitDefault n).toList := by
    rw [toList_dockerNetworkName]
    rfl
  have hstart : "jaco_".toList <+: (dockerNetworkName d n).toList := by
    rw [toList_dockerNetworkName]
    exact prefix_append _ _
  simp only [networkNameFromDockerName, if_pos hstart, hdrop, h]

theorem decode_dockerNetworkName_iff (d n : String) :
    networkNameFromDockerName (dockerNetworkName d n) = implicitDefault n ↔ '_' ∉ d.toList := by
  constructor
  · intro h hmem
    obtain ⟨a, b, hd, ha⟩ := eq_append_cons_of_mem hmem
    have hcut : (cut '_' (d.toList ++ '_' :: (implicitDefault n).toList)).2 =
        some (b ++ '_' :: (implicitDefault n).toList) := by
      rw [hd, append_assoc, cons_append, cut_append '_' a _ ha]
    rw [networkNameFromDockerName_of_cut hcut] at h
    have hlen := congrArg (fun s => s.toList.length) h
    simp only [String.toList_ofList, length_append, length_cons] at hlen
    omega
  · intro hd
    rw [networkNameFromDockerName_of_cut (by rw [cut_append '_' _ _ hd]), String.ofList_toList]

theorem eq_of_joined {d d' k k' : String} (hd : '_' ∉ d.toList) (hd' : '_' ∉ d'.toList)
    (h : "jaco_" ++ d ++ "_" ++ k = "jaco_" ++ d' ++ "_" ++ k') : d = d' ∧ k = k' := by
  have hlist : d.toList ++ '_' :: k.toList = d'.toList ++ '_' :: k'.toList := by
    have := congrArg String.toList h
    simpa using this
  have hcut := congrArg (cut '_') hlist
  rw [cut_append '_' _ _ hd, cut_append '_' _ _ hd'] at hcut
  simp only [Prod.mk.injEq, Option.some.injEq, String.toList_inj] at hcut
  exact hcut

theorem dockerNetworkName_inj (d n n' : String) :
    dockerNetworkName d n = dockerNetworkName d n' ↔ implicitDefault n = implicitDefault n' := by
  constructor
  · intro h
    have := congrArg String.toList h
    simpa [toList_dockerNetworkName, String.toList_inj] using this
  · intro h
    rw [dockerNetworkName, h, dockerNetworkName]

theorem volumeName_of_scoped {overrides : StringMap} {key : String} (d : String)
    (h : (overrides.lookup key).filter (· ≠ "") = none) :
    volumeName d key overrides = "jaco_" ++ d ++ "_" ++ key := by
  rw [volumeName, h]

end Jaco.Bridge
