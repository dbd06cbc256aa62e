import Jaco.Bridges
import Jaco.DeployApply

namespace Jaco.Bridge

open Docker Interleaving Runs Reconciler List

/-- `networks` are the keys of the compose service, `cidr` the answers of `ensureSubnet`. -/
inductive Event where
  | start (deployment clusterID : String) (networks : List String) (cidr : String → Except String String)
      (fates : List Fate)
  | containers (engine : Engine)

def step (h : Host) : Event → Host
  | .start deployment clusterID networks cidr fates =>
    (ensureBridges deployment clusterID cidr (networksFromCompose networks deployment) ⟨h, fates⟩).host
  | .containers engine => { h with engine := engine }

def attachKeys (networks : List String) : List String := if networks = [] then ["_default"] else networks

def Event.deployments : Event → List String
  | .start deployment _ _ _ _ => [deployment]
  | .containers _ => []

def SparesOthers (h : Host) : Event → Prop
  | .start deployment clusterID networks cidr fates => ∀ n ∈ h.networks, isJACOBridge n →
      ¬ (n.label "jaco.deployment" = deployment ∧
        ∃ key ∈ attachKeys networks, n.label "jaco.network" = implicitDefault key) →
      n ∈ (step h (.start deployment clusterID networks cidr fates)).networks
  | .containers _ => True

theorem networksFromCompose_eq (networks : List String) (deployment : String) :
    networksFromCompose networks deployment = (attachKeys networks).map (dockerNetworkName deployment) := by
  unfold networksFromCompose attachKeys
  split
  · rfl
  · rfl

theorem implicitDefault_idem (n : String) : implicitDefault (implicitDefault n) = implicitDefault n := by
  unfold implicitDefault
  split
  · rfl
  · rfl

theorem dockerNetworkName_implicitDefault (d n : String) :
    dockerNetworkName d (implicitDefault n) = dockerNetworkName d n := by
  rw [dockerNetworkName_inj, implicitDefault_idem]

structure Serves (deployment : String) (keys : List String) (h h' : Host) : Prop where
  kept : ∀ n ∈ h.networks, (∀ key ∈ keys, n.name ≠ dockerNetworkName deployment key) → n ∈ h'.networks
  added : ∀ n ∈ h'.networks, n ∈ h.networks ∨ ∃ key ∈ keys, n.name = dockerNetworkName deployment key ∧
    n.label "jaco.deployment" = deployment ∧ n.label "jaco.network" = implicitDefault key

theorem ensureBridges_serves {deployment : String} (hd : '_' ∉ deployment.toList) (clusterID : String)
    (cidr : String → Except String String) (keys : List String) (s : Site) :
    Serves deployment keys s.host
      (ensureBridges deployment clusterID cidr (keys.map (dockerNetworkName deployment)) s).host := by
  induction keys generalizing s with
  | nil => exact ⟨fun n hn _ => hn, fun n hn => .inl hn⟩
  | cons key keys ih =>
    have hdecode := (decode_dockerNetworkName_iff deployment key).2 hd
    rw [map_cons, ensureBridges, hdecode]
    split
    · have hrest := ih s
      refine ⟨fun n hn hne => hrest.kept n hn (fun k hk => hne k (mem_cons_of_mem _ hk)), fun n hn => ?_⟩
      rcases hrest.added n hn with hn | ⟨k, hk, hn⟩
      · exact .inl hn
      · exact .inr ⟨k, mem_cons_of_mem _ hk, hn⟩
    · split
      · exact ⟨fun n hn _ => hn, fun n hn => .inl hn⟩
      · rename_i c hc
        have hfirst := ensure_confined deployment (implicitDefault key) c clusterID s
        rw [dockerNetworkName_implicitDefault] at hfirst
        have hrest := ih (ensure deployment (implicitDefault key) c clusterID s).2
        constructor
        · intro n hn hne
          apply hrest.kept n (hfirst.kept n hn (hne key mem_cons_self))
          exact fun k hk => hne k (mem_cons_of_mem _ hk)
        · intro n hn
          rcases hrest.added n hn with hn | ⟨k, hk, hn⟩
          · rcases hfirst.added n hn with hn | hn
            · exact .inl hn
            · exact .inr ⟨key, mem_cons_self, hn⟩
          · exact .inr ⟨k, mem_cons_of_mem _ hk, hn⟩

def Named (h : Host) : Prop :=
  ∀ n ∈ h.networks, isJACOBridge n →
    '_' ∉ (n.label "jaco.deployment").toList ∧
      n.name = dockerNetworkName (n.label "jaco.deployment") (n.label "jaco.network") ∧
      implicitDefault (n.label "jaco.network") = n.label "jaco.network"

theorem named_step (h : Host) (e : Event) (hnamed : Named h) (he : ∀ d ∈ e.deployments, '_' ∉ d.toList) :
    Named (step h e) ∧ SparesOthers h e := by
  cases e with
  | containers engine => exact ⟨hnamed, trivial⟩
  | start deployment clusterID networks cidr fates =>
    have hd : '_' ∉ deployment.toList := he deployment mem_cons_self
    have hserves := ensureBridges_serves hd clusterID cidr (attachKeys networks) ⟨h, fates⟩
    rw [← networksFromCompose_eq] at hserves
    constructor
    · intro n hn hjaco
      rcases hserves.added n hn with hn | ⟨key, -, hname, hdep, hnet⟩
      · exact hnamed n hn hjaco
      · rw [hdep, hnet, hname, implicitDefault_idem, dockerNetworkName_implicitDefault]
        exact ⟨hd, rfl, rfl⟩
    · intro n hn hjaco hother
      obtain ⟨hfree, hname, hnet⟩ := hnamed n hn hjaco
      apply hserves.kept n hn
      intro key hkey heq
      rw [hname] at heq
      obtain ⟨hdep, hkeys⟩ := eq_of_joined hfree hd heq
      exact hother ⟨hdep, key, hkey, hnet.symm.trans hkeys⟩

def Scoped (overrides : StringMap) (key : String) : Prop := (overrides.lookup key).filter (· ≠ "") = none

theorem names_scoped_iff (inUse : Set String) :
    ((∀ d ∈ inUse, ∀ n, networkNameFromDockerName (dockerNetworkName d n) = implicitDefault n) ∧
      (∀ d ∈ inUse, ∀ d' ∈ inUse, ∀ n n', dockerNetworkName d n = dockerNetworkName d' n' →
        d = d' ∧ implicitDefault n = implicitDefault n') ∧
      (∀ d ∈ inUse, ∀ d' ∈ inUse, ∀ o key o' key', Scoped o key → Scoped o' key' →
        volumeName d key o = volumeName d' key' o' → d = d' ∧ key = key') ∧
      ∀ h : Host, (∀ n ∈ h.networks, ¬ isJACOBridge n) → ∀ events : List Event,
        (∀ e ∈ events, ∀ d ∈ e.deployments, d ∈ inUse) → Along step SparesOthers h events) ↔
    ∀ d ∈ inUse, '_' ∉ d.toList := by
  constructor
  · rintro ⟨hdecode, -⟩ d hd
    exact (decode_dockerNetworkName_iff d "default").1 (hdecode d hd "default")
  · intro hfree
    refine ⟨fun d hd n => (decode_dockerNetworkName_iff d n).2 (hfree d hd), ?_, ?_, ?_⟩
    · intro d hd d' hd' n n' heq
      exact eq_of_joined (hfree d hd) (hfree d' hd') heq
    · intro d hd d' hd' o key o' key' hkey hkey' heq
      rw [volumeName_of_scoped d hkey, volumeName_of_scoped d' hkey'] at heq
      exact eq_of_joined (hfree d hd) (hfree d' hd') heq
    · intro h hbare events hevents
      have hnamed : Named h := fun n hn hjaco => absurd hjaco (hbare n hn)
      apply (along_of_invariant step Named (fun _ e => ∀ d ∈ e.deployments, '_' ∉ d.toList) SparesOthers
        named_step h events hnamed _).2
      apply along_of_forall
      exact fun e he d hd => hfree d (hevents e he d hd)

namespace Sample

def service (network volume : String) : ServiceConfig where
  name := "web"
  image := "nginx"
  networks := [network]
  volumes := [⟨"volume", volume, "/data"⟩]

def text (s : String) : Bytes := s.toList.flatMap String.utf8EncodeChar

def compose (network volume : String) : Bytes :=
  text ("services:\n  web:\n    image: nginx\n    networks: [" ++ network ++ "]\n    volumes: ['" ++ volume ++
    ":/data']\nnetworks:\n  " ++ network ++ ":\nvolumes:\n  " ++ volume ++ ":\n")

def shopCompose : Bytes := compose "eu_eu_web" "eu_data"

def shopEuCompose : Bytes := compose "web" "data"

def parsers : Parsers where
  decodeJaco b := .ok { deployment := if b = text "deployment: shop" then "shop" else "shop_eu" }
  mailError _ := none
  validateCompose _ := none
  loadCompose b :=
    .ok ⟨[if b = shopCompose then service "eu_eu_web" "eu_data" else service "web" "data"], nodup_singleton _⟩
  specHash b _ := .ok b

def admitted (jaco compose : Bytes) : Option (String × List (List String)) :=
  (Deploy.admission parsers .leader .new "local" ⟨jaco, compose, false⟩).toOption.map (fun a =>
    (a.jaco.deployment, a.project.services.map (fun svc => svc.networks ++ svc.volumes.map (·.source))))

def start (deployment network cidr : String) : Event :=
  .start deployment "cluster-1" [network] (fun _ => .ok cidr) []

def bare : Host := ⟨.empty, [], 0, nodup_nil, fun _ h => nomatch h⟩

def shopHost : Host := step bare (start "shop" "eu_eu_web" "10.244.0.0/24")

end Sample

open Sample

theorem shop_eu_takes_shop_names :
    admitted (text "deployment: shop") shopCompose = some ("shop", [["eu_eu_web", "eu_data"]]) ∧
      admitted (text "deployment: shop_eu") shopEuCompose =
        some ("shop_eu", [["web", "data"]]) ∧
      networkNameFromDockerName (dockerNetworkName "shop_eu" "web") = "eu_web" ∧
      volumeName "shop_eu" "data" [] = volumeName "shop" "eu_data" [] ∧
      ¬ SparesOthers shopHost (start "shop_eu" "web" "10.244.1.0/24") := by
  refine ⟨by decide +kernel, by decide +kernel, by decide +kernel, by decide +kernel, fun h => ?_⟩
  have hshop := h ⟨0, "jaco_shop_eu_eu_web", bridgeLabels "shop" "eu_eu_web" "10.244.0.0/24" "cluster-1",
    "10.244.0.0/24"⟩ (by decide +kernel) (by decide) (by decide)
  revert hshop
  decide +kernel

end Jaco.Bridge
