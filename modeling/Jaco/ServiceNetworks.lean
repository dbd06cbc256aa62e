import Jaco.BridgeRuns
import Jaco.RouteOwnership

/-!
The networks a replica is attached to come from the compose document, the networks others look for its addresses on come
from the merged service list.
-/

namespace Jaco.Bridge

open Reconciler Deploy List

/-- `networksOfService` of the DNS manager; the ingress builder's `serviceNetworks` has the same body. -/
def networksOfService (st : State) (deployment service : String) : List String :=
  match st.deployments.get deployment with
  | none => []
  | some dep => ((dep.services.find? (fun svc => svc.name = service)).map (·.networks)).getD []

def serviceNetworks (st : State) (deployment service : String) : List String :=
  networksOfService st deployment service

def bridgesForService (st : State) (deployment service : String) : Except String (List String) :=
  match st.deployments.get deployment with
  | none => .error ("BridgesForService: deployment " ++ GoStrings.quote deployment ++ " not found")
  | some dep =>
    match dep.services.find? (fun svc => svc.name = service) with
    | none => .error ("BridgesForService: service " ++ GoStrings.quote service ++ " not found in deployment " ++
        GoStrings.quote deployment)
    | some spec =>
      if spec.networks = [] then .ok [dockerNetworkName deployment "_default"]
      else .ok (spec.networks.map (dockerNetworkName deployment))

def SeenAsAttached (st : State) (deployment service : String) (attached : List String) : Prop :=
  (∃ bridges, bridgesForService st deployment service = .ok bridges ∧ ∀ x, x ∈ attached ↔ x ∈ bridges) ∧
    (∀ x, x ∈ attached ↔ x ∈ (networksOfService st deployment service).map (dockerNetworkName deployment)) ∧
    ∀ x, x ∈ attached ↔ x ∈ (serviceNetworks st deployment service).map (dockerNetworkName deployment)

def SameNetworks (override : Option JacoServiceDecl) (svc : ServiceConfig) : Prop :=
  match (override.map (·.networks)).getD [] with
  | [] => svc.networks ≠ []
  | listed => ∀ n, n ∈ listed.map implicitDefault ↔ n ∈ (attachKeys svc.networks).map implicitDefault

theorem find?_of_unique {α : Type} {l : List α} {p : α → Bool} {a : α} (ha : a ∈ l) (hp : p a = true)
    (hu : ∀ b ∈ l, p b = true → b = a) : l.find? p = some a := by
  cases hf : l.find? p with
  | none => exact absurd hp (List.find?_eq_none.1 hf a ha)
  | some b => rw [hu b (mem_of_find?_eq_some hf) (List.find?_some hf)]

theorem find_mergeOne {j : JacoYAML} {project : Project} {services : List ServiceSpec} {svc : ServiceConfig}
    (h : mergeServiceDefaults j project = .ok services) (hsvc : svc ∈ project.services) :
    services.find? (fun s => s.name = svc.name) = some (mergeOne svc (j.override svc.name)) := by
  unfold mergeServiceDefaults at h
  split at h
  · cases h
  · cases h
    have hperm := perm_insertionSort (fun a b : ServiceConfig => a.name ≤ b.name) project.services
    rw [List.find?_map]
    have hfind : (project.services.insertionSort (fun a b => a.name ≤ b.name)).find?
        ((fun s : ServiceSpec => decide (s.name = svc.name)) ∘ fun c => mergeOne c (j.override c.name)) = some svc := by
      apply find?_of_unique
      · exact hperm.mem_iff.2 hsvc
      · simp [mergeOne]
      · intro c hc hname
        have hname : c.name = svc.name := by simpa [mergeOne] using hname
        exact inj_on_of_nodup_map project.nodup (hperm.mem_iff.1 hc) hsvc hname
    rw [hfind]
    rfl

theorem mem_map_dockerNetworkName_iff (d : String) (keys keys' : List String) :
    (∀ x, x ∈ keys.map (dockerNetworkName d) ↔ x ∈ keys'.map (dockerNetworkName d)) ↔
      ∀ n, n ∈ keys.map implicitDefault ↔ n ∈ keys'.map implicitDefault := by
  have hmem : ∀ (l : List String) n,
      dockerNetworkName d n ∈ l.map (dockerNetworkName d) ↔ implicitDefault n ∈ l.map implicitDefault := by
    intro l n
    simp only [mem_map, dockerNetworkName_inj]
  constructor
  · intro h n
    constructor
    · rintro hn
      obtain ⟨k, hk, rfl⟩ := mem_map.1 hn
      exact (hmem keys' k).1 ((h _).1 (mem_map_of_mem hk))
    · rintro hn
      obtain ⟨k, hk, rfl⟩ := mem_map.1 hn
      exact (hmem keys k).1 ((h _).2 (mem_map_of_mem hk))
  · intro h x
    constructor
    · rintro hx
      obtain ⟨k, hk, rfl⟩ := mem_map.1 hx
      exact (hmem keys' k).2 ((h _).1 (mem_map_of_mem hk))
    · rintro hx
      obtain ⟨k, hk, rfl⟩ := mem_map.1 hx
      exact (hmem keys k).2 ((h _).2 (mem_map_of_mem hk))

theorem attachKeys_ne_nil (networks : List String) : attachKeys networks ≠ [] := by
  unfold attachKeys
  split
  · simp
  · assumption

theorem mem_sortNames (l : List String) (n : String) : n ∈ sortNames l ↔ n ∈ l :=
  (perm_insertionSort _ l).mem_iff

theorem seen_iff_keys {st : State} {d service : String} {spec : ServiceSpec} {dep : Deployment} (keys : List String)
    (hkeys : keys ≠ []) (hget : st.deployments.get d = some dep)
    (hfind : dep.services.find? (fun s => s.name = service) = some spec) :
    SeenAsAttached st d service (keys.map (dockerNetworkName d)) ↔
      spec.networks ≠ [] ∧ ∀ n, n ∈ keys.map implicitDefault ↔ n ∈ spec.networks.map implicitDefault := by
  have hlisted : networksOfService st d service = spec.networks := by simp [networksOfService, hget, hfind]
  simp only [SeenAsAttached, serviceNetworks, hlisted, and_self]
  constructor
  · rintro ⟨-, hdns⟩
    refine ⟨fun hnil => ?_, (mem_map_dockerNetworkName_iff d _ _).1 hdns⟩
    obtain ⟨k, hk⟩ := exists_mem_of_ne_nil keys hkeys
    have := (hdns _).1 (mem_map_of_mem hk)
    simp [hnil] at this
  · rintro ⟨hne, hsame⟩
    have hnames := (mem_map_dockerNetworkName_iff d _ _).2 hsame
    refine ⟨⟨_, ?_, hnames⟩, hnames⟩
    simp [bridgesForService, hget, hfind, hne]

theorem sameNetworks_iff (override : Option JacoServiceDecl) (svc : ServiceConfig) : SameNetworks override svc ↔
      (mergeOne svc override).networks ≠ [] ∧ ∀ n, n ∈ (attachKeys svc.networks).map implicitDefault ↔
        n ∈ (mergeOne svc override).networks.map implicitDefault := by
  have hmerged : (mergeOne svc override).networks =
      if (override.map (·.networks)).getD [] = [] then sortNames svc.networks
      else (override.map (·.networks)).getD [] := by
    cases override with
    | none => simp [mergeOne]
    | some o => by_cases ho : o.networks = [] <;> simp [mergeOne, ho, Option.filter]
  rw [hmerged, SameNetworks]
  split
  · rename_i hnil
    rw [if_pos hnil]
    have hsorted : sortNames svc.networks ≠ [] ↔ svc.networks ≠ [] := by
      rw [← length_pos_iff, ← length_pos_iff, sortNames, length_insertionSort]
    rw [hsorted]
    refine ⟨fun hne => ⟨hne, fun n => ?_⟩, And.left⟩
    simp only [attachKeys, if_neg hne, mem_map, mem_sortNames]
  · rename_i listed hcons
    rw [if_neg hcons]
    exact ⟨fun h => ⟨hcons, fun n => (h n).symm⟩, fun h n => (h.2 n).symm⟩

theorem attached_as_listed_iff (p : Parsers) (role : RaftRole) (s : State) (identity : String) (req : ApplyRequest)
    (a : Admitted) (hadmitted : admission p role s identity req = .ok a) (svc : ServiceConfig)
    (hsvc : svc ∈ a.project.services) (opts : SpecOptions) (hopts : opts.deployment = a.jaco.deployment)
    (st : State) (dep : Deployment) (hget : st.deployments.get a.jaco.deployment = some dep)
    (hservices : dep.services = a.services) :
    SeenAsAttached st a.jaco.deployment svc.name (toContainerSpec svc opts).networks ↔
      SameNetworks (a.jaco.override svc.name) svc := by
  have hmerge := ((admission_eq_ok_iff p role s identity req a).1 hadmitted).2.2.2.1
  have hfind := find_mergeOne hmerge hsvc
  rw [← hservices] at hfind
  have hattached : (toContainerSpec svc opts).networks =
      (attachKeys svc.networks).map (dockerNetworkName a.jaco.deployment) := by
    rw [← networksFromCompose_eq, ← hopts]
    rfl
  rw [hattached, seen_iff_keys _ (attachKeys_ne_nil _) hget hfind, sameNetworks_iff]

namespace Sample

def jacoText (networks : String) : Bytes :=
  text ("deployment: shop\nservices:\n  - name: web\n" ++ networks)

def overriding : Parsers where
  decodeJaco b := .ok
    { deployment := "shop"
      services := [{
        name := "web", networks := if b = jacoText "    networks: [backend]\n" then ["backend"] else [] }] }
  mailError _ := none
  validateCompose _ := none
  loadCompose _ := .ok ⟨[{ name := "web", image := "nginx", networks := ["frontend"] }], nodup_singleton _⟩
  specHash b _ := .ok b

def frontendCompose : Bytes :=
  text "services:\n  web:\n    image: nginx\n    networks: [frontend]\nnetworks:\n  frontend:\n  backend:\n"

def moved : ApplyRequest := ⟨jacoText "    networks: [backend]\n", frontendCompose, false⟩

def plain : ApplyRequest := ⟨jacoText "", frontendCompose, false⟩

def web : ServiceConfig := { name := "web", image := "nginx", networks := ["frontend"] }

def admittedWith (networks : List String) : Admitted where
  jaco := { deployment := "shop", services := [{ name := "web", placement := "spread", networks := networks }] }
  project := ⟨[web], nodup_singleton _⟩
  services :=
    [{ name := "web", replicas := 1, placement := .spread,
       networks := if networks = [] then ["frontend"] else networks }]

def stored (req : ApplyRequest) (a : Admitted) : State :=
  applyEntry 1 .new ⟨"ops", none, .deploymentApply (Deploy.command .new req a)⟩

def deployment (req : ApplyRequest) (a : Admitted) : Deployment where
  name := "shop"
  appliedRevision := 1
  status := .active
  jacoYaml := req.jacoYaml
  composeYaml := req.composeYaml
  services := a.services

def opts : SpecOptions := ⟨"cluster-1", "shop", "web", "shop-web-0", 0, 1⟩

end Sample

open Sample

theorem plain_web_seen_as_attached : SeenAsAttached (stored plain (admittedWith [])) "shop" "web"
      (toContainerSpec web opts).networks :=
  (attached_as_listed_iff overriding .leader .new "local" plain (admittedWith [])
    (by decide +kernel) web mem_cons_self opts rfl _
    (deployment plain (admittedWith [])) (by decide +kernel) rfl).2
    (cons_ne_nil "frontend" [])

theorem moved_web_attached_elsewhere :
    admission overriding .leader .new "local" moved = .ok (admittedWith ["backend"]) ∧
      web ∈ (admittedWith ["backend"]).project.services ∧ web.networkMode = "" ∧
      (toContainerSpec web opts).networks = ["jaco_shop_frontend"] ∧
      bridgesForService (stored moved (admittedWith ["backend"])) "shop" "web" =
        .ok ["jaco_shop_backend"] ∧
      ¬ SeenAsAttached (stored moved (admittedWith ["backend"])) "shop" "web"
        (toContainerSpec web opts).networks := by
  refine ⟨by decide +kernel, mem_cons_self, rfl, by decide +kernel, by decide +kernel, ?_⟩
  rintro ⟨-, hdns, -⟩
  have hfrontend := (hdns "jaco_shop_frontend").1 (by decide +kernel)
  revert hfrontend
  decide +kernel

end Jaco.Bridge
