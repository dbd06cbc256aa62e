import Jaco.NetworkNames
import Jaco.Cidr

namespace Jaco.Bridge

open Docker Interleaving Runs List

structure Network where
  id : Nat
  name : String
  labels : StringMap
  subnet : String
  deriving DecidableEq

def Network.label (n : Network) (key : String) : String := (n.labels.lookup key).getD ""

def isJACOBridge (n : Network) : Prop := n.label "jaco.deployment" ≠ "" ∧ n.label "jaco.network" ≠ ""

instance (n : Network) : Decidable (isJACOBridge n) :=
  inferInstanceAs (Decidable (n.label "jaco.deployment" ≠ "" ∧ n.label "jaco.network" ≠ ""))

structure Host where
  engine : Engine
  networks : List Network
  nextNetwork : Nat
  nodup : (networks.map Network.id).Nodup
  fresh : ∀ n ∈ networks, n.id < nextNetwork

structure Site where
  host : Host
  fates : List Fate := []

def Site.call (s : Site) (effect : Host → Host) : Bool × Site :=
  match s.fates.headD .acked with
  | .acked => (true, ⟨effect s.host, s.fates.tail⟩)
  | .unacked => (false, ⟨effect s.host, s.fates.tail⟩)
  | .lost => (false, ⟨s.host, s.fates.tail⟩)

def byteAt (a : BitVec 32) (shift : Nat) : Nat := (a >>> shift).toNat % 256

def octet (a : BitVec 32) (shift : Nat) : String := toString (byteAt a shift)

def gatewayIP (cidr : String) : Option String :=
  (Cidr.parse cidr).map (fun c =>
    -- the address of the network, not the one written before the slash
    let ip := (c.base.ushiftRight (32 - c.bits)).shiftLeft (32 - c.bits)
    octet ip 24 ++ "." ++ octet ip 16 ++ "." ++ octet ip 8 ++ ".1")

def Host.stop (id : Nat) (h : Host) : Host := { h with engine := h.engine.setState id "exited" }

def Host.removeContainer (id : Nat) (h : Host) : Host := { h with engine := h.engine.remove id }

def Host.removeNetwork (id : Nat) (h : Host) : Host :=
  { h with
    networks := h.networks.filter (fun n => n.id ≠ id)
    nodup := h.nodup.sublist (filter_sublist.map Network.id)
    fresh := fun n hn => h.fresh n (mem_of_mem_filter hn) }

def Host.createNetwork (name : String) (labels : StringMap) (subnet : String) (h : Host) : Host where
  engine := h.engine
  networks := ⟨h.nextNetwork, name, labels, subnet⟩ :: h.networks
  nextNetwork := h.nextNetwork + 1
  nodup := by
    rw [map_cons, nodup_cons]
    refine ⟨fun hmem => ?_, h.nodup⟩
    obtain ⟨n, hn, hid⟩ := mem_map.1 hmem
    exact absurd hid (ne_of_lt (h.fresh n hn))
  fresh := by
    intro n hn
    rcases mem_cons.1 hn with rfl | hn
    · exact Nat.lt_succ_self _
    · exact (h.fresh n hn).trans (Nat.lt_succ_self _)

def evict (name : String) : List Container → Site → Except String Unit × Site
  | [], s => (.ok (), s)
  | c :: rest, s =>
    -- a failed stop is ignored: the removal forces
    match (s.call (Host.stop c.id)).2.call (Host.removeContainer c.id) with
    | (true, s) => evict name rest s
    | (false, s) => (.error ("ContainerRemove " ++ toString c.id ++ " (attached to " ++ name ++ ")"), s)

def Host.attached (h : Host) (name : String) : List Container :=
  h.engine.containers.filter (fun c => name ∈ c.networks)

def bridgeLabels (deployment network cidr clusterID : String) : StringMap :=
  [("jaco.cluster_id", clusterID), ("jaco.deployment", deployment), ("jaco.network", network), ("jaco.subnet", cidr)]

def create (name deployment network cidr clusterID : String) (s : Site) : Except String String × Site :=
  match gatewayIP cidr with
  | none => (.error ("GatewayIP: parse " ++ GoStrings.quote cidr), s)
  | some _ =>
    match s.call (Host.createNetwork name (bridgeLabels deployment network cidr clusterID) cidr) with
    | (true, s) => (.ok name, s)
    | (false, s) => (.error ("NetworkCreate " ++ name), s)

def recreate (n : Network) (deployment network cidr clusterID : String) (s : Site) : Except String String × Site :=
  match evict n.name (s.host.attached n.name) s with
  | (.error e, s) => (.error e, s)
  | (.ok (), s) =>
    match s.call (Host.removeNetwork n.id) with
    | (false, s) => (.error ("NetworkRemove " ++ toString n.id ++ " (stale subnet)"), s)
    | (true, s) => create n.name deployment network cidr clusterID s

def reconcileBridge (name deployment network cidr clusterID : String) (s : Site) : Except String String × Site :=
  match s.host.networks.find? (fun n => n.name = name) with
  | none => create name deployment network cidr clusterID s
  | some n =>
    if ¬ isJACOBridge n then
      (.error ("Ensure: docker network " ++ name ++ " exists but has no jaco.* labels — refusing to reconcile"), s)
    else match s.call id with
      | (false, s) => (.error ("NetworkInspect " ++ toString n.id), s)
      | (true, s) =>
        if n.subnet = cidr ∧ n.label "jaco.cluster_id" = clusterID then (.ok name, s)
        else recreate n deployment network cidr clusterID s

def ensure (deployment network cidr clusterID : String) (s : Site) : Except String String × Site :=
  if deployment = "" ∨ network = "" then (.error "Ensure: deployment + network are required", s)
  else if cidr = "" then (.error "Ensure: cidr is required", s)
  else if clusterID = "" then (.error "Ensure: clusterID is required", s)
  else match s.call id with
    | (false, s) => (.error "NetworkList", s)
    | (true, s) => reconcileBridge (dockerNetworkName deployment network) deployment network cidr clusterID s

/-- The bridges `runStart` sees to before it starts the container; `cidr` answers `ensureSubnet`. -/
def ensureBridges (deployment clusterID : String) (cidr : String → Except String String) :
    List String → Site → Site
  | [], s => s
  | netname :: rest, s =>
    if networkNameFromDockerName netname = "" then ensureBridges deployment clusterID cidr rest s
    else match cidr (networkNameFromDockerName netname) with
      | .error _ => s
      -- a failure is only logged
      | .ok c => ensureBridges deployment clusterID cidr rest
          (ensure deployment (networkNameFromDockerName netname) c clusterID s).2

structure Confined (name deployment network : String) (h h' : Host) : Prop where
  kept : ∀ n ∈ h.networks, n.name ≠ name → n ∈ h'.networks
  added : ∀ n ∈ h'.networks, n ∈ h.networks ∨
    (n.name = name ∧ n.label "jaco.deployment" = deployment ∧ n.label "jaco.network" = network)

section Confined

variable {name deployment network : String}

theorem Confined.of_eq {h h' : Host} (he : h'.networks = h.networks) : Confined name deployment network h h' :=
  ⟨fun _ hn _ => he ▸ hn, fun _ hn => .inl (he ▸ hn)⟩

theorem Confined.trans {h₁ h₂ h₃ : Host} (h : Confined name deployment network h₁ h₂)
    (h' : Confined name deployment network h₂ h₃) : Confined name deployment network h₁ h₃ := by
  constructor
  · intro n hn hne
    exact h'.kept n (h.kept n hn hne) hne
  · intro n hn
    rcases h'.added n hn with hn | hn
    · exact h.added n hn
    · exact .inr hn

variable {s : Site} {effect : Host → Host}

theorem call_confined (h : Confined name deployment network s.host (effect s.host)) :
    Confined name deployment network s.host (s.call effect).2.host := by
  unfold Site.call
  split
  · exact h
  · exact h
  · exact .of_eq rfl

theorem confined_of_call {t : Site} {ok : Bool} (he : s.call effect = (ok, t))
    (h : Confined name deployment network s.host (effect s.host)) :
    Confined name deployment network s.host t.host := by
  have hcall := call_confined h
  rw [he] at hcall
  exact hcall

theorem networks_of_call {t : Site} {ok : Bool} (he : s.call effect = (ok, t))
    (h : (effect s.host).networks = s.host.networks) : t.host.networks = s.host.networks := by
  have hcall : (s.call effect).2.host.networks = s.host.networks := by
    unfold Site.call
    split
    · exact h
    · exact h
    · rfl
  rw [he] at hcall
  exact hcall

theorem evict_networks (name : String) (attached : List Container) (s : Site) :
    (evict name attached s).2.host.networks = s.host.networks := by
  induction attached generalizing s with
  | nil => rfl
  | cons c rest ih =>
    have hstop : (s.call (Host.stop c.id)).2.host.networks = s.host.networks :=
      networks_of_call (show s.call (Host.stop c.id) = (_, _) from rfl) rfl
    rw [evict]
    split
    · rename_i s' he
      rw [ih, networks_of_call he rfl, hstop]
    · rename_i s' he
      rw [networks_of_call he rfl, hstop]

theorem createNetwork_confined (cidr clusterID : String) (h : Host) : Confined name deployment network h
      (h.createNetwork name (bridgeLabels deployment network cidr clusterID) cidr) := by
  constructor
  · intro n hn _
    exact mem_cons_of_mem _ hn
  · intro n hn
    rcases mem_cons.1 hn with rfl | hn
    · exact .inr ⟨rfl, rfl, rfl⟩
    · exact .inl hn

theorem removeNetwork_confined {h : Host} {n : Network} (hn : n ∈ h.networks) (hname : n.name = name) :
    Confined name deployment network h (h.removeNetwork n.id) := by
  constructor
  · intro m hm hne
    apply mem_filter.2
    refine ⟨hm, decide_eq_true fun hid => hne ?_⟩
    rw [inj_on_of_nodup_map h.nodup hm hn hid, hname]
  · intro m hm
    exact .inl (mem_of_mem_filter hm)

theorem create_confined (cidr clusterID : String) (s : Site) :
    Confined name deployment network s.host (create name deployment network cidr clusterID s).2.host := by
  unfold create
  split
  · exact .of_eq rfl
  · split
    · rename_i s' he
      exact confined_of_call he (createNetwork_confined cidr clusterID s.host)
    · rename_i s' he
      exact confined_of_call he (createNetwork_confined cidr clusterID s.host)

theorem recreate_confined {n : Network} (hn : n ∈ s.host.networks) (hname : n.name = name) (cidr clusterID : String) :
    Confined name deployment network s.host (recreate n deployment network cidr clusterID s).2.host := by
  subst hname
  have hkeeps := evict_networks n.name (s.host.attached n.name) s
  unfold recreate
  split
  · rename_i e s' he
    rw [he] at hkeeps
    exact .of_eq hkeeps
  · rename_i s' he
    rw [he] at hkeeps
    have hmem : n ∈ s'.host.networks := hkeeps ▸ hn
    have hevicted : Confined n.name deployment network s.host s'.host := .of_eq hkeeps
    split
    · rename_i s'' hremove
      exact hevicted.trans (confined_of_call hremove (removeNetwork_confined hmem rfl))
    · rename_i s'' hremove
      exact hevicted.trans
        ((confined_of_call hremove (removeNetwork_confined hmem rfl)).trans (create_confined cidr clusterID s''))

theorem reconcileBridge_confined (cidr clusterID : String) (s : Site) :
    Confined name deployment network s.host (reconcileBridge name deployment network cidr clusterID s).2.host := by
  unfold reconcileBridge
  split
  · exact create_confined cidr clusterID s
  · rename_i n hfind
    have hname : n.name = name := by simpa using List.find?_some hfind
    split
    · exact .of_eq rfl
    · split
      · rename_i s' he
        exact confined_of_call he (.of_eq rfl)
      · rename_i s' he
        have hsame := networks_of_call he rfl
        split
        · exact .of_eq hsame
        · have hmem : n ∈ s'.host.networks := hsame ▸ mem_of_find?_eq_some hfind
          exact (Confined.of_eq hsame).trans (recreate_confined hmem hname cidr clusterID)

theorem ensure_confined (deployment network cidr clusterID : String) (s : Site) :
    Confined (dockerNetworkName deployment network) deployment network s.host
      (ensure deployment network cidr clusterID s).2.host := by
  unfold ensure
  split
  · exact .of_eq rfl
  · split
    · exact .of_eq rfl
    · split
      · exact .of_eq rfl
      · split
        · rename_i s' he
          exact confined_of_call he (.of_eq rfl)
        · rename_i s' he
          exact (confined_of_call he (.of_eq rfl)).trans (reconcileBridge_confined cidr clusterID s')

end Confined

end Jaco.Bridge
