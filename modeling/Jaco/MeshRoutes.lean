import Jaco.WgMesh

namespace Jaco.WgMesh

open Cidr Ipam List

def PeerConfig.Allows (p : PeerConfig) (a : BitVec 32) : Prop := ∃ c ∈ p.allowedIPs, c.contains a = true

def PeerConfig.AllowsAll (p : PeerConfig) (cidr : String) : Prop := ∀ a, covers cidr (.v4 a) = true → p.Allows a

structure Sound (peers : List (Node × PeerConfig)) (routed : List Subnet) : Prop where
  disjoint : ∀ n p, (n, p) ∈ peers → ∀ m q, (m, q) ∈ peers → n ≠ m → ∀ a, ¬ (p.Allows a ∧ q.Allows a)
  owned : ∀ sn ∈ routed, ∃ n p, (n, p) ∈ peers ∧ n.hostname = sn.host ∧ p.AllowsAll sn.cidr ∧
    ∀ m q, (m, q) ∈ peers → q.AllowsAll sn.cidr → m = n

section Mesh

variable (h : Host) (st : State) (selfHostname : String)

structure Reachable (n : Node) : Prop where
  recorded : st.nodes.get n.hostname = some n
  other : n.hostname ≠ selfHostname
  keyed : n.wireguardPubkey ≠ []
  addressed : (h.parseIP (stripPort h n.address)).isSome = true

structure Routable : Prop where
  hosts : ∀ sn, st.subnets.get sn.key = some sn → sn.host ≠ "" → sn.host ≠ selfHostname →
    ∃ n, Reachable h st selfHostname n ∧ n.hostname = sn.host
  slots : ∀ n m, Reachable h st selfHostname n → Reachable h st selfHostname m → n ≠ m →
    slotIP h n.hostname ≠ slotIP h m.hostname
  clear : ∀ n m, Reachable h st selfHostname n → Reachable h st selfHostname m → n ≠ m →
    ∀ sn, st.subnets.get sn.key = some sn → sn.host = n.hostname → covers sn.cidr (.v4 (slotIP h m.hostname)) = false
  apart : ∀ n m, Reachable h st selfHostname n → Reachable h st selfHostname m → n ≠ m →
    ∀ sn sm, st.subnets.get sn.key = some sn → sn.host = n.hostname → st.subnets.get sm.key = some sm →
      sm.host = m.hostname → Cidr.apart sn.cidr sm.cidr = true

variable {h st selfHostname}

def peerFor (h : Host) (subnets : List Subnet) (n : Node) (ip : Addr) : PeerConfig :=
  ⟨n.wireguardPubkey, (ip, defaultListenPort), ⟨slotIP h n.hostname, 32, le_rfl⟩ :: containerNets subnets n.hostname⟩

theorem peerOf_ok {subnets : List Subnet} {n : Node} {peer : Option PeerConfig}
    (hp : peerOf h subnets selfHostname n = .ok peer) (p : PeerConfig) : p ∈ peer ↔
      n.hostname ≠ selfHostname ∧ n.wireguardPubkey ≠ [] ∧
        ∃ ip, h.parseIP (stripPort h n.address) = some ip ∧ p = peerFor h subnets n ip := by
  unfold peerOf at hp
  split at hp
  · rename_i hself
    cases hp
    simp [hself]
  · rename_i hself
    split at hp
    · rename_i hkey
      cases hp
      simp [hkey]
    · rename_i hkey
      rw [parse_allowedIP] at hp
      unfold keyFromBytes at hp
      by_cases hlen : n.wireguardPubkey.length ≠ keyLen
      · rw [if_pos hlen] at hp
        cases hp
      · rw [if_neg hlen] at hp
        dsimp only at hp
        split at hp
        · rename_i hnone
          cases hp
          simp [hnone]
        · rename_i ip hip
          cases hp
          simp only [Option.mem_def, Option.some.injEq, hip, exists_eq_left']
          exact ⟨fun he => ⟨hself, hkey, he.symm⟩, fun he => he.2.2.symm⟩

theorem mem_peersOf {subnets : List Subnet} {nodes : List Node} {peers : List (Node × PeerConfig)}
    (hp : peersOf h subnets selfHostname nodes = .ok peers) (n : Node) (p : PeerConfig) : (n, p) ∈ peers ↔
      n ∈ nodes ∧ n.hostname ≠ selfHostname ∧ n.wireguardPubkey ≠ [] ∧
        ∃ ip, h.parseIP (stripPort h n.address) = some ip ∧ p = peerFor h subnets n ip := by
  induction nodes generalizing peers with
  | nil =>
    cases hp
    simp
  | cons m ns ih =>
    rw [peersOf] at hp
    split at hp
    · cases hp
    · rename_i peer hpeer
      split at hp
      · cases hp
      · rename_i rest hrest
        cases hp
        rw [mem_append, ih hrest, mem_cons]
        simp only [mem_map, Option.mem_toList, Prod.mk.injEq]
        constructor
        · rintro (⟨q, hq, rfl, rfl⟩ | ⟨hmem, hrec⟩)
          · exact ⟨.inl rfl, (peerOf_ok hpeer q).1 hq⟩
          · exact ⟨.inr hmem, hrec⟩
        · rintro ⟨rfl | hmem, hrec⟩
          · exact .inl ⟨p, (peerOf_ok hpeer p).2 hrec, rfl, rfl⟩
          · exact .inr ⟨hmem, hrec⟩

theorem covers_v4 (cidr : String) (a : BitVec 32) :
    covers cidr (.v4 a) = true ↔ ∃ c, parse cidr = some c ∧ c.contains a = true := by
  rw [covers]
  cases parse cidr with
  | none => simp
  | some c => simp

theorem allows_peerFor (subnets : List Subnet) (n : Node) (ip : Addr) (a : BitVec 32) :
    (peerFor h subnets n ip).Allows a ↔
      a = slotIP h n.hostname ∨ ∃ sn ∈ subnets, sn.host = n.hostname ∧ covers sn.cidr (.v4 a) = true := by
  simp only [PeerConfig.Allows, peerFor, mem_cons, exists_eq_or_imp]
  apply or_congr
  · simp [Prefix4.contains]
  · simp only [containerNets, mem_filterMap, mem_filter, decide_eq_true_eq, covers_v4]
    constructor
    · rintro ⟨c, ⟨sn, ⟨hsn, hhost⟩, hc⟩, ha⟩
      exact ⟨sn, hsn, hhost, c, hc, ha⟩
    · rintro ⟨sn, hsn, hhost, c, hc, ha⟩
      exact ⟨c, ⟨sn, ⟨hsn, hhost⟩, hc⟩, ha⟩

variable {nodes : st.nodes.Listing} {subnets : st.subnets.Listing} {peers : List (Node × PeerConfig)}

variable (hp : peersOf h subnets.items selfHostname nodes.items = .ok peers)

include hp

theorem mem_peers (n : Node) (p : PeerConfig) : (n, p) ∈ peers ↔ Reachable h st selfHostname n ∧
      ∃ ip, h.parseIP (stripPort h n.address) = some ip ∧ p = peerFor h subnets.items n ip := by
  rw [mem_peersOf hp, nodes.mem_items]
  constructor
  · rintro ⟨hrec, hself, hkey, ip, hip, rfl⟩
    exact ⟨⟨hrec, hself, hkey, by rw [hip]; rfl⟩, ip, hip, rfl⟩
  · rintro ⟨hr, ip, hip, rfl⟩
    exact ⟨hr.recorded, hr.other, hr.keyed, ip, hip, rfl⟩

theorem exists_peer {n : Node}
    (hr : Reachable h st selfHostname n) : ∃ ip, (n, peerFor h subnets.items n ip) ∈ peers := by
  obtain ⟨ip, hip⟩ := Option.isSome_iff_exists.1 hr.addressed
  exact ⟨ip, (mem_peers hp n _).2 ⟨hr, ip, hip, rfl⟩⟩

omit hp in
theorem apart_iff (s t : String) :
    Cidr.apart s t = true ↔ ∀ a, ¬ (covers s (.v4 a) = true ∧ covers t (.v4 a) = true) := by
  constructor
  · exact fun hap a => not_covers_of_apart s t hap (.v4 a)
  · intro hno
    unfold Cidr.apart
    split
    · rename_i c d hc hd
      cases hcd : c.apart d with
      | true => rfl
      | false =>
        obtain ⟨a, hca, hda⟩ := c.exists_contains_of_not_apart d hcd
        exact absurd ⟨(covers_v4 s a).2 ⟨c, hc, hca⟩, (covers_v4 t a).2 ⟨d, hd, hda⟩⟩ (hno a)
    · rfl

omit hp in
theorem mem_routed (sn : Subnet) : sn ∈ routedSubnets subnets.items selfHostname ↔
    st.subnets.get sn.key = some sn ∧ sn.host ≠ "" ∧ sn.host ≠ selfHostname := by
  rw [routedSubnets, mem_filter, subnets.mem_items]
  simp

theorem routable_of_sound
    (hs : Sound peers (routedSubnets subnets.items selfHostname)) : Routable h st selfHostname := by
  have hdis : ∀ n m, Reachable h st selfHostname n → Reachable h st selfHostname m → n ≠ m → ∀ a,
      (a = slotIP h n.hostname ∨ ∃ sn ∈ subnets.items, sn.host = n.hostname ∧ covers sn.cidr (.v4 a) = true) →
      (a = slotIP h m.hostname ∨ ∃ sm ∈ subnets.items, sm.host = m.hostname ∧ covers sm.cidr (.v4 a) = true) →
      False := by
    intro n m hn hm hne a hna hma
    obtain ⟨ip, hip⟩ := exists_peer hp hn
    obtain ⟨ip', hip'⟩ := exists_peer hp hm
    exact hs.disjoint _ _ hip _ _ hip' hne a ⟨(allows_peerFor _ n ip a).2 hna, (allows_peerFor _ m ip' a).2 hma⟩
  constructor
  · intro sn hsn hhost hself
    obtain ⟨n, p, hmem, hname, -, -⟩ := hs.owned sn ((mem_routed sn).2 ⟨hsn, hhost, hself⟩)
    exact ⟨n, ((mem_peers hp n p).1 hmem).1, hname⟩
  · intro n m hn hm hne heq
    exact hdis n m hn hm hne _ (.inl rfl) (.inl heq)
  · intro n m hn hm hne sn hsn hhost
    rw [Bool.eq_false_iff]
    intro hcov
    exact hdis n m hn hm hne _ (.inr ⟨sn, (subnets.mem_items sn).2 hsn, hhost, hcov⟩) (.inl rfl)
  · intro n m hn hm hne sn sm hsn hsnhost hsm hsmhost
    rw [apart_iff]
    rintro a ⟨hca, hda⟩
    exact hdis n m hn hm hne a (.inr ⟨sn, (subnets.mem_items sn).2 hsn, hsnhost, hca⟩)
      (.inr ⟨sm, (subnets.mem_items sm).2 hsm, hsmhost, hda⟩)

theorem disjoint_of_routable
    (hr : Routable h st selfHostname) (n : Node) (p : PeerConfig) (hn : (n, p) ∈ peers) (m : Node) (q : PeerConfig)
    (hm : (m, q) ∈ peers) (hne : n ≠ m) (a : BitVec 32) : ¬ (p.Allows a ∧ q.Allows a) := by
  obtain ⟨hnr, ip, -, rfl⟩ := (mem_peers hp n p).1 hn
  obtain ⟨hmr, ip', -, rfl⟩ := (mem_peers hp m q).1 hm
  rw [allows_peerFor, allows_peerFor]
  rintro ⟨rfl | ⟨sn, hsn, hsnhost, hca⟩, hma⟩
  · rcases hma with heq | ⟨sm, hsm, hsmhost, hda⟩
    · exact hr.slots n m hnr hmr hne heq
    · have hclear := hr.clear m n hmr hnr hne.symm sm ((subnets.mem_items sm).1 hsm) hsmhost
      rw [hclear] at hda
      cases hda
  · have hsn := (subnets.mem_items sn).1 hsn
    rcases hma with rfl | ⟨sm, hsm, hsmhost, hda⟩
    · rw [hr.clear n m hnr hmr hne sn hsn hsnhost] at hca
      cases hca
    · have hapart := hr.apart n m hnr hmr hne sn sm hsn hsnhost ((subnets.mem_items sm).1 hsm) hsmhost
      exact (apart_iff _ _).1 hapart a ⟨hca, hda⟩

theorem sound_of_routable (hcidr : ∀ sn, st.subnets.get sn.key = some sn → (parse sn.cidr).isSome = true)
    (hr : Routable h st selfHostname) : Sound peers (routedSubnets subnets.items selfHostname) := by
  refine ⟨disjoint_of_routable hp hr, fun sn hsn => ?_⟩
  obtain ⟨hget, hhost, hself⟩ := (mem_routed sn).1 hsn
  obtain ⟨n, hn, hname⟩ := hr.hosts sn hget hhost hself
  obtain ⟨ip, hmem⟩ := exists_peer hp hn
  have hall : (peerFor h subnets.items n ip).AllowsAll sn.cidr := by
    intro a ha
    exact (allows_peerFor _ n ip a).2 (.inr ⟨sn, (subnets.mem_items sn).2 hget, hname.symm, ha⟩)
  refine ⟨n, _, hmem, hname, hall, fun m q hm hq => ?_⟩
  by_contra hne
  -- the subnet has an address, which both peers would accept
  obtain ⟨c, hc⟩ := Option.isSome_iff_exists.1 (hcidr sn hget)
  have hbase : covers sn.cidr (.v4 c.base) = true := (covers_v4 _ _).2 ⟨c, hc, c.contains_base⟩
  exact disjoint_of_routable hp hr n _ hmem m q hm (fun he => hne he.symm) c.base ⟨hall _ hbase, hq _ hbase⟩

omit hp in
theorem peers_sound_iff (h : Host) (st : State) (selfHostname : String) (nodes : st.nodes.Listing)
    (subnets : st.subnets.Listing) (hcidr : ∀ sn, st.subnets.get sn.key = some sn → (parse sn.cidr).isSome = true)
    {cfg : Config} (hcfg : buildConfig h nodes.items subnets.items selfHostname = .ok cfg) :
    ∃ peers, peersOf h subnets.items selfHostname nodes.items = .ok peers ∧ cfg.peers = peers.map (·.2) ∧
      (Sound peers (routedSubnets subnets.items selfHostname) ↔ Routable h st selfHostname) := by
  unfold buildConfig at hcfg
  split at hcfg
  · cases hcfg
  · split at hcfg
    · cases hcfg
    · rename_i peers hp
      cases hcfg
      exact ⟨peers, hp, rfl, routable_of_sound hp, sound_of_routable hp hcidr⟩

omit hp in
theorem parse_slot (pool : AddressPool) {k : Nat} (hk : k < 256) : parse (pool.slot k) =
    some ⟨BitVec.ofNat 32 (((pool.first.toNat * 256 + pool.second.toNat) * 256 + k) * 256 + 0), 24, by decide⟩ :=
  parse_dotted pool.first.toNat_lt pool.second.toNat_lt hk (by decide) (by decide) (by decide) (by decide)
    (slot_toList pool k)

omit hp in
theorem covers_slot (pool : AddressPool) {k : Nat} (hk : k < 256) (a : BitVec 32) :
    covers (pool.slot k) (.v4 a) = true ↔
      a.toNat / 256 = (pool.first.toNat * 256 + pool.second.toNat) * 256 + k := by
  have hfirst : pool.first.toNat < 256 := pool.first.toNat_lt
  have hsecond : pool.second.toNat < 256 := pool.second.toNat_lt
  simp only [covers, parse_slot pool hk, Option.map_some, Option.getD_some, Prefix4.contains, beq_iff_eq]
  rw [← BitVec.toNat_inj]
  simp only [BitVec.toNat_ushiftRight, BitVec.toNat_ofNat, Nat.shiftRight_eq_div_pow]
  omega

omit hp in
/-- Where the subnets are distinct slots of a pool other than the mesh's, only the hosts and their mesh
addresses matter. -/
theorem routable_iff_of_pool (h : Host) (st : State) (selfHostname : String) (pool : AddressPool)
    (hpool : pool.first ≠ 10 ∨ pool.second ≠ 99)
    (hslots : ∀ sn, st.subnets.get sn.key = some sn → ∃ k < 256, sn.cidr = pool.slot k)
    (hdistinct : ∀ sn sm, st.subnets.get sn.key = some sn → st.subnets.get sm.key = some sm → sn.cidr = sm.cidr →
      sn = sm) :
    Routable h st selfHostname ↔
      (∀ sn, st.subnets.get sn.key = some sn → sn.host ≠ "" → sn.host ≠ selfHostname →
        ∃ n, Reachable h st selfHostname n ∧ n.hostname = sn.host) ∧
      ∀ n m, Reachable h st selfHostname n → Reachable h st selfHostname m → n ≠ m →
        slotIP h n.hostname ≠ slotIP h m.hostname := by
  refine ⟨fun hr => ⟨hr.hosts, hr.slots⟩, fun ⟨hhosts, hslot⟩ => ⟨hhosts, hslot, ?_, ?_⟩⟩
  · intro n m _ _ _ sn hsn _
    obtain ⟨k, hk, hcidr⟩ := hslots sn hsn
    rw [hcidr, Bool.eq_false_iff]
    intro hcov
    rw [covers_slot pool hk] at hcov
    have hoctet := octetOf_range h m.hostname
    have hfirst : pool.first.toNat < 256 := pool.first.toNat_lt
    have hsecond : pool.second.toNat < 256 := pool.second.toNat_lt
    simp only [slotIP, BitVec.toNat_ofNat] at hcov
    have hten : pool.first = 10 := UInt8.toNat_inj.1 (show pool.first.toNat = 10 by omega)
    have hninetynine : pool.second = 99 := UInt8.toNat_inj.1 (show pool.second.toNat = 99 by omega)
    exact hpool.elim (fun hne => hne hten) (fun hne => hne hninetynine)
  · intro n m hn hm hne sn sm hsn hsnhost hsm hsmhost
    obtain ⟨k, hk, hcidr⟩ := hslots sn hsn
    obtain ⟨j, hj, hcidr'⟩ := hslots sm hsm
    rw [apart_iff, hcidr, hcidr']
    rintro a ⟨hca, hda⟩
    rw [covers_slot pool hk] at hca
    rw [covers_slot pool hj] at hda
    have hkj : k = j := by omega
    have hsame : sn = sm := hdistinct sn sm hsn hsm (by rw [hcidr, hcidr', hkj])
    have hhost : n.hostname = m.hostname := by rw [← hsnhost, ← hsmhost, hsame]
    have hm := hm.recorded
    rw [← hhost, hn.recorded] at hm
    exact hne (Option.some.inj hm)

end Mesh

namespace Sample

def digests : List (String × Bytes) :=
  [("node-9", [205, 168, 5, 182, 12, 69, 3, 221, 65, 180, 138, 69, 113, 97, 59, 142, 48, 243, 10, 124, 22, 129,
      154, 5, 203, 243, 48, 193, 1, 170, 43, 96]),
    ("node-11", [205, 188, 101, 16, 81, 52, 227, 253, 216, 95, 198, 198, 130, 93, 179, 171, 169, 43, 30, 172,
      205, 76, 134, 87, 224, 167, 122, 8, 189, 189, 239, 131]),
    ("node-b", [147, 239, 55, 198, 21, 113, 56, 34, 43, 33, 164, 43, 229, 33, 131, 208, 141, 117, 205, 79, 237,
      73, 193, 203, 186, 87, 27, 6, 166, 158, 57, 164])]

def host : Host where
  sha256 bs := ((digests.find? (fun d => d.1.toUTF8.toList = bs)).map (·.2)).getD []
  splitHostPort addr := (GoStrings.beforeLast ':' addr.toList).map String.ofList
  parseIP addr := (parseAddr4 addr.toList).map .v4

def node (hostname address : String) (key : UInt8) : Node :=
  { hostname, address, wireguardPubkey := List.replicate 32 key, status := .ready }

def subnet (host cidr : String) : Subnet :=
  { deployment := "shop", network := "front", cidr, host }

def cluster (nodes : List Node) (sn : Subnet) : State :=
  { State.new with nodes := nodes.foldl Store.apply .empty, subnets := Store.empty.apply sn }

def named : State := cluster [node "node-b" "node-b.internal:7001" 1] (subnet "node-b" "10.244.0.0/24")

def colliding : State :=
  cluster [node "node-9" "10.0.0.9:7001" 1, node "node-11" "10.0.0.11:7001" 2] (subnet "node-9" "10.244.0.0/24")

def plain : State := cluster [node "node-b" "10.0.0.2:7001" 1] (subnet "node-b" "10.244.0.0/24")

theorem cidr_cluster (nodes : List Node) (host cidr : String) (h : (parse cidr).isSome = true) (sn : Subnet)
    (hsn : (cluster nodes (subnet host cidr)).subnets.get sn.key = some sn) : (parse sn.cidr).isSome = true := by
  rw [cluster, Store.get_apply, Store.get_empty] at hsn
  split at hsn
  · cases hsn
    exact h
  · cases hsn

theorem exists_ok {ε α : Type} {x : Except ε α} (h : x.isOk = true) : ∃ a, x = .ok a := by
  cases x with
  | error e => cases h
  | ok a => exact ⟨a, rfl⟩

end Sample

open WgMesh.Sample

theorem plain_mesh_sound_iff : (∀ sn, plain.subnets.get sn.key = some sn → (parse sn.cidr).isSome = true) ∧
      ∃ peers, peersOf host plain.subnets.listing.items "node-a" plain.nodes.listing.items =
          .ok peers ∧
        (Sound peers (routedSubnets plain.subnets.listing.items "node-a") ↔
          Routable host plain "node-a") := by
  have hcidr := cidr_cluster [node "node-b" "10.0.0.2:7001" 1] "node-b" "10.244.0.0/24" (by decide +kernel)
  obtain ⟨cfg, hcfg⟩ : ∃ cfg, buildConfig host plain.nodes.listing.items
      plain.subnets.listing.items "node-a" = .ok cfg := exists_ok (by decide +kernel)
  obtain ⟨peers, hpeers, -, hiff⟩ := peers_sound_iff host plain "node-a" plain.nodes.listing
    plain.subnets.listing hcidr hcfg
  exact ⟨hcidr, peers, hpeers, hiff⟩

theorem mesh_not_sound : (∃ peers, peersOf host colliding.subnets.listing.items "node-a"
        colliding.nodes.listing.items = .ok peers ∧
      ¬ Sound peers (routedSubnets colliding.subnets.listing.items "node-a")) ∧
      desiredRoutes named.subnets.listing.items "node-a" = ["10.244.0.0/24"] ∧
      ∃ peers, peersOf host named.subnets.listing.items "node-a" named.nodes.listing.items =
        .ok peers ∧ ¬ Sound peers (routedSubnets named.subnets.listing.items "node-a") := by
  refine ⟨?_, by decide +kernel, ?_⟩
  · obtain ⟨peers, hp⟩ : ∃ peers, peersOf host colliding.subnets.listing.items "node-a"
        colliding.nodes.listing.items = .ok peers := exists_ok (by decide +kernel)
    refine ⟨peers, hp, fun hs => ?_⟩
    apply (routable_of_sound hp hs).slots (node "node-9" "10.0.0.9:7001" 1)
      (node "node-11" "10.0.0.11:7001" 2)
    · constructor <;> decide +kernel
    · constructor <;> decide +kernel
    · decide +kernel
    · decide +kernel
  · obtain ⟨peers, hp⟩ : ∃ peers, peersOf host named.subnets.listing.items "node-a"
        named.nodes.listing.items = .ok peers := exists_ok (by decide +kernel)
    refine ⟨peers, hp, fun hs => ?_⟩
    obtain ⟨n, hn, hname⟩ := (routable_of_sound hp hs).hosts (subnet "node-b" "10.244.0.0/24")
      (by decide +kernel) (by decide) (by decide)
    have hrec := hn.recorded
    have hnode : named.nodes.get "node-b" = some (node "node-b" "node-b.internal:7001" 1) := by
      decide +kernel
    have hsame : n = node "node-b" "node-b.internal:7001" 1 := by
      rw [hname] at hrec
      exact Option.some.inj (hrec.symm.trans hnode)
    have haddr := hn.addressed
    rw [hsame] at haddr
    revert haddr
    decide +kernel

end Jaco.WgMesh
