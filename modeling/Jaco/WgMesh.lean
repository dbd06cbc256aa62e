import Jaco.SubnetSlots

namespace Jaco.WgMesh

open Cidr Ipam

def defaultListenPort : Nat := 51820

def keyLen : Nat := 32

structure PeerConfig where
  publicKey : Bytes
  endpoint : Addr × Nat
  allowedIPs : List Prefix4

structure Config where
  listenPort : Nat
  replacePeers : Bool
  peers : List PeerConfig

structure Host where
  sha256 : Bytes → Bytes
  splitHostPort : String → Option String
  parseIP : String → Option Addr

def stripPort (h : Host) (addr : String) : String := (h.splitHostPort addr).getD addr

def slotOctet (hash : Bytes) : Nat :=
  let o := (hash.getD 0 0).toNat
  if o = 0 ∨ o = 255 then (o * 256 + (hash.getD 1 0).toNat) % 254 + 1 else o

def octetOf (h : Host) (hostname : String) : Nat := slotOctet (h.sha256 hostname.toUTF8.toList)

def slotIP (h : Host) (hostname : String) : BitVec 32 :=
  BitVec.ofNat 32 (((10 * 256 + 99) * 256 + 0) * 256 + octetOf h hostname)

def allowedIP (h : Host) (hostname : String) : String := "10.99.0." ++ toString (octetOf h hostname) ++ "/32"

def containerNets (subnets : List Subnet) (hostname : String) : List Prefix4 :=
  (subnets.filter (fun sn => sn.host = hostname)).filterMap (fun sn => parse sn.cidr)

def keyFromBytes (b : Bytes) : Except String Bytes :=
  if b.length ≠ keyLen then
    .error ("wg pubkey must be " ++ toString keyLen ++ " bytes (got " ++ toString b.length ++ ")")
  else .ok b

def peerOf (h : Host) (subnets : List Subnet) (selfHostname : String) (n : Node) : Except String (Option PeerConfig) :=
  if n.hostname = selfHostname then .ok none
  else if n.wireguardPubkey = [] then .ok none
  else match keyFromBytes n.wireguardPubkey with
    | .error e => .error ("peer " ++ n.hostname ++ " pubkey: " ++ e)
    | .ok key =>
      match parse (allowedIP h n.hostname) with
      | none => .error ("peer " ++ n.hostname ++ " allowed ip: invalid CIDR address: " ++ allowedIP h n.hostname)
      | some slot =>
        match h.parseIP (stripPort h n.address) with
        | none => .ok none
        | some ip => .ok (some ⟨key, (ip, defaultListenPort), slot :: containerNets subnets n.hostname⟩)

def peersOf (h : Host) (subnets : List Subnet) (selfHostname : String) :
    List Node → Except String (List (Node × PeerConfig))
  | [] => .ok []
  | n :: ns =>
    match peerOf h subnets selfHostname n with
    | .error e => .error e
    | .ok peer =>
      match peersOf h subnets selfHostname ns with
      | .error e => .error e
      | .ok peers => .ok (peer.toList.map (fun p => (n, p)) ++ peers)

def buildConfig (h : Host) (nodes : List Node) (subnets : List Subnet) (selfHostname : String) : Except String Config :=
  if selfHostname = "" then .error "BuildConfig: selfHostname is required"
  else match peersOf h subnets selfHostname nodes with
    | .error e => .error e
    | .ok peers => .ok ⟨defaultListenPort, true, peers.map (·.2)⟩

def routedSubnets (subnets : List Subnet) (selfHostname : String) : List Subnet :=
  subnets.filter (fun sn => ¬ (sn.host = "" ∨ sn.host = selfHostname))

def desiredRoutes (subnets : List Subnet) (selfHostname : String) : List String :=
  (routedSubnets subnets selfHostname).map (·.cidr)

theorem slotOctet_range (hash : Bytes) : 1 ≤ slotOctet hash ∧ slotOctet hash ≤ 254 := by
  have hlt : (hash.getD 0 0).toNat < 256 := UInt8.toNat_lt _
  unfold slotOctet
  dsimp only
  split <;> omega

theorem octetOf_range (h : Host) (hostname : String) : 1 ≤ octetOf h hostname ∧ octetOf h hostname ≤ 254 :=
  slotOctet_range _

theorem parse_allowedIP (h : Host) (hostname : String) :
    parse (allowedIP h hostname) = some ⟨slotIP h hostname, 32, le_rfl⟩ := by
  have hrange := octetOf_range h hostname
  refine parse_dotted (by decide : 10 < 256) (by decide : 99 < 256) (by decide : 0 < 256)
    (by omega : octetOf h hostname < 256)
    (by decide) (by decide) le_rfl (?_ : (allowedIP h hostname).toList = _ ++ '/' :: "32".toList)
  simp only [allowedIP, String.toList_append]
  rfl

end Jaco.WgMesh
