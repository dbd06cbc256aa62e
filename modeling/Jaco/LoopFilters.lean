import Jaco.Bridges
import Jaco.SubnetSlots

namespace Jaco.Dns

open Cidr Ipam Bridge GoStrings

/-- The texts the `net` and `url` packages read that are not plain IPv4. -/
structure Net where
  splitHostPort : List Char → Except String (List Char × List Char)
  parseIP6 : List Char → Option Addr
  parseCIDR6 : String → Except String Nat
  httpsURL : String → Bool
  durationText : Int → String
  quad_bare : ∀ {a b c d}, a < 256 → b < 256 → c < 256 → d < 256 → ∃ err, splitHostPort (dotted a b c d) = .error err
  quad_port : ∀ {a b c d}, a < 256 → b < 256 → c < 256 → d < 256 →
    splitHostPort (dotted a b c d ++ ":53".toList) = .ok (dotted a b c d, "53".toList)

section Filters

variable (net : Net)

/-- An IPv4-mapped IPv6 text is an IPv4 address. -/
def Net.parseIP (host : List Char) : Option Addr := ((parseAddr4 host).map .v4).or (net.parseIP6 host)

def ensurePort (addr port : List Char) : List Char :=
  match net.splitHostPort addr with
  | .ok _ => addr
  | .error _ => if 2 ≤ addr.count ':' then '[' :: addr ++ "]:".toList ++ port else addr ++ ':' :: port

def isDockerResolver : Addr → Bool
  | .v4 a => byteAt a 24 = 127 && byteAt a 0 = 11
  | .v6 _ => false

def isBridgeGatewayIP : Addr → Bool
  | .v4 a => byteAt a 24 = 10 && byteAt a 16 = 244 && byteAt a 0 = 1
  | .v6 _ => false

def upstreamError (addr : String) : Option String :=
  let entry := "dns.forwarders[" ++ quote addr ++ "]: "
  match net.splitHostPort (ensurePort net addr.toList "53".toList) with
  | .error err => some (entry ++ "not host[:port]: " ++ err)
  | .ok (host, _) =>
    match net.parseIP host with
    | none => none
    | some ip =>
      if isDockerResolver ip then
        some (entry ++ "127.0.0.11 is docker's embedded resolver; " ++
          "configuring it as an upstream would create a forwarding loop")
      else if isBridgeGatewayIP ip then
        some (entry ++ "10.244.*.1 is a JACO bridge gateway; " ++
          "configuring it as an upstream would create a forwarding loop")
      else none

def validateUpstreams (addrs : List String) : Option String := addrs.findSome? (upstreamError net)

def literal (addr : List Char) : Option Addr :=
  match net.splitHostPort (ensurePort net addr "53".toList) with
  | .error _ => none
  | .ok (host, _) => net.parseIP host

def fields (line : List Char) : List (List Char) := (line.splitOnP isSpace).filter (· ≠ [])

def resolverOf (line : List Char) : Option (List Char) :=
  match fields (trimSpace ((cut '#' (trimSpace line)).1)) with
  | keyword :: raw :: _ =>
    if keyword ≠ "nameserver".toList then none
    else match literal net raw with
      | none => none
      | some ip => if isDockerResolver ip || isBridgeGatewayIP ip then none else some (ensurePort net raw "53".toList)
  | _ => none

def readHostResolvers (path : String) (file : Except String (List (List Char) × Option String)) :
    Except String (List (List Char)) :=
  match file with
  | .error err => .error ("read " ++ path ++ ": " ++ err)
  | .ok (_, some err) => .error ("scan " ++ path ++ ": " ++ err)
  | .ok (lines, none) => .ok (lines.filterMap (resolverOf net))

end Filters

def second : Int := 10 ^ 9

structure Config where
  dataDir : String := "/var/lib/jaco"
  listenAddr : String := "0.0.0.0:7000"
  clusterAddr : String := "0.0.0.0:7001"
  unixSocket : String := "/var/run/jaco/jaco.sock"
  wgPort : Int := 51820
  acmeCA : String := ""
  logLevel : String := "info"
  ipamPool : String := "10.244.0.0/16"
  nodeStatusInterval : Int := 30 * second
  forwarders : List String := []
  forwarderTimeout : Int := 2 * second

def minNodeStatusInterval : Int := 5 * second

def maxNodeStatusInterval : Int := 300 * second

def Net.parseCIDR (net : Net) (cidr : String) : Except String (Option Prefix4 × Nat) :=
  match parse cidr with
  | some p => .ok (some p, p.bits)
  | none => (net.parseCIDR6 cidr).map (fun ones => (none, ones))

def addrError (net : Net) (field addr : String) : Option String :=
  if addr = "" then some (field ++ " is required")
  else match net.splitHostPort addr.toList with
    | .error err => some (field ++ " " ++ quote addr ++ " is not host:port: " ++ err)
    | .ok _ => none

def poolError (net : Net) (pool : String) : Option String :=
  let quoted := "ipam_pool " ++ quote pool
  if pool = "" then some "ipam_pool is required"
  else match net.parseCIDR pool with
    | .error err => some (quoted ++ " is not a CIDR: " ++ err)
    | .ok (_, ones) => if ones ≠ 16 then some (quoted ++ " must be a /16 (got /" ++ toString ones ++ ")") else none

def when (p : Prop) [Decidable p] (message : String) : Option String := if p then some message else none

def Config.validate (net : Net) (c : Config) : Option String :=
  (when (c.dataDir = "") "data_dir is required")
    |>.or (addrError net "listen_addr" c.listenAddr)
    |>.or (addrError net "cluster_addr" c.clusterAddr)
    |>.or (when (c.clusterAddr = c.listenAddr) "cluster_addr and listen_addr must differ")
    |>.or (when (c.unixSocket = "") "unix_socket is required")
    |>.or (when (c.wgPort ≤ 0 ∨ 65535 < c.wgPort) ("wg_port " ++ toString c.wgPort ++ " is out of range"))
    |>.or (when (c.logLevel ∉ ["debug", "info", "warn", "error"])
      ("log_level " ++ quote c.logLevel ++ " must be debug|info|warn|error"))
    |>.or (when (c.acmeCA ≠ "" ∧ net.httpsURL c.acmeCA = false)
      ("acme_ca " ++ quote c.acmeCA ++ " must be an https URL"))
    |>.or (poolError net c.ipamPool)
    |>.or (when (c.nodeStatusInterval ≠ 0 ∧
        (c.nodeStatusInterval < minNodeStatusInterval ∨ maxNodeStatusInterval < c.nodeStatusInterval))
      ("node_status_interval " ++ net.durationText c.nodeStatusInterval ++ " must be between " ++
        net.durationText minNodeStatusInterval ++ " and " ++ net.durationText maxNodeStatusInterval))
    |>.or (validateUpstreams net c.forwarders)
    |>.or (when (c.forwarderTimeout < 0)
      ("dns.forwarder_timeout " ++ net.durationText c.forwarderTimeout ++ " must be >= 0"))

/-- The gateway address of a /24 of the pool, as its responder listens on it. -/
def IsGateway (pool : Prefix4) (ip : BitVec 32) : Prop :=
  ∃ cidr p text, parse cidr = some p ∧ p.bits = 24 ∧ pool.contains p.base = true ∧ gatewayIP cidr = some text ∧
    parseAddr4 text.toList = some ip

def Loops (pool : String) (ip : Addr) : Prop :=
  ip = .v4 0x7f00000b ∨ ∃ p a, parse pool = some p ∧ ip = .v4 a ∧ IsGateway p a

structure NoLoop (net : Net) (c : Config) : Prop where
  upstreams : ∀ addrs, validateUpstreams net addrs = none → ∀ addr ∈ addrs, ∀ ip, literal net addr.toList = some ip →
    ¬ Loops c.ipamPool ip
  resolvers : ∀ path file out, readHostResolvers net path file = .ok out → ∀ r ∈ out, ∀ ip, literal net r = some ip →
    ¬ Loops c.ipamPool ip

theorem gateway_parsed {cidr : String} {p : Prefix4} (hp : parse cidr = some p) (hbits : p.bits = 24) :
    ∃ text, gatewayIP cidr = some text ∧ parseAddr4 text.toList =
    some (BitVec.ofNat 32 (p.base.toNat / 256 * 256 + 1)) := by
  have hlt := p.base.isLt
  have hnet : ((p.base.ushiftRight (32 - p.bits)).shiftLeft (32 - p.bits)).toNat = p.base.toNat / 256 * 256 := by
    simp only [hbits, BitVec.ushiftRight_eq, BitVec.shiftLeft_eq, BitVec.toNat_shiftLeft, BitVec.toNat_ushiftRight,
      Nat.shiftRight_eq_div_pow, Nat.shiftLeft_eq]
    omega
  have h24 : p.base.toNat / 256 * 256 / 2 ^ 24 % 256 = p.base.toNat / 2 ^ 24 := by omega
  have h16 : p.base.toNat / 256 * 256 / 2 ^ 16 % 256 = p.base.toNat / 2 ^ 16 % 256 := by omega
  have h8 : p.base.toNat / 256 * 256 / 2 ^ 8 % 256 = p.base.toNat / 2 ^ 8 % 256 := by omega
  refine ⟨_, by rw [gatewayIP, hp, Option.map_some], ?_⟩
  have hlist := parseAddr4_dotted (by omega : p.base.toNat / 2 ^ 24 < 256)
    (by omega : p.base.toNat / 2 ^ 16 % 256 < 256)
    (by omega : p.base.toNat / 2 ^ 8 % 256 < 256) (by decide : 1 < 256)
  have hsum : ((p.base.toNat / 2 ^ 24 * 256 + p.base.toNat / 2 ^ 16 % 256) * 256 + p.base.toNat / 2 ^ 8 % 256) *
      256 + 1 =
      p.base.toNat / 256 * 256 + 1 := by omega
  rw [dotted, hsum] at hlist
  rw [← hlist]
  simp only [octet, byteAt, BitVec.toNat_ushiftRight, Nat.shiftRight_eq_div_pow, hnet, h24, h16, h8,
    String.toList_append,
    List.append_assoc]
  rfl

theorem isBridgeGatewayIP_iff (a : BitVec 32) :
    isBridgeGatewayIP (.v4 a) = true ↔ a.toNat / 2 ^ 16 = 0x0AF4 ∧ a.toNat % 256 = 1 := by
  have hlt := a.isLt
  simp only [isBridgeGatewayIP, byteAt, Bool.and_eq_true, decide_eq_true_eq, BitVec.toNat_ushiftRight,
    Nat.shiftRight_eq_div_pow]
  omega

section Verdict

variable {net : Net}

theorem not_loops_of_kept {pool : String}
    (hpool : ∀ p, parse pool = some p → p.bits = 16 ∧ p.base.toNat / 2 ^ 16 = 0x0AF4)
    {ip : Addr} (hdocker : isDockerResolver ip = false) (hgateway : isBridgeGatewayIP ip = false) :
    ¬ Loops pool ip := by
  rintro (rfl | ⟨p, a, hp, rfl, cidr, q, text, hq, hbits, hin, htext, ha⟩)
  · exact absurd hdocker (by decide)
  · obtain ⟨hsixteen, hbase⟩ := hpool p hp
    obtain ⟨text', htext', ha'⟩ := gateway_parsed hq hbits
    obtain rfl := Option.some.inj (htext'.symm.trans htext)
    obtain rfl := Option.some.inj (ha'.symm.trans ha)
    have hlt := q.base.isLt
    have hsame : q.base.toNat / 2 ^ 16 = p.base.toNat / 2 ^ 16 := by
      simpa [Prefix4.contains, hsixteen, ← BitVec.toNat_inj, Nat.shiftRight_eq_div_pow] using hin
    have hfilter := (isBridgeGatewayIP_iff (BitVec.ofNat 32 (q.base.toNat / 256 * 256 + 1))).2 (by
      rw [BitVec.toNat_ofNat]
      omega)
    rw [hfilter] at hgateway
    cases hgateway

theorem upstreamError_eq_none_iff {addr : String} {ip : Addr} (hip : literal net addr.toList = some ip) :
    upstreamError net addr = none ↔ isDockerResolver ip = false ∧ isBridgeGatewayIP ip = false := by
  unfold literal at hip
  split at hip
  · cases hip
  · rename_i hsplit
    simp only [upstreamError, hsplit, hip]
    cases isDockerResolver ip <;> cases isBridgeGatewayIP ip <;> simp

theorem kept_of_resolverOf {line r : List Char} (h : resolverOf net line = some r) {ip : Addr}
    (hip : literal net r = some ip) :
    isDockerResolver ip = false ∧ isBridgeGatewayIP ip = false := by
  unfold resolverOf at h
  split at h
  · rename_i raw _ _
    split at h
    · cases h
    · split at h
      · cases h
      · rename_i ip' hraw
        split at h
        · cases h
        · rename_i hkept
          cases h
          -- a text that already has its port is read as it is
          have hsame : literal net (ensurePort net raw "53".toList) = literal net raw := by
            unfold literal at hraw ⊢
            split at hraw
            · cases hraw
            · rename_i hsplit
              rw [ensurePort.eq_def net (ensurePort net raw "53".toList), hsplit]
              simp only [hsplit]
          obtain rfl := Option.some.inj ((hsame.trans hraw).symm.trans hip)
          simpa using hkept
  · cases h

theorem pool_of_accepted {c : Config} (h : c.validate net = none) {p : Prefix4} (hp : parse c.ipamPool = some p) :
    p.bits = 16 := by
  simp only [Config.validate, Option.or_eq_none_iff] at h
  have hpool := h.1.1.1.2
  rw [poolError] at hpool
  split at hpool
  · cases hpool
  · simp only [Net.parseCIDR, hp] at hpool
    by_contra hne
    rw [if_pos hne] at hpool
    cases hpool

theorem literal_dotted (net : Net) {a b c d : Nat} (ha : a < 256) (hb : b < 256) (hc : c < 256) (hd : d < 256) :
    literal net (dotted a b c d) = some (.v4 (BitVec.ofNat 32 (((a * 256 + b) * 256 + c) * 256 + d))) := by
  obtain ⟨err, hbare⟩ := net.quad_bare ha hb hc hd
  have hcolon : (dotted a b c d).count ':' = 0 := List.count_eq_zero.2 (notMem_dotted ha hb hc hd).2
  have hported : ensurePort net (dotted a b c d) "53".toList = dotted a b c d ++ ":53".toList := by
    simp only [ensurePort, hbare, hcolon]
    rfl
  simp only [literal, hported, net.quad_port ha hb hc hd, Net.parseIP, parseAddr4_dotted ha hb hc hd, Option.map_some,
    Option.some_or]

end Verdict

theorem no_loop_iff (net : Net) (c : Config) (haccepted : c.validate net = none) :
    NoLoop net c ↔ ∀ p, parse c.ipamPool = some p → p.base.toNat / 2 ^ 16 = 0x0AF4 := by
  constructor
  · intro h p hp
    have hbits := pool_of_accepted haccepted hp
    have hlt := p.base.isLt
    obtain ⟨a, b, ha, hb, hbase⟩ : ∃ a b, a < 256 ∧ b < 256 ∧ p.base.toNat / 2 ^ 16 = a * 256 + b :=
      ⟨p.base.toNat / 2 ^ 24, p.base.toNat / 2 ^ 16 % 256, by omega, by omega, by omega⟩
    have hcidr : parse (String.ofList (dotted a b 0 0 ++ '/' :: ['2', '4'])) = some ⟨_, 24, by decide⟩ :=
      parse_dotted ha hb (by decide) (by decide) (by decide) (by decide) (by decide) String.toList_ofList
    have hin : p.contains (BitVec.ofNat 32 (((a * 256 + b) * 256 + 0) * 256 + 0)) = true := by
      simp only [Prefix4.contains, hbits, beq_iff_eq, ← BitVec.toNat_inj, BitVec.toNat_ushiftRight, BitVec.toNat_ofNat,
        Nat.shiftRight_eq_div_pow]
      omega
    obtain ⟨text, htext, hip⟩ := gateway_parsed hcidr rfl
    have hgateway : (BitVec.ofNat 32 (((a * 256 + b) * 256 + 0) * 256 + 0)).toNat / 256 * 256 + 1 =
        ((a * 256 + b) * 256 + 0) * 256 + 1 := by
      rw [BitVec.toNat_ofNat]
      omega
    rw [hgateway] at hip
    have hloops : Loops c.ipamPool (.v4 (BitVec.ofNat 32 (((a * 256 + b) * 256 + 0) * 256 + 1))) :=
      Or.inr ⟨p, _, hp, rfl, _, _, text, hcidr, rfl, hin, htext, hip⟩
    have hliteral := literal_dotted net ha hb (by decide : 0 < 256) (by decide : 1 < 256)
    rw [← String.toList_ofList (l := dotted a b 0 1)] at hliteral
    -- the gateway of the first /24 would be accepted as an upstream
    by_contra hother
    refine h.upstreams [String.ofList (dotted a b 0 1)] ?_ _ (List.mem_singleton_self _) _ hliteral hloops
    refine List.findSome?_eq_none_iff.2 (List.forall_mem_singleton.2 ((upstreamError_eq_none_iff hliteral).2 ⟨?_, ?_⟩))
    · simp only [isDockerResolver, byteAt, BitVec.toNat_ushiftRight, BitVec.toNat_ofNat, Nat.shiftRight_eq_div_pow,
        Bool.and_eq_false_iff, decide_eq_false_iff_not]
      omega
    · rw [← Bool.not_eq_true, isBridgeGatewayIP_iff, BitVec.toNat_ofNat]
      omega
  · intro hpool
    have hslots : ∀ p, parse c.ipamPool = some p → p.bits = 16 ∧ p.base.toNat / 2 ^ 16 = 0x0AF4 :=
      fun p hp => ⟨pool_of_accepted haccepted hp, hpool p hp⟩
    refine ⟨fun addrs hvalid addr hmem ip hip => ?_, fun path file out hout r hr ip hip => ?_⟩
    · obtain ⟨hdocker, hgateway⟩ := (upstreamError_eq_none_iff hip).1 (List.findSome?_eq_none_iff.1 hvalid addr hmem)
      exact not_loops_of_kept hslots hdocker hgateway
    · unfold readHostResolvers at hout
      split at hout
      · cases hout
      · cases hout
      · cases hout
        obtain ⟨line, -, hline⟩ := List.mem_filterMap.1 hr
        obtain ⟨hdocker, hgateway⟩ := kept_of_resolverOf hline hip
        exact not_loops_of_kept hslots hdocker hgateway

namespace Pools

def splitHostPort (cs : List Char) : Except String (List Char × List Char) :=
  match cut ':' cs with
  | (_, none) => .error "missing port in address"
  | (host, some port) => if ':' ∈ port then .error "too many colons in address" else .ok (host, port)

def net : Net where
  splitHostPort := splitHostPort
  parseIP6 _ := none
  parseCIDR6 _ := .error "invalid CIDR address"
  httpsURL _ := false
  durationText d := toString d ++ "ns"
  quad_bare ha hb hc hd := by
    rw [splitHostPort, cut_of_notMem (notMem_dotted ha hb hc hd).2]
    exact ⟨_, rfl⟩
  quad_port ha hb hc hd := by
    have hcut := cut_append ':' _ "53".toList (notMem_dotted ha hb hc hd).2
    rw [splitHostPort, show ":53".toList = ':' :: "53".toList from by decide, hcut]
    rfl

end Pools

open Pools

theorem default_config_no_loop : ({} : Config).validate net = none ∧ NoLoop net {} := by
  have haccepted : ({} : Config).validate net = none := by decide +kernel
  refine ⟨haccepted, (no_loop_iff net {} haccepted).2 ?_⟩
  have hpool : parse "10.244.0.0/16" = some ⟨0x0af40000, 16, by decide⟩ := by decide +kernel
  rintro p hp
  obtain rfl := Option.some.inj (hpool.symm.trans hp)
  decide

theorem other_pool_gateway_accepted :
    ({ ipamPool := "10.50.0.0/16", forwarders := ["10.50.3.1"] } : Config).validate net = none ∧
      literal net "10.50.3.1".toList = some (.v4 0x0a320301) ∧
      gatewayIP "10.50.3.0/24" = some "10.50.3.1" ∧
      readHostResolvers net "/etc/resolv.conf" (.ok (["nameserver 10.50.3.1".toList], none)) =
        .ok ["10.50.3.1:53".toList] := by
  decide +kernel

end Jaco.Dns
