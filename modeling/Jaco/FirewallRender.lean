import Jaco.Cidr
import Jaco.GoStrings
import Jaco.Grouping
import Jaco.PacketFilter
import Jaco.Sha1

namespace Jaco.Firewall

open PacketFilter Cidr Grouping

def maxSetNameLen : Nat := 63

structure Subnet where
  deployment : String
  network : String
  cidr : String
  deriving DecidableEq

structure RuleInput where
  subnets : List Subnet

def sanitize (s : String) : List Char := s.toList.map (fun c => if c.isAlphanum || c == '_' then c else '_')

def setPrefix : List Char := ['d', 'e', 'p', '_', 'n', 'e', 't', '_']

def orDefault (network : String) : String := if network = "" then "_default" else network

/-- Sanitized names are ASCII, so byte lengths and byte slices are those of the character list. -/
def setName (deployment network : String) : String :=
  let network := orDefault network
  let full := setPrefix ++ sanitize deployment ++ '_' :: sanitize network
  if full.length ≤ maxSetNameLen then String.ofList full
  else
    let sum := GoStrings.hexEncode (Sha1.sum (deployment ++ "/" ++ network).toUTF8.toList)
    String.ofList (full.take (setPrefix.length + 8) ++ '_' :: sum.toList.take 8)

def Subnet.setName (s : Subnet) : String := Firewall.setName s.deployment s.network

def Subnet.scope (s : Subnet) : String × String := (s.deployment, orDefault s.network)

def Subnet.le (a b : Subnet) : Prop :=
  if a.deployment = b.deployment then a.network ≤ b.network else a.deployment ≤ b.deployment

instance : DecidableRel Subnet.le := fun a b => by unfold Subnet.le; infer_instance

def sortStrings (l : List String) : List String := l.insertionSort (· ≤ ·)

def cidrsBySet (subnets : List Subnet) : List (String × List String) :=
  (groupOn Subnet.setName Subnet.cidr (subnets.insertionSort Subnet.le)).map (fun g => (g.1, sortStrings g.2))

def allCIDRs (subnets : List Subnet) : List String := sortStrings ((cidrsBySet subnets).flatMap Prod.snd)

def forwardChain (subnets : List Subnet) : Chain Addr where
  name := "forward"
  hook := "forward"
  prio := 0
  policy := "accept"
  rules :=
    .guarded [.ctState [.established, .related]] .accept ::
      (((cidrsBySet subnets).map (fun g => [Match.saddr g.1, Match.daddr g.1])).map
          (fun tests => Rule.guarded tests .accept) ++
        if allCIDRs subnets = [] then [] else [.guarded [.saddr "jaco_pool", .daddr "jaco_pool"] .drop])

def inputChain : Chain Addr := ⟨"input", "input", 0, "accept", []⟩

def outputChain : Chain Addr := ⟨"output", "output", 0, "accept", []⟩

def renderTable (input : RuleInput) : Table Addr String where
  sets := cidrsBySet input.subnets ++
    if allCIDRs input.subnets = [] then [] else [("jaco_pool", allCIDRs input.subnets)]
  chains := [forwardChain input.subnets, inputChain, outputChain]

def ctText : CtState → String
  | .new => "new"
  | .established => "established"
  | .related => "related"
  | .invalid => "invalid"
  | .untracked => "untracked"

def matchText : Match → String
  | .ctState states => "ct state " ++ ",".intercalate (states.map ctText)
  | .saddr set => "ip saddr @" ++ set
  | .daddr set => "ip daddr @" ++ set

def ruleText : Rule Addr → String
  | .guarded tests v => "        " ++
      " ".intercalate (tests.map matchText ++ [match v with | .accept => "accept" | .drop => "drop"]) ++ "\n"
  | .custom _ => ""

def setText (s : String × List String) : String :=
  "    set " ++ s.1 ++ " \x7b\n        type ipv4_addr\n        flags interval\n        elements = \x7b " ++
    ", ".intercalate s.2 ++ " \x7d\n    \x7d\n\n"

def chainText (c : Chain Addr) : String :=
  "    chain " ++ c.name ++ " \x7b\n        type filter hook " ++ c.hook ++ " priority " ++ toString c.prio ++
    "; policy " ++ c.policy ++ ";\n" ++ String.join (c.rules.map ruleText) ++ "    \x7d\n"

def render (input : RuleInput) : String :=
  "add table inet jaco\ndelete table inet jaco\ntable inet jaco \x7b\n" ++
    String.join ((renderTable input).sets.map setText) ++
    "\n".intercalate ((renderTable input).chains.map chainText) ++ "\x7d\n"

theorem setName_head (deployment network : String) : (setName deployment network).toList.head? = some 'd' := by
  unfold setName
  dsimp only
  split
  · rw [String.toList_ofList]
    rfl
  · rw [String.toList_ofList]
    rfl

theorem setName_ne_pool (deployment network : String) : setName deployment network ≠ "jaco_pool" := by
  intro h
  have hd := setName_head deployment network
  rw [h] at hd
  exact absurd hd (by decide)

variable (subnets : List Subnet)

theorem mem_cidrsBySet (name cidr : String) : (∃ cidrs, (name, cidrs) ∈ cidrsBySet subnets ∧ cidr ∈ cidrs) ↔
      ∃ s ∈ subnets, s.setName = name ∧ s.cidr = cidr := by
  have hg := mem_groupOn Subnet.setName Subnet.cidr (subnets.insertionSort Subnet.le) name cidr
  simp only [List.mem_insertionSort] at hg
  rw [← hg]
  simp only [cidrsBySet, List.mem_map, Prod.mk.injEq, Prod.exists]
  constructor
  · rintro ⟨_, ⟨n, cs, hm, rfl, rfl⟩, hc⟩
    exact ⟨cs, hm, (List.mem_insertionSort _).mp hc⟩
  · rintro ⟨cs, hm, hc⟩
    exact ⟨_, ⟨name, cs, hm, rfl, rfl⟩, (List.mem_insertionSort _).mpr hc⟩

theorem names_cidrsBySet (name : String) :
    name ∈ (cidrsBySet subnets).map Prod.fst ↔ ∃ s ∈ subnets, s.setName = name := by
  have hk := mem_keys_groupOn Subnet.setName Subnet.cidr (subnets.insertionSort Subnet.le) name
  simp only [List.mem_insertionSort] at hk
  rw [← hk, cidrsBySet, List.map_map]
  rfl

theorem mem_allCIDRs (cidr : String) : cidr ∈ allCIDRs subnets ↔ ∃ s ∈ subnets, s.cidr = cidr := by
  simp only [allCIDRs, sortStrings, List.mem_insertionSort, List.mem_flatMap, Prod.exists]
  constructor
  · rintro ⟨name, cidrs, hm, hc⟩
    obtain ⟨s, hs, -, hcidr⟩ := (mem_cidrsBySet subnets name cidr).mp ⟨cidrs, hm, hc⟩
    exact ⟨s, hs, hcidr⟩
  · rintro ⟨s, hs, rfl⟩
    obtain ⟨cidrs, hm, hc⟩ := (mem_cidrsBySet subnets s.setName s.cidr).mpr ⟨s, hs, rfl, rfl⟩
    exact ⟨s.setName, cidrs, hm, hc⟩

theorem allCIDRs_eq_nil : allCIDRs subnets = [] ↔ subnets = [] := by
  simp only [List.eq_nil_iff_forall_not_mem, mem_allCIDRs]
  exact ⟨fun h s hs => h s.cidr ⟨s, hs, rfl⟩, fun h _ ⟨s, hs, _⟩ => h s hs⟩

variable (input : RuleInput)

theorem nodup_setNames : ((renderTable input).sets.map Prod.fst).Nodup := by
  have hn : ((cidrsBySet input.subnets).map Prod.fst).Nodup := by
    rw [cidrsBySet, List.map_map]
    exact nodup_groupOn _ _ _
  have hp : "jaco_pool" ∉ (cidrsBySet input.subnets).map Prod.fst := by
    rw [names_cidrsBySet]
    rintro ⟨s, -, hs⟩
    exact setName_ne_pool _ _ hs
  simp only [renderTable]
  split
  · simpa using hn
  · rw [List.map_append]
    exact List.nodup_append'.mpr ⟨hn, by simp, by simpa using hp⟩

theorem inSet_setName (name : String) (a : Addr) (hname : name ≠ "jaco_pool") :
    (renderTable input).inSet covers name a = true ↔
      ∃ s ∈ input.subnets, s.setName = name ∧ covers s.cidr a = true := by
  rw [inSet_iff]
  by_cases hm : ∃ cidrs, (name, cidrs) ∈ cidrsBySet input.subnets
  · obtain ⟨cidrs, hc⟩ := hm
    have hsets : (name, cidrs) ∈ (renderTable input).sets := List.mem_append_left _ hc
    rw [elements_of_mem _ _ _ (nodup_setNames input) hsets]
    constructor
    · rintro ⟨cidr, hcidr, hcov⟩
      obtain ⟨s, hs, hn, rfl⟩ := (mem_cidrsBySet _ _ _).mp ⟨cidrs, hc, hcidr⟩
      exact ⟨s, hs, hn, hcov⟩
    · rintro ⟨s, hs, hn, hcov⟩
      obtain ⟨cidrs', hc', hcidr⟩ := (mem_cidrsBySet _ name s.cidr).mpr ⟨s, hs, hn, rfl⟩
      have hsets' : (name, cidrs') ∈ (renderTable input).sets := List.mem_append_left _ hc'
      have he := elements_of_mem _ _ _ (nodup_setNames input) hsets'
      rw [elements_of_mem _ _ _ (nodup_setNames input) hsets] at he
      exact ⟨s.cidr, he ▸ hcidr, hcov⟩
  · have hnone : (renderTable input).sets.find? (fun s => s.1 = name) = none := by
      rw [List.find?_eq_none]
      rintro ⟨n, cs⟩ hs
      simp only [decide_eq_true_eq]
      rintro rfl
      rcases List.mem_append.mp hs with hs | hs
      · exact hm ⟨cs, hs⟩
      · split at hs
        · simp at hs
        · exact hname (congrArg Prod.fst (List.mem_singleton.mp hs))
    constructor
    · rintro ⟨cidr, hcidr, -⟩
      simp [Table.elements, hnone] at hcidr
    · rintro ⟨s, hs, hn, -⟩
      obtain ⟨cidrs, hc, -⟩ := (mem_cidrsBySet _ name s.cidr).mpr ⟨s, hs, hn, rfl⟩
      exact absurd ⟨cidrs, hc⟩ hm

theorem inSet_pool (a : Addr) (hne : input.subnets ≠ []) :
    (renderTable input).inSet covers "jaco_pool" a = true ↔ ∃ s ∈ input.subnets, covers s.cidr a = true := by
  have hall : allCIDRs input.subnets ≠ [] := fun h => hne ((allCIDRs_eq_nil _).mp h)
  have hsets : ("jaco_pool", allCIDRs input.subnets) ∈ (renderTable input).sets := by
    simp [renderTable, hall]
  rw [inSet_iff, elements_of_mem _ _ _ (nodup_setNames input) hsets]
  simp only [mem_allCIDRs]
  exact ⟨fun ⟨_, ⟨s, hs, he⟩, hc⟩ => ⟨s, hs, he ▸ hc⟩, fun ⟨s, hs, hc⟩ => ⟨_, ⟨s, hs, rfl⟩, hc⟩⟩

end Jaco.Firewall
