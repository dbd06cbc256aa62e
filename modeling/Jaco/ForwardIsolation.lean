import Jaco.FirewallRender

namespace Jaco.Firewall

open PacketFilter Cidr List

def Reaches (input : RuleInput) (p : Packet Addr) : Prop :=
  ∃ a ∈ input.subnets, ∃ b ∈ input.subnets,
    a.setName = b.setName ∧ covers a.cidr p.saddr = true ∧ covers b.cidr p.daddr = true

def Outside (input : RuleInput) (x : Addr) : Prop := ∀ s ∈ input.subnets, covers s.cidr x = false

variable (input : RuleInput) (p : Packet Addr)

def forwardRules (names : List String) : List (Rule Addr) :=
  .guarded [.ctState [.established, .related]] .accept ::
    ((names.map (fun n => [Match.saddr n, Match.daddr n])).map (fun tests => Rule.guarded tests .accept) ++
      if names = [] then [] else [.guarded [.saddr "jaco_pool", .daddr "jaco_pool"] .drop])

/-- The chains that see forwarded packets carry the rules rendered for `input`, in any order of the sets. -/
def Ruled (t : Table Addr String) (input : RuleInput) : Prop :=
  ∀ c ∈ t.chains, c.hook = "forward" → c.policy ≠ "drop" ∧
    ∃ names, (∀ n, n ∈ names ↔ ∃ s ∈ input.subnets, s.setName = n) ∧ c.rules = forwardRules names

def Passes (t : Table Addr String) : Prop :=
  (p.ct = .established ∨ p.ct = .related) ∨
    (∃ s ∈ input.subnets, t.inSet covers s.setName p.saddr = true ∧ t.inSet covers s.setName p.daddr = true) ∨
    ¬ (input.subnets ≠ [] ∧ t.inSet covers "jaco_pool" p.saddr = true ∧ t.inSet covers "jaco_pool" p.daddr = true)

theorem ruled_render : Ruled (renderTable input) input := by
  have hnil : allCIDRs input.subnets = [] ↔ (cidrsBySet input.subnets).map Prod.fst = [] := by
    rw [allCIDRs_eq_nil, eq_nil_iff_forall_not_mem, eq_nil_iff_forall_not_mem]
    simp only [names_cidrsBySet]
    exact ⟨fun h _ ⟨s, hs, _⟩ => h s hs, fun h s hs => h _ ⟨s, hs, rfl⟩⟩
  intro c hc hhook
  simp only [renderTable, mem_cons, not_mem_nil, or_false] at hc
  rcases hc with rfl | rfl | rfl
  · refine ⟨show "accept" ≠ "drop" by decide, _, names_cidrsBySet input.subnets, ?_⟩
    simp only [forwardChain, forwardRules, map_map, hnil]
    rfl
  · exact absurd hhook (by decide)
  · exact absurd hhook (by decide)

variable {input p} {t : Table Addr String}

theorem verdict_of_rules {c : Chain Addr} {names : List String} (hpolicy : c.policy ≠ "drop")
    (hnames : ∀ n, n ∈ names ↔ ∃ s ∈ input.subnets, s.setName = n) (hrules : c.rules = forwardRules names) :
    c.verdict covers t p = .accept ↔ Passes input p t := by
  have hnil : names = [] ↔ input.subnets = [] := by
    simp only [eq_nil_iff_forall_not_mem, hnames]
    exact ⟨fun h s hs => h _ ⟨s, hs, rfl⟩, fun h _ ⟨s, hs, _⟩ => h s hs⟩
  have hsets : (∃ ms ∈ names.map (fun n => [Match.saddr n, Match.daddr n]), ms.all (Match.holds covers t p) = true) ↔
      ∃ s ∈ input.subnets, t.inSet covers s.setName p.saddr = true ∧ t.inSet covers s.setName p.daddr = true := by
    simp only [mem_map, exists_exists_and_eq_and, hnames, all_cons, all_nil, Bool.and_true, Bool.and_eq_true,
      Match.holds]
  rw [Chain.verdict, Chain.policyVerdict, if_neg hpolicy, hrules, forwardRules, verdict_guarded_cons,
    verdict_accepts_append, Passes]
  simp only [hsets]
  by_cases hempty : input.subnets = []
  · simp [hnil.2 hempty, hempty]
  · rw [if_neg (fun h => hempty (hnil.1 h)), verdict_guarded_cons]
    simp only [all_cons, all_nil, Bool.and_true, Match.holds, mem_cons, not_mem_nil, or_false, decide_eq_true_eq,
      findSome?_nil, Option.getD_none, hempty, ne_eq, not_false_eq_true, true_and, Bool.and_eq_true]
    split_ifs with hct hset hpool <;> simp_all

theorem accepts_of_ruled (hhook : ∃ c ∈ t.chains, c.hook = "forward") (hruled : Ruled t input) :
    t.accepts covers "forward" p = true ↔ Passes input p t := by
  have hchain : ∀ c ∈ t.chains, c.hook = "forward" → (c.verdict covers t p = .accept ↔ Passes input p t) := by
    intro c hc hforward
    obtain ⟨hpolicy, names, hnames, hrules⟩ := hruled c hc hforward
    exact verdict_of_rules hpolicy hnames hrules
  obtain ⟨c, hc, hforward⟩ := hhook
  rw [← hchain c hc hforward, Table.accepts, all_eq_true]
  simp only [mem_filter, decide_eq_true_eq, and_imp]
  exact ⟨fun h => h c hc hforward, fun h c' hc' hforward' =>
    (hchain c' hc' hforward').2 ((hchain c hc hforward).1 h)⟩

variable (input p)

theorem accepts_render : (renderTable input).accepts covers "forward" p = true ↔ Passes input p (renderTable input) :=
  accepts_of_ruled ⟨forwardChain input.subnets, mem_cons_self, rfl⟩ (ruled_render input)

theorem forward_accepts_iff : (renderTable input).accepts covers "forward" p = true ↔
      (p.ct = .established ∨ p.ct = .related) ∨ Reaches input p ∨ Outside input p.saddr ∨ Outside input p.daddr := by
  rw [accepts_render]
  refine or_congr_right (or_congr ?_ ?_)
  · simp only [inSet_setName _ _ _ (setName_ne_pool _ _), Subnet.setName]
    constructor
    · rintro ⟨s, -, ⟨a, ha, hsa, hac⟩, b, hb, hsb, hbc⟩
      exact ⟨a, ha, b, hb, hsa.trans hsb.symm, hac, hbc⟩
    · rintro ⟨a, ha, b, hb, hab, hac, hbc⟩
      exact ⟨a, ha, ⟨a, ha, rfl, hac⟩, b, hb, hab.symm, hbc⟩
  · by_cases hne : input.subnets = []
    · simp [hne, Outside]
    · rw [and_iff_right hne, not_and_or, inSet_pool _ _ hne, inSet_pool _ _ hne]
      simp [Outside]

structure Isolates (input : RuleInput) (accepts : Packet Addr → Bool) : Prop where
  new : ∀ a ∈ input.subnets, ∀ b ∈ input.subnets, ∀ p : Packet Addr, p.ct = .new →
    covers a.cidr p.saddr = true → covers b.cidr p.daddr = true → (accepts p = true ↔ a.scope = b.scope)
  tracked : ∀ p : Packet Addr, p.ct = .established ∨ p.ct = .related → accepts p = true
  foreign : ∀ p : Packet Addr, Outside input p.saddr ∨ Outside input p.daddr → accepts p = true

def Apart (a b : Subnet) : Prop := ∀ x, ¬ (covers a.cidr x = true ∧ covers b.cidr x = true)

instance : Std.Symm Apart := ⟨fun _ _ h x hx => h x hx.symm⟩

theorem eq_of_covers {input : RuleInput} (hd : input.subnets.Pairwise Apart) {a b : Subnet}
    (ha : a ∈ input.subnets) (hb : b ∈ input.subnets) {x : Addr} (hax : covers a.cidr x = true)
    (hbx : covers b.cidr x = true) : a = b := by
  by_contra hab
  exact hd.forall ha hb hab x ⟨hax, hbx⟩

theorem setName_congr {a b : Subnet} (h : a.scope = b.scope) : a.setName = b.setName := by
  have hd : a.deployment = b.deployment := congrArg Prod.fst h
  have hn : orDefault a.network = orDefault b.network := congrArg Prod.snd h
  simp only [Subnet.setName, setName, hd, hn]

theorem isolates_of_injective {input : RuleInput} (hd : input.subnets.Pairwise Apart)
    (hinj : ∀ a ∈ input.subnets, ∀ b ∈ input.subnets, a.setName = b.setName → a.scope = b.scope) :
    Isolates input ((renderTable input).accepts covers "forward") := by
  refine ⟨?_, ?_, ?_⟩
  · intro a ha b hb p hct hax hby
    rw [forward_accepts_iff]
    constructor
    · rintro (hct' | ⟨a', ha', b', hb', hab, hax', hby'⟩ | hout | hout)
      · simp [hct] at hct'
      · have haa := eq_of_covers hd ha ha' hax hax'
        have hbb := eq_of_covers hd hb hb' hby hby'
        rw [haa, hbb]
        exact hinj a' ha' b' hb' hab
      · exact absurd hax (by simp [hout a ha])
      · exact absurd hby (by simp [hout b hb])
    · intro hs
      exact .inr (.inl ⟨a, ha, b, hb, setName_congr hs, hax, hby⟩)
  · intro p hct
    exact (forward_accepts_iff input p).mpr (.inl hct)
  · intro p hout
    exact (forward_accepts_iff input p).mpr (.inr (.inr hout))

theorem forward_isolates_iff (input : RuleInput) (hd : input.subnets.Pairwise Apart)
    (hp : ∀ s ∈ input.subnets, (parse s.cidr).isSome = true) :
    Isolates input ((renderTable input).accepts covers "forward") ↔
      ∀ a ∈ input.subnets, ∀ b ∈ input.subnets, a.setName = b.setName → a.scope = b.scope := by
  constructor
  · intro hi a ha b hb hab
    obtain ⟨x, hx⟩ := exists_covers a.cidr (hp a ha)
    obtain ⟨y, hy⟩ := exists_covers b.cidr (hp b hb)
    apply (hi.new a ha b hb ⟨x, y, .new⟩ rfl hx hy).mp
    exact (forward_accepts_iff input _).mpr (.inr (.inl ⟨a, ha, b, hb, hab, hx, hy⟩))
  · exact isolates_of_injective hd

def threeScopes : RuleInput where
  subnets := [⟨"shop", "", "10.244.0.0/24"⟩, ⟨"shop", "back", "10.244.1.0/24"⟩, ⟨"blog", "", "10.244.2.0/24"⟩]

theorem threeScopes_isolated : Isolates threeScopes ((renderTable threeScopes).accepts covers "forward") := by
  have hd : threeScopes.subnets.Pairwise Apart := by
    simp only [threeScopes, pairwise_cons, mem_cons, not_mem_nil, or_false, forall_eq_or_imp, forall_eq]
    refine ⟨⟨?_, ?_⟩, ?_, ?_⟩
    · exact not_covers_of_apart _ _ (by decide +kernel)
    · exact not_covers_of_apart _ _ (by decide +kernel)
    · exact not_covers_of_apart _ _ (by decide +kernel)
    · simp
  exact (forward_isolates_iff threeScopes hd (by decide)).mpr (by decide)

def dashAndUnderscore : RuleInput where
  subnets := [⟨"shop-web", "_default", "10.244.0.0/24"⟩, ⟨"shop_web", "_default", "10.244.1.0/24"⟩]

theorem dashAndUnderscore_not_isolated :
    dashAndUnderscore.subnets.Pairwise Apart ∧ (∀ s ∈ dashAndUnderscore.subnets, (parse s.cidr).isSome = true) ∧
      ¬ Isolates dashAndUnderscore ((renderTable dashAndUnderscore).accepts covers "forward") := by
  refine ⟨?_, by decide, ?_⟩
  · simp only [dashAndUnderscore, pairwise_cons, mem_cons, not_mem_nil, or_false, forall_eq]
    exact ⟨not_covers_of_apart _ _ (by decide +kernel), by simp⟩
  · intro h
    have hs := (h.new ⟨"shop-web", "_default", "10.244.0.0/24"⟩ (by decide) ⟨"shop_web", "_default", "10.244.1.0/24"⟩
      (by decide) ⟨.v4 0x0AF40005#32, .v4 0x0AF40105#32, .new⟩ rfl (by decide +kernel) (by decide +kernel)).mp
      (by decide +kernel)
    exact absurd hs (by decide)

end Jaco.Firewall
