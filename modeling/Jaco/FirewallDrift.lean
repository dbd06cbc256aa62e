import Jaco.FirewallReconcile

namespace Jaco.Firewall

open PacketFilter Cidr Runs List

def lastChain (live : Live) (name : String) : Option (Chain Addr) :=
  live.bind (fun t => t.chains.reverse.find? (fun c => c.name = name))

def setNames (live : Live) : List String := live.elim [] (fun t => t.sets.map Prod.fst)

structure HasShape (live : Live) (input : RuleInput) : Prop where
  chains : ∀ name ∈ baseChains, ∃ c, lastChain live name = some c ∧ c.hook = name ∧
    (c.policy = "" ∨ c.policy = "accept") ∧ c.prio = 0
  sets : ∀ name, name ∈ setNames live ↔ name ∈ wantSets input

variable (live : Live)

theorem gotSets_nftList : gotSets (nftList live) = setNames live := by
  cases live with
  | none => rfl
  | some t => simp [gotSets, nftList, setNames, filterMap_append, filterMap_map]

theorem gotChain_nftList (name : String) : gotChain (nftList live) name =
      (lastChain live name).map (fun c => ⟨c.name, c.hook, c.prio, c.policy⟩) := by
  cases live with
  | none => rfl
  | some t =>
    have hs : (t.sets.map (fun s => (⟨none, some s.1⟩ : NftEntry))).filterMap (·.chain) = [] := by simp
    have hc : (t.chains.map (fun c => (⟨some ⟨c.name, c.hook, c.prio, c.policy⟩, none⟩ : NftEntry))).filterMap
        (·.chain) = t.chains.map (fun c => ⟨c.name, c.hook, c.prio, c.policy⟩) := by simp
    simp only [gotChain, nftList, lastChain, filterMap_append, hs, hc, nil_append, Option.bind_some]
    rw [← map_reverse, List.find?_map]
    rfl

theorem chainFindings_eq_nil (name : String) :
    chainFindings (nftList live) name = [] ↔ ∃ c, lastChain live name = some c ∧ c.hook = name ∧
      (c.policy = "" ∨ c.policy = "accept") ∧ c.prio = 0 := by
  rw [chainFindings, gotChain_nftList]
  cases hc : lastChain live name with
  | none => simp
  | some c =>
    simp only [Option.map_some, append_eq_nil_iff, ite_eq_right_iff, cons_ne_nil, imp_false, not_not,
      Option.some.injEq, exists_eq_left', not_and_or, and_assoc]

theorem sortStrings_eq_nil (l : List String) : sortStrings l = [] ↔ l = [] := by
  rw [← length_eq_zero_iff, sortStrings, length_insertionSort, length_eq_zero_iff]

theorem setFindings_eq_nil (have_ want : List String) :
    (want.eraseDups.filter (fun n => n ∉ have_)).map ("set:" ++ ·) = [] ↔ ∀ n ∈ want, n ∈ have_ := by
  simp [filter_eq_nil_iff, mem_eraseDups]

theorem selfTest_eq_none_iff (input : RuleInput) : selfTest (nftList live) input = none ↔ HasShape live input := by
  have hmissing : missingFindings (nftList live) input = [] ↔
      (∀ name ∈ baseChains, chainFindings (nftList live) name = []) ∧ ∀ n ∈ wantSets input, n ∈ setNames live := by
    rw [missingFindings, append_eq_nil_iff, flatMap_eq_nil_iff, setFindings_eq_nil, gotSets_nftList]
  have hextra : extraFindings (nftList live) input = [] ↔ ∀ n ∈ setNames live, n ∈ wantSets input := by
    rw [extraFindings, setFindings_eq_nil, gotSets_nftList]
  have hnone : selfTest (nftList live) input = none ↔
      missingFindings (nftList live) input = [] ∧ extraFindings (nftList live) input = [] := by
    simp only [selfTest, ne_eq, sortStrings_eq_nil]
    split
    · rename_i hd
      exact ⟨fun h => absurd h (by simp), fun h => absurd hd (by simp [h.1, h.2])⟩
    · rename_i hd
      rw [not_or, not_not, not_not] at hd
      exact ⟨fun _ => hd, fun _ => rfl⟩
  rw [hnone, hmissing, hextra]
  constructor
  · rintro ⟨⟨hc, hw⟩, hg⟩
    exact ⟨fun name hn => (chainFindings_eq_nil live name).mp (hc name hn), fun n => ⟨hg n, hw n⟩⟩
  · rintro ⟨hc, hs⟩
    exact ⟨⟨fun name hn => (chainFindings_eq_nil live name).mpr (hc name hn), fun n hn => (hs n).mpr hn⟩,
      fun n hn => (hs n).mp hn⟩

def forwards (live : Live) (p : Packet Addr) : Bool := live.elim true (fun t => t.accepts covers "forward" p)

def FiltersAs (live : Live) (input : RuleInput) : Prop :=
  ∀ p, forwards live p = (renderTable input).accepts covers "forward" p

/-- What the self-test does not compare: the rules, and the addresses in the sets. -/
structure SameContents (live : Live) (input : RuleInput) : Prop where
  rules : ∀ t ∈ live, Ruled t input
  elements : ∀ t ∈ live, ∀ name ∈ wantSets input, ∀ a,
    t.inSet covers name a = (renderTable input).inSet covers name a

variable {live} {input : RuleInput}

theorem contents_render (input : RuleInput) : SameContents (some (renderTable input)) input where
  rules := by
    rintro t ⟨rfl⟩
    exact ruled_render input
  elements := by
    rintro t ⟨rfl⟩ _ _ _
    rfl

theorem filtersAs_of_contents (hshape : HasShape live input) (h : SameContents live input) : FiltersAs live input := by
  obtain ⟨c, hlast, hhook, -⟩ := hshape.chains "forward" mem_cons_self
  cases live with
  | none => cases hlast
  | some t =>
    intro p
    have hc : c ∈ t.chains := mem_reverse.1 (mem_of_find?_eq_some hlast)
    change t.accepts covers "forward" p = _
    rw [Bool.eq_iff_iff, accepts_of_ruled ⟨c, hc, hhook⟩ (h.rules t rfl), accepts_render]
    have hset : ∀ s ∈ input.subnets, ∀ a, t.inSet covers s.setName a = (renderTable input).inSet covers s.setName a :=
      fun s hs a => h.elements t rfl _ (mem_append_left _ (mem_map_of_mem hs)) a
    refine or_congr_right (or_congr ?_ (not_congr (and_congr_right (fun hne => ?_))))
    · exact exists_congr (fun s => and_congr_right (fun hs => by rw [hset s hs, hset s hs]))
    · have hpool : "jaco_pool" ∈ wantSets input := mem_append_right _ (by rw [if_neg hne]; exact mem_cons_self)
      rw [h.elements t rfl _ hpool, h.elements t rfl _ hpool]

variable (live)

def lastRead (r : Reconciler) (env : TickEnv) : RuleInput :=
  if drift r.live env = none then env.first else env.second

theorem drift_eq_none_iff (env : TickEnv) (hl : ∀ err, env.list ≠ .failed err) :
    drift live env = none ↔ env.list = .read ∧ HasShape live env.first := by
  unfold drift
  cases hlist : env.list with
  | failed err => exact absurd hlist (hl err)
  | garbled err => simp
  | read => simp [selfTest_eq_none_iff]

variable (r : Reconciler) (env : TickEnv)

theorem settle_live : (settle r env).1.live = r.live := by
  unfold settle
  split
  · cases env.statusErr <;> rfl
  · rfl

theorem settle_ok_iff :
    (settle r env).2.1 = .ok () ↔ (r.degraded = true → env.statusErr = none ∧ env.auditErr = none) := by
  unfold settle
  cases r.degraded with
  | false => simp
  | true => cases env.statusErr <;> cases env.auditErr <;> simp [orErr]

theorem reload_ok_live (summary : String) (h : (reload r env summary).2.1 = .ok ()) :
    (reload r env summary).1.live = some (renderTable env.second) := by
  unfold reload at h ⊢
  cases ha : env.applyErr with
  | some err => simp [ha] at h
  | none =>
    cases hu : env.auditErr with
    | some err => simp [ha, hu] at h
    | none => rfl

def tickFaithful (r : Reconciler) (env : TickEnv) : Prop :=
  (tick r env).2.1 = .ok () → FiltersAs (tick r env).1.live (lastRead r env)

def driftVisible (r : Reconciler) (env : TickEnv) : Prop :=
  env.list = .read → HasShape r.live env.first → SameContents r.live env.first

theorem tickFaithful_of_visible (hvisible : driftVisible r env) : tickFaithful r env := by
  unfold tickFaithful tick reconcile lastRead
  by_cases hf : ∃ err, env.list = .failed err
  · obtain ⟨err, hf⟩ := hf
    simp [hf]
  · have hl : ∀ err, env.list ≠ .failed err := fun err h => hf ⟨err, h⟩
    cases hd : drift r.live env with
    | none =>
      obtain ⟨hread, hshape⟩ := (drift_eq_none_iff r.live env hl).mp hd
      simp only [hread, settle_live, ↓reduceIte]
      exact fun _ => filtersAs_of_contents hshape (hvisible hread hshape)
    | some summary =>
      have happlied : (reload r env summary).2.1 = .ok () → FiltersAs (reload r env summary).1.live env.second := by
        intro hok p
        rw [reload_ok_live r env summary hok]
        rfl
      cases hlist : env.list with
      | failed err => exact absurd hlist (hl err)
      | garbled err => exact happlied
      | read => exact happlied

inductive Event where
  | tick (env : TickEnv)
  | edit (live : Live)

def step (r : Reconciler) : Event → Reconciler
  | .tick env => (Firewall.tick r env).1
  | .edit live => { r with live := live }

def atTicks (P : Reconciler → TickEnv → Prop) (r : Reconciler) : Event → Prop
  | .tick env => P r env
  | .edit _ => True

theorem nil_ticks_filter_as_rendered (r : Reconciler) (events : List Event)
    (h : Along step (atTicks driftVisible) r events) : Along step (atTicks tickFaithful) r events := by
  refine (along_of_invariant step (fun _ => True) _ _ (fun r e _ hvisible => ⟨trivial, ?_⟩) r events trivial h).2
  cases e with
  | tick env => exact tickFaithful_of_visible r env hvisible
  | edit live => trivial

def quietTick (input : RuleInput) : TickEnv := ⟨"", none, none, input, .read, input, none, none, none⟩

def twoDeployments : RuleInput where
  subnets := [⟨"blog", "", "10.244.0.0/24"⟩, ⟨"shop", "", "10.244.1.0/24"⟩]

def relisted : RuleInput := ⟨twoDeployments.subnets.reverse⟩

theorem relisted_subnets_filtered : Along step (atTicks tickFaithful) ⟨none, false⟩
      [.tick (quietTick twoDeployments), .tick (quietTick relisted)] := by
  have happlied : (step ⟨none, false⟩ (.tick (quietTick twoDeployments))).live = some (renderTable relisted) := rfl
  refine nil_ticks_filter_as_rendered _ _ ⟨fun _ hshape => ?_, fun _ _ => ?_, trivial⟩
  · obtain ⟨c, hc, -⟩ := hshape.chains "forward" mem_cons_self
    cases hc
  · rw [happlied]
    exact contents_render relisted

def withSecondHost : RuleInput where
  subnets := twoDeployments.subnets ++ [⟨"shop", "", "10.244.2.0/24"⟩]

theorem second_host_never_applied : ¬ Along step (atTicks tickFaithful) ⟨none, false⟩
      [.tick (quietTick twoDeployments), .tick (quietTick withSecondHost)] := by
  rintro ⟨-, h, -⟩
  have hblog := h (by decide +kernel) ⟨.v4 0x0AF40005#32, .v4 0x0AF40205#32, .new⟩
  revert hblog
  decide +kernel

end Jaco.Firewall
