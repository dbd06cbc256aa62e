import Jaco.DnsManager

namespace Jaco.Dns

open Bridge Runs Watch Store List

namespace Manager

variable (m : Manager)

def Bindable (st : State) : Prop :=
  ∀ sn, m.Local st sn → (gatewayIP sn.cidr).isSome ∧ ∀ sn', m.Local st sn' → keyOf sn' = keyOf sn → sn' = sn

def Silent (st : State) (now : Timestamp) (key : String) : Prop :=
  ∀ e ∈ collected st m.hostname now st.replicasObserved.list, e.key ≠ key

def Current (n : Node) (sn : Subnet) : Prop :=
  match n.listeners (keyOf sn) with
  | some l => l.responder.scope = scopeOf sn ∧ (gatewayIP sn.cidr).map listenAddr = some l.addr
  | none => n.obsSub.notes ≠ [] ∨ m.Silent n.st n.now (keyOf sn)

def Meets (n : Node) : NodeEvent → Prop
  | .handleSubnet _ => n.subnetSub.queue = [] ∨ m.Bindable n.st ∧ ∀ sn, m.Local n.st sn → m.Current n sn
  | .clock t => n.obsSub.notes ≠ [] ∨ ∀ obs ∈ n.st.replicasObserved.list,
      entriesOf n.st m.hostname t obs = entriesOf n.st m.hostname n.now obs
  | _ => True

theorem mem_listing (σ : Order Subnet) (st : State) (sn : Subnet) :
    (sn ∈ (σ.listing st.subnets).items ∧ sn.host = m.hostname) ↔ m.Local st sn := by
  rw [(σ.listing st.subnets).mem_items, Local]

variable {σ : Order Subnet} {st : State} {key : String} {sn : Subnet} {listeners : Listeners} {l : Listener}
  {now : Timestamp} {n : Node}

theorem live_mem (h : m.live (σ.listing st.subnets).items key = some sn) : m.Local st sn ∧ keyOf sn = key := by
  have hmem := mem_of_find?_eq_some h
  simp only [mem_reverse, mem_filter, decide_eq_true_eq] at hmem
  exact ⟨(m.mem_listing σ st sn).1 hmem, by simpa using List.find?_some h⟩

theorem live_of_local (hb : m.Bindable st) (h : m.Local st sn) :
    m.live (σ.listing st.subnets).items (keyOf sn) = some sn := by
  apply find?_of_unique
  · simp only [mem_reverse, mem_filter, decide_eq_true_eq]
    exact (m.mem_listing σ st sn).2 h
  · exact decide_eq_true rfl
  · intro sn' hmem hkey
    simp only [mem_reverse, mem_filter, decide_eq_true_eq] at hmem
    exact (hb sn h).2 sn' ((m.mem_listing σ st sn').1 hmem) (of_decide_eq_true hkey)

theorem reconcileSubnets_cases (h : m.reconcileSubnets (σ.listing st.subnets).items listeners key = some l) :
    ∃ sn, m.Local st sn ∧ keyOf sn = key ∧
      (listeners key = some l ∨ listeners key = none ∧ m.listen sn = some l) := by
  simp only [reconcileSubnets] at h
  cases hlive : m.live (σ.listing st.subnets).items key with
  | none =>
    rw [hlive] at h
    cases h
  | some sn =>
    obtain ⟨hlocal, hkey⟩ := m.live_mem hlive
    refine ⟨sn, hlocal, hkey, ?_⟩
    rw [hlive] at h
    cases hold : listeners key with
    | none =>
      rw [hold] at h
      exact Or.inr ⟨rfl, h⟩
    | some old =>
      rw [hold] at h
      exact Or.inl h

theorem listen_eq_some (h : m.listen sn = some l) :
    l.responder.scope = scopeOf sn ∧ (gatewayIP sn.cidr).map listenAddr = some l.addr ∧
      l.responder.services = fun _ => [] := by
  obtain ⟨gw, hgw, rfl⟩ := Option.map_eq_some_iff.1 h
  refine ⟨rfl, ?_, rfl⟩
  rw [hgw]
  rfl

theorem bound_reconcileSubnets (hb : m.Bindable st) (hc : ∀ sn, m.Local st sn → ∀ l, listeners (keyOf sn) = some l →
      l.responder.scope = scopeOf sn ∧ (gatewayIP sn.cidr).map listenAddr = some l.addr) :
    m.Bound st (m.reconcileSubnets (σ.listing st.subnets).items listeners) := by
  constructor
  · intro sn hlocal
    have hlive := m.live_of_local (σ := σ) hb hlocal
    cases hold : listeners (keyOf sn) with
    | some l =>
      refine ⟨l, ?_, hc sn hlocal l hold⟩
      simp only [reconcileSubnets, hlive, hold]
    | none =>
      obtain ⟨gw, hgw⟩ := Option.isSome_iff_exists.1 (hb sn hlocal).1
      obtain ⟨l, hl⟩ : ∃ l, m.listen sn = some l := ⟨_, by rw [listen, hgw, Option.map_some]⟩
      obtain ⟨hscope, haddr, -⟩ := m.listen_eq_some hl
      refine ⟨l, ?_, hscope, haddr⟩
      simp only [reconcileSubnets, hlive, hold, hl]
  · intro key l hl
    obtain ⟨sn, hlocal, rfl, hfrom⟩ := m.reconcileSubnets_cases hl
    refine ⟨sn, hlocal, rfl, ?_⟩
    rcases hfrom with hold | ⟨-, hnew⟩
    · exact (hc sn hlocal l hold).1.symm
    · exact (m.listen_eq_some hnew).1.symm

theorem refreshServiceMaps_eq_some {observed : List ReplicaObserved}
    (h : m.refreshServiceMaps st now observed listeners key = some l) :
    ∃ old, listeners key = some old ∧
      l = old.setServices (serviceMap (collected st m.hostname now observed) key) := by
  obtain ⟨old, hold, rfl⟩ := Option.map_eq_some_iff.1 h
  exact ⟨old, hold, rfl⟩

theorem bound_refreshServiceMaps {observed : List ReplicaObserved} (h : m.Bound st listeners) :
    m.Bound st (m.refreshServiceMaps st now observed listeners) := by
  constructor
  · intro sn hlocal
    obtain ⟨l, hl, hscope, haddr⟩ := h.listens sn hlocal
    refine ⟨l.setServices (serviceMap (collected st m.hostname now observed) (keyOf sn)), ?_, hscope, haddr⟩
    rw [refreshServiceMaps, hl, Option.map_some]
  · intro key l hl
    obtain ⟨old, hold, rfl⟩ := m.refreshServiceMaps_eq_some hl
    exact h.only key old hold

theorem mapped_refreshServiceMaps (σ : Order ReplicaObserved) (st : State) (now : Timestamp) (listeners : Listeners) :
    m.Mapped st now (m.refreshServiceMaps st now (σ.listing st.replicasObserved).items listeners) := by
  refine ⟨σ, fun key l hl => ?_⟩
  obtain ⟨old, -, rfl⟩ := m.refreshServiceMaps_eq_some hl
  rfl

theorem collected_perm (σ : Order ReplicaObserved) (st : State) (now : Timestamp) :
    (collected st m.hostname now (σ.listing st.replicasObserved).items).Perm
      (collected st m.hostname now st.replicasObserved.list) :=
  (σ.listing st.replicasObserved).perm.flatMap_right _

theorem serviceMap_of_silent (h : m.Silent st now key) (σ : Order ReplicaObserved) :
    serviceMap (collected st m.hostname now (σ.listing st.replicasObserved).items) key = fun _ => [] := by
  funext service
  by_contra hne
  obtain ⟨e, he, hkey, -⟩ := (serviceMap_ne_nil_iff _ key service).1 hne
  exact h e ((m.collected_perm σ st now).mem_iff.1 he) hkey

theorem mapped_reconcileSubnets (h : m.Mapped st now listeners)
    (hs : ∀ sn, m.Local st sn → listeners (keyOf sn) = none → m.Silent st now (keyOf sn)) :
    m.Mapped st now (m.reconcileSubnets (σ.listing st.subnets).items listeners) := by
  obtain ⟨τ, hmaps⟩ := h
  refine ⟨τ, fun key l hl => ?_⟩
  obtain ⟨sn, hlocal, rfl, hold | ⟨hnone, hnew⟩⟩ := m.reconcileSubnets_cases hl
  · exact hmaps _ l hold
  · rw [(m.listen_eq_some hnew).2.2, m.serviceMap_of_silent (hs sn hlocal hnone) τ]

theorem mapped_clock {t : Timestamp} (h : m.Mapped st now listeners)
    (hs : ∀ obs ∈ st.replicasObserved.list, entriesOf st m.hostname t obs = entriesOf st m.hostname now obs) :
    m.Mapped st t listeners := by
  obtain ⟨σ, hmaps⟩ := h
  refine ⟨σ, fun key l hl => ?_⟩
  have hsame : collected st m.hostname t (σ.listing st.replicasObserved).items =
      collected st m.hostname now (σ.listing st.replicasObserved).items := by
    apply flatMap_congr
    intro obs hobs
    exact hs obs ((σ.listing st.replicasObserved).perm.mem_iff.1 hobs)
  rw [hmaps key l hl, hsame]

structure Inv (n : Node) : Prop where
  subnetRoom : n.subnetSub.Roomy
  obsRoom : n.obsSub.Roomy
  bound : n.subnetSub.notes = [] → m.Bound n.st n.listeners
  mapped : n.obsSub.notes = [] → m.Mapped n.st n.now n.listeners

theorem inv_subnet (h : m.Inv n) (w : Write Subnet) : m.Inv (m.step n (.subnet w)) := by
  simp only [step]
  split
  · rename_i c hc
    split
    · exact ⟨h.subnetRoom.publish c, h.obsRoom, fun hn => absurd hn (n.subnetSub.notes_publish_ne_nil c), h.mapped⟩
    · exact h
  · exact h

theorem inv_observed (h : m.Inv n) (w : Write ReplicaObserved) : m.Inv (m.step n (.observed w)) := by
  simp only [step]
  split
  · rename_i c hc
    split
    · refine ⟨h.subnetRoom, h.obsRoom.publish c, fun hn => ?_, fun hn => absurd hn (n.obsSub.notes_publish_ne_nil c)⟩
      -- the subnets are the same ones
      exact ⟨(h.bound hn).listens, (h.bound hn).only⟩
    · exact h
  · exact h

theorem inv_publish (h : m.Inv n) : m.Inv (m.step n .publish) := by
  refine ⟨h.subnetRoom.advance, h.obsRoom.advance, fun hn => h.bound ?_, fun hn => h.mapped ?_⟩
  · by_contra hne
    exact Subscription.notes_advance_ne_nil h.subnetRoom hne hn
  · by_contra hne
    exact Subscription.notes_advance_ne_nil h.obsRoom hne hn

theorem inv_handleSubnet (h : m.Inv n) (hm : m.Meets n (.handleSubnet σ)) : m.Inv (m.step n (.handleSubnet σ)) := by
  simp only [step]
  split
  · exact h
  · rename_i hqueue
    obtain ⟨hb, hcur⟩ := hm.resolve_left hqueue
    refine ⟨h.subnetRoom.take, h.obsRoom, fun _ => ?_, fun hn => ?_⟩
    · apply m.bound_reconcileSubnets hb
      intro sn hlocal l hl
      have hcurrent := hcur sn hlocal
      rw [Current, hl] at hcurrent
      exact hcurrent
    · apply m.mapped_reconcileSubnets (h.mapped hn)
      intro sn hlocal hnone
      have hcurrent := hcur sn hlocal
      rw [Current, hnone] at hcurrent
      exact hcurrent.resolve_left (fun hne => hne hn)

theorem inv_handleObserved (h : m.Inv n) (σ : Order ReplicaObserved) : m.Inv (m.step n (.handleObserved σ)) := by
  simp only [step]
  split
  · exact h
  · exact ⟨h.subnetRoom, h.obsRoom.take, fun hn => m.bound_refreshServiceMaps (h.bound hn),
      fun _ => m.mapped_refreshServiceMaps σ n.st n.now n.listeners⟩

theorem inv_step {e : NodeEvent} (h : m.Inv n) (hm : m.Meets n e) : m.Inv (m.step n e) := by
  cases e with
  | subnet w => exact m.inv_subnet h w
  | observed w => exact m.inv_observed h w
  | publish => exact m.inv_publish h
  | clock t =>
    refine ⟨h.subnetRoom, h.obsRoom, h.bound, fun hn => ?_⟩
    exact m.mapped_clock (h.mapped hn) (hm.resolve_left (fun hne => hne hn))
  | handleSubnet σ => exact m.inv_handleSubnet h hm
  | handleObserved σ => exact m.inv_handleObserved h σ

theorem inv_boot (hb : m.Bindable st) (now : Timestamp) (σ : Order Subnet) (τ : Order ReplicaObserved)
    {subnetSub : Subscription (Change Subnet)} {obsSub : Subscription (Change ReplicaObserved)}
    (hs : subnetSub.Roomy) (ho : obsSub.Roomy) : m.Inv (m.boot st now σ τ subnetSub obsSub) := by
  refine ⟨hs, ho, fun _ => ?_, fun _ => ?_⟩
  · apply m.bound_refreshServiceMaps
    apply m.bound_reconcileSubnets hb
    intro sn _ l hl
    cases hl
  · exact m.mapped_refreshServiceMaps τ st now _

theorem notes_of_drained (h : n.Drained) : n.subnetSub.notes = [] ∧ n.obsSub.notes = [] := by
  obtain ⟨⟨hs, ho⟩, hsq, hoq⟩ := h
  simp [Subscription.notes, hs, ho, hsq, hoq]

theorem drained_listeners_current {st : State} (hb : m.Bindable st) (now : Timestamp) (σ : Order Subnet)
    (τ : Order ReplicaObserved) {subnetSub : Subscription (Change Subnet)}
    {obsSub : Subscription (Change ReplicaObserved)} (hs : subnetSub.Roomy) (ho : obsSub.Roomy) (es : List NodeEvent)
    (hm : Along m.step m.Meets (m.boot st now σ τ subnetSub obsSub) es)
    (hd : (run m.step (m.boot st now σ τ subnetSub obsSub) es).Drained) :
    let n := run m.step (m.boot st now σ τ subnetSub obsSub) es
    m.Bound n.st n.listeners ∧ m.Mapped n.st n.now n.listeners := by
  have hinv := (along_of_invariant m.step m.Inv m.Meets (fun _ _ => True)
    (fun n e h hmeets => ⟨m.inv_step h hmeets, trivial⟩) _ es (m.inv_boot hb now σ τ hs ho) hm).1
  obtain ⟨hsn, hon⟩ := notes_of_drained hd
  exact ⟨hinv.bound hsn, hinv.mapped hon⟩

namespace Shop

def manager : Manager := ⟨"node-a", fun _ => .error "i/o timeout"⟩

def subnet (cidr : String) : Subnet :=
  { deployment := "shop", network := "front", cidr := cidr, allocatedAt := some 0, host := "node-a" }

def observed : ReplicaObserved where
  id := "shop-web-0"
  state := .running
  details := [("ip." ++ dockerNetworkName "shop" "front", "10.244.0.2")]
  host := "node-a"
  lastHealthAt := some 0

def declared : State :=
  { State.new with
    deployments := empty.apply
      { name := "shop", appliedRevision := 1, status := .active,
        services := [{ name := "web", replicas := 1, placement := .spread, networks := ["front"] }] }
    replicasDesired := empty.apply
      { id := "shop-web-0", deployment := "shop", service := "web", host := "node-a", image := "nginx" } }

def booted (st : State) : Node := manager.boot st 0 (.stored _) (.stored _) ⟨256, [], .idle⟩ ⟨256, [], .idle⟩

def withSubnet : State := { declared with subnets := empty.apply (subnet "10.244.0.0/24") }

theorem local_withSubnet {sn : Subnet} (h : manager.Local withSubnet sn) : sn = subnet "10.244.0.0/24" := by
  have hget := h.1
  rw [withSubnet, get_apply, get_empty] at hget
  split at hget
  · exact (Option.some.inj hget).symm
  · cases hget

theorem bindable_withSubnet : manager.Bindable withSubnet := by
  intro sn h
  refine ⟨?_, fun sn' h' _ => ?_⟩
  · rw [local_withSubnet h]
    decide
  · rw [local_withSubnet h, local_withSubnet h']

theorem roomy_fresh (α : Type) : (⟨256, [], .idle⟩ : Subscription α).Roomy :=
  ⟨by simp, by simp, nofun⟩

def comesUp : List NodeEvent :=
  [.subnet (.put (subnet "10.244.0.0/24")), .publish, .handleSubnet (.stored _), .observed (.put observed), .publish,
    .handleObserved (.stored _)]

def lateSubnet : Node :=
  run manager.step (booted { declared with replicasObserved := empty.apply observed })
    [.subnet (.put (subnet "10.244.0.0/24")), .publish, .handleSubnet (.stored _)]

def movedSubnet : Node :=
  run manager.step (booted withSubnet)
    [.subnet (.drop (subnet "10.244.0.0/24").key), .publish, .subnet (.put (subnet "10.244.1.0/24")), .publish,
      .handleSubnet (.stored _), .handleSubnet (.stored _)]

end Shop

open Shop in
theorem listeners_current_comesUp :
    manager.Bindable declared ∧ (run manager.step (booted declared) comesUp).Drained ∧
      let n := run manager.step (booted declared) comesUp
      manager.Bound n.st n.listeners ∧ manager.Mapped n.st n.now n.listeners := by
  have hb : manager.Bindable declared := fun sn h => nomatch h.1
  have hd : (run manager.step (booted declared) comesUp).Drained := by
    refine ⟨⟨?_, ?_⟩, ?_, ?_⟩ <;> decide +kernel
  refine ⟨hb, hd, drained_listeners_current manager hb 0 (.stored _) (.stored _) (roomy_fresh _) (roomy_fresh _) comesUp
    ⟨trivial, trivial, .inr ⟨bindable_withSubnet, fun sn h => ?_⟩, trivial, trivial, trivial, trivial⟩ hd⟩
  rw [local_withSubnet h]
  exact .inr nofun

open Shop in
theorem drained_listeners_stale :
    (lateSubnet.Drained ∧ ¬ manager.Mapped lateSubnet.st lateSubnet.now lateSubnet.listeners) ∧
      movedSubnet.Drained ∧ ¬ manager.Bound movedSubnet.st movedSubnet.listeners := by
  refine ⟨⟨⟨⟨?_, ?_⟩, ?_, ?_⟩, ?_⟩, ⟨⟨?_, ?_⟩, ?_, ?_⟩, ?_⟩
  any_goals decide +kernel
  · rintro ⟨σ, hmaps⟩
    have hentry : ∃ e ∈ collected lateSubnet.st "node-a" 0 lateSubnet.st.replicasObserved.list,
        e.key = "shop/front" ∧ e.service = "web" := by decide +kernel
    obtain ⟨e, he, hkey, hservice⟩ := hentry
    obtain ⟨l, hl, hnone⟩ : ∃ l, lateSubnet.listeners "shop/front" = some l ∧ l.responder.services "web" = [] := by
      have hsome : (lateSubnet.listeners "shop/front").map (fun l => l.responder.services "web") = some [] := by
        decide +kernel
      exact Option.map_eq_some_iff.1 hsome
    rw [hmaps "shop/front" l hl] at hnone
    refine (serviceMap_ne_nil_iff _ "shop/front" "web").2 ⟨e, ?_, hkey, hservice⟩ hnone
    exact (collected_perm manager σ lateSubnet.st 0).mem_iff.2 he
  · intro h
    obtain ⟨l, hl, -, haddr⟩ := h.listens (subnet "10.244.1.0/24") ⟨by decide +kernel, rfl⟩
    have hold : (movedSubnet.listeners (keyOf (subnet "10.244.1.0/24"))).map Listener.addr = some "10.244.0.1:53" := by
      decide +kernel
    rw [hl, Option.map_some, ← haddr] at hold
    revert hold
    decide +kernel

end Manager

end Jaco.Dns
