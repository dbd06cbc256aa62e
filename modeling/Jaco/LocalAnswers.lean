import Jaco.DnsManager
import Jaco.HealthPolls

namespace Jaco.Dns

open Bridge Store List

def Polled (st : State) : Prop :=
  ∀ obs, st.replicasObserved.get obs.id = some obs → obs.state = .running →
    ∃ now result, ∃ rw : RestartPolicy.ReplicaWatcher obs.id, obs = (RestartPolicy.poll now result rw).1

def Serves (st : State) (now : Timestamp) (key service host : String) (ip : IP) : Prop :=
  ∃ obs rep network, st.replicasObserved.get obs.id = some obs ∧ Serving now obs ∧
    st.replicasDesired.get obs.id = some rep ∧ rep.service = service ∧ rep.host = host ∧
    network ∈ networksOfService st rep.deployment rep.service ∧ scopeKey rep.deployment network = key ∧
    recordedIP obs (dockerNetworkName rep.deployment network) = some ip

theorem serviceMap_of_uniform {entries : List Entry} {b : Bool} (h : ∀ e ∈ entries, e.onHost = b)
    (key service : String) :
    serviceMap entries key service = (entries.filter (fun e => e.key = key ∧ e.service = service)).map (·.ip) := by
  have hmarked : ∀ e ∈ entries.filter (fun e => e.key = key ∧ e.service = service), e.onHost = b := fun e he =>
    h e (mem_of_mem_filter he)
  simp only [serviceMap]
  cases b with
  | true =>
    rw [filter_eq_self.2 hmarked, ite_self]
  | false =>
    rw [filter_eq_nil_iff.2 (fun e he => by simp [hmarked e he]), if_neg (fun h => h rfl)]

section Served

variable {st : State} {now : Timestamp} {key service : String}

theorem mem_served_iff (hpolled : Polled st) (hostname : String) (observed : st.replicasObserved.Listing) (ip : IP) :
    ip ∈ serviceMap (collected st hostname now observed.items) key service ↔
      ∃ host, Serves st now key service host ip := by
  -- a poll leaves the host of its observation empty
  have hhost : ∀ e ∈ collected st hostname now observed.items, e.onHost = decide ("" = hostname) := by
    intro e he
    obtain ⟨obs, hobs, hserving, rep, -, network, -, ip, -, rfl⟩ := mem_collected.1 he
    obtain ⟨_, result, rw, hpoll⟩ := hpolled obs ((observed.mem_items obs).1 hobs) hserving.1
    have hempty : obs.host = "" := by
      rw [hpoll]
      cases result <;> rfl
    simp only [hempty]
  rw [serviceMap_of_uniform hhost, mem_map]
  simp only [mem_filter, decide_eq_true_eq, mem_collected]
  constructor
  · rintro ⟨e, ⟨⟨obs, hobs, hserving, rep, hrep, network, hnetwork, ip, hip, rfl⟩, hkey, hservice⟩, rfl⟩
    exact ⟨rep.host, obs, rep, network, (observed.mem_items obs).1 hobs, hserving, hrep, hservice, rfl,
      hnetwork, hkey, hip⟩
  · rintro ⟨host, obs, rep, network, hobs, hserving, hrep, hservice, rfl, hnetwork, hkey, hip⟩
    exact ⟨_, ⟨⟨obs, (observed.mem_items obs).2 hobs, hserving, rep, hrep, network, hnetwork, ip, hip, rfl⟩,
      hkey, hservice⟩, rfl⟩

end Served

theorem local_answers_iff (m : Manager) (st : State) (hpolled : Polled st) (now : Timestamp)
    (observed : st.replicasObserved.Listing) (listeners : Listeners) (key service : String) (l : Listener)
    (hl : m.refreshServiceMaps st now observed.items listeners key = some l) :
    ((∃ ip, Serves st now key service m.hostname ip) →
        ∀ ip ∈ l.responder.services service, Serves st now key service m.hostname ip) ↔
      ((∃ ip, Serves st now key service m.hostname ip) →
        ∀ host ip, host ≠ m.hostname → Serves st now key service host ip →
        Serves st now key service m.hostname ip) := by
  obtain ⟨old, -, rfl⟩ := Option.map_eq_some_iff.1 hl
  apply imp_congr_right
  intro _
  simp only [Listener.setServices, mem_served_iff hpolled m.hostname observed]
  constructor
  · intro h host ip _ hserves
    exact h ip ⟨host, hserves⟩
  · rintro h ip ⟨host, hserves⟩
    by_cases hhost : host = m.hostname
    · rwa [hhost] at hserves
    · exact h host ip hhost hserves

namespace Replicas

def rep (id host : String) : ReplicaDesired :=
  { id := id, deployment := "shop", service := "web", host := host, image := "nginx" }

def healthy (ip : String) : Except String RestartPolicy.Inspection :=
  .ok { state := some { status := "running", health := some "healthy" }, networks := [("jaco_shop_front", some ip)] }

def obs (id ip : String) : ReplicaObserved :=
  (RestartPolicy.poll 0 (healthy ip)
    ({ containerID := id, hasHealthcheck := true } : RestartPolicy.ReplicaWatcher id)).1

def service : ServiceSpec := { name := "web", replicas := 2, placement := .spread, networks := ["front"] }

def deployment : Deployment :=
  { name := "shop", appliedRevision := 1, status := .active, services := [service] }

def replicas (far : Bool) : State :=
  { State.new with
    deployments := empty.apply deployment
    replicasDesired := (if far then empty.apply (rep "shop-web-1" "node-b") else empty).apply
      (rep "shop-web-0" "node-a")
    replicasObserved := (if far then empty.apply (obs "shop-web-1" "10.244.1.2") else empty).apply
      (obs "shop-web-0" "10.244.0.2") }

theorem observed_cases {far : Bool} {o : ReplicaObserved} (h : (replicas far).replicasObserved.get o.id = some o) :
    o = obs "shop-web-0" "10.244.0.2" ∨ far = true ∧ o = obs "shop-web-1" "10.244.1.2" := by
  cases far <;> simp only [replicas, Bool.false_eq_true, if_true, if_false, get_apply, get_empty] at h
  all_goals grind

theorem polled (far : Bool) : Polled (replicas far) := by
  intro o ho _
  rcases observed_cases ho with rfl | ⟨-, rfl⟩
  · exact ⟨0, healthy "10.244.0.2", { containerID := "shop-web-0", hasHealthcheck := true }, rfl⟩
  · exact ⟨0, healthy "10.244.1.2", { containerID := "shop-web-1", hasHealthcheck := true }, rfl⟩

theorem networks (far : Bool) : networksOfService (replicas far) "shop" "web" = ["front"] := by
  rw [networksOfService, show (replicas far).deployments.get "shop" = some deployment from get_apply_self _ deployment]
  rfl

theorem recorded : recordedIP (obs "shop-web-0" "10.244.0.2") (dockerNetworkName "shop" "front") = some 0x0af40002 ∧
    recordedIP (obs "shop-web-1" "10.244.1.2") (dockerNetworkName "shop" "front") = some 0x0af40102 := by decide +kernel

theorem desired_near (far : Bool) :
    (replicas far).replicasDesired.get "shop-web-0" = some (rep "shop-web-0" "node-a") :=
  get_apply_self _ (rep "shop-web-0" "node-a")

theorem desired_far : (replicas true).replicasDesired.get "shop-web-1" = some (rep "shop-web-1" "node-b") := by
  simp [replicas, get_apply, rep]

theorem serves_near (far : Bool) : Serves (replicas far) 0 "shop/front" "web" "node-a" 0x0af40002 :=
  ⟨obs "shop-web-0" "10.244.0.2", rep "shop-web-0" "node-a", "front", get_apply_self _ (obs "shop-web-0" "10.244.0.2"),
    ⟨rfl, 0, rfl, by decide⟩, desired_near far, rfl, rfl, networks far ▸ mem_singleton_self "front", rfl, recorded.1⟩

theorem serves_far : Serves (replicas true) 0 "shop/front" "web" "node-b" 0x0af40102 :=
  ⟨obs "shop-web-1" "10.244.1.2", rep "shop-web-1" "node-b",
    "front", by simp [replicas, get_apply, obs, RestartPolicy.poll_id],
    ⟨rfl, 0, rfl, by decide⟩, desired_far, rfl, rfl, networks true ▸ mem_singleton_self "front", rfl, recorded.2⟩

theorem serves_cases {far : Bool} {host : String} {ip : IP} (h : Serves (replicas far) 0 "shop/front" "web" host ip) :
    host = "node-a" ∧ ip = 0x0af40002 ∨ far = true ∧ host = "node-b" := by
  obtain ⟨o, r, network, ho, -, hr, -, rfl, hnetwork, -, hip⟩ := h
  rcases observed_cases ho with rfl | ⟨rfl, rfl⟩
  · obtain rfl := Option.some.inj ((desired_near far).symm.trans hr)
    obtain rfl := mem_singleton.1 (networks far ▸ hnetwork)
    exact Or.inl ⟨rfl, (Option.some.inj (recorded.1.symm.trans hip)).symm⟩
  · obtain rfl := Option.some.inj (desired_far.symm.trans hr)
    exact Or.inr ⟨rfl, rfl⟩

def manager : Manager := ⟨"node-a", fun _ => .ok []⟩

def listeners : Listeners := fun _ => some ⟨"10.244.0.1:53", ⟨⟨"shop", "front"⟩, fun _ => [], none⟩⟩

def refreshed (far : Bool) : Listeners :=
  manager.refreshServiceMaps (replicas far) 0 (replicas far).replicasObserved.listing.items listeners

end Replicas

open Replicas

theorem sole_replica_answers_locally : ∃ l, Replicas.refreshed false "shop/front" = some l ∧
      ∀ ip ∈ l.responder.services "web", Serves (replicas false) 0 "shop/front" "web" "node-a" ip := by
  refine ⟨_, rfl, (local_answers_iff manager _ (polled false) 0 _ listeners _ "web" _ rfl).2 ?_
    ⟨_, serves_near false⟩⟩
  intro _ host ip hhost hserves
  rcases serves_cases hserves with ⟨rfl, -⟩ | ⟨hfar, -⟩
  · exact absurd rfl hhost
  · cases hfar

theorem remote_replica_answered :
    Polled (replicas true) ∧ Serves (replicas true) 0 "shop/front" "web" "node-a" 0x0af40002 ∧
      ∃ l, Replicas.refreshed true "shop/front" = some l ∧
        ∃ ip ∈ l.responder.services "web", ¬ Serves (replicas true) 0 "shop/front" "web" "node-a" ip := by
  refine ⟨polled true, serves_near true, _, rfl, 0x0af40102, ?_, fun h => ?_⟩
  · exact (mem_served_iff (polled true) "node-a" _ _).2 ⟨"node-b", serves_far⟩
  · rcases serves_cases h with ⟨-, hip⟩ | ⟨-, hhost⟩
    · exact absurd hip (by decide)
    · exact absurd hhost (by decide)

end Jaco.Dns
