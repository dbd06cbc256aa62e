import Jaco.DnsResponder
import Jaco.ServiceNetworks

namespace Jaco.Dns

open Bridge List

def scopeKey (deployment network : String) : String := deployment ++ "/" ++ network

def healthWindow : Int := 10 * 10 ^ 9

def parseIP (s : String) : Option IP := Cidr.parseAddr4 s.toList

def recordedIP (obs : ReplicaObserved) (dockerNet : String) : Option IP :=
  parseIP ((obs.details.lookup ("ip." ++ dockerNet)).getD "")

def Serving (now : Timestamp) (obs : ReplicaObserved) : Prop :=
  obs.state = .running ∧ ∃ t ∈ obs.lastHealthAt, ¬ now - t > healthWindow

instance (now : Timestamp) (obs : ReplicaObserved) : Decidable (Serving now obs) :=
  match h : obs.lastHealthAt with
  | none => isFalse (fun hs => by simp [Serving, h] at hs)
  | some t => decidable_of_iff (obs.state = .running ∧ ¬ now - t > healthWindow) (by simp [Serving, h])

structure Entry where
  key : String
  service : String
  ip : IP
  onHost : Bool

def entriesOf (st : State) (hostname : String) (now : Timestamp) (obs : ReplicaObserved) : List Entry :=
  if Serving now obs then
    match st.replicasDesired.get obs.id with
    | none => []
    | some rep => (networksOfService st rep.deployment rep.service).filterMap (fun network =>
        (recordedIP obs (dockerNetworkName rep.deployment network)).map (fun ip =>
          ⟨scopeKey rep.deployment network, rep.service, ip, obs.host = hostname⟩))
  else []

def collected (st : State) (hostname : String) (now : Timestamp) (observed : List ReplicaObserved) : List Entry :=
  observed.flatMap (entriesOf st hostname now)

def serviceMap (entries : List Entry) (key : String) : ServiceMap := fun service =>
  let all := entries.filter (fun e => e.key = key ∧ e.service = service)
  let near := all.filter (·.onHost)
  (if near ≠ [] then near else all).map (·.ip)

theorem mem_serviceMap {entries : List Entry} {key service : String} {ip : IP}
    (h : ip ∈ serviceMap entries key service) :
    ∃ e ∈ entries, e.key = key ∧ e.service = service ∧ e.ip = ip := by
  simp only [serviceMap] at h
  obtain ⟨e, he, rfl⟩ := mem_map.1 h
  have hall : e ∈ entries.filter (fun e => e.key = key ∧ e.service = service) := by
    split at he
    · exact mem_of_mem_filter he
    · exact he
  simp only [mem_filter, decide_eq_true_eq] at hall
  exact ⟨e, hall.1, hall.2.1, hall.2.2, rfl⟩

theorem serviceMap_ne_nil_iff (entries : List Entry) (key service : String) :
    serviceMap entries key service ≠ [] ↔ ∃ e ∈ entries, e.key = key ∧ e.service = service := by
  constructor
  · intro h
    obtain ⟨ip, hip⟩ := exists_mem_of_ne_nil _ h
    obtain ⟨e, he, hkey, hservice, -⟩ := mem_serviceMap hip
    exact ⟨e, he, hkey, hservice⟩
  · rintro ⟨e, he, hkey, hservice⟩ hnil
    simp only [serviceMap, map_eq_nil_iff] at hnil
    split at hnil
    · contradiction
    · have hmem : e ∈ entries.filter (fun e => e.key = key ∧ e.service = service) := by simp [he, hkey, hservice]
      rw [hnil] at hmem
      cases hmem

theorem mem_collected {st : State} {hostname : String} {now : Timestamp} {observed : List ReplicaObserved} {e : Entry} :
    e ∈ collected st hostname now observed ↔ ∃ obs ∈ observed, Serving now obs ∧
      ∃ rep, st.replicasDesired.get obs.id = some rep ∧
        ∃ network ∈ networksOfService st rep.deployment rep.service,
          ∃ ip, recordedIP obs (dockerNetworkName rep.deployment network) = some ip ∧
            e = ⟨scopeKey rep.deployment network, rep.service, ip, obs.host = hostname⟩ := by
  simp only [collected, mem_flatMap]
  apply exists_congr
  intro obs
  apply and_congr_right
  intro _
  unfold entriesOf
  by_cases hs : Serving now obs
  · rw [if_pos hs]
    cases hrep : st.replicasDesired.get obs.id with
    | none => simp [hs]
    | some rep =>
      simp only [hs, true_and, Option.some.injEq, exists_eq_left', mem_filterMap, Option.map_eq_some_iff]
      constructor
      · rintro ⟨network, hnetwork, ip, hip, rfl⟩
        exact ⟨network, hnetwork, ip, hip, rfl⟩
      · rintro ⟨network, hnetwork, ip, hip, rfl⟩
        exact ⟨network, hnetwork, ip, hip, rfl⟩
  · simp [hs]

theorem scopeKey_inj (d n n' : String) : scopeKey d n = scopeKey d n' ↔ n = n' := by
  constructor
  · intro h
    have := congrArg String.toList h
    simpa [scopeKey, String.toList_inj] using this
  · rintro rfl
    rfl

end Jaco.Dns
