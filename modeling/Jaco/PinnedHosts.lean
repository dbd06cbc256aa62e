import Jaco.PassCoverage

namespace Jaco.Scheduler

open Interleaving Placement List

section Seats

variable (s : State) (dep : Deployment) (svc : ServiceSpec)

def stays (i : Nat) : Option String :=
  ((s.replicasDesired.get (replicaID dep.name svc.name i)).filter
    (fun r => r.deployment = dep.name && r.service = svc.name)).bind (stickyExistingHost · svc (hostsIn s svc))

def position (i : Nat) : String := (hostsIn s svc).getD i ""

def seat (i : Nat) : String := (stays s dep svc i).getD (position s svc i)

structure Unshared : Prop where
  staying : ∀ i < svc.replicas.toNat, ∀ j < svc.replicas.toNat, i ≠ j → stays s dep svc i ≠ none →
    stays s dep svc i ≠ stays s dep svc j
  placed : ∀ i < svc.replicas.toNat, ∀ j < svc.replicas.toNat, stays s dep svc i = none →
    stays s dep svc j ≠ some (position s svc i)

instance : Decidable (Unshared s dep svc) :=
  @decidable_of_iff _ ((∀ i < svc.replicas.toNat, ∀ j < svc.replicas.toNat, i ≠ j → stays s dep svc i ≠ none →
      stays s dep svc i ≠ stays s dep svc j) ∧
    ∀ i < svc.replicas.toNat, ∀ j < svc.replicas.toNat, stays s dep svc i = none →
      stays s dep svc j ≠ some (position s svc i)) ⟨fun h => ⟨h.1, h.2⟩, fun h => ⟨h.staying, h.placed⟩⟩
    (@instDecidableAnd _ _ inferInstance inferInstance)

variable {s dep svc}

theorem desired_of_hosts (hhosts : svc.placement = .hosts) {dep' : Deployment} (hname : dep'.name = dep.name)
    {counts : String → Nat} {desired : List DesiredReplica}
    (h : desiredReplicas dep' svc (hostsIn s svc) counts = .ok desired) {d : DesiredReplica} :
    d ∈ desired ↔ ∃ i < svc.replicas.toNat, i < (hostsIn s svc).length ∧
      d = ⟨replicaID dep.name svc.name i, position s svc i, i⟩ := by
  have hplace : ∀ i < svc.replicas.toNat, ∀ d : DesiredReplica,
      (placeReplica dep'.name svc (hostsIn s svc) i counts).map
        (fun host => (⟨replicaID dep'.name svc.name i, host, i⟩ : DesiredReplica)) = .ok d →
      i < (hostsIn s svc).length ∧ d = ⟨replicaID dep.name svc.name i, position s svc i, i⟩ := by
    intro i hi d hok
    unfold placeReplica at hok
    rw [hhosts, sortNames_hostsIn, hname] at hok
    split at hok
    · cases hok
    · dsimp only at hok
      split at hok
      · cases hok
      · have hlt : i < (hostsIn s svc).length := by omega
        have htmod : ((i : Int).tmod (hostsIn s svc).length).toNat = i := by
          rw [Int.tmod_eq_emod_of_nonneg (Int.natCast_nonneg i), Int.emod_eq_of_lt (Int.natCast_nonneg i)
            (Int.ofNat_lt.2 hlt),
            Int.toNat_natCast]
        rw [htmod] at hok
        exact ⟨hlt, (Except.ok.inj hok).symm⟩
  rw [desiredReplicas, if_neg (by rw [hhosts]; decide)] at h
  constructor
  · intro hd
    obtain ⟨i, hi, hok⟩ := exists_of_mem_mapM _ _ _ h d hd
    exact ⟨i, mem_range.1 hi, hplace i (mem_range.1 hi) d hok⟩
  · rintro ⟨i, hi, -, rfl⟩
    obtain ⟨d, hd, hok⟩ := mem_mapM_of_mem _ _ _ h i (mem_range.2 hi)
    rw [← (hplace i hi d hok).2]
    exact hd

theorem seat_mem {i : Nat} (hi : i < (hostsIn s svc).length) : seat s dep svc i ∈ hostsIn s svc := by
  unfold seat
  cases hstays : stays s dep svc i with
  | none =>
    rw [Option.getD_none, position, getD_eq_getElem _ _ hi]
    exact getElem_mem hi
  | some h =>
    obtain ⟨r, -, hsticky⟩ := Option.bind_eq_some_iff.1 hstays
    obtain ⟨rfl, -, hmem, -⟩ := sticky_eq_some hsticky
    exact hmem

theorem seat_inj (h : Unshared s dep svc) {i j : Nat} (hi : i < svc.replicas.toNat) (hj : j < svc.replicas.toNat)
    (hli : i < (hostsIn s svc).length) (hlj : j < (hostsIn s svc).length) (hne : i ≠ j) :
    seat s dep svc i ≠ seat s dep svc j := by
  unfold seat
  cases hsi : stays s dep svc i with
  | none =>
    cases hsj : stays s dep svc j with
    | none =>
      intro heq
      rw [Option.getD_none, Option.getD_none, position, position, getD_eq_getElem _ _ hli,
        getD_eq_getElem _ _ hlj] at heq
      exact hne ((nodup_hostsIn.getElem_inj_iff).1 heq)
    | some x =>
      intro heq
      exact h.placed i hi j hj hsi (hsj.trans (congrArg some heq.symm))
  | some x =>
    cases hsj : stays s dep svc j with
    | none =>
      intro heq
      exact h.placed j hj i hi hsj (hsi.trans (congrArg some heq))
    | some y =>
      intro heq
      refine h.staying i hi j hj hne (hsi ▸ Option.some_ne_none x) ?_
      rw [hsi, hsj]
      exact congrArg some heq

end Seats

section After

variable {P : Parsers} {w : World} {dep : Deployment} {svc : ServiceSpec}

structure Minds (w : World) (dep : Deployment) (svc : ServiceSpec) (p : Pass) (desired : List DesiredReplica) :
    Prop where
  name : p.dep.name = dep.name
  service : p.svc = svc
  eligible : p.eligible = hostsIn w.state svc
  current : ∀ r, r ∈ p.current ↔
    w.state.replicasDesired.get r.id = some r ∧ r.deployment = dep.name ∧ r.service = svc.name
  desired : ∀ d, d ∈ desired ↔ ∃ i < svc.replicas.toNat, i < (hostsIn w.state svc).length ∧
    d = ⟨replicaID dep.name svc.name i, position w.state svc i, i⟩

variable {p : Pass} {desired : List DesiredReplica}

theorem hostFor_of_minds (h : Minds w dep svc p desired) (i : Nat) :
    p.hostFor ⟨replicaID dep.name svc.name i, position w.state svc i, i⟩ = seat w.state dep svc i := by
  have hfind : p.find ⟨replicaID dep.name svc.name i, position w.state svc i, i⟩ =
      (w.state.replicasDesired.get (replicaID dep.name svc.name i)).filter
        (fun r => r.deployment = dep.name && r.service = svc.name) := by
    cases hfound : p.find ⟨replicaID dep.name svc.name i, position w.state svc i, i⟩ with
    | some r =>
      have hid : r.id = replicaID dep.name svc.name i := by simpa using List.find?_some hfound
      obtain ⟨hget, hdep, hsvc⟩ := (h.current r).1 (mem_of_find?_eq_some hfound)
      rw [← hid, hget, Option.filter_some, if_pos (by simp [hdep, hsvc])]
    | none =>
      cases hget : w.state.replicasDesired.get (replicaID dep.name svc.name i) with
      | none => rfl
      | some r =>
        have hid : r.id = replicaID dep.name svc.name i := Store.get_key hget
        rw [Option.filter_some, if_neg]
        intro hnames
        have hmem : r ∈ p.current := (h.current r).2 ⟨hid ▸ hget, by simpa using hnames⟩
        exact absurd (decide_eq_true hid) (List.find?_eq_none.1 hfound r hmem)
  rw [Pass.hostFor, hfind, h.service, h.eligible]
  rfl

def OnSeat (w : World) (dep : Deployment) (svc : ServiceSpec) (id : String) (t : State) : Prop :=
  ∀ r, t.replicasDesired.get id = some r → r.deployment = dep.name → r.service = svc.name →
    ∃ i < svc.replicas.toNat, i < (hostsIn w.state svc).length ∧ id = replicaID dep.name svc.name i ∧
      r.host = seat w.state dep svc i

theorem onSeat_brought {round : Round} (hminds : Minds w dep svc p desired)
    (hserved : ∀ c ∈ p.commands desired, c ∈ round.batch) (id : String) (idx : Nat) {t : State}
    (ht : t.replicasDesired = w.state.replicasDesired) :
    OnSeat w dep svc id t ∨ ∃ c ∈ round.batch, ∀ t, OnSeat w dep svc id (c.apply idx t) := by
  by_cases hwanted : ∃ i < svc.replicas.toNat, i < (hostsIn w.state svc).length ∧ id = replicaID dep.name svc.name i
  · obtain ⟨i, hi, hlt, rfl⟩ := hwanted
    let d : DesiredReplica := ⟨replicaID dep.name svc.name i, position w.state svc i, i⟩
    by_cases hstands : ∃ cur, p.find d = some cur ∧ cur.host = p.hostFor d
    · obtain ⟨cur, hfind, hhost⟩ := hstands
      refine .inl (fun r hget _ _ => ⟨i, hi, hlt, rfl, ?_⟩)
      have hid : cur.id = replicaID dep.name svc.name i := by simpa using List.find?_some hfind
      have hcur := ((hminds.current cur).1 (mem_of_find?_eq_some hfind)).1
      rw [ht, ← hid, hcur] at hget
      cases hget
      rw [hhost]
      exact hostFor_of_minds hminds i
    · have hup := upsert_of_displaced p (d := d) (fun cur hfind hhost => hstands ⟨cur, hfind, hhost⟩) false
        ((hminds.desired d).2 ⟨i, hi, hlt, rfl⟩)
      refine .inr ⟨upsertCommand p.now (p.replica d), hserved _ (mem_append_left _ (mem_map_of_mem hup)), ?_⟩
      intro t r hget hrdep hrsvc
      rw [get_upsertCommand, if_pos (show (p.replica d).id = replicaID dep.name svc.name i from rfl)] at hget
      cases hget
      exact ⟨i, hi, hlt, rfl, hostFor_of_minds hminds i⟩
  · by_cases hheld : ∃ r, t.replicasDesired.get id = some r ∧ r.deployment = dep.name ∧ r.service = svc.name
    · obtain ⟨r, hget, hrdep, hrsvc⟩ := hheld
      have hid : r.id = id := Store.get_key hget
      rw [ht] at hget
      have hgone : id ∈ p.removes desired := by
        refine mem_filter.2 ⟨mem_map.2 ⟨r, (hminds.current r).2 ⟨hid ▸ hget, hrdep, hrsvc⟩, hid⟩, ?_⟩
        refine decide_eq_true (fun hmem => hwanted ?_)
        obtain ⟨d, hd, rfl⟩ := mem_map.1 hmem
        obtain ⟨i, hi, hlt, rfl⟩ := (hminds.desired d).1 hd
        exact ⟨i, hi, hlt, rfl⟩
      refine .inr ⟨removeCommand p.now id, hserved _ (mem_append_right _ (mem_map_of_mem hgone)), ?_⟩
      intro t r' hget'
      rw [get_removeCommand, if_pos rfl] at hget'
      cases hget'
    · exact .inl (fun r hget hrdep hrsvc => absurd ⟨r, hget, hrdep, hrsvc⟩ hheld)

variable (hdep : w.state.deployments.get dep.name = some dep) (hnames : (dep.services.map (·.name)).Nodup)
  (hsvc : svc ∈ dep.services) (hhosts : svc.placement = .hosts) {deps : List Deployment}
  (hlisted : Listed (fun v => Intact w v.state) deps)

include hdep hnames hsvc hhosts hlisted

theorem minds_of_places (hp : Places (fun v => Intact w v.state) deps p desired) (hname : p.dep.name = dep.name)
    (hservice : p.svc.name = svc.name) : Minds w dep svc p desired := by
  obtain ⟨v, hv, hget⟩ := hlisted
  obtain ⟨d₀, hd₀, -, hservices⟩ := hv.frame.deployments p.dep.name p.dep (hget p.dep hp.dep)
  rw [hname, hdep] at hd₀
  cases hd₀
  have hsame : p.svc = svc := inj_on_of_nodup_map hnames (hservices ▸ hp.svc) hsvc hservice
  obtain ⟨u, hu, heligible⟩ := hp.eligible
  obtain ⟨x, hx, hcurrent⟩ := hp.current
  obtain ⟨counts, hdesired⟩ := hp.desired
  have heligible : p.eligible = hostsIn w.state svc := by rw [heligible, hostsIn, hu.frame.nodes, hsame, hostsIn]
  refine ⟨hname, hsame, heligible, fun r => ?_, fun d => ?_⟩
  · rw [hcurrent, hx.frame.replicas, hname, hsame]
  · rw [hsame, heligible] at hdesired
    exact desired_of_hosts hhosts hname hdesired

variable {round : Round} (htold : Told P (fun v => Intact w v.state) deps round)

include htold

theorem onSeat_keeps {c : Command} (hc : c ∈ round.batch) (id : String) (idx : Nat) {t : State}
    (ht : OnSeat w dep svc id t) : OnSeat w dep svc id (c.apply idx t) := by
  have hremove : ∀ (now : Timestamp) (id' : String), OnSeat w dep svc id ((removeCommand now id').apply idx t) := by
    intro now id' r hget
    rw [get_removeCommand] at hget
    split at hget
    · cases hget
    · exact ht r hget
  cases child_of_told htold hc with
  | pending name reason now =>
    intro r hget
    rw [replicas_markDeploymentPending] at hget
    exact ht r hget
  | stale dep' r now hdep' hr howner hnot => exact hremove now r.id
  | drop p desired r hp hr hnot => exact hremove p.now r.id
  | put p desired d hp hd =>
    intro r hget hrdep hrsvc
    rw [get_upsertCommand] at hget
    split at hget
    · rename_i hid
      cases hget
      have hminds := minds_of_places hdep hnames hsvc hhosts hlisted hp hrdep hrsvc
      obtain ⟨i, hi, hlt, rfl⟩ := (hminds.desired d).1 hd
      exact ⟨i, hi, hlt, hid.symm, hostFor_of_minds hminds i⟩
    · exact ht r hget hrdep hrsvc

end After

end Jaco.Scheduler
