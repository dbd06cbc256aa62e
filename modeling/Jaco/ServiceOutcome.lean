import Jaco.ServicePasses
import Jaco.StickyHosts

namespace Jaco.Scheduler

open Interleaving Placement List

section Statement

variable (dep : Deployment) (svc : ServiceSpec)

def Belongs (r : ReplicaDesired) : Prop := r.deployment = dep.name ∧ r.service = svc.name

/-- One record for each index, or for each eligible host, and no other of the service, all up to date and placed; and
nothing moved that could stay. -/
structure Converged (image : String) (specHash : Bytes) (s t : State) : Prop where
  indexed : svc.placement ≠ .global → ∀ i < svc.replicas.toNat, ∃ r, Belongs dep svc r ∧
    t.replicasDesired.get (replicaID dep.name svc.name i) = some r ∧ r.index = i
  perHost : svc.placement = .global → ∀ h ∈ hostsIn s svc, ∃ r, Belongs dep svc r ∧
    t.replicasDesired.get (replicaIDForHost dep.name svc.name h) = some r ∧ r.host = h
  only : ∀ r, t.replicasDesired.get r.id = some r → Belongs dep svc r → r.id ∈ wantedIDs dep svc (hostsIn s svc)
  current : ∀ r, t.replicasDesired.get r.id = some r → Belongs dep svc r →
    r.image = image ∧ r.specHash = specHash ∧ r.host ∈ hostsIn s svc
  stays : ∀ r r', s.replicasDesired.get r.id = some r → Belongs dep svc r → Admits s svc r.host →
    t.replicasDesired.get r.id = some r' → Belongs dep svc r' → r'.host = r.host

def ChangedInPlace (s t : State) (r : ReplicaDesired) : Prop :=
  s.replicasDesired.get r.id = some r ∧ Belongs dep svc r ∧
    ∃ r', t.replicasDesired.get r.id = some r' ∧ Belongs dep svc r' ∧ r'.host = r.host ∧ r'.image ≠ r.image

structure ServicePassExact (image : String) (specHash : Bytes) (s t : State) : Prop where
  converged : (∀ r, s.replicasDesired.get r.id = some r → Belongs dep svc r → r.image = image) →
    Converged dep svc image specHash s t
  gradual : ∀ r₁ r₂, ChangedInPlace dep svc s t r₁ → ChangedInPlace dep svc s t r₂ → r₁ = r₂

def Stands (p : Pass) (d : DesiredReplica) (r : ReplicaDesired) : Prop := p.find d = some r ∧ r.host = p.hostFor d

structure Regular (p : Pass) (desired : List DesiredReplica) : Prop where
  indexed : p.svc.placement ≠ .global → ∀ d ∈ desired, ∀ r, Stands p d r → r.specHash = p.specHash → r.index = d.index
  named : p.svc.placement ≠ .global → ∀ d ∈ desired, ∀ r, p.find d = some r → r.host = "" → "" ∈ p.eligible →
    (p.svc.placement = .hosts → "" ∈ p.svc.hosts) → d.host = ""
  keyed : p.svc.placement = .global → ∀ d ∈ desired, ∀ d' ∈ desired, d.id = d'.id → d.host = d'.host
  placed : p.svc.placement = .global → ∀ d ∈ desired, ∀ r, p.find d = some r → r.host ∈ p.eligible → r.host = d.host

/-- When the records do not roll, at most one of them is behind on the image and keeps its host. -/
def Gradual (p : Pass) (desired : List DesiredReplica) : Prop :=
  p.rolling = false → ∀ d₁ ∈ desired, ∀ d₂ ∈ desired, ∀ r₁ r₂, Stands p d₁ r₁ → Stands p d₂ r₂ →
    r₁.image ≠ p.image → r₂.image ≠ p.image → r₁ = r₂

end Statement

structure Ran (p : Pass) (desired : List DesiredReplica) (s t : State) : Prop where
  current : ∀ r, r ∈ p.current ↔ s.replicasDesired.get r.id = some r ∧ Belongs p.dep p.svc r
  eligible : p.eligible = hostsIn s p.svc
  placed : ∃ counts, desiredReplicas p.dep p.svc p.eligible counts = .ok desired
  get : ∃ idx, ∀ id, t.replicasDesired.get id = if id ∈ p.removes desired then none
    else (s.replicasDesired.applyAll ((p.upserts false desired).map (stamped idx))).get id

section Ran

variable {p : Pass} {desired : List DesiredReplica} {s t : State}

variable {d : DesiredReplica} {r : ReplicaDesired}

variable (h : Ran p desired s t)

include h

theorem find_iff : p.find d = some r ↔ r ∈ p.current ∧ r.id = d.id := by
  constructor
  · intro hfind
    exact ⟨mem_of_find?_eq_some hfind, by simpa using List.find?_some hfind⟩
  · rintro ⟨hr, hid⟩
    cases hfind : p.find d with
    | none => exact absurd (decide_eq_true hid) (List.find?_eq_none.1 hfind r hr)
    | some r' =>
      have hid' : r'.id = d.id := by simpa using List.find?_some hfind
      have hget := ((h.current r').1 (mem_of_find?_eq_some hfind)).1
      rw [hid', ← hid, ((h.current r).1 hr).1] at hget
      rw [Option.some.inj hget]

theorem wanted_of_record (hget : t.replicasDesired.get r.id = some r)
    (hof : Belongs p.dep p.svc r) : ∃ d ∈ desired, d.id = r.id := by
  obtain ⟨idx, hstate⟩ := h.get
  rw [hstate] at hget
  split at hget
  · cases hget
  · rename_i hkept
    by_cases hup : ∃ v ∈ (p.upserts false desired).map (stamped idx), v.id = r.id
    · obtain ⟨v, hv, hid⟩ := hup
      obtain ⟨u, hu, rfl⟩ := mem_map.1 hv
      obtain ⟨d, hd, rfl, -⟩ := mem_upserts p false desired u hu
      exact ⟨d, hd, hid⟩
    · rw [Store.get_applyAll_of_notMem _ _ _ (fun v hv he => hup ⟨v, hv, he⟩)] at hget
      have hr : r ∈ p.current := (h.current r).2 ⟨hget, hof⟩
      by_contra hnone
      refine hkept (mem_filter.2 ⟨mem_map_of_mem hr, decide_eq_true (fun hmem => hnone ?_)⟩)
      exact mem_map.1 hmem

theorem get_wanted (hd : d ∈ desired) : (∃ idx, ∃ d' ∈ desired, d'.id = d.id ∧ p.replica d' ∈ p.upserts false desired ∧
      t.replicasDesired.get d.id = some (stamped idx (p.replica d'))) ∨
    p.replica d ∉ p.upserts false desired ∧ t.replicasDesired.get d.id = s.replicasDesired.get d.id := by
  obtain ⟨idx, hstate⟩ := h.get
  have hkept : d.id ∉ p.removes desired := by
    intro hmem
    exact of_decide_eq_true (mem_filter.1 hmem).2 (mem_map_of_mem hd)
  have hget := hstate d.id
  rw [if_neg hkept] at hget
  by_cases hup : ∃ v ∈ (p.upserts false desired).map (stamped idx), v.id = d.id
  · obtain ⟨v, hv, hlast⟩ := Store.exists_get_applyAll s.replicasDesired _ d.id hup
    have hid : v.id = d.id := Store.get_key hlast
    obtain ⟨u, hu, rfl⟩ := mem_map.1 hv
    obtain ⟨d', hd', rfl, -⟩ := mem_upserts p false desired u hu
    exact .inl ⟨idx, d', hd', hid, hu, hget.trans hlast⟩
  · refine .inr ⟨fun hmem => hup ⟨_, mem_map_of_mem hmem, rfl⟩, hget.trans ?_⟩
    exact Store.get_applyAll_of_notMem _ _ _ (fun v hv he => hup ⟨v, hv, he⟩)

theorem kept_or_upserted (himages : ∀ r ∈ p.current, r.image = p.image) (hd : d ∈ desired) :
    (∃ idx, ∃ d' ∈ desired, d'.id = d.id ∧ t.replicasDesired.get d.id = some (stamped idx (p.replica d'))) ∨
    ∃ r, Stands p d r ∧ r.specHash = p.specHash ∧ t.replicasDesired.get d.id = some r := by
  rcases get_wanted h hd with ⟨idx, d', hd', hid, -, hget⟩ | ⟨hnot, hget⟩
  · exact .inl ⟨idx, d', hd', hid, hget⟩
  · have hkept : ¬ Off p d := by
      intro hoff
      refine hnot (upsert_of_open p hoff (fun _ cur hfind _ himage => ?_) false hd)
      exact absurd (himages cur ((find_iff h).1 hfind).1) himage
    simp only [Off, not_forall, not_not] at hkept
    obtain ⟨r, hfind, hhost, -, hhash⟩ := hkept
    obtain ⟨hr, hid⟩ := (find_iff h).1 hfind
    refine .inr ⟨r, ⟨hfind, hhost⟩, hhash, hget.trans ?_⟩
    rw [← hid]
    exact ((h.current r).1 hr).1

theorem host_of_desired (hd : d ∈ desired) : d.host ∈ p.eligible := by
  obtain ⟨counts, hdesired⟩ := h.placed
  rw [desiredReplicas] at hdesired
  split at hdesired
  · cases hdesired
    obtain ⟨⟨x, i⟩, hx, rfl⟩ := mem_map.1 hd
    exact fst_mem_of_mem_zipIdx hx
  · obtain ⟨i, -, hok⟩ := exists_of_mem_mapM _ _ _ hdesired d hd
    cases hplace : placeReplica p.dep.name p.svc p.eligible i counts with
    | error e =>
      rw [hplace] at hok
      cases hok
    | ok host =>
      rw [hplace] at hok
      cases hok
      exact placeReplica_mem hplace

theorem hostFor_mem (hd : d ∈ desired) : p.hostFor d ∈ p.eligible := by
  rw [Pass.hostFor]
  cases hsticky : (p.find d).bind (fun cur => stickyExistingHost cur p.svc p.eligible) with
  | none => exact host_of_desired h hd
  | some host =>
    obtain ⟨cur, -, hcur⟩ := Option.bind_eq_some_iff.1 hsticky
    obtain ⟨rfl, -, hmem, -⟩ := sticky_eq_some hcur
    exact hmem

omit h in
theorem hostFor_cases (hfind : p.find d = some r) : p.hostFor d = r.host ∨ p.hostFor d = d.host ∧
    (r.host ∈ p.eligible → (p.svc.placement = .hosts → r.host ∈ p.svc.hosts) → r.host = "") := by
  rw [hostFor_of_find hfind]
  cases hsticky : stickyExistingHost r p.svc p.eligible with
  | some host =>
    obtain ⟨rfl, -⟩ := sticky_eq_some hsticky
    exact .inl rfl
  | none =>
    refine .inr ⟨rfl, fun hmem hpinned => ?_⟩
    by_contra hne
    rw [sticky_of_eligible hne hmem (imp_iff_not_or.1 hpinned)] at hsticky
    cases hsticky

theorem id_mem_wanted (hd : d ∈ desired) : d.id ∈ wantedIDs p.dep p.svc p.eligible := by
  obtain ⟨counts, hdesired⟩ := h.placed
  rw [← ids_of_desired hdesired]
  exact mem_map_of_mem hd

section Indexed

variable (hglobal : p.svc.placement ≠ .global)

include hglobal

theorem desired_index {i : Nat} (hi : i < p.svc.replicas.toNat) :
    ∃ d ∈ desired, d.id = replicaID p.dep.name p.svc.name i := by
  obtain ⟨counts, hdesired⟩ := h.placed
  have hids := ids_of_desired hdesired
  rw [wantedIDs, if_neg hglobal] at hids
  exact mem_map.1 (hids ▸ mem_map_of_mem (mem_range.2 hi))

theorem index_of_desired (hd : d ∈ desired) :
    ∃ i < p.svc.replicas.toNat, d.id = replicaID p.dep.name p.svc.name i ∧ d.index = i := by
  obtain ⟨counts, hdesired⟩ := h.placed
  exact index_of_mem_desired hdesired hglobal hd

theorem same_of_id {d' : DesiredReplica} (hd : d ∈ desired) (hd' : d' ∈ desired) (hid : d.id = d'.id) : d = d' := by
  obtain ⟨counts, hdesired⟩ := h.placed
  have hnodup : (desired.map (·.id)).Nodup := by
    rw [ids_of_desired hdesired, wantedIDs, if_neg hglobal]
    exact nodup_range.map (fun _ _ => replicaID_inj)
  exact inj_on_of_nodup_map hnodup hd hd' hid

end Indexed

section Global

variable (hglobal : p.svc.placement = .global)

include hglobal

theorem desired_host {host : String} (hhost : host ∈ p.eligible) :
    ∃ d ∈ desired, d.id = replicaIDForHost p.dep.name p.svc.name host ∧ d.host = host := by
  obtain ⟨counts, hdesired⟩ := h.placed
  rw [desiredReplicas, if_pos hglobal] at hdesired
  cases hdesired
  obtain ⟨i, hi⟩ := List.getElem?_of_mem hhost
  have hmem : (host, i) ∈ p.eligible.zipIdx := mem_zipIdx_iff_getElem?.2 hi
  exact ⟨⟨replicaIDForHost p.dep.name p.svc.name host, host, wrap32 i⟩, mem_map.2 ⟨(host, i), hmem, rfl⟩, rfl, rfl⟩

theorem id_of_global (hd : d ∈ desired) : d.id = replicaIDForHost p.dep.name p.svc.name d.host := by
  obtain ⟨counts, hdesired⟩ := h.placed
  rw [desiredReplicas, if_pos hglobal] at hdesired
  cases hdesired
  obtain ⟨x, -, rfl⟩ := mem_map.1 hd
  rfl

omit h in
theorem hostFor_of_regular (hregular : Regular p desired) (hd : d ∈ desired) : p.hostFor d = d.host := by
  rw [Pass.hostFor]
  cases hsticky : (p.find d).bind (fun cur => stickyExistingHost cur p.svc p.eligible) with
  | none => rfl
  | some host =>
    obtain ⟨cur, hfind, hcur⟩ := Option.bind_eq_some_iff.1 hsticky
    obtain ⟨rfl, -, hmem, -⟩ := sticky_eq_some hcur
    exact hregular.placed hglobal d hd cur hfind hmem

end Global

theorem belongs_of_find (hfind : p.find d = some r) : Belongs p.dep p.svc r :=
  ((h.current r).1 ((find_iff h).1 hfind).1).2

omit h in
theorem find_congr {d' : DesiredReplica} (hid : d'.id = d.id) : p.find d' = p.find d := by
  rw [Pass.find, Pass.find, hid]

section Regular

variable (himages : ∀ r ∈ p.current, r.image = p.image) (hregular : Regular p desired)

include himages hregular

theorem indexed_of_regular (hglobal : p.svc.placement ≠ .global) {i : Nat} (hi : i < p.svc.replicas.toNat) :
    ∃ r, Belongs p.dep p.svc r ∧ t.replicasDesired.get (replicaID p.dep.name p.svc.name i) = some r ∧ r.index = i := by
  obtain ⟨d, hd, hid⟩ := desired_index h hglobal hi
  have hindex : d.index = i := by
    obtain ⟨j, -, hj, hindex⟩ := index_of_desired h hglobal hd
    rw [hindex, replicaID_inj (hid.symm.trans hj)]
  rw [← hid]
  rcases kept_or_upserted h himages hd with ⟨idx, d', hd', hid', hget⟩ | ⟨r, hstands, hhash, hget⟩
  · cases same_of_id h hglobal hd' hd hid'
    exact ⟨_, ⟨rfl, rfl⟩, hget, hindex⟩
  · exact ⟨r, belongs_of_find h hstands.1, hget, (hregular.indexed hglobal d hd r hstands hhash).trans hindex⟩

theorem perHost_of_regular (hglobal : p.svc.placement = .global) {host : String} (hhost : host ∈ p.eligible) :
    ∃ r, Belongs p.dep p.svc r ∧ t.replicasDesired.get (replicaIDForHost p.dep.name p.svc.name host) = some r ∧
      r.host = host := by
  obtain ⟨d, hd, hid, rfl⟩ := desired_host h hglobal hhost
  rw [← hid]
  rcases kept_or_upserted h himages hd with ⟨idx, d', hd', hid', hget⟩ | ⟨r, hstands, -, hget⟩
  · refine ⟨_, ⟨rfl, rfl⟩, hget, ?_⟩
    exact (hostFor_of_regular hglobal hregular hd').trans (hregular.keyed hglobal d' hd' d hd hid')
  · exact ⟨r, belongs_of_find h hstands.1, hget, hstands.2.trans (hostFor_of_regular hglobal hregular hd)⟩

omit h himages in
theorem hostFor_of_admissible (hd : d ∈ desired) (hfind : p.find d = some r) (hmem : r.host ∈ p.eligible)
    (hpinned : p.svc.placement = .hosts → r.host ∈ p.svc.hosts) : p.hostFor d = r.host := by
  rcases hostFor_cases hfind with hsticky | ⟨hfresh, hnamed⟩
  · exact hsticky
  · have hempty := hnamed hmem hpinned
    by_cases hglobal : p.svc.placement = .global
    · rw [hfresh, hregular.placed hglobal d hd r hfind hmem]
    · rw [hempty] at hmem hpinned
      rw [hfresh, hempty, hregular.named hglobal d hd r hfind hempty hmem hpinned]

theorem stays_of_regular {r' : ReplicaDesired} (hr : r ∈ p.current) (hmem : r.host ∈ p.eligible)
    (hpinned : p.svc.placement = .hosts → r.host ∈ p.svc.hosts) (hget : t.replicasDesired.get r.id = some r')
    (hof : Belongs p.dep p.svc r') : r'.host = r.host := by
  have hrid : r'.id = r.id := Store.get_key hget
  obtain ⟨d, hd, hid⟩ := wanted_of_record h (hrid ▸ hget) hof
  have hfind : p.find d = some r := (find_iff h).2 ⟨hr, (hid.trans hrid).symm⟩
  rw [← hrid, ← hid] at hget
  rcases kept_or_upserted h himages hd with ⟨idx, d', hd', hid', hget'⟩ | ⟨r₀, hstands, -, hget'⟩
  · cases hget.symm.trans hget'
    exact hostFor_of_admissible hregular hd' ((find_congr hid').trans hfind) hmem hpinned
  · cases hget.symm.trans hget'
    cases hstands.1.symm.trans hfind
    rfl

theorem converged_of_regular : Converged p.dep p.svc p.image p.specHash s t where
  indexed hglobal i hi := indexed_of_regular h himages hregular hglobal hi
  perHost hglobal host hhost := perHost_of_regular h himages hregular hglobal (h.eligible ▸ hhost)
  only r hget hof := by
    obtain ⟨d, hd, hid⟩ := wanted_of_record h hget hof
    rw [← hid, ← h.eligible]
    exact id_mem_wanted h hd
  current r hget hof := by
    obtain ⟨d, hd, hid⟩ := wanted_of_record h hget hof
    rw [← hid] at hget
    rw [← h.eligible]
    rcases kept_or_upserted h himages hd with ⟨idx, d', hd', -, hget'⟩ | ⟨r₀, hstands, hhash, hget'⟩
    · cases hget.symm.trans hget'
      exact ⟨rfl, rfl, hostFor_mem h hd'⟩
    · cases hget.symm.trans hget'
      exact ⟨himages r ((find_iff h).1 hstands.1).1, hhash, hstands.2 ▸ hostFor_mem h hd⟩
  stays r r' hget hof hadmits hget' hof' :=
    stays_of_regular h himages hregular ((h.current r).2 ⟨hget, hof⟩) (h.eligible ▸ hadmits.1) hadmits.2 hget' hof'

end Regular

theorem get_scaled (hglobal : p.svc.placement ≠ .global) (hd : d ∈ desired) :
    p.replica d ∈ p.upserts false desired ∧ (∃ idx, t.replicasDesired.get d.id = some (stamped idx (p.replica d))) ∨
    p.replica d ∉ p.upserts false desired ∧ t.replicasDesired.get d.id = s.replicasDesired.get d.id := by
  rcases get_wanted h hd with ⟨idx, d', hd', hid, hup, hget⟩ | hkept
  · cases same_of_id h hglobal hd' hd hid
    exact .inl ⟨hup, idx, hget⟩
  · exact .inr hkept

theorem not_upserted (hglobal : p.svc.placement ≠ .global) (hd : d ∈ desired)
    (hmatch : ¬ Off p d) : p.replica d ∉ p.upserts false desired := by
  intro hup
  obtain ⟨d', hd', he, -, hoff⟩ := mem_upserts p false desired _ hup
  have hid : d.id = d'.id := congrArg ReplicaDesired.id he
  cases same_of_id h hglobal hd hd' hid
  exact hmatch hoff

variable (hconverged : Converged p.dep p.svc p.image p.specHash s t)

include hconverged

theorem index_of_converged (hglobal : p.svc.placement ≠ .global) (hd : d ∈ desired) :
    ∃ r, Belongs p.dep p.svc r ∧ t.replicasDesired.get d.id = some r ∧ r.index = d.index := by
  obtain ⟨i, hi, hid, hindex⟩ := index_of_desired h hglobal hd
  obtain ⟨r, hof, hget, hr⟩ := hconverged.indexed hglobal i hi
  exact ⟨r, hof, hid ▸ hget, hr.trans hindex.symm⟩

theorem host_of_converged (hglobal : p.svc.placement = .global) (hd : d ∈ desired) :
    ∃ r, Belongs p.dep p.svc r ∧ t.replicasDesired.get d.id = some r ∧ r.host = d.host := by
  rw [id_of_global h hglobal hd]
  exact hconverged.perHost hglobal d.host (h.eligible ▸ host_of_desired h hd)

theorem stays_of_converged {r' : ReplicaDesired} (hfind : p.find d = some r) (hmem : r.host ∈ p.eligible)
    (hpinned : p.svc.placement = .hosts → r.host ∈ p.svc.hosts) (hget : t.replicasDesired.get d.id = some r')
    (hof : Belongs p.dep p.svc r') : r'.host = r.host := by
  obtain ⟨hr, hid⟩ := (find_iff h).1 hfind
  obtain ⟨hrecord, hrof⟩ := (h.current r).1 hr
  exact hconverged.stays r r' hrecord hrof ⟨h.eligible ▸ hmem, hpinned⟩ (hid ▸ hget) hof

theorem regular_of_converged (himages : ∀ r ∈ p.current, r.image = p.image) : Regular p desired where
  indexed hglobal d hd r hstands hhash := by
    obtain ⟨hr, hid⟩ := (find_iff h).1 hstands.1
    have hkept := not_upserted h hglobal hd (fun hoff => hoff r hstands.1 ⟨hstands.2, himages r hr, hhash⟩)
    obtain ⟨r', -, hget, hindex⟩ := index_of_converged h hconverged hglobal hd
    rcases get_scaled h hglobal hd with ⟨hup, -⟩ | ⟨-, hsame⟩
    · exact absurd hup hkept
    · rw [hget, ← hid, ((h.current r).1 hr).1] at hsame
      cases hsame
      exact hindex
  named hglobal d hd r hfind hempty hmem hpinned := by
    by_contra hne
    have hfresh : p.hostFor d = d.host := by
      rcases hostFor_cases hfind with hsticky | ⟨hfresh, -⟩
      · rw [hostFor_of_find hfind, stickyExistingHost, if_pos hempty]
        rfl
      · exact hfresh
    have hdisplaced : ∀ cur, p.find d = some cur → cur.host ≠ p.hostFor d := by
      intro cur hcur hhost
      cases hfind.symm.trans hcur
      exact hne (hfresh.symm.trans (hhost.symm.trans hempty))
    rcases get_scaled h hglobal hd with ⟨-, idx, hget⟩ | ⟨hnot, -⟩
    · have hstays := stays_of_converged h hconverged hfind (hempty ▸ hmem) (hempty ▸ hpinned) hget ⟨rfl, rfl⟩
      exact hne (hfresh.symm.trans (hstays.trans hempty))
    · exact hnot (upsert_of_displaced p hdisplaced false hd)
  keyed hglobal d hd d' hd' hid := by
    obtain ⟨r, -, hget, hhost⟩ := host_of_converged h hconverged hglobal hd
    obtain ⟨r', -, hget', hhost'⟩ := host_of_converged h hconverged hglobal hd'
    rw [hid, hget'] at hget
    cases hget
    exact hhost.symm.trans hhost'
  placed hglobal d hd r hfind hmem := by
    obtain ⟨r', hof, hget, hhost⟩ := host_of_converged h hconverged hglobal hd
    have hpinned : p.svc.placement = .hosts → r.host ∈ p.svc.hosts := by
      intro hhosts
      rw [hglobal] at hhosts
      cases hhosts
    exact (stays_of_converged h hconverged hfind hmem hpinned hget hof).symm.trans hhost

omit hconverged in
theorem converged_iff (himages : ∀ r ∈ p.current, r.image = p.image) :
    Converged p.dep p.svc p.image p.specHash s t ↔ Regular p desired :=
  ⟨fun hconverged => regular_of_converged h hconverged himages, converged_of_regular h himages⟩

end Ran

end Jaco.Scheduler
