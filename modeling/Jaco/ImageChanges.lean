import Jaco.ServiceOutcome

namespace Jaco.Scheduler

open Interleaving Placement Store List

variable {p : Pass} {desired : List DesiredReplica} {s t : State}

def Outdated (p : Pass) (d : DesiredReplica) (r : ReplicaDesired) : Prop := Stands p d r ∧ r.image ≠ p.image

theorem outdated_congr {d d' : DesiredReplica} {r : ReplicaDesired} (he : p.replica d = p.replica d')
    (h : Outdated p d r) : Outdated p d' r := by
  have hid : d.id = d'.id := congrArg ReplicaDesired.id he
  have hhost : p.hostFor d = p.hostFor d' := congrArg ReplicaDesired.host he
  exact ⟨⟨(find_congr hid).symm.trans h.1.1, h.1.2.trans hhost⟩, h.2⟩

theorem upserts_once (hroll : p.rolling = true) (hstep : p.rolloutStep < 0) {d₁ d₂ : DesiredReplica}
    {r₁ r₂ : ReplicaDesired} (h₁ : Outdated p d₁ r₁) (h₂ : Outdated p d₂ r₂) (changed : Bool)
    (hup₁ : p.replica d₁ ∈ p.upserts changed desired) (hup₂ : p.replica d₂ ∈ p.upserts changed desired) :
    r₁ = r₂ ∧ changed = false := by
  induction desired generalizing changed d₁ d₂ r₁ r₂ with
  | nil => cases hup₁
  | cons d ds ih =>
    have hskip : (∀ r, ¬ Outdated p d r) → p.replica d₁ ∈ p.replica d :: p.upserts changed ds →
        p.replica d₂ ∈ p.replica d :: p.upserts changed ds → r₁ = r₂ ∧ changed = false := by
      intro hnone hmem₁ hmem₂
      refine ih h₁ h₂ changed ?_ ?_
      · exact (mem_cons.1 hmem₁).resolve_left (fun he => hnone r₁ (outdated_congr he h₁))
      · exact (mem_cons.1 hmem₂).resolve_left (fun he => hnone r₂ (outdated_congr he h₂))
    rw [Pass.upserts] at hup₁ hup₂
    cases hfind : p.find d with
    | none =>
      rw [hfind] at hup₁ hup₂
      refine hskip (fun r hr => ?_) hup₁ hup₂
      cases hfind.symm.trans hr.1.1
    | some cur =>
      rw [hfind] at hup₁ hup₂
      dsimp only at hup₁ hup₂
      split at hup₁
      · rename_i hsame
        rw [if_pos hsame] at hup₂
        exact ih h₁ h₂ changed hup₁ hup₂
      · rename_i hdrift
        rw [if_neg hdrift] at hup₂
        by_cases hplace : p.rolling = true ∧ cur.host = p.hostFor d ∧ cur.image ≠ p.image
        · rw [if_pos hplace, if_neg (by omega)] at hup₁ hup₂
          cases changed with
          | true => exact ih h₁ h₂ true hup₁ hup₂
          | false =>
            -- after this change the rest of the pass holds every other image back
            have hhead : ∀ {d' r'}, Outdated p d' r' → p.replica d' ∈ p.replica d :: p.upserts true ds → r' = cur := by
              intro d' r' h' hmem
              rcases mem_cons.1 hmem with he | hlater
              · exact Option.some.inj ((outdated_congr he h').1.1.symm.trans hfind)
              · exact absurd (ih h' h' true hlater hlater).2 (by decide)
            exact ⟨(hhead h₁ hup₁).trans (hhead h₂ hup₂).symm, rfl⟩
        · rw [if_neg hplace] at hup₁ hup₂
          refine hskip (fun r hr => hplace ?_) hup₁ hup₂
          cases hfind.symm.trans hr.1.1
          exact ⟨hroll, hr.1.2, hr.2⟩

theorem sanitizeHost_empty {host : String} (h : sanitizeHost host = sanitizeHost "") : host = "" := by
  have hlist := congrArg String.toList h
  simp only [sanitizeHost, String.toList_ofList] at hlist
  exact String.toList_inj.1 (map_eq_nil_iff.1 hlist)

theorem hostFor_congr (h : Ran p desired s t) {d d' : DesiredReplica} {r : ReplicaDesired} (hd : d ∈ desired)
    (hd' : d' ∈ desired) (hid : d'.id = d.id) (hstands : Stands p d r) : p.hostFor d' = r.host := by
  by_cases hglobal : p.svc.placement = .global
  · rcases hostFor_cases ((find_congr hid).trans hstands.1) with hsticky | ⟨hfresh', hnamed⟩
    · exact hsticky
    · have hmem : r.host ∈ p.eligible := hstands.2 ▸ hostFor_mem h hd
      have hempty : r.host = "" := hnamed hmem (fun hhosts => by rw [hglobal] at hhosts; cases hhosts)
      have hfresh : p.hostFor d = d.host := by
        rw [hostFor_of_find hstands.1, stickyExistingHost, if_pos hempty]
        rfl
      rw [id_of_global h hglobal hd', id_of_global h hglobal hd, ← hfresh, ← hstands.2, hempty] at hid
      have hlabels := congrArg String.toList hid
      simp only [replicaIDForHost, String.toList_append, append_cancel_left_eq] at hlabels
      rw [hfresh', hempty, sanitizeHost_empty (String.toList_inj.1 hlabels)]
  · cases same_of_id h hglobal hd' hd hid
    exact hstands.2.symm

theorem changed_of_upserted (h : Ran p desired s t) {d : DesiredReplica} {r : ReplicaDesired} (hd : d ∈ desired)
    (hout : Outdated p d r) (hup : p.replica d ∈ p.upserts false desired) : ChangedInPlace p.dep p.svc s t r := by
  obtain ⟨hr, hid⟩ := (find_iff h).1 hout.1.1
  obtain ⟨hrecord, hof⟩ := (h.current r).1 hr
  refine ⟨hrecord, hof, ?_⟩
  rw [hid]
  rcases get_wanted h hd with ⟨idx, d', hd', hid', -, hget⟩ | ⟨hnot, -⟩
  · exact ⟨_, hget, ⟨rfl, rfl⟩, hostFor_congr h hd hd' hid' hout.1, hout.2.symm⟩
  · exact absurd hup hnot

theorem upserted_of_changed (h : Ran p desired s t) {r : ReplicaDesired} (hchanged : ChangedInPlace p.dep p.svc s t r) :
    ∃ d ∈ desired, Outdated p d r ∧ Gates p d ∧ p.replica d ∈ p.upserts false desired := by
  obtain ⟨hrecord, hof, r', hget, hof', hhost, himage⟩ := hchanged
  have hrid : r'.id = r.id := get_key hget
  obtain ⟨d, hd, hid⟩ := wanted_of_record h (hrid ▸ hget) hof'
  have hdr : d.id = r.id := hid.trans hrid
  have hfind : p.find d = some r := (find_iff h).2 ⟨(h.current r).2 ⟨hrecord, hof⟩, hdr.symm⟩
  rw [← hdr] at hget hrecord
  rcases get_wanted h hd with ⟨idx, d', hd', hid', hup, hget'⟩ | ⟨-, hsame⟩
  · cases hget.symm.trans hget'
    have hout : Outdated p d' r := ⟨⟨(find_congr hid').trans hfind, hhost.symm⟩, himage.symm⟩
    obtain ⟨e, he, heq, hgate, -⟩ := mem_upserts p false desired _ hup
    exact ⟨e, he, outdated_congr heq hout, hgate, heq ▸ hup⟩
  · cases hget.symm.trans (hsame.trans hrecord)
    exact absurd rfl himage

theorem wrap32_inj {i j : Nat} (hi : i < 2 ^ 32) (hj : j < 2 ^ 32) (h : wrap32 i = wrap32 j) : i = j := by
  have hmod := congrArg (· % ((2 ^ 32 : Nat) : Int)) h
  simp only [wrap32, Int.bmod_emod] at hmod
  omega

theorem id_of_index (h : Ran p desired s t) (hfew : p.svc.placement = .global → p.eligible.length ≤ 2 ^ 32)
    {d₁ d₂ : DesiredReplica} (hd₁ : d₁ ∈ desired) (hd₂ : d₂ ∈ desired) (hindex : d₁.index = d₂.index) :
    d₁.id = d₂.id := by
  by_cases hglobal : p.svc.placement = .global
  · obtain ⟨counts, hdesired⟩ := h.placed
    rw [desiredReplicas, if_pos hglobal] at hdesired
    cases hdesired
    obtain ⟨⟨host₁, i₁⟩, hx₁, rfl⟩ := mem_map.1 hd₁
    obtain ⟨⟨host₂, i₂⟩, hx₂, rfl⟩ := mem_map.1 hd₂
    rw [mem_zipIdx_iff_getElem?] at hx₁ hx₂
    have hbound : ∀ {i : Nat} {host : String}, p.eligible[i]? = some host → i < 2 ^ 32 := fun hx =>
      lt_of_lt_of_le (List.getElem?_eq_some_iff.1 hx).1 (hfew hglobal)
    dsimp only at hindex
    cases wrap32_inj (hbound hx₁) (hbound hx₂) hindex
    cases hx₁.symm.trans hx₂
    rfl
  · obtain ⟨i, -, hid₁, hi⟩ := index_of_desired h hglobal hd₁
    obtain ⟨j, -, hid₂, hj⟩ := index_of_desired h hglobal hd₂
    rw [hid₁, hid₂, Int.ofNat_inj.1 (hi.symm.trans (hindex.trans hj))]

theorem gradual_iff (h : Ran p desired s t) (hfew : p.svc.placement = .global → p.eligible.length ≤ 2 ^ 32) :
    (∀ r₁ r₂, ChangedInPlace p.dep p.svc s t r₁ → ChangedInPlace p.dep p.svc s t r₂ → r₁ = r₂) ↔ Gradual p desired := by
  constructor
  · intro hone hstill d₁ hd₁ d₂ hd₂ r₁ r₂ hstands₁ hstands₂ himage₁ himage₂
    have hup : ∀ d ∈ desired, ∀ r, Outdated p d r → p.replica d ∈ p.upserts false desired := by
      intro d hd r hout
      refine upsert_of_open p (fun cur hcur hmatch => ?_) (fun hroll => ?_) false hd
      · cases hout.1.1.symm.trans hcur
        exact hout.2 hmatch.2.1
      · rw [hstill] at hroll
        cases hroll
    exact hone r₁ r₂ (changed_of_upserted h hd₁ ⟨hstands₁, himage₁⟩ (hup d₁ hd₁ r₁ ⟨hstands₁, himage₁⟩))
      (changed_of_upserted h hd₂ ⟨hstands₂, himage₂⟩ (hup d₂ hd₂ r₂ ⟨hstands₂, himage₂⟩))
  · intro hgradual r₁ r₂ hchanged₁ hchanged₂
    obtain ⟨d₁, hd₁, hout₁, hgate₁, hup₁⟩ := upserted_of_changed h hchanged₁
    obtain ⟨d₂, hd₂, hout₂, hgate₂, hup₂⟩ := upserted_of_changed h hchanged₂
    cases hroll : p.rolling with
    | false => exact hgradual hroll d₁ hd₁ d₂ hd₂ r₁ r₂ hout₁.1 hout₂.1 hout₁.2 hout₂.2
    | true =>
      by_cases hstep : p.rolloutStep < 0
      · exact (upserts_once hroll hstep hout₁ hout₂ false hup₁ hup₂).1
      · -- both are the replica of the step
        have hindex₁ := hgate₁ hroll (not_lt.1 hstep) r₁ hout₁.1.1 hout₁.1.2 hout₁.2
        have hindex₂ := hgate₂ hroll (not_lt.1 hstep) r₂ hout₂.1.1 hout₂.1.2 hout₂.2
        have hid := id_of_index h hfew hd₁ hd₂ (hindex₁.trans hindex₂.symm)
        exact Option.some.inj (hout₁.1.1.symm.trans ((find_congr hid).trans hout₂.1.1))

theorem ran_passOf (dep : Deployment) (svc : ServiceSpec) (project : Project) (specHash : Bytes) (w : World)
    (himage : lookupImage project svc.name ≠ "")
    (hdesired : desiredReplicas dep svc (hostsIn w.state svc) (countsOf dep svc w) = .ok desired) :
    Ran (passOf dep svc project specHash w) desired w.state (serviced dep svc project specHash w).state where
  current r := mem_currentOf dep svc w r
  eligible := rfl
  placed := ⟨countsOf dep svc w, hdesired⟩
  get := get_serviced dep svc project specHash w himage hdesired

theorem service_pass_exact_iff (dep : Deployment) (svc : ServiceSpec) (project : Project) (specHash : Bytes) (w : World)
    (himage : lookupImage project svc.name ≠ "")
    (hfew : svc.placement = .global → (hostsIn w.state svc).length ≤ 2 ^ 32) (desired : List DesiredReplica)
    (hdesired : desiredReplicas dep svc (hostsIn w.state svc) (countsOf dep svc w) = .ok desired) :
    ServicePassExact dep svc (lookupImage project svc.name) specHash w.state
    (serviced dep svc project specHash w).state ↔
      ((∀ r ∈ currentOf dep svc w, r.image = lookupImage project svc.name) →
        Regular (passOf dep svc project specHash w) desired) ∧
      Gradual (passOf dep svc project specHash w) desired := by
  have hran := ran_passOf dep svc project specHash w himage hdesired
  have himages : (∀ r, w.state.replicasDesired.get r.id = some r → Belongs dep svc r →
      r.image = lookupImage project svc.name) ↔ ∀ r ∈ currentOf dep svc w, r.image = lookupImage project svc.name := by
    constructor
    · intro hall r hr
      obtain ⟨hget, hof⟩ := (hran.current r).1 hr
      exact hall r hget hof
    · intro hall r hget hof
      exact hall r ((hran.current r).2 ⟨hget, hof⟩)
  constructor
  · rintro ⟨hconverged, hgradual⟩
    exact ⟨fun hall => (converged_iff hran hall).1 (hconverged (himages.2 hall)), (gradual_iff hran hfew).1 hgradual⟩
  · rintro ⟨hregular, hgradual⟩
    refine ⟨fun hall => ?_, (gradual_iff hran hfew).2 hgradual⟩
    exact (converged_iff hran (himages.1 hall)).2 (hregular (himages.1 hall))

namespace PerNode

def service : ServiceSpec := { name := "agent", replicas := 0, placement := .global }

def shop : Deployment where
  name := "shop"
  appliedRevision := 1
  status := .pending
  services := [service]

def project : Project := ⟨[{ name := "agent", image := "agent:2" }], nodup_singleton _⟩

def node (hostname : String) : Node := { hostname := hostname, address := hostname, status := .ready }

def onNodeOne : ReplicaDesired where
  id := "shop-agent-node-1"
  deployment := "shop"
  service := "agent"
  index := 0
  host := "node-1"
  image := "agent:1"
  specHash := []

def world (second : String) (records : Store ReplicaDesired ReplicaDesired.id) : World where
  state :=
    { State.new with
      nodes := (empty.apply (node "node-1")).apply (node second)
      deployments := empty.apply shop
      replicasDesired := records }
  index := 3
  now := 0

end PerNode

open PerNode in
theorem second_node_served : ServicePassExact shop service "agent:2" [] (world "node-2" (empty.apply onNodeOne)).state
      (serviced shop service project [] (world "node-2" (empty.apply onNodeOne))).state := by
  refine (service_pass_exact_iff shop service project [] (world "node-2" (empty.apply onNodeOne)) (by decide)
    (by decide +kernel) [⟨"shop-agent-node-1", "node-1", 0⟩, ⟨"shop-agent-node-2", "node-2", 1⟩]
      (by decide +kernel)).2 ⟨?_, ?_⟩
  · intro himages
    exact absurd (himages onNodeOne (by decide +kernel)) (by decide)
  · have hcurrent : currentOf shop service (world "node-2" (empty.apply onNodeOne)) = [onNodeOne] := by decide +kernel
    intro _ d₁ hd₁ d₂ hd₂ r₁ r₂ h₁ h₂ himage₁ himage₂
    have hone : ∀ {d r}, Stands (passOf shop service project [] (world "node-2" (empty.apply onNodeOne))) d r →
        r = onNodeOne := by
      intro d r hstands
      have hmem := mem_of_find?_eq_some hstands.1
      rw [passOf, hcurrent] at hmem
      exact mem_singleton.1 hmem
    rw [hone h₁, hone h₂]

open PerNode in
theorem nodes_share_a_record : hostsIn (world "node:1" empty).state service = ["node-1", "node:1"] ∧
      (serviced shop service project [] (world "node:1" empty)).state.replicasDesired.list.map (·.host) = ["node:1"] ∧
      ¬ ServicePassExact shop service "agent:2" [] (world "node:1" empty).state
        (serviced shop service project [] (world "node:1" empty)).state := by
  have hhosts : hostsIn (world "node:1" empty).state service = ["node-1", "node:1"] := by decide +kernel
  refine ⟨hhosts, by decide +kernel, fun h => ?_⟩
  have hconverged := h.converged (by rintro r ⟨⟩)
  obtain ⟨r, -, hget, hr⟩ := hconverged.perHost rfl "node-1" (by rw [hhosts]; decide)
  obtain ⟨r', -, hget', hr'⟩ := hconverged.perHost rfl "node:1" (by rw [hhosts]; decide)
  have hid : replicaIDForHost "shop" "agent" "node-1" = replicaIDForHost "shop" "agent" "node:1" := by decide
  cases (hget.symm.trans (congrArg _ hid)).trans hget'
  exact absurd (hr.symm.trans hr') (by decide)

end Jaco.Scheduler
