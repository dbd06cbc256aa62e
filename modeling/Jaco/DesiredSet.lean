import Jaco.PassFrames

namespace Jaco.Scheduler

open Placement List

theorem sortNames_perm {l l' : List String} (h : l.Perm l') : sortNames l = sortNames l' :=
  ((perm_insertionSort _ l).trans (h.trans (perm_insertionSort _ l').symm)).eq_of_sortedLE
    sortedLE_insertionSort sortedLE_insertionSort

theorem mem_sortNames {l : List String} {x : String} : x ∈ sortNames l ↔ x ∈ l :=
  (perm_insertionSort _ l).mem_iff

variable {nodes : List Node} {p : Pass} {d : DesiredReplica}

theorem eligibleHosts_perm (svc : ServiceSpec) {nodes' : List Node} (h : nodes.Perm nodes') :
    eligibleHosts svc nodes = eligibleHosts svc nodes' := by
  have hready := (h.filter (·.status = .ready)).map (·.hostname)
  unfold eligibleHosts
  dsimp only
  split
  · exact sortNames_perm (hready.filter _)
  · exact sortNames_perm hready

theorem mem_eligibleHosts {svc : ServiceSpec} {host : String} :
    host ∈ eligibleHosts svc nodes ↔ (∃ n ∈ nodes, n.status = .ready ∧ n.hostname = host) ∧
      (svc.placement = .hosts → svc.hosts ≠ [] → host ∈ svc.hosts) := by
  have hready : host ∈ (nodes.filter (·.status = .ready)).map (·.hostname) ↔
      ∃ n ∈ nodes, n.status = .ready ∧ n.hostname = host := by
    simp [and_assoc]
  unfold eligibleHosts
  dsimp only
  rw [mem_sortNames]
  split
  · rename_i h
    have h : svc.placement = .hosts ∧ svc.hosts ≠ [] := by simpa using h
    rw [mem_filter, hready, decide_eq_true_iff]
    exact ⟨fun hmem => ⟨hmem.1, fun _ _ => hmem.2⟩, fun hmem => ⟨hmem.1, hmem.2 h.1 h.2⟩⟩
  · rename_i h
    rw [hready]
    refine ⟨fun hmem => ⟨hmem, fun hpinned hhosts => absurd ?_ h⟩, And.left⟩
    simpa using ⟨hpinned, hhosts⟩

theorem hostname_of_eligible {svc : ServiceSpec} {host : String}
    (h : host ∈ eligibleHosts svc nodes) : ∃ n ∈ nodes, n.hostname = host := by
  obtain ⟨n, hn, -, hname⟩ := (mem_eligibleHosts.1 h).1
  exact ⟨n, hn, hname⟩

def wantedIDs (dep : Deployment) (svc : ServiceSpec) (eligible : List String) : List String :=
  if svc.placement = .global then eligible.map (replicaIDForHost dep.name svc.name)
  else (List.range svc.replicas.toNat).map (replicaID dep.name svc.name)

def Placeable (svc : ServiceSpec) (eligible : List String) : Prop :=
  svc.placement = .global ∨ svc.replicas ≤ 0 ∨
    eligible ≠ [] ∧ (svc.placement = .hosts → svc.replicas ≤ eligible.length)

instance (svc : ServiceSpec) (eligible : List String) : Decidable (Placeable svc eligible) :=
  inferInstanceAs (Decidable (_ ∨ _ ∨ _ ∧ (_ → _)))

section Service

variable {dep : Deployment} {svc : ServiceSpec} {eligible : List String}

theorem placeReplica_ok (deployment : String) (hne : eligible ≠ [])
    (hhosts : svc.placement = .hosts → svc.replicas ≤ eligible.length) (i : Int) (counts : String → Nat) :
    ∃ host, placeReplica deployment svc eligible i counts = .ok host := by
  have hlen : (sortNames eligible).length = eligible.length := (perm_insertionSort _ eligible).length_eq
  unfold placeReplica
  rw [if_neg hne]
  dsimp only
  split
  · rename_i hplace
    rw [if_neg (by have := hhosts hplace; omega)]
    exact ⟨_, rfl⟩
  · exact ⟨_, rfl⟩
  · exact ⟨_, rfl⟩

theorem desiredReplicas_ok (h : Placeable svc eligible) (counts : String → Nat) :
    ∃ desired, desiredReplicas dep svc eligible counts = .ok desired ∧
      desired.map (·.id) = wantedIDs dep svc eligible := by
  unfold desiredReplicas wantedIDs
  by_cases hglobal : svc.placement = .global
  · rw [if_pos hglobal, if_pos hglobal]
    refine ⟨_, rfl, ?_⟩
    rw [map_map]
    change eligible.zipIdx.map (replicaIDForHost dep.name svc.name ∘ Prod.fst) = _
    rw [← map_map, zipIdx_map_fst]
  · rw [if_neg hglobal, if_neg hglobal]
    refine mapM_ok (fun i hi => ?_)
    have hpos : 0 < svc.replicas.toNat := Nat.zero_lt_of_lt (mem_range.1 hi)
    rcases h with h | h | ⟨hne, hhosts⟩
    · exact absurd h hglobal
    · omega
    · obtain ⟨host, hhost⟩ : ∃ host, placeReplica dep.name svc eligible i counts = .ok host :=
        placeReplica_ok dep.name hne hhosts i counts
      exact ⟨_, by rw [hhost]; rfl, rfl⟩

theorem desiredReplicas_counts (h : svc.placement ≠ .pack) (counts counts' : String → Nat) :
    desiredReplicas dep svc eligible counts = desiredReplicas dep svc eligible counts' := by
  have hplace : ∀ i, placeReplica dep.name svc eligible i counts = placeReplica dep.name svc eligible i counts' := by
    intro i
    unfold placeReplica
    dsimp only
    split
    · rfl
    · split
      · rfl
      · rename_i hpack
        exact absurd hpack h
      · rfl
  unfold desiredReplicas
  simp only [hplace]

theorem host_of_pack {counts : String → Nat} {desired : List DesiredReplica} (hpack : svc.placement = .pack)
    (h : desiredReplicas dep svc eligible counts = .ok desired) {d : DesiredReplica} (hd : d ∈ desired) :
    d.host ∈ eligible := by
  have hglobal : svc.placement ≠ .global := by
    rw [hpack]
    decide
  rw [desiredReplicas, if_neg hglobal] at h
  obtain ⟨i, -, he⟩ := exists_of_mem_mapM _ _ _ h d hd
  unfold placeReplica at he
  split at he
  · cases he
  · rename_i hne
    rw [hpack] at he
    cases he
    have hsort : sortNames eligible ≠ [] := by
      intro hnil
      exact hne (eq_nil_iff_forall_not_mem.2 (fun x hx => not_mem_nil (hnil ▸ mem_sortNames.2 hx)))
    exact mem_sortNames.1 (pickPackHost_mem hsort counts)

theorem sticky_of_eligible {r : ReplicaDesired} (hne : r.host ≠ "") (hmem : r.host ∈ eligible)
    (hhosts : svc.placement ≠ .hosts ∨ r.host ∈ svc.hosts) : stickyExistingHost r svc eligible = some r.host := by
  rw [stickyExistingHost, if_neg hne, if_neg (not_not.2 hmem), if_neg]
  simpa [imp_iff_not_or] using hhosts

theorem sticky_eq_some {r : ReplicaDesired} {host : String} (h : stickyExistingHost r svc eligible = some host) :
    host = r.host ∧ r.host ≠ "" ∧ r.host ∈ eligible ∧ (svc.placement ≠ .hosts ∨ r.host ∈ svc.hosts) := by
  unfold stickyExistingHost at h
  split at h
  · cases h
  · rename_i hne
    split at h
    · cases h
    · rename_i hmem
      split at h
      · cases h
      · rename_i hhosts
        cases h
        exact ⟨rfl, hne, not_not.1 hmem, by simpa [imp_iff_not_or] using hhosts⟩

variable (dep svc eligible)

structure Fits (image : String) (specHash : Bytes) (r : ReplicaDesired) : Prop where
  image : r.image = image
  specHash : r.specHash = specHash
  host : ∀ counts desired, desiredReplicas dep svc eligible counts = .ok desired → ∀ d ∈ desired, d.id = r.id →
    r.host = (stickyExistingHost r svc eligible).getD d.host

end Service

theorem hostFor_of_find {cur : ReplicaDesired} (h : p.find d = some cur) :
    p.hostFor d = (stickyExistingHost cur p.svc p.eligible).getD d.host := by
  rw [Pass.hostFor, h, Option.bind_some]

theorem not_off_of_fits {counts : String → Nat} {desired : List DesiredReplica}
    (hdesired : desiredReplicas p.dep p.svc p.eligible counts = .ok desired) (hd : d ∈ desired)
    {cur : ReplicaDesired} (hfind : p.find d = some cur)
    (hfits : Fits p.dep p.svc p.eligible p.image p.specHash cur) : ¬ Off p d := by
  intro hoff
  have hid : d.id = cur.id := by
    rw [Pass.find] at hfind
    simpa [eq_comm] using List.find?_some hfind
  refine hoff cur hfind ⟨?_, hfits.image, hfits.specHash⟩
  rw [hostFor_of_find hfind]
  exact hfits.host counts desired hdesired d hd hid

theorem fits_replica (hnodup : (wantedIDs p.dep p.svc p.eligible).Nodup) (hnamed : "" ∉ p.eligible)
    {counts : String → Nat} {desired : List DesiredReplica}
    (hdesired : desiredReplicas p.dep p.svc p.eligible counts = .ok desired)
    (hids : desired.map (·.id) = wantedIDs p.dep p.svc p.eligible) (hd : d ∈ desired) :
    Fits p.dep p.svc p.eligible p.image p.specHash (p.replica d) := by
  refine ⟨rfl, rfl, fun counts' desired' hdesired' d' hd' hid => ?_⟩
  change p.hostFor d = (stickyExistingHost (p.replica d) p.svc p.eligible).getD d'.host
  have hsticky : ∀ host, stickyExistingHost (p.replica d) p.svc p.eligible = some host → host = p.hostFor d :=
    fun host h => (sticky_eq_some h).1
  have hstays (hne : p.hostFor d ≠ "") (hmem : p.hostFor d ∈ p.eligible)
      (hpinned : p.svc.placement ≠ .hosts ∨ p.hostFor d ∈ p.svc.hosts) :
      p.hostFor d = (stickyExistingHost (p.replica d) p.svc p.eligible).getD d'.host := by
    rw [sticky_of_eligible (r := p.replica d) hne hmem hpinned]
    rfl
  cases hcur : (p.find d).bind (fun cur => stickyExistingHost cur p.svc p.eligible) with
  | some host =>
    have hhost : p.hostFor d = host := by rw [Pass.hostFor, hcur, Option.getD_some]
    obtain ⟨cur, -, hcur⟩ := Option.bind_eq_some_iff.1 hcur
    obtain ⟨rfl, hne, hmem, hpinned⟩ := sticky_eq_some hcur
    exact hstays (hhost ▸ hne) (hhost ▸ hmem) (hhost ▸ hpinned)
  | none =>
    have hhost : p.hostFor d = d.host := by rw [Pass.hostFor, hcur, Option.getD_none]
    by_cases hpack : p.svc.placement = .pack
    · -- the emptiest host changes from pass to pass, but any host already taken is kept
      have hmem := host_of_pack hpack hdesired hd
      have hne : d.host ≠ "" := fun h => hnamed (h ▸ hmem)
      exact hstays (hhost ▸ hne) (hhost ▸ hmem) (.inl (by rw [hpack]; decide))
    · rw [desiredReplicas_counts hpack counts' counts, hdesired] at hdesired'
      cases hdesired'
      have hsame : d' = d := inj_on_of_nodup_map (hids ▸ hnodup) hd' hd hid
      rw [hsame, hhost]
      cases hstays : stickyExistingHost (p.replica d) p.svc p.eligible with
      | none => rfl
      | some host => exact (hhost.symm.trans (hsticky host hstays).symm)

end Jaco.Scheduler
