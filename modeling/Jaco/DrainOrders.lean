import Jaco.DrainPlans
import Jaco.Grouping

namespace Jaco.Relocation

open Placement Scheduler List

section Orders

variable {s : State} (hostname : String) (nodes : s.nodes.Listing) (replicas : s.replicasDesired.Listing)
  (deployments : s.deployments.Listing)

def planned : Except String (List Migration) := plan hostname nodes.items replicas.items deployments.items

def service (r : ReplicaDesired) : String × String := (r.deployment, r.service)

def services : List (String × String) := (replicas.items.map service).dedup

def planOf (k : String × String) : Except String (List Migration) :=
  planService hostname (nodes.items.filter (·.hostname ≠ hostname)) deployments.items replicas.items k

theorem eligible_refuge (spec : ServiceSpec) :
    eligibleHosts spec (nodes.items.filter (·.hostname ≠ hostname)) = refuge s hostname spec :=
  eligibleHosts_perm spec (nodes.perm.filter _)

theorem specOf_items (deployment name : String) : specOf deployments.items deployment name =
    (s.deployments.get deployment).bind (fun d => d.services.find? (·.name = name)) :=
  congrArg (Option.bind · _) (Store.find?_of_perm deployments.perm deployment)

variable {r : ReplicaDesired} {spec : ServiceSpec} {ms : List Migration} {k : String × String}

theorem leaves_iff : Leaves s hostname r spec ↔ r ∈ replicas.items ∧ Evicted hostname deployments.items r spec := by
  rw [Leaves, Evicted, specOf_items, replicas.mem_items]

theorem mem_services (hr : r ∈ replicas.items) : service r ∈ services replicas :=
  mem_dedup.2 (mem_map_of_mem hr)

theorem planned_eq (hname : hostname ≠ "") : planned hostname nodes replicas deployments =
    ((services replicas).mapM (planOf hostname nodes replicas deployments)).map List.flatten := by
  rw [planned, plan, if_neg hname]
  rfl

variable {hostname nodes replicas deployments}

theorem planned_ok (h : planned hostname nodes replicas deployments = .ok ms) :
    hostname ≠ "" ∧ ∃ groups, (services replicas).mapM (planOf hostname nodes replicas deployments) =
      .ok groups ∧ ms = groups.flatten :=
  plan_ok h

theorem planOf_declared (hspec : specOf deployments.items k.1 k.2 = some spec) (hglobal : spec.placement ≠ .global) :
    planOf hostname nodes replicas deployments k =
      placeAll hostname k.1 spec (refuge s hostname spec)
        (fun h => (replicas.items.filter (fun r => r.deployment = k.1 && r.service = k.2)).countP
          (fun r => r.host ≠ hostname && r.host = h))
        ((replicas.items.filter (fun r => r.deployment = k.1 && r.service = k.2)).filter (·.host = hostname)) := by
  rw [planOf, planService, hspec]
  dsimp only
  rw [if_neg hglobal, eligible_refuge]

theorem planOf_undeclared {result : Except String (List Migration)}
    (h : planOf hostname nodes replicas deployments k = result) (hresult : result ≠ .ok []) :
    ∃ spec, specOf deployments.items k.1 k.2 = some spec ∧ spec.placement ≠ .global := by
  rw [planOf, planService] at h
  cases hspec : specOf deployments.items k.1 k.2 with
  | none =>
    rw [hspec] at h
    exact absurd h.symm hresult
  | some spec =>
    refine ⟨spec, rfl, fun hglobal => ?_⟩
    rw [hspec] at h
    dsimp only at h
    rw [if_pos hglobal] at h
    exact absurd h.symm hresult

theorem leaves_of_group (hspec : specOf deployments.items k.1 k.2 = some spec) (hglobal : spec.placement ≠ .global)
    (hr : r ∈ (replicas.items.filter (fun r => r.deployment = k.1 && r.service = k.2)).filter (·.host = hostname)) :
    Leaves s hostname r spec := by
  simp only [mem_filter, Bool.and_eq_true, decide_eq_true_eq] at hr
  refine (leaves_iff hostname replicas deployments).2 ⟨hr.1.1, hr.2, ?_, hglobal⟩
  rw [hr.1.2.1, hr.1.2.2]
  exact hspec

theorem mem_group (hr : r ∈ replicas.items) (hhost : r.host = hostname) :
    r ∈ (replicas.items.filter (fun x => x.deployment = (service r).1 && x.service = (service r).2)).filter
      (·.host = hostname) := by
  simp [service, hr, hhost]

theorem cause_of_error (hname : hostname ≠ "") {e : String}
    (h : planned hostname nodes replicas deployments = .error e) :
    (∃ r spec, Leaves s hostname r spec ∧ outOfRange spec (refuge s hostname spec) r.index = true) ∨
      ¬ Panicked e ∧ Stuck s hostname := by
  rw [planned_eq _ _ _ _ hname] at h
  cases hgroups : (services replicas).mapM (planOf hostname nodes replicas deployments) with
  | ok groups =>
    rw [hgroups] at h
    cases h
  | error e' =>
    rw [hgroups] at h
    cases h
    obtain ⟨k, -, hk⟩ := error_of_mapM hgroups
    obtain ⟨spec, hspec, hglobal⟩ := planOf_undeclared hk (fun h => by cases h)
    rw [planOf_declared hspec hglobal] at hk
    obtain ⟨r, hr, hrange | ⟨hpanic, hfew⟩⟩ := placeAll_error hk
    · exact .inl ⟨r, spec, leaves_of_group hspec hglobal hr, hrange⟩
    · exact .inr ⟨hpanic, r, spec, leaves_of_group hspec hglobal hr, hfew⟩

theorem not_stuck_of_ok (h : planned hostname nodes replicas deployments = .ok ms) : ¬ Stuck s hostname := by
  rintro ⟨r, spec, hleaves, hfew⟩
  obtain ⟨hr, hhost, hspec, hglobal⟩ := (leaves_iff hostname replicas deployments).1 hleaves
  obtain ⟨hname, groups, hgroups, -⟩ := planned_ok h
  obtain ⟨group, -, hgroup⟩ := mem_mapM_of_mem _ _ groups hgroups _ (mem_services replicas hr)
  rw [planOf_declared (k := service r) hspec hglobal] at hgroup
  obtain ⟨m, -, counts, newHost, hplace, -⟩ :=
    exists_left_of_forall₂ (placeAll_spec _ _ _ _ _ _ _ hgroup).flip (mem_group hr hhost)
  obtain ⟨e, he⟩ := placeReplica_refused r.deployment r.index counts hfew
  rw [service, he] at hplace
  cases hplace

theorem same_of_id {r' : ReplicaDesired} (hr : r ∈ replicas.items) (hr' : r' ∈ replicas.items) (h : r.id = r'.id) :
    r = r' := by
  have hget : s.replicasDesired.get r.id = some r := (replicas.mem_items r).1 hr
  have hget' : s.replicasDesired.get r'.id = some r' := (replicas.mem_items r').1 hr'
  rw [h, hget'] at hget
  exact (Option.some.inj hget).symm

def leavers (hostname : String) (replicas : s.replicasDesired.Listing) (deployments : s.deployments.Listing)
    (k : String × String) : List ReplicaDesired :=
  if (specOf deployments.items k.1 k.2).any (fun spec => spec.placement ≠ .global) then
    (replicas.items.filter (fun r => r.deployment = k.1 && r.service = k.2)).filter (·.host = hostname)
  else []

theorem group_placed {group : List Migration} (h : planOf hostname nodes replicas deployments k = .ok group) :
    List.Forall₂ (fun r m => m.replicaID = r.id ∧ (m.deployment, m.service) = k)
    (leavers hostname replicas deployments k)
      group := by
  by_cases hempty : group = []
  · subst hempty
    by_cases hdeclared : ∃ spec, specOf deployments.items k.1 k.2 = some spec ∧ spec.placement ≠ .global
    · obtain ⟨spec, hspec, hglobal⟩ := hdeclared
      rw [planOf_declared hspec hglobal] at h
      have hnil := forall₂_nil_right_iff.1 (placeAll_spec _ _ _ _ _ _ _ h)
      rw [leavers, hnil, ite_self]
      exact .nil
    · rw [leavers, if_neg]
      · exact .nil
      · rw [Option.any_eq_true]
        rintro ⟨spec, hspec, hglobal⟩
        exact hdeclared ⟨spec, hspec, of_decide_eq_true hglobal⟩
  · obtain ⟨spec, hspec, hglobal⟩ := planOf_undeclared h (fun he => hempty (Except.ok.inj he))
    rw [planOf_declared hspec hglobal] at h
    rw [leavers, if_pos (by rw [hspec]; exact decide_eq_true hglobal)]
    refine List.Forall₂.imp ?_ (forall₂_mem_left (placeAll_spec _ _ _ _ _ _ _ h))
    rintro r m ⟨hr, counts, newHost, -, rfl⟩
    simp only [mem_filter, Bool.and_eq_true, decide_eq_true_eq] at hr
    exact ⟨rfl, Prod.ext rfl hr.1.2.2⟩

theorem mem_leavers (h : r ∈ leavers hostname replicas deployments k) : r ∈ replicas.items ∧ service r = k := by
  rw [leavers] at h
  split at h
  · simp only [mem_filter, Bool.and_eq_true, decide_eq_true_eq] at h
    exact ⟨h.1.1, Prod.ext h.1.2.1 h.1.2.2⟩
  · cases h

theorem nodup_leavers (k : String × String) : ((leavers hostname replicas deployments k).map (·.id)).Nodup := by
  have hids : (replicas.items.map (·.id)).Nodup := (replicas.perm.map _).nodup_iff.2 s.replicasDesired.nodup_list
  rw [leavers]
  split
  · exact ((filter_sublist.trans filter_sublist).map _).nodup hids
  · exact nodup_nil

theorem once_of_ok {groups : List (List Migration)}
    (h : (services replicas).mapM (planOf hostname nodes replicas deployments) = .ok groups) :
    (groups.flatten.map (·.replicaID)).Nodup := by
  have hids : groups.map (List.map (·.replicaID)) =
      (services replicas).map (fun k => (leavers hostname replicas deployments k).map (·.id)) := by
    exact map_of_mapM h (fun k group hgroup => map_eq_of_forall₂ ((group_placed hgroup).imp (fun _ _ hrm => hrm.1)))
  rw [map_flatten, hids, ← flatMap_def, nodup_flatMap]
  refine ⟨fun k _ => nodup_leavers k, (nodup_dedup _).imp (fun {k k'} hne => ?_)⟩
  -- an id in two groups would be that of one record, which belongs to one service
  intro id hid hid'
  obtain ⟨r, hr, rfl⟩ := mem_map.1 hid
  obtain ⟨r', hr', hsame⟩ := mem_map.1 hid'
  have heq := same_of_id (mem_leavers hr').1 (mem_leavers hr).1 hsame
  rw [heq] at hr'
  exact hne ((mem_leavers hr).2.symm.trans (mem_leavers hr').2)

theorem only_of_ok (h : planned hostname nodes replicas deployments = .ok ms)
    (hlisted : ∀ r spec, Leaves s hostname r spec → spec.placement = .hosts → spec.hosts ≠ []) {m : Migration}
    (hm : m ∈ ms) : ∃ r spec, Leaves s hostname r spec ∧
      m = ⟨r.id, r.deployment, r.service, hostname, m.toHost, r.image⟩ ∧ Destined s hostname spec m.toHost := by
  obtain ⟨r, hr, spec, hevicted, counts, newHost, hplace, rfl⟩ := plan_moves h m hm
  have hleaves := (leaves_iff hostname replicas deployments).2 ⟨hr, hevicted⟩
  refine ⟨r, spec, hleaves, rfl, ?_⟩
  obtain ⟨⟨n, hn, hready, rfl⟩, hpinned⟩ := mem_eligibleHosts.1 (placeReplica_mem hplace)
  obtain ⟨hn, hne⟩ := mem_filter.1 hn
  exact ⟨⟨n, (nodes.mem_items n).1 hn, hready⟩, of_decide_eq_true hne,
    fun hhosts => hpinned hhosts (hlisted r spec hleaves hhosts)⟩

theorem countP_group (p : ReplicaDesired → Bool) (deployment name : String) :
    (replicas.items.filter (fun r => r.deployment = deployment && r.service = name)).countP p =
      s.replicasDesired.list.countP (fun r => r.deployment = deployment && r.service = name && p r) := by
  rw [countP_filter, replicas.perm.countP_eq]
  exact countP_congr (fun r _ => by rw [Bool.and_comm])

theorem least_of_ok (h : planned hostname nodes replicas deployments = .ok ms)
    {before after : List Migration} {m : Migration} (hms : ms = before ++ m :: after)
    (hspec : specOf deployments.items m.deployment m.service = some spec) (hpack : spec.placement = .pack)
    {host : String}
    (hhost : host ∈ refuge s hostname spec) : load s hostname before m m.toHost ≤ load s hostname before m host := by
  have hglobal : spec.placement ≠ .global := by
    rw [hpack]
    decide
  obtain ⟨-, groups, hgroups, rfl⟩ := planned_ok h
  obtain ⟨-, group, rest, hgroup, hsplit⟩ := Grouping.split_flatten (fun m : Migration => (m.deployment, m.service))
    (fun k g hg m hm => by
      obtain ⟨r, -, hrm⟩ := exists_left_of_forall₂ (group_placed hg) hm
      exact hrm.2)
    (forall₂_of_mapM hgroups) (nodup_dedup _) hms
  rw [planOf_declared (k := (m.deployment, m.service)) hspec hglobal] at hgroup
  have hleast := placeAll_least hpack hgroup hsplit hhost
  simp only [countP_group] at hleast
  simp only [countP_filter] at hleast
  simpa only [load, Prod.mk.injEq, Bool.and_comm, Bool.decide_and] using hleast

theorem lists_of_ok (h : planned hostname nodes replicas deployments = .ok ms)
    (hlisted : ∀ r spec, Leaves s hostname r spec → spec.placement = .hosts → spec.hosts ≠ []) :
    Lists s hostname ms where
  once := by
    obtain ⟨-, groups, hgroups, rfl⟩ := planned_ok h
    exact once_of_ok hgroups
  covers r spec hleaves := by
    obtain ⟨hr, hevicted⟩ := (leaves_iff hostname replicas deployments).1 hleaves
    exact plan_covers h r hr spec hevicted
  only m hm := only_of_ok h hlisted hm
  least before m after hms r spec hleaves hid hpack host hhost := by
    have hm : m ∈ ms := hms ▸ mem_append_right _ mem_cons_self
    obtain ⟨r', spec', hleaves', hm', -⟩ := only_of_ok h hlisted hm
    obtain ⟨-, -, hspec, -⟩ := (leaves_iff hostname replicas deployments).1 hleaves
    obtain ⟨rfl, -⟩ := leaves_unique hleaves hleaves' (hid.trans (congrArg Migration.replicaID hm'))
    refine least_of_ok h hms ?_ hpack hhost
    rw [hm']
    exact hspec

variable (nodes deployments)

def serviceFirst (s : State) (k : String × String) : s.replicasDesired.Listing where
  items := s.replicasDesired.list.filter (service · = k) ++
    s.replicasDesired.list.filter (fun r => !decide (service r = k))
  perm := filter_append_perm _ _

theorem services_serviceFirst (hr : r ∈ s.replicasDesired.list)
    (hk : service r = k) : ∃ ks, services (serviceFirst s k) = k :: ks := by
  have hfirst : (s.replicasDesired.list.filter (service · = k)).map service =
      List.replicate (s.replicasDesired.list.filter (service · = k)).length k := by
    refine eq_replicate_iff.2 ⟨length_map _, fun x hx => ?_⟩
    obtain ⟨y, hy, rfl⟩ := mem_map.1 hx
    exact of_decide_eq_true (mem_filter.1 hy).2
  have hothers : k ∉ (s.replicasDesired.list.filter (fun r => !decide (service r = k))).map service := by
    intro hmem
    obtain ⟨y, hy, rfl⟩ := mem_map.1 hmem
    simp at hy
  have hdedup : ∀ (n : Nat) (l : List (String × String)), k ∉ l →
      (List.replicate (n + 1) k ++ l).dedup = k :: l.dedup := by
    intro n l hl
    induction n with
    | zero => exact dedup_cons_of_notMem hl
    | succ n ih =>
      rw [replicate_succ, cons_append, dedup_cons_of_mem, ih]
      exact mem_append_left _ (mem_replicate.2 ⟨n.succ_ne_zero, rfl⟩)
  obtain ⟨n, hn⟩ : ∃ n, (s.replicasDesired.list.filter (service · = k)).length = n + 1 := by
    refine Nat.exists_eq_succ_of_ne_zero (fun hzero => ?_)
    have hnone := filter_eq_nil_iff.1 (length_eq_zero_iff.1 hzero) r hr
    exact hnone (decide_eq_true hk)
  refine ⟨((s.replicasDesired.list.filter (fun r => !decide (service r = k))).map service).dedup, ?_⟩
  rw [services, serviceFirst, map_append, hfirst, hn]
  exact hdedup n _ hothers

theorem panics_first (hname : hostname ≠ "") (hleaves : Leaves s hostname r spec)
    (hrange : outOfRange spec (refuge s hostname spec) r.index = true) :
    ∃ index, planned hostname nodes (serviceFirst s (service r)) deployments = .error (indexPanic index) := by
  obtain ⟨hr, hhost, hspec, hglobal⟩ := (leaves_iff hostname (serviceFirst s (service r)) deployments).1 hleaves
  obtain ⟨ks, hks⟩ := services_serviceFirst (k := service r) ((serviceFirst s (service r)).perm.mem_iff.1 hr) rfl
  have hgroup : planOf hostname nodes (serviceFirst s (service r)) deployments (service r) = _ :=
    planOf_declared hspec hglobal
  obtain ⟨index, hpanic⟩ := placeAll_panics (mem_group hr hhost) hrange
  rw [hpanic] at hgroup
  refine ⟨index, ?_⟩
  rw [planned_eq _ _ _ _ hname, hks, mapM_cons, hgroup]
  rfl

end Orders

theorem plan_exact_iff (s : State) (hostname : String) :
    (∀ (nodes : s.nodes.Listing) (replicas : s.replicasDesired.Listing) (deployments : s.deployments.Listing),
      PlanExact s hostname (planned hostname nodes replicas deployments)) ↔ Plannable s hostname := by
  constructor
  · intro hexact
    refine ⟨?_, fun hname r spec hleaves => ?_, ?_⟩
    · rintro rfl
      rcases hexact s.nodes.listing s.replicasDesired.listing s.deployments.listing with ⟨e, -, -, hstuck⟩ |
        ⟨ms, hok, -⟩
      · exact hstuck
      · exact absurd rfl (planned_ok hok).1
    · by_contra hrange
      rw [Bool.not_eq_false] at hrange
      obtain ⟨index, hpanic⟩ := panics_first s.nodes.listing s.deployments.listing hname hleaves hrange
      rcases hexact s.nodes.listing (serviceFirst s (service r)) s.deployments.listing with
        ⟨e, he, hsound, -⟩ | ⟨ms, hok, -⟩
      · rw [hpanic] at he
        exact hsound ⟨index, (Except.error.inj he).symm⟩
      · rw [hpanic] at hok
        cases hok
    · rcases hexact s.nodes.listing s.replicasDesired.listing s.deployments.listing with
        ⟨e, -, -, hstuck⟩ | ⟨ms, -, -, hlists⟩
      · exact .inl hstuck
      · refine .inr (fun r spec hleaves hhosts => ?_)
        obtain ⟨m, hm, hid⟩ := hlists.covers r spec hleaves
        obtain ⟨r', spec', hleaves', hm', hdestined⟩ := hlists.only m hm
        obtain ⟨rfl, rfl⟩ := leaves_unique hleaves hleaves' (hid.symm.trans (congrArg Migration.replicaID hm'))
        exact ne_nil_of_mem (hdestined.listed hhosts)
  · rintro ⟨hunnamed, hindices, hlisted⟩ nodes replicas deployments
    by_cases hname : hostname = ""
    · refine .inl ⟨"Plan: hostname is required", ?_, not_panicked_refused, hunnamed hname⟩
      rw [planned, plan, if_pos hname]
    · cases hplan : planned hostname nodes replicas deployments with
      | error e =>
        rcases cause_of_error hname hplan with ⟨r, spec, hleaves, hrange⟩ | ⟨hsound, hstuck⟩
        · rw [hindices hname r spec hleaves] at hrange
          cases hrange
        · exact .inl ⟨e, rfl, hsound, hstuck⟩
      | ok ms =>
        have hfree := not_stuck_of_ok hplan
        exact .inr ⟨ms, rfl, hfree, lists_of_ok hplan (hlisted.resolve_left hfree)⟩

namespace Unpinned

def web : ServiceSpec := { name := "web", replicas := 1, placement := .hosts }

def node (hostname : String) : Node := { hostname := hostname, address := hostname, status := .ready }

def shop : Deployment where
  name := "shop"
  appliedRevision := 1
  status := .active
  services := [web]

def replica : ReplicaDesired :=
  { id := "shop-web-0", deployment := "shop", service := "web", host := "node-a", image := "nginx:1.27" }

def state : State :=
  { State.new with
    nodes := (Store.empty.apply (node "node-a")).apply (node "node-b")
    deployments := Store.empty.apply shop
    replicasDesired := Store.empty.apply replica }

end Unpinned

open Unpinned in
theorem moved_off_the_host_list :
    planned "node-a" state.nodes.listing state.replicasDesired.listing state.deployments.listing =
        .ok [⟨"shop-web-0", "shop", "web", "node-a", "node-b", "nginx:1.27"⟩] ∧
      ¬ PlanExact state "node-a"
        (planned "node-a" state.nodes.listing state.replicasDesired.listing state.deployments.listing) := by
  have hplan : planned "node-a" state.nodes.listing state.replicasDesired.listing state.deployments.listing =
      .ok [⟨"shop-web-0", "shop", "web", "node-a", "node-b", "nginx:1.27"⟩] := by
    decide +kernel
  refine ⟨hplan, ?_⟩
  rw [hplan]
  rintro (⟨e, he, -⟩ | ⟨ms, hms, -, hlists⟩)
  · cases he
  · obtain rfl := Except.ok.inj hms
    obtain ⟨r, spec, ⟨-, -, hspec, -⟩, hm, hdestined⟩ := hlists.only _ mem_cons_self
    have hdep : r.deployment = "shop" := (congrArg Migration.deployment hm).symm
    have hsvc : r.service = "web" := (congrArg Migration.service hm).symm
    rw [hdep, hsvc] at hspec
    have hweb : (state.deployments.get "shop").bind (fun d => d.services.find? (·.name = "web")) = some web := by
      decide +kernel
    obtain rfl := Option.some.inj (hweb.symm.trans hspec)
    exact not_mem_nil (hdestined.listed rfl)

end Jaco.Relocation
