import Jaco.DesiredSet
import Jaco.Relocation

namespace Jaco.Relocation

open Placement Scheduler List

section Statement

variable (s : State) (hostname : String)

def Leaves (r : ReplicaDesired) (spec : ServiceSpec) : Prop :=
  s.replicasDesired.get r.id = some r ∧ r.host = hostname ∧
    (s.deployments.get r.deployment).bind (fun d => d.services.find? (·.name = r.service)) = some spec ∧
    spec.placement ≠ .global

def refuge (spec : ServiceSpec) : List String := eligibleHosts spec (s.nodes.list.filter (·.hostname ≠ hostname))

def TooFew (spec : ServiceSpec) : Prop :=
  refuge s hostname spec = [] ∨ spec.placement = .hosts ∧ (refuge s hostname spec).length < spec.replicas

def Stuck : Prop := ∃ r spec, Leaves s hostname r spec ∧ TooFew s hostname spec

def load (before : List Migration) (m : Migration) (host : String) : Nat :=
  s.replicasDesired.list.countP
      (fun r => r.deployment = m.deployment && r.service = m.service && (r.host ≠ hostname && r.host = host)) +
    before.countP (fun m' => m'.deployment = m.deployment && m'.service = m.service && m'.toHost = host)

structure Destined (spec : ServiceSpec) (host : String) : Prop where
  ready : ∃ n, s.nodes.get host = some n ∧ n.status = .ready
  elsewhere : host ≠ hostname
  listed : spec.placement = .hosts → host ∈ spec.hosts

structure Lists (ms : List Migration) : Prop where
  once : (ms.map (·.replicaID)).Nodup
  covers : ∀ r spec, Leaves s hostname r spec → ∃ m ∈ ms, m.replicaID = r.id
  only : ∀ m ∈ ms, ∃ r spec, Leaves s hostname r spec ∧
    m = ⟨r.id, r.deployment, r.service, hostname, m.toHost, r.image⟩ ∧ Destined s hostname spec m.toHost
  least : ∀ before m after, ms = before ++ m :: after → ∀ r spec, Leaves s hostname r spec → r.id = m.replicaID →
    spec.placement = .pack → ∀ host ∈ refuge s hostname spec,
      load s hostname before m m.toHost ≤ load s hostname before m host

def Panicked (e : String) : Prop := ∃ index, e = indexPanic index

def PlanExact (result : Except String (List Migration)) : Prop :=
  (∃ e, result = .error e ∧ ¬ Panicked e ∧ Stuck s hostname) ∨
    ∃ ms, result = .ok ms ∧ ¬ Stuck s hostname ∧ Lists s hostname ms

def Plannable : Prop :=
  (hostname = "" → Stuck s hostname) ∧
    (hostname ≠ "" → ∀ r spec, Leaves s hostname r spec → outOfRange spec (refuge s hostname spec) r.index = false) ∧
    (Stuck s hostname ∨ ∀ r spec, Leaves s hostname r spec → spec.placement = .hosts → spec.hosts ≠ [])

end Statement

theorem leaves_unique {s : State} {hostname : String} {r r' : ReplicaDesired} {spec spec' : ServiceSpec}
    (h : Leaves s hostname r spec) (h' : Leaves s hostname r' spec') (hid : r.id = r'.id) : r = r' ∧ spec = spec' := by
  have hsame : r = r' := by
    have hget := h.1
    rw [hid, h'.1] at hget
    exact (Option.some.inj hget).symm
  subst hsame
  exact ⟨rfl, Option.some.inj (h.2.2.1.symm.trans h'.2.2.1)⟩

section Choice

variable {deployment : String} {spec : ServiceSpec} {eligible : List String} {index : Int} {counts : String → Nat}

theorem pickPackHost_least (hosts : List String) (counts : String → Nat) :
    ∀ h ∈ hosts, counts (pickPackHost hosts counts) ≤ counts h := by
  have hfold : ∀ (l : List String) (best : String), ∀ h, h = best ∨ h ∈ l →
      counts (l.foldl (fun best h => if counts h < counts best || (counts h = counts best && h < best) then h else best)
        best) ≤ counts h := by
    intro l
    induction l with
    | nil =>
      rintro best h (rfl | hh)
      · exact le_refl _
      · cases hh
    | cons x l ih =>
      intro best h hh
      rw [foldl_cons]
      split
      · rename_i hx
        have hle : counts x ≤ counts best := by
          simp only [Bool.or_eq_true, Bool.and_eq_true, decide_eq_true_eq] at hx
          omega
        rcases hh with rfl | hh
        · exact (ih x x (.inl rfl)).trans hle
        · exact ih x h (mem_cons.1 hh)
      · rename_i hx
        have hle : counts best ≤ counts x := by
          simp only [Bool.or_eq_true, Bool.and_eq_true, decide_eq_true_eq] at hx
          omega
        rcases hh with rfl | hh
        · exact ih h h (.inl rfl)
        · rcases mem_cons.1 hh with rfl | hh
          · exact (ih best best (.inl rfl)).trans hle
          · exact ih best h (.inr hh)
  cases hosts with
  | nil => exact nofun
  | cons x l => exact fun h hh => hfold l x h (mem_cons.1 hh)

theorem placeReplica_least {host : String} (h : placeReplica deployment spec eligible index counts = .ok host)
    (hpack : spec.placement = .pack) : ∀ h ∈ eligible, counts host ≤ counts h := by
  intro x hx
  unfold placeReplica at h
  rw [hpack] at h
  split at h
  · cases h
  · cases h
    exact pickPackHost_least _ counts x (mem_sortNames.2 hx)

theorem placeReplica_refused (deployment : String) (index : Int) (counts : String → Nat)
    (h : eligible = [] ∨ spec.placement = .hosts ∧ (eligible.length : Int) < spec.replicas) :
    ∃ e, placeReplica deployment spec eligible index counts = .error e := by
  have hlen : (sortNames eligible).length = eligible.length := (perm_insertionSort _ eligible).length_eq
  unfold placeReplica
  split
  · exact ⟨_, rfl⟩
  · rename_i hne
    obtain ⟨hhosts, hfew⟩ := h.resolve_left hne
    rw [hhosts]
    dsimp only
    rw [if_pos (by omega)]
    exact ⟨_, rfl⟩

end Choice

section Group

variable {hostname deployment : String} {spec : ServiceSpec} {eligible : List String}

theorem head?_append_literal (rest : String) :
    ("runtime error: index out of range [" ++ rest).toList.head? = some 'r' ∧
      ("drain " ++ rest).toList.head? = some 'd' := by
  rw [String.toList_append, String.toList_append]
  generalize rest.toList = cs
  exact ⟨rfl, rfl⟩

theorem head_of_panicked {e : String} (h : Panicked e) : e.toList.head? = some 'r' := by
  obtain ⟨index, he⟩ := h
  have hpanic : e = "runtime error: index out of range [" ++ (toString index ++ "]") := by
    rw [he, ← String.append_assoc]
    rfl
  rw [hpanic]
  exact (head?_append_literal _).1

theorem not_panicked_refused : ¬ Panicked "Plan: hostname is required" := by
  intro h
  exact absurd (head_of_panicked h) (by decide)

theorem not_panicked_drain (rest : String) : ¬ Panicked ("drain " ++ rest) := by
  intro h
  have hhead := (head_of_panicked h).symm.trans (head?_append_literal rest).2
  cases hhead

variable {counts : String → Nat} {rs : List ReplicaDesired}

theorem placeAll_error {e : String} (h : placeAll hostname deployment spec eligible counts rs = .error e) :
    ∃ r ∈ rs, outOfRange spec eligible r.index = true ∨
      ¬ Panicked e ∧ (eligible = [] ∨ spec.placement = .hosts ∧ (eligible.length : Int) < spec.replicas) := by
  induction rs generalizing counts with
  | nil => cases h
  | cons r rs ih =>
    rw [placeAll] at h
    split at h
    · rename_i hrange
      exact ⟨r, mem_cons_self, .inl hrange⟩
    · split at h
      · rename_i e' he'
        refine ⟨r, mem_cons_self, .inr ⟨?_, ?_⟩⟩
        · cases h
          simp only [String.append_assoc]
          exact not_panicked_drain _
        · by_contra hfew
          rw [not_or, not_and, not_lt] at hfew
          obtain ⟨host, hhost⟩ := placeReplica_ok deployment hfew.1 hfew.2 r.index counts
          rw [he'] at hhost
          cases hhost
      · rename_i newHost hplace
        cases hrest : placeAll hostname deployment spec eligible
            (fun x => if x = newHost then counts x + 1 else counts x) rs with
        | error e' =>
          rw [hrest] at h
          cases h
          obtain ⟨r', hr', hcause⟩ := ih hrest
          exact ⟨r', mem_cons_of_mem r hr', hcause⟩
        | ok rest =>
          rw [hrest] at h
          cases h

theorem placeAll_panics {r : ReplicaDesired} (hr : r ∈ rs) (hrange : outOfRange spec eligible r.index = true) :
    ∃ index, placeAll hostname deployment spec eligible counts rs = .error (indexPanic index) := by
  induction rs generalizing counts with
  | nil => cases hr
  | cons r' rs ih =>
    rw [placeAll]
    split
    · exact ⟨_, rfl⟩
    · rename_i hin
      rcases mem_cons.1 hr with rfl | hr
      · exact absurd hrange hin
      · have hplaceable : eligible ≠ [] ∧ spec.replicas ≤ eligible.length := by
          simp only [outOfRange, Bool.and_eq_true, decide_eq_true_eq] at hrange
          exact ⟨hrange.1.1.2, hrange.1.2⟩
        obtain ⟨host, hhost⟩ := placeReplica_ok deployment hplaceable.1 (fun _ => hplaceable.2) r'.index counts
        have hrest : ∃ index, placeAll hostname deployment spec eligible
            (fun x => if x = host then counts x + 1 else counts x) rs = .error (indexPanic index) := ih hr
        obtain ⟨index, hindex⟩ := hrest
        rw [hhost]
        dsimp only
        rw [hindex]
        exact ⟨index, rfl⟩

theorem placeAll_least {ms : List Migration}
    (hpack : spec.placement = .pack) (h : placeAll hostname deployment spec eligible counts rs = .ok ms)
    {before after : List Migration} {m : Migration} (hms : ms = before ++ m :: after) {host : String}
    (hhost : host ∈ eligible) :
    counts m.toHost + before.countP (·.toHost = m.toHost) ≤ counts host + before.countP (·.toHost = host) := by
  induction rs generalizing counts ms before with
  | nil =>
    cases h
    simp at hms
  | cons r rs ih =>
    obtain ⟨newHost, rest, hplace, hrest, rfl⟩ := placeAll_cons h
    cases before with
    | nil =>
      rw [nil_append, List.cons.injEq] at hms
      rw [← hms.1]
      exact Nat.add_le_add_right (placeReplica_least hplace hpack host hhost) 0
    | cons m' before =>
      rw [cons_append, List.cons.injEq] at hms
      -- the counts of the rest of the loop already hold the first migration
      have hcount : ∀ x, (if x = newHost then counts x + 1 else counts x) + before.countP (·.toHost = x) =
          counts x + (m' :: before).countP (·.toHost = x) := by
        intro x
        rw [← hms.1, countP_cons]
        by_cases hx : x = newHost
        · rw [if_pos hx, if_pos (by simp [hx])]
          omega
        · rw [if_neg hx, if_neg (by simpa using fun h => hx h.symm)]
          omega
      rw [← hcount, ← hcount]
      exact ih hrest hms.2

end Group

end Jaco.Relocation
