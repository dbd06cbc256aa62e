import Jaco.Interleaving

namespace Jaco.Docker

open Interleaving List

structure Container where
  id : Nat
  name : String
  image : String
  labels : List (String × String)
  state : String
  networks : List String
  deriving DecidableEq

def Container.label (c : Container) (key : String) : String := (c.labels.lookup key).getD ""

structure Engine where
  containers : List Container
  nextId : Nat
  nodup : (containers.map Container.id).Nodup
  fresh : ∀ c ∈ containers, c.id < nextId

namespace Engine

def empty : Engine := ⟨[], 0, nodup_nil, fun _ h => nomatch h⟩

def find (e : Engine) (id : Nat) : Option Container := e.containers.find? (fun c => c.id = id)

def modify (e : Engine) (id : Nat) (f : Container → Container) (hf : ∀ c, (f c).id = c.id) : Engine where
  containers := e.containers.map (fun c => if c.id = id then f c else c)
  nextId := e.nextId
  nodup := by
    have he : (e.containers.map (fun c => if c.id = id then f c else c)).map Container.id =
        e.containers.map Container.id := by
      rw [map_map]
      apply map_congr_left
      intro c _
      simp only [Function.comp_apply]
      split
      · exact hf c
      · rfl
    rw [he]
    exact e.nodup
  fresh := by
    intro c hc
    obtain ⟨a, ha, rfl⟩ := mem_map.mp hc
    split
    · rw [hf]
      exact e.fresh a ha
    · exact e.fresh a ha

def setState (e : Engine) (id : Nat) (state : String) : Engine :=
  e.modify id (fun c => { c with state := state }) (fun _ => rfl)

def attach (e : Engine) (id : Nat) (net : String) : Engine :=
  e.modify id (fun c => { c with networks := c.networks ++ [net] }) (fun _ => rfl)

def remove (e : Engine) (id : Nat) : Engine where
  containers := e.containers.filter (fun c => c.id ≠ id)
  nextId := e.nextId
  nodup := (e.nodup.sublist ((filter_sublist).map Container.id))
  fresh := fun c hc => e.fresh c (mem_of_mem_filter hc)

def create (e : Engine) (name image : String) (labels : List (String × String)) (networks : List String) : Engine where
  containers := ⟨e.nextId, name, image, labels, "created", networks⟩ :: e.containers
  nextId := e.nextId + 1
  nodup := by
    rw [map_cons, nodup_cons]
    refine ⟨fun h => ?_, e.nodup⟩
    obtain ⟨c, hc, hid⟩ := mem_map.mp h
    exact absurd hid (ne_of_lt (e.fresh c hc))
  fresh := by
    intro c hc
    rcases mem_cons.mp hc with rfl | hc
    · exact Nat.lt_succ_self _
    · exact (e.fresh c hc).trans (Nat.lt_succ_self _)

theorem find_of_mem (e : Engine) (c : Container) (h : c ∈ e.containers) : e.find c.id = some c := by
  cases hf : e.find c.id with
  | none => exact absurd (List.find?_eq_none.mp hf c h) (by simp)
  | some d =>
    have hid : d.id = c.id := by simpa using List.find?_some hf
    rw [inj_on_of_nodup_map e.nodup (mem_of_find?_eq_some hf) h hid]

theorem mem_of_find {e : Engine} {id : Nat} {c : Container} (h : e.find id = some c) : c ∈ e.containers ∧ c.id = id :=
  ⟨mem_of_find?_eq_some h, by simpa using List.find?_some h⟩

theorem find_modify (e : Engine) (id : Nat) (f : Container → Container) (hf : ∀ c, (f c).id = c.id) (c : Container)
    (h : e.find id = some c) : (e.modify id f hf).find id = some (f c) := by
  obtain ⟨hmem, hid⟩ := mem_of_find h
  have hmem' : f c ∈ (e.modify id f hf).containers := mem_map.mpr ⟨c, hmem, if_pos hid⟩
  have hfind := (e.modify id f hf).find_of_mem (f c) hmem'
  rwa [hf, hid] at hfind

theorem find_create (e : Engine) (name image : String) (labels : List (String × String)) (networks : List String) :
    (e.create name image labels networks).find e.nextId =
      some ⟨e.nextId, name, image, labels, "created", networks⟩ :=
  (e.create name image labels networks).find_of_mem _ mem_cons_self

end Engine

structure Session where
  engine : Engine
  fates : List Fate := []

def Session.call (s : Session) (effect : Engine → Engine) : Bool × Session :=
  match s.fates.headD .acked with
  | .acked => (true, ⟨effect s.engine, s.fates.tail⟩)
  | .unacked => (false, ⟨effect s.engine, s.fates.tail⟩)
  | .lost => (false, ⟨s.engine, s.fates.tail⟩)

theorem call_eq_true_iff {s t : Session} {effect : Engine → Engine} :
    s.call effect = (true, t) ↔ s.fates.headD .acked = .acked ∧ t = ⟨effect s.engine, s.fates.tail⟩ := by
  unfold Session.call
  cases s.fates.headD .acked <;> simp [eq_comm]

theorem engine_of_call {s t : Session} {effect : Engine → Engine} (h : s.call effect = (true, t)) :
    t.engine = effect s.engine := by
  rw [(call_eq_true_iff.mp h).2]

end Jaco.Docker
