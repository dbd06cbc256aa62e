import Jaco.ReplicaStarts

namespace Jaco.Reconciler

open Lifecycle

def satisfies (state : ReplicaState) (condition : String) : Bool :=
  if condition = dependencyConditionStarted then state = .running || state = .degraded
  else condition = dependencyConditionHealthy && state = .running

def depSatisfied (s : State) (replicas : List ReplicaDesired) (deployment : String) (d : Dependency) : Bool :=
  replicas.any (fun rep => rep.deployment = deployment && rep.service = d.service &&
    (s.replicasObserved.get rep.id).any (fun obs => satisfies obs.state d.condition))

structure UnmetDependency where
  service : String
  condition : String

/-- `none` admits the start. Each dependency is looked up in an iteration of its own. -/
def checkDependsOn (s : State) (order : Dependency → s.replicasDesired.Listing) (deployment : String)
    (deps : List Dependency) : Option UnmetDependency :=
  (deps.find? (fun d => d.required && !depSatisfied s (order d).items deployment d)).map
    (fun d => ⟨d.service, d.condition⟩)

def Met (s : State) (deployment : String) (d : Dependency) : Prop :=
  ∃ rep ∈ s.replicasDesired.list, rep.deployment = deployment ∧ rep.service = d.service ∧
    ∃ obs ∈ s.replicasObserved.get rep.id, satisfies obs.state d.condition = true

theorem depSatisfied_iff {s : State} (l : s.replicasDesired.Listing) (deployment : String) (d : Dependency) :
    depSatisfied s l.items deployment d = true ↔ Met s deployment d := by
  simp only [depSatisfied, List.any_eq_true, Bool.and_eq_true, decide_eq_true_eq, Option.any_eq_true,
    Option.mem_def, Met,
    and_assoc, l.perm.mem_iff]

theorem checkDependsOn_eq_none_iff {s : State} (order : Dependency → s.replicasDesired.Listing) (deployment : String)
    (deps : List Dependency) :
    checkDependsOn s order deployment deps = none ↔ ∀ d ∈ deps, d.required = true → Met s deployment d := by
  rw [checkDependsOn, Option.map_eq_none_iff, List.find?_eq_none]
  refine forall₂_congr (fun d _ => ?_)
  rw [← depSatisfied_iff (order d)]
  simp

theorem condition_ne_empty {deps : List ServiceDependency} {d : Dependency} (h : d ∈ dependsOnFromCompose deps) :
    d.condition ≠ "" := by
  obtain ⟨e, -, rfl⟩ := List.mem_map.1 ((List.perm_insertionSort _ _).mem_iff.1 h)
  dsimp only
  split
  · decide
  · assumption

end Jaco.Reconciler
