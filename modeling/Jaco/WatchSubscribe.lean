import Jaco.WatchedTables
import Jaco.Runs

namespace Jaco.Watch

open Runs

/-- What the filter of an entity type compares or looks up; empty for a resync, which carries no record. -/
def label : (t : EntityType) → Option t.Record → String
  | .deployments, r => (r.map Deployment.name).getD ""
  | .replicasObserved, r => (r.map ReplicaObserved.id).getD ""
  | .routes, r => (r.map Route.deployment).getD ""
  | .tcpRoutes, r => (r.map TCPRoute.deployment).getD ""

def passes (depFilter : String) (T : Tables) (t : EntityType) (l : String) : Bool :=
  depFilter = "" || match t with
    | .replicasObserved => (T.desired.get l).any (fun rd => rd.deployment = depFilter)
    | _ => l = depFilter

def keep (depFilter : String) (T : Tables) (t : EntityType) (n : Note (Change t.Record)) : Bool :=
  passes depFilter T t (label t n.record)

def shown (depFilter : String) (T : Tables) (t : EntityType) (k : String) : Option t.Record :=
  ((T.store t).get k).filter (fun v => passes depFilter T t (label t (some v)))

/-- The goroutine of `forward`: it has taken an event, or judged it and waits for room in the merged channel. -/
inductive Hand (α : Type) where
  | empty
  | taken (n : Note α)
  | kept (n : Note α)

structure Stream (α : Type) where
  sub : Subscription (Change α)
  hand : Hand (Change α) := .empty
  view : String → Option α

/-- A node that applies commands, one `Subscribe` call on it and its client. `state` is where the commands lead;
`tables` are the stores on the way there, write by write. -/
structure World where
  index : Nat
  state : State
  entries : List Entry := []
  ops : List Op := []
  tables : Tables
  pending : Option ((t : EntityType) × Change t.Record) := none
  streams : (t : EntityType) → Option (Stream t.Record) := fun _ => none
  merged : List ((t : EntityType) × Note (Change t.Record)) := []

def mergedBuffer : Nat := 256

inductive Event where
  | command (gap : Nat) (c : Command)
  | entry (rank : String → Nat)
  | write
  | publish
  | advance (t : EntityType)
  | subscribe (t : EntityType) (buffer : Int)
  | take (t : EntityType)
  | judge (t : EntityType)
  | send (t : EntityType)
  | receive
  | refetch (t : EntityType)

def World.start (index : Nat) (s : State) : World where
  index := index
  state := s
  tables := stateTables s

def World.publisherIdle (w : World) : Bool :=
  w.pending.isNone && [EntityType.deployments, .replicasObserved, .routes, .tcpRoutes].all
    (fun t => (w.streams t).all (fun st => match st.sub.publishing with | .idle => true | _ => false))

def World.setStream (w : World) (t : EntityType) (st : Stream t.Record) : World :=
  { w with streams := Function.update w.streams t (some st) }

def Stream.fetch (depFilter : String) (T : Tables) {t : EntityType} (st : Stream t.Record) : Stream t.Record :=
  { st with view := shown depFilter T t }

def World.writeOp (w : World) (op : Op) (rest : List Op) : World :=
  { w with
    ops := rest
    tables := w.tables.apply op
    pending := match op with
      | .table t wr => (wr.change (w.tables.store t)).map (fun c => ⟨t, c⟩)
      | .desired _ => none }

def World.publish (w : World) (t : EntityType) (c : Change t.Record) : World :=
  let w := { w with pending := none }
  match w.streams t with
  | none => w
  | some st => w.setStream t { st with sub := st.sub.publish c }

section

variable (depFilter : String)

def Stream.judge (T : Tables) {t : EntityType} (st : Stream t.Record) : Stream t.Record :=
  match st.hand with
  | .taken n => { st with hand := if keep depFilter T t n then .kept n else .empty }
  | _ => st

def World.send (w : World) (t : EntityType) : World :=
  match w.streams t with
  | none => w
  | some st =>
    match st.hand with
    | .kept n =>
      if w.merged.length < mergedBuffer then
        { w.setStream t { st with hand := .empty } with merged := w.merged ++ [⟨t, n⟩] }
      else w
    | _ => w

def World.receive (w : World) : World :=
  match w.merged with
  | [] => w
  | ⟨t, n⟩ :: rest =>
    let w := { w with merged := rest }
    match w.streams t with
    | none => w
    | some st =>
      match n with
      | .event c => w.setStream t { st with view := c.fold t.key st.view }
      | .resync => w.setStream t (st.fetch depFilter w.tables)

def World.onStream (w : World) (t : EntityType) (f : Stream t.Record → Stream t.Record) : World :=
  match w.streams t with
  | none => w
  | some st => w.setStream t (f st)

def Stream.take {α : Type} (st : Stream α) : Stream α :=
  match st.hand, st.sub.queue with
  | .empty, n :: _ => { st with sub := st.sub.take, hand := .taken n }
  | _, _ => st

def Stream.advance {α : Type} (st : Stream α) : Stream α := { st with sub := st.sub.advance }

def step (w : World) : Event → World
  | .command gap c =>
    if w.entries = [] ∧ w.ops.isEmpty ∧ w.publisherIdle then
      { w with
        index := w.index + gap + 1
        state := c.apply (w.index + gap + 1) w.state
        entries := c.entries }
    else w
  | .entry rank =>
    match w.entries, w.ops with
    | e :: es, [] => { w with entries := es, ops := opsOf rank w.tables e.ts w.index e.payload }
    | _, _ => w
  | .write =>
    match w.ops with
    | [] => w
    | op :: rest => if w.publisherIdle then w.writeOp op rest else w
  | .publish =>
    match w.pending with
    | none => w
    | some ⟨t, c⟩ => w.publish t c
  | .advance t => w.onStream t Stream.advance
  | .subscribe t buffer =>
    match w.streams t with
    | none => w.setStream t ((Stream.mk { buffer := newBroker buffer } .empty (fun _ => none)).fetch depFilter w.tables)
    | some _ => w
  | .take t => w.onStream t Stream.take
  | .judge t => w.onStream t (Stream.judge depFilter w.tables)
  | .send t => w.send t
  | .receive => w.receive depFilter
  | .refetch t => w.onStream t (Stream.fetch depFilter w.tables)

structure Drained (w : World) : Prop where
  entries : w.entries = []
  ops : w.ops = []
  pending : w.pending = none
  merged : w.merged = []
  streams : ∀ t st, w.streams t = some st → st.sub.queue = [] ∧ st.sub.publishing = .idle ∧ st.hand = .empty

def Current (w : World) : Prop :=
  Drained w → ∀ t st, w.streams t = some st → ∀ k, st.view k = shown depFilter (stateTables w.state) t k

end

end Jaco.Watch
