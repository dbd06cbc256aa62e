import Jaco.ChangeFeed
import Jaco.DnsServiceMaps

namespace Jaco.Dns

open Bridge Runs Watch

def listenPort : Nat := 53

def listenAddr (gateway : String) : String := gateway ++ ":" ++ toString listenPort

structure Order (α : Type) where
  apply : List α → List α
  perm : ∀ l, (apply l).Perm l

def Order.stored (α : Type) : Order α := ⟨id, List.Perm.refl⟩

def Order.listing {α : Type} {keyFn : α → String} (σ : Order α) (s : Store α keyFn) : s.Listing :=
  ⟨σ.apply s.list, σ.perm _⟩

structure Listener where
  addr : String
  responder : Responder

structure Manager where
  hostname : String
  forwarder : LookupHost

abbrev Listeners := String → Option Listener

def scopeOf (sn : Subnet) : Scope := ⟨sn.deployment, sn.network⟩

def keyOf (sn : Subnet) : String := scopeKey sn.deployment sn.network

def Manager.live (m : Manager) (subnets : List Subnet) (key : String) : Option Subnet :=
  -- a record listed later takes the place of an earlier one under its key
  ((subnets.filter (·.host = m.hostname)).reverse).find? (fun sn => keyOf sn = key)

def Manager.listen (m : Manager) (sn : Subnet) : Option Listener :=
  (gatewayIP sn.cidr).map (fun gw => ⟨listenAddr gw, ⟨scopeOf sn, fun _ => [], some m.forwarder⟩⟩)

def Manager.reconcileSubnets (m : Manager) (subnets : List Subnet) (listeners : Listeners) : Listeners := fun key =>
  match m.live subnets key, listeners key with
  | none, _ => none
  | some _, some l => some l
  | some sn, none => m.listen sn

def Listener.setServices (services : ServiceMap) (l : Listener) : Listener :=
  { l with responder := { l.responder with services := services } }

def Manager.refreshServiceMaps (m : Manager) (st : State) (now : Timestamp) (observed : List ReplicaObserved)
    (listeners : Listeners) : Listeners := fun key =>
  (listeners key).map (Listener.setServices (serviceMap (collected st m.hostname now observed) key))

structure Node where
  st : State
  now : Timestamp
  subnetSub : Subscription (Change Subnet)
  obsSub : Subscription (Change ReplicaObserved)
  listeners : Listeners

inductive NodeEvent where
  | subnet (w : Write Subnet)
  | observed (w : Write ReplicaObserved)
  | publish
  | clock (t : Timestamp)
  | handleSubnet (σ : Order Subnet)
  | handleObserved (σ : Order ReplicaObserved)

def Node.Idle (n : Node) : Prop := n.subnetSub.publishing = .idle ∧ n.obsSub.publishing = .idle

instance (n : Node) : Decidable n.Idle := instDecidableAnd

def Manager.step (m : Manager) (n : Node) : NodeEvent → Node
  | .subnet w =>
    match w.change n.st.subnets with
    | some c =>
      if n.Idle then
        { n with st := { n.st with subnets := w.apply n.st.subnets }, subnetSub := n.subnetSub.publish c }
      else n
    | none => n
  | .observed w =>
    match w.change n.st.replicasObserved with
    | some c =>
      if n.Idle then
        { n with st := { n.st with replicasObserved := w.apply n.st.replicasObserved }, obsSub := n.obsSub.publish c }
      else n
    | none => n
  | .publish => { n with subnetSub := n.subnetSub.advance, obsSub := n.obsSub.advance }
  | .clock t => { n with now := t }
  | .handleSubnet σ =>
    if n.subnetSub.queue = [] then n
    else
      { n with
        subnetSub := n.subnetSub.take
        listeners := m.reconcileSubnets (σ.listing n.st.subnets).items n.listeners }
  | .handleObserved σ =>
    if n.obsSub.queue = [] then n
    else
      { n with
        obsSub := n.obsSub.take
        listeners := m.refreshServiceMaps n.st n.now (σ.listing n.st.replicasObserved).items n.listeners }

def Manager.boot (m : Manager) (st : State) (now : Timestamp) (subnets : Order Subnet)
    (observed : Order ReplicaObserved)
    (subnetSub : Subscription (Change Subnet)) (obsSub : Subscription (Change ReplicaObserved)) : Node :=
  { st, now, subnetSub, obsSub
    listeners := m.refreshServiceMaps st now (observed.listing st.replicasObserved).items
      (m.reconcileSubnets (subnets.listing st.subnets).items (fun _ => none)) }

def Node.Drained (n : Node) : Prop := n.Idle ∧ n.subnetSub.queue = [] ∧ n.obsSub.queue = []

def Manager.Local (m : Manager) (st : State) (sn : Subnet) : Prop :=
  st.subnets.get sn.key = some sn ∧ sn.host = m.hostname

structure Manager.Bound (m : Manager) (st : State) (listeners : Listeners) : Prop where
  listens : ∀ sn, m.Local st sn → ∃ l, listeners (keyOf sn) = some l ∧ l.responder.scope = scopeOf sn ∧
    (gatewayIP sn.cidr).map listenAddr = some l.addr
  only : ∀ key l, listeners key = some l → ∃ sn, m.Local st sn ∧ keyOf sn = key ∧ scopeOf sn = l.responder.scope

def Manager.Mapped (m : Manager) (st : State) (now : Timestamp) (listeners : Listeners) : Prop :=
  ∃ σ : Order ReplicaObserved, ∀ key l, listeners key = some l →
    l.responder.services = serviceMap (collected st m.hostname now (σ.listing st.replicasObserved).items) key

end Jaco.Dns
