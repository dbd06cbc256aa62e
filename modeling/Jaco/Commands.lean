import Jaco.Entities

/-!
The command envelope of `proto/jaco/v1/commands.proto`. A batch child is a full command with its own
identity and timestamp, so the tree is kept; `Command.entries` lists its leaves depth first.
-/

namespace Jaco

structure ClusterInit where
  clusterId : String
  caCert : Bytes
  caKey : Bytes
  operatorTokenHashedSecret : Bytes
  selfHostname : String
  selfAddress : String
  deriving DecidableEq

structure NodeJoin where
  hostname : String
  address : String
  serverCertFingerprint : Bytes
  wireguardPubkey : Bytes
  grpcAddress : String
  deriving DecidableEq

structure NodeStatusUpdate where
  hostname : String
  status : NodeStatus
  details : StringMap := []
  cpuPressure : ℚ := 0
  memoryPressure : ℚ := 0
  includePressure : Bool := false
  deriving DecidableEq

structure NodeUpdateSelf where
  hostname : String
  wireguardPubkey : Bytes
  grpcAddress : String
  deriving DecidableEq

structure DeploymentApply where
  deployment : String
  revision : Nat
  jacoYaml : Bytes := []
  composeYaml : Bytes := []
  services : List ServiceSpec
  routes : List Route := []
  tcpRoutes : List TCPRoute := []
  acmeEmail : String := ""
  deriving DecidableEq

structure DeploymentStatusUpdate where
  deployment : String
  status : DeploymentStatus
  details : StringMap
  deriving DecidableEq

inductive RestartAction where
  | unspecified | increment | reset
  deriving DecidableEq

structure CertLock where
  name : String
  lessee : String
  until_ : Option Timestamp
  deriving DecidableEq

structure SubnetAllocate where
  deployment : String
  network : String
  cidr : String
  host : String
  deriving DecidableEq

structure SubnetFree where
  deployment : String
  network : String
  host : String
  deriving DecidableEq

structure TokenIssue where
  identity : String
  hashedSecret : Bytes
  allowsPrivileged : Bool
  deriving DecidableEq

structure JoinTokenIssue where
  hashedSecret : Bytes
  expiresAt : Option Timestamp
  deriving DecidableEq

/-- The oneof variants other than `Batch`. A message-typed field the decoder may leave unset is an `Option`. -/
inductive Payload where
  | clusterInit (ci : ClusterInit)
  | nodeJoin (nj : NodeJoin)
  | nodeRemove (hostname : String)
  | nodeStatusUpdate (u : NodeStatusUpdate)
  | nodeUpdateSelf (us : NodeUpdateSelf)
  | deploymentApply (da : DeploymentApply)
  | deploymentRollback (deployment : String) (revision : Nat)
  | deploymentDelete (deployment : String)
  | deploymentStatusUpdate (u : DeploymentStatusUpdate)
  | replicaDesiredUpsert (replica : Option ReplicaDesired)
  | replicaDesiredRemove (id : String)
  | replicaObservedUpdate (replica : Option ReplicaObserved)
  | replicaCommandIssue (replicaId op : String)
  | rolloutPlanUpdate (plan : Option RolloutPlan)
  | replicaCounterIncrement (deployment service : String)
  | restartCounterUpdate (replicaId : String) (action : RestartAction)
  | routeUpsert (route : Option Route)
  | routeRemove (domain : String)
  | certStore (key : String) (value : Bytes) (ttlSeconds : Int)
  | certLock (l : CertLock)
  | certUnlock (name : String)
  | challengeTokenStore (token : Option ChallengeToken)
  | certBlobUpsert (blob : Option CertBlob)
  | certBlobRemove (key : String)
  | subnetAllocate (sa : SubnetAllocate)
  | subnetFree (sf : SubnetFree)
  | tokenIssue (ti : TokenIssue)
  | tokenRevoke (identity : String)
  | joinTokenIssue (ji : JoinTokenIssue)
  | joinTokenConsume (hashedSecret : Bytes)
  | auditAppend (event : Option AuditEvent)
  | registryCredentialUpsert (credential : Option RegistryCredential)
  | registryCredentialRemove (registry : String)
  | missing
  deriving DecidableEq

structure Entry where
  identity : String
  ts : Option Timestamp
  payload : Payload
  deriving DecidableEq

/-- `absent` is a nil child pointer, which the batch loop skips. -/
inductive Command where
  | absent
  | single (e : Entry)
  | batch (identity : String) (ts : Option Timestamp) (children : List Command)

mutual

def Command.entries : Command → List Entry
  | .absent => []
  | .single e => [e]
  | .batch _ _ children => entriesOf children

def entriesOf : List Command → List Entry
  | [] => []
  | c :: cs => c.entries ++ entriesOf cs

end

theorem entriesOf_eq_flatMap (cs : List Command) : entriesOf cs = cs.flatMap Command.entries := by
  induction cs with
  | nil => rfl
  | cons c cs ih => rw [entriesOf, List.flatMap_cons, ih]

@[simp] theorem entries_single (e : Entry) : (Command.single e).entries = [e] := by
  rw [Command.entries]

@[simp] theorem entries_batch (identity : String) (ts : Option Timestamp) (cs : List Command) :
    (Command.batch identity ts cs).entries = cs.flatMap Command.entries := by
  rw [Command.entries, entriesOf_eq_flatMap]

end Jaco
