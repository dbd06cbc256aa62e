import Jaco.KeyedStore

/-!
The messages of `proto/jaco/v1/entities.proto`. A timestamp counts nanoseconds and is optional, as the
generated Go field is a pointer; an `int32` is an `Int` that arithmetic wraps with `wrap32`; a `double`
pressure is a rational number.
-/

namespace Jaco

abbrev Bytes := List UInt8
abbrev Timestamp := Int
abbrev StringMap := List (String × String)

/-- Go's zero time, January 1 of year 1, which counts as no time. -/
def zeroTime : Timestamp := -62135596800 * 10 ^ 9

def wrap32 (x : Int) : Int := Int.bmod x (2 ^ 32)

inductive ReplicaState where
  | unspecified | pending | pulling | running | degraded | updating | failed | stopped
  deriving DecidableEq

inductive RolloutState where
  | unspecified | inProgress | completed | aborted
  deriving DecidableEq

inductive NodeStatus where
  | unspecified | joining | ready | isolationUnavailable | drainTimeout
  deriving DecidableEq

inductive DeploymentStatus where
  | unspecified | pending | active
  deriving DecidableEq

inductive PlacementMode where
  | unspecified | spread | pack | hosts | «global»
  deriving DecidableEq

inductive AuditEventType where
  | unspecified | apply | delete | rollback | nodeJoin | nodeRemove | tokenIssue | tokenRevoke
  | certificateIssued | certificateRenewed | certificateFailed | isolationRulesetReconciled
  | isolationUnavailable | backupTaken | restoreCompleted | upgradeSucceeded | upgradeFailed
  | rolloutInvariantHold | registryCredentialUpsert | registryCredentialRemove
  | privilegedWorkloadAdmitted | rebalanceMoved | rebalanceSkipped
  deriving DecidableEq

structure ClusterMeta where
  clusterId : String
  caCert : Bytes
  caKey : Bytes
  createdAt : Option Timestamp
  deriving DecidableEq

structure Node where
  hostname : String
  address : String
  serverCertFingerprint : Bytes := []
  wireguardPubkey : Bytes := []
  status : NodeStatus
  statusDetails : StringMap := []
  joinedAt : Option Timestamp := none
  grpcAddress : String := ""
  cpuPressure : ℚ := 0
  memoryPressure : ℚ := 0
  lastPressureAt : Option Timestamp := none
  deriving DecidableEq

structure ServiceSpec where
  name : String
  replicas : Int
  placement : PlacementMode
  hosts : List String := []
  networks : List String := []
  deriving DecidableEq

structure Deployment where
  name : String
  appliedRevision : Nat
  previousRevision : Nat := 0
  status : DeploymentStatus
  statusDetails : StringMap := []
  jacoYaml : Bytes := []
  composeYaml : Bytes := []
  services : List ServiceSpec
  updatedAt : Option Timestamp := none
  acmeEmail : String := ""
  deriving DecidableEq

structure ReplicaDesired where
  id : String
  deployment : String
  service : String
  index : Int := 0
  host : String
  image : String
  raftIndex : Nat := 0
  specHash : Bytes := []
  deriving DecidableEq

structure ReplicaObserved where
  id : String
  state : ReplicaState
  code : String := ""
  message : String := ""
  details : StringMap := []
  containerId : String := ""
  host : String := ""
  startedAt : Option Timestamp := none
  lastHealthAt : Option Timestamp := none
  deriving DecidableEq

structure Route where
  domain : String
  deployment : String
  service : String
  port : Int
  tlsAuto : Bool
  path : String
  stripPath : Bool
  deriving DecidableEq

structure TCPRoute where
  publishedPort : Int
  deployment : String
  service : String
  containerPort : Int
  deriving DecidableEq

structure Cert where
  domain : String
  privateKey : Bytes := []
  certChain : Bytes := []
  notBefore : Option Timestamp := none
  notAfter : Option Timestamp := none
  lessee : String
  lockUntil : Option Timestamp
  deriving DecidableEq

structure ChallengeToken where
  token : String
  domain : String
  keyAuth : String
  expiresAt : Option Timestamp
  deriving DecidableEq

structure CertBlob where
  key : String
  value : Bytes
  updatedAt : Option Timestamp
  deriving DecidableEq

structure Token where
  identity : String
  hashedSecret : Bytes
  issuedAt : Option Timestamp
  revokedAt : Option Timestamp := none
  allowsPrivileged : Bool := false

structure JoinToken where
  hashedSecret : Bytes
  issuedAt : Option Timestamp
  expiresAt : Option Timestamp
  consumedAt : Option Timestamp := none
  deriving DecidableEq

structure AuditEvent where
  raftIndex : Nat
  type : AuditEventType
  identity : String
  ts : Option Timestamp
  payload : StringMap
  deriving DecidableEq

structure Subnet where
  deployment : String
  network : String
  cidr : String
  allocatedAt : Option Timestamp := none
  host : String
  deriving DecidableEq

structure RolloutPlan where
  deployment : String
  service : String
  targetRevision : Nat
  totalSteps : Int
  currentStep : Int
  state : RolloutState
  failureReason : String := ""
  startedAt : Option Timestamp
  lastStepAt : Option Timestamp
  deriving DecidableEq

structure ReplicaCounter where
  deployment : String
  service : String
  nextIndex : Nat

structure RestartCounter where
  replicaId : String
  consecutiveFailures : Int
  lastAttemptAt : Option Timestamp

structure RegistryCredential where
  registry : String
  username : String
  secret : Bytes
  updatedAt : Option Timestamp
  deriving DecidableEq

end Jaco
