import Jaco.Commands
import Jaco.GoStrings

namespace Jaco

def routeKey (domain path : String) : String := domain ++ "\x00" ++ path
def tcpRouteKey (publishedPort : Int) : String := toString publishedPort
def subnetKey (deployment network host : String) : String :=
  deployment ++ "\x00" ++ network ++ "\x00" ++ host
def rolloutPlanKey (deployment service : String) : String := deployment ++ "\x00" ++ service
def replicaCounterKey (deployment service : String) : String := deployment ++ "\x00" ++ service

def Route.key (r : Route) : String := routeKey r.domain r.path
def TCPRoute.key (r : TCPRoute) : String := tcpRouteKey r.publishedPort
def Subnet.key (s : Subnet) : String := subnetKey s.deployment s.network s.host
def RolloutPlan.key (p : RolloutPlan) : String := rolloutPlanKey p.deployment p.service
def ReplicaCounter.key (c : ReplicaCounter) : String := replicaCounterKey c.deployment c.service
def JoinToken.key (t : JoinToken) : String := GoStrings.hexEncode t.hashedSecret

structure State where
  nodes : Store Node Node.hostname
  deployments : Store Deployment Deployment.name
  replicasDesired : Store ReplicaDesired ReplicaDesired.id
  replicasObserved : Store ReplicaObserved ReplicaObserved.id
  routes : Store Route Route.key
  tcpRoutes : Store TCPRoute TCPRoute.key
  certs : Store Cert Cert.domain
  certBlobs : Store CertBlob CertBlob.key
  challengeTokens : Store ChallengeToken ChallengeToken.token
  tokens : Store Token Token.identity
  joinTokens : Store JoinToken JoinToken.key
  subnets : Store Subnet Subnet.key
  rolloutPlans : Store RolloutPlan RolloutPlan.key
  replicaCounters : Store ReplicaCounter ReplicaCounter.key
  restartCounters : Store RestartCounter RestartCounter.replicaId
  registryCredentials : Store RegistryCredential RegistryCredential.registry
  auditEvents : List AuditEvent
  cluster : Option ClusterMeta

namespace State

def new : State where
  nodes := .empty
  deployments := .empty
  replicasDesired := .empty
  replicasObserved := .empty
  routes := .empty
  tcpRoutes := .empty
  certs := .empty
  certBlobs := .empty
  challengeTokens := .empty
  tokens := .empty
  joinTokens := .empty
  subnets := .empty
  rolloutPlans := .empty
  replicaCounters := .empty
  restartCounters := .empty
  registryCredentials := .empty
  auditEvents := []
  cluster := none

def appendAudit (s : State) (ev : AuditEvent) : State :=
  { s with auditEvents := s.auditEvents ++ [ev] }

end State

end Jaco
