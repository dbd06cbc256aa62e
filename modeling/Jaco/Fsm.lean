import Jaco.ClusterState

namespace Jaco

open GoStrings

def canonicalRegistryKey (ref : String) : String :=
  let h := toLower (trimSpace ref.toList)
  let h := (afterFirst "://".toList h).getD h
  let h := h.takeWhile (fun c => c ≠ '?' && c ≠ '#')
  let (host, rest) := cut '/' h
  let host := String.ofList host
  let host := if host ∈ ["index.docker.io", "registry-1.docker.io", "registry.docker.io"] then "docker.io" else host
  let path := String.ofList (trimWith (· = '/') (rest.getD []))
  if host = "" then "" else if path = "" then host else host ++ "/" ++ path

def State.removeReplicaDesired (s : State) (id : String) : State :=
  { s with
    replicasDesired := s.replicasDesired.remove id
    replicasObserved := s.replicasObserved.remove id
    restartCounters := s.restartCounters.remove id }

def State.removeReplicasOf (s : State) (name : String) : State :=
  (s.replicasDesired.list.filter (·.deployment = name)).foldl (fun t r => t.removeReplicaDesired r.id) s

def applyDeployment (s : State) (da : DeploymentApply) (ts : Option Timestamp) : State :=
  let prevRev := ((s.deployments.get da.deployment).map (·.appliedRevision)).getD 0
  let desiredServices := da.services.map (·.name)
  { s with
    deployments := s.deployments.apply
      { name := da.deployment, appliedRevision := da.revision, previousRevision := prevRev, status := .active,
        jacoYaml := da.jacoYaml, composeYaml := da.composeYaml, services := da.services,
        updatedAt := ts, acmeEmail := da.acmeEmail }
    rolloutPlans := s.rolloutPlans.removeWhere
      (fun p => p.deployment = da.deployment && p.service ∉ desiredServices)
    routes := s.routes.replaceOwned Route.deployment da.deployment da.routes
    tcpRoutes := s.tcpRoutes.replaceOwned TCPRoute.deployment da.deployment da.tcpRoutes }

def deleteDeployment (s : State) (name : String) : State :=
  let s := { s with
    routes := s.routes.removeWhere (·.deployment = name)
    tcpRoutes := s.tcpRoutes.removeWhere (·.deployment = name) }
  let s := s.removeReplicasOf name
  { s with
    rolloutPlans := s.rolloutPlans.removeWhere (·.deployment = name)
    subnets := s.subnets.removeWhere (·.deployment = name)
    deployments := s.deployments.remove name }

def updateNodeStatus (s : State) (u : NodeStatusUpdate) (ts : Option Timestamp) : State :=
  match s.nodes.get u.hostname with
  | none => s
  | some node =>
    let node := if u.status ≠ .unspecified then { node with status := u.status, statusDetails := u.details } else node
    let node := if u.includePressure then
        { node with cpuPressure := u.cpuPressure, memoryPressure := u.memoryPressure, lastPressureAt := ts }
      else node
    { s with nodes := s.nodes.apply node }

def updateNodeSelf (s : State) (us : NodeUpdateSelf) : State :=
  match s.nodes.get us.hostname with
  | none => s
  | some node =>
    let node := if us.wireguardPubkey ≠ [] then { node with wireguardPubkey := us.wireguardPubkey } else node
    let node := if us.grpcAddress ≠ "" then { node with grpcAddress := us.grpcAddress } else node
    { s with nodes := s.nodes.apply node }

def initCluster (s : State) (ci : ClusterInit) (ts : Option Timestamp) : State :=
  let info : ClusterMeta := { clusterId := ci.clusterId, caCert := ci.caCert, caKey := ci.caKey, createdAt := ts }
  let operator : Token :=
    { identity := "bootstrap", hashedSecret := ci.operatorTokenHashedSecret, issuedAt := ts }
  let self : Node := { hostname := ci.selfHostname, address := ci.selfAddress, status := .ready, joinedAt := ts }
  { s with
    cluster := some info
    tokens := if ci.operatorTokenHashedSecret ≠ [] then s.tokens.apply operator else s.tokens
    nodes := if ci.selfHostname ≠ "" then s.nodes.apply self else s.nodes }

def leaseHeldByOther (c : Cert) (lessee : String) (now : Timestamp) : Bool :=
  c.lessee ≠ "" && c.lessee ≠ lessee && (c.lockUntil.any (fun u => now < u))

def lockCert (s : State) (l : CertLock) (ts : Option Timestamp) : State :=
  match s.certs.get l.name with
  | none => { s with certs := s.certs.apply { domain := l.name, lessee := l.lessee, lockUntil := l.until_ } }
  | some c =>
    if leaseHeldByOther c l.lessee (ts.getD 0) then s
    else { s with certs := s.certs.apply { c with lessee := l.lessee, lockUntil := l.until_ } }

def unlockCert (s : State) (name : String) : State :=
  match s.certs.get name with
  | none => s
  | some c => { s with certs := s.certs.apply { c with lessee := "", lockUntil := none } }

def freeSubnets (s : State) (sf : SubnetFree) : State :=
  if sf.deployment ≠ "" && sf.network ≠ "" && sf.host ≠ "" then
    { s with subnets := s.subnets.remove (subnetKey sf.deployment sf.network sf.host) }
  else
    { s with subnets := s.subnets.removeWhere (fun sn =>
      (sf.deployment = "" || sn.deployment = sf.deployment) && (sf.network = "" || sn.network = sf.network) &&
        (sf.host = "" || sn.host = sf.host)) }

def bumpRestartCounter (s : State) (id : String) (action : RestartAction) (ts : Option Timestamp) : State :=
  match action with
  | .increment =>
    let failures := match s.restartCounters.get id with
      | some existing => wrap32 (existing.consecutiveFailures + 1)
      | none => 1
    let counter : RestartCounter := { replicaId := id, consecutiveFailures := failures, lastAttemptAt := ts }
    { s with restartCounters := s.restartCounters.apply counter }
  | .reset => { s with restartCounters := s.restartCounters.remove id }
  | .unspecified => s

def upsertCredential (s : State) (cred : RegistryCredential) (ts : Option Timestamp) : State :=
  let host := canonicalRegistryKey cred.registry
  if host = "" then s
  else { s with
    registryCredentials := s.registryCredentials.apply
      { cred with registry := host, updatedAt := cred.updatedAt.or ts } }

def incrementReplicaCounter (s : State) (deployment service : String) : State :=
  let next := match s.replicaCounters.get (replicaCounterKey deployment service) with
    | some existing => (existing.nextIndex + 1) % 2 ^ 64
    | none => 1
  let counter : ReplicaCounter := { deployment := deployment, service := service, nextIndex := next }
  { s with replicaCounters := s.replicaCounters.apply counter }

def mutate (s : State) (ts : Option Timestamp) (idx : Nat) : Payload → State
  | .clusterInit ci => initCluster s ci ts
  | .nodeJoin nj => { s with
      nodes := s.nodes.apply
        { hostname := nj.hostname, address := nj.address, serverCertFingerprint := nj.serverCertFingerprint,
          wireguardPubkey := nj.wireguardPubkey, grpcAddress := nj.grpcAddress, status := .joining, joinedAt := ts } }
  | .nodeRemove hostname => { s with
      nodes := s.nodes.remove hostname
      subnets := s.subnets.removeWhere (·.host = hostname) }
  | .nodeStatusUpdate u => updateNodeStatus s u ts
  | .nodeUpdateSelf us => updateNodeSelf s us
  | .deploymentApply da => applyDeployment s da ts
  | .deploymentRollback deployment revision =>
    match s.deployments.get deployment with
    | none => s
    | some existing => { s with
        deployments := s.deployments.apply
          { existing with appliedRevision := revision, previousRevision := existing.appliedRevision, updatedAt := ts } }
  | .deploymentDelete name => deleteDeployment s name
  | .deploymentStatusUpdate u =>
    match s.deployments.get u.deployment with
    | none => s
    | some d => { s with deployments := s.deployments.apply { d with status := u.status, statusDetails := u.details } }
  | .replicaDesiredUpsert (some r) => { s with replicasDesired := s.replicasDesired.apply { r with raftIndex := idx } }
  | .replicaDesiredRemove id => s.removeReplicaDesired id
  | .replicaObservedUpdate (some r) => { s with replicasObserved := s.replicasObserved.apply r }
  | .rolloutPlanUpdate (some plan) => { s with rolloutPlans := s.rolloutPlans.apply plan }
  | .replicaCounterIncrement deployment service => incrementReplicaCounter s deployment service
  | .restartCounterUpdate id action => bumpRestartCounter s id action ts
  | .routeUpsert (some r) => { s with routes := s.routes.apply r }
  | .routeRemove domain => { s with routes := s.routes.removeWhere (·.domain = domain) }
  | .certLock l => lockCert s l ts
  | .certUnlock name => unlockCert s name
  | .challengeTokenStore (some t) => { s with challengeTokens := s.challengeTokens.apply t }
  | .certBlobUpsert (some b) => { s with certBlobs := s.certBlobs.apply { b with updatedAt := b.updatedAt.or ts } }
  | .certBlobRemove key => if key ≠ "" then { s with certBlobs := s.certBlobs.remove key } else s
  | .subnetAllocate sa => { s with
      subnets := s.subnets.apply
        { deployment := sa.deployment, network := sa.network, cidr := sa.cidr, allocatedAt := ts, host := sa.host } }
  | .subnetFree sf => freeSubnets s sf
  | .tokenIssue ti => { s with
      tokens := s.tokens.apply
        { identity := ti.identity, hashedSecret := ti.hashedSecret, issuedAt := ts,
          allowsPrivileged := ti.allowsPrivileged } }
  | .tokenRevoke identity =>
    match s.tokens.get identity with
    | none => s
    | some t => { s with tokens := s.tokens.apply { t with revokedAt := ts } }
  | .joinTokenIssue ji => { s with
      joinTokens := s.joinTokens.apply
        { hashedSecret := ji.hashedSecret, issuedAt := ts, expiresAt := ji.expiresAt } }
  | .joinTokenConsume hashedSecret =>
    match s.joinTokens.get (hexEncode hashedSecret) with
    | none => s
    | some t => { s with joinTokens := s.joinTokens.apply { t with consumedAt := ts } }
  | .auditAppend (some ev) => s.appendAudit { ev with raftIndex := idx }
  | .registryCredentialUpsert (some cred) => upsertCredential s cred ts
  | .registryCredentialRemove registry =>
    if canonicalRegistryKey registry = "" then s
    else { s with registryCredentials := s.registryCredentials.remove (canonicalRegistryKey registry) }
  | _ => s

def auditOf : Payload → AuditEventType × StringMap
  | .clusterInit ci => (.nodeJoin, [("cluster_id", ci.clusterId)])
  | .nodeJoin nj => (.nodeJoin, [("hostname", nj.hostname)])
  | .nodeRemove hostname => (.nodeRemove, [("hostname", hostname)])
  | .nodeStatusUpdate u =>
    if u.status = .isolationUnavailable then (.isolationUnavailable, [("hostname", u.hostname)]) else (.unspecified, [])
  | .deploymentApply da => (.apply, [("deployment", da.deployment), ("revision", toString da.revision)])
  | .deploymentRollback deployment revision =>
    (.rollback, [("deployment", deployment), ("revision", toString revision)])
  | .deploymentDelete name => (.delete, [("deployment", name)])
  | .tokenIssue ti =>
    (.tokenIssue, [("identity", ti.identity), ("allows_privileged", toString ti.allowsPrivileged)])
  | .tokenRevoke identity => (.tokenRevoke, [("identity", identity)])
  | .registryCredentialUpsert (some cred) =>
    let host := canonicalRegistryKey cred.registry
    if host = "" then (.unspecified, [])
    else (.registryCredentialUpsert, [("registry", host), ("username", cred.username)])
  | .registryCredentialRemove registry =>
    let host := canonicalRegistryKey registry
    if host = "" then (.unspecified, []) else (.registryCredentialRemove, [("registry", host)])
  | _ => (.unspecified, [])

def applyPayload (s : State) (e : Entry) (idx : Nat) : State × AuditEventType × StringMap :=
  (mutate s e.ts idx e.payload, auditOf e.payload)

def applyEntry (idx : Nat) (s : State) (e : Entry) : State :=
  let (s, auditType, auditPayload) := applyPayload s e idx
  if auditType ≠ .unspecified then
    s.appendAudit { raftIndex := idx, type := auditType, identity := e.identity, ts := e.ts, payload := auditPayload }
  else s

mutual

def Command.apply (idx : Nat) (s : State) : Command → State
  | .absent => s
  | .single e => applyEntry idx s e
  | .batch _ _ children => applyChildren idx s children

def applyChildren (idx : Nat) (s : State) : List Command → State
  | [] => s
  | c :: cs => applyChildren idx (c.apply idx s) cs

end

structure Log where
  index : Nat
  data : Option Command

def Log.apply (s : State) (log : Log) : State :=
  match log.data with
  | none => s
  | some cmd => cmd.apply log.index s

def replay (s : State) (logs : List Log) : State := logs.foldl Log.apply s

end Jaco
