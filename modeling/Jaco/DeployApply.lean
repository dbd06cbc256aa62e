import Jaco.Admission
import Jaco.Manifest

namespace Jaco

open GoStrings

structure PrivilegedService where
  name : String
  fields : List String

def privilegedFields (svc : ServiceConfig) : List String :=
  (if svc.privileged then ["privileged"] else []) ++ (if svc.securityOpt ≠ [] then ["security_opt"] else [])

def collectPrivilegedServices (project : Project) : List PrivilegedService :=
  (project.services.filterMap (fun svc =>
    if privilegedFields svc = [] then none else some ⟨svc.name, privilegedFields svc⟩)).insertionSort
      (fun a b => a.name ≤ b.name)

def joinFields (fields : List String) : String := ",".intercalate fields

def privilegeDenied (message : String) : Status := ⟨.permissionDenied, "privilege_denied", message⟩

def checkPrivilegedAdmission (s : State) (identity : String) (svcs : List PrivilegedService) : Option Status :=
  match svcs with
  | [] => none
  | first :: _ =>
    if identity = Admission.localIdentity then none
    else if identity = "" then some (privilegeDenied "privileged workload requires authenticated identity")
    else match s.tokens.get identity with
      | none => some (privilegeDenied
          ("token " ++ quote identity ++ " not found; cannot admit privileged workload"))
      | some tok =>
        if tok.allowsPrivileged then none
        else some (privilegeDenied ("token " ++ quote identity ++ " lacks allows_privileged; service " ++
          quote first.name ++ " uses " ++ joinFields first.fields))

namespace Deploy

structure ApplyRequest where
  jacoYaml : Bytes
  composeYaml : Bytes
  dryRun : Bool
  deriving DecidableEq

def invalidArgument (code message : String) : Status := ⟨.invalidArgument, code, message⟩

def parseAndValidate (p : Parsers) (req : ApplyRequest) : Except ValidationError (JacoYAML × Project) :=
  if req.jacoYaml = [] then .error (invalid "jaco_yaml is required")
  else if req.composeYaml = [] then .error (invalid "compose_yaml is required")
  else do
    let jaco ← p.parseJacoYAML req.jacoYaml
    match (p.validateJacoYAML jaco).or (p.validateCompose req.composeYaml) with
    | some e => .error e
    | none =>
      match p.loadCompose req.composeYaml with
      | .error e => .error (invalid e)
      | .ok project => .ok (jaco, project)

def unknownOverride (jaco : JacoYAML) (project : Project) : Option Status :=
  (jaco.services.find? (fun s => s.name ∉ project.services.map ServiceConfig.name)).map (fun s =>
    invalidArgument "validation_failed" ("service " ++ quote s.name ++
      " not found in the compose file; name must equal a compose service key"))

def unknownHost (s : State) (services : List ServiceSpec) : Option Status :=
  services.findSome? (fun svc =>
    if svc.placement = .hosts then
      (svc.hosts.find? (fun h => (s.nodes.get h).isNone)).map (fun h =>
        invalidArgument "unknown_host" ("service " ++ quote svc.name ++ " pins host " ++
          quote h ++ " which is not a cluster member"))
    else none)

def unknownRouteService (services : List ServiceSpec) (routes : List JacoRouteDecl) : Option Status :=
  (routes.find? (fun r => r.service ∉ services.map ServiceSpec.name)).map (fun r =>
    invalidArgument "validation_failed" ("route " ++ quote r.domain ++ " references unknown service " ++
      quote r.service))

def networkModeOf (project : Project) (service : String) : Option String :=
  (project.services.find? (fun svc => svc.name = service && svc.networkMode ≠ "")).map ServiceConfig.networkMode

def isolatedRoute (project : Project) (routes : List JacoRouteDecl) : Option Status :=
  routes.findSome? (fun r => (networkModeOf project r.service).map (fun mode =>
    invalidArgument "validation_failed" ("route " ++ quote r.domain ++ " targets service " ++
      quote r.service ++ " which sets network_mode: " ++ mode ++
      "; routes on a service with network_mode are unreachable")))

def duplicatePort (seen : List (Int × String)) : List TCPRoute → Option Status
  | [] => none
  | r :: rest =>
    match seen.lookup r.publishedPort with
    | some prev => some (invalidArgument "port_conflict" ("services " ++ quote prev ++ " and " ++
        quote r.service ++ " both publish host port " ++ toString r.publishedPort ++ " in this deployment"))
    | none => duplicatePort ((r.publishedPort, r.service) :: seen) rest

def takenPort (s : State) (deployment : String) (routes : List TCPRoute) : Option Status :=
  routes.findSome? (fun r =>
    match s.tcpRoutes.get (tcpRouteKey r.publishedPort) with
    | some existing =>
      if existing.deployment ≠ deployment then
        some (invalidArgument "port_conflict" ("host port " ++ toString r.publishedPort ++
          " is already published by deployment " ++ quote existing.deployment))
      else none
    | none => none)

def rejection (s : State) (jaco : JacoYAML) (project : Project) (services : List ServiceSpec) : Option Status :=
  let tcpRoutes := toTCPRoutes jaco.deployment project
  (unknownHost s services).or ((unknownRouteService services jaco.routes).or ((isolatedRoute project jaco.routes).or
    ((duplicatePort [] tcpRoutes).or (takenPort s jaco.deployment tcpRoutes))))

structure Admitted where
  jaco : JacoYAML
  project : Project
  services : List ServiceSpec
  deriving DecidableEq

def admission (p : Parsers) (role : RaftRole) (s : State) (identity : String) (req : ApplyRequest) :
    Except Status Admitted :=
  match requireLeader role "apply" with
  | some e => .error e
  | none =>
    match parseAndValidate p req with
    | .error e => .error (invalidArgument e.code e.message)
    | .ok (jaco, project) =>
      match unknownOverride jaco project with
      | some e => .error e
      | none =>
        match mergeServiceDefaults jaco project with
        | .error e => .error (invalidArgument "validation_failed" e)
        | .ok services =>
          match (rejection s jaco project services).or
              (checkPrivilegedAdmission s identity (collectPrivilegedServices project)) with
          | some e => .error e
          | none => .ok ⟨jaco, project, services⟩

def currentRevision (s : State) (deployment : String) : Nat :=
  ((s.deployments.get deployment).map (·.appliedRevision)).getD 0

def command (s : State) (req : ApplyRequest) (a : Admitted) : DeploymentApply where
  deployment := a.jaco.deployment
  revision := (currentRevision s a.jaco.deployment + 1) % 2 ^ 64
  jacoYaml := req.jacoYaml
  composeYaml := req.composeYaml
  services := a.services
  routes := toRoutes a.jaco.deployment a.jaco.routes
  tcpRoutes := toTCPRoutes a.jaco.deployment a.project
  acmeEmail := a.jaco.acmeEmail

def admittedAudit (identity : String) (now : Timestamp) (deployment : String) (svc : PrivilegedService) : Entry :=
  ⟨identity, some now, .auditAppend (some
    { raftIndex := 0, type := .privilegedWorkloadAdmitted, identity := identity, ts := none,
      payload := [("deployment", deployment), ("service", svc.name), ("identity", identity),
        ("fields", joinFields svc.fields)] })⟩

structure ApplyResult where
  appliedRevision : Nat
  commits : List Entry
  deriving DecidableEq

def apply (p : Parsers) (role : RaftRole) (s : State) (identity : String) (now : Timestamp) (req : ApplyRequest) :
    Except Status ApplyResult :=
  match admission p role s identity req with
  | .error e => .error e
  | .ok a =>
    if req.dryRun then .ok ⟨currentRevision s a.jaco.deployment, []⟩
    else .ok ⟨(command s req a).revision, ⟨identity, some now, .deploymentApply (command s req a)⟩ ::
      (collectPrivilegedServices a.project).map (admittedAudit identity now a.jaco.deployment)⟩

end Deploy

end Jaco
