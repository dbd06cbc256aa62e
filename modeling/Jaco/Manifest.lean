import Jaco.ClusterState

namespace Jaco

open GoStrings

structure ValidationError where
  code : String
  message : String

structure JacoServiceDecl where
  name : String
  replicas : Option Int := none
  placement : String := ""
  hosts : List String := []
  networks : List String := []
  deriving DecidableEq

structure JacoRouteDecl where
  domain : String
  service : String
  port : Int
  tls : String := ""
  path : String := ""
  stripPath : Bool := false
  deriving DecidableEq

structure JacoYAML where
  deployment : String
  services : List JacoServiceDecl := []
  routes : List JacoRouteDecl := []
  acme : String := ""
  acmeEmail : String := ""
  deriving DecidableEq

structure PortConfig where
  published : String
  protocol : String := ""
  hostIP : String := ""
  target : Nat
  deriving DecidableEq

structure VolumeConfig where
  type : String
  source : String := ""
  target : String
  deriving DecidableEq

structure ServiceDependency where
  service : String
  condition : String := ""
  required : Bool := true
  deriving DecidableEq

structure ServiceConfig where
  name : String
  image : String := ""
  deployReplicas : Option Int := none
  networks : List String := []
  networkMode : String := ""
  ports : List PortConfig := []
  privileged : Bool := false
  securityOpt : List String := []
  labels : StringMap := []
  pullPolicy : String := ""
  volumes : List VolumeConfig := []
  dependsOn : List ServiceDependency := []
  deriving DecidableEq

/-- A loaded compose project; the list is the order one iteration of the service map happens to take. -/
structure Project where
  services : List ServiceConfig
  nodup : (services.map ServiceConfig.name).Nodup
  deriving DecidableEq

/-- The parsers the manifests go through: yaml.v3, compose-go and net/mail. -/
structure Parsers where
  decodeJaco : Bytes → Except ValidationError JacoYAML
  mailError : String → Option String
  validateCompose : Bytes → Option ValidationError
  loadCompose : Bytes → Except String Project
  specHash : Bytes → String → Except String Bytes

def invalid (message : String) : ValidationError := ⟨"validation_failed", message⟩

def defaultTLS (acme tls : String) : String :=
  if tls ≠ "" then tls else if toLower acme.toList = "off".toList then "off" else "auto"

def JacoYAML.withDefaults (j : JacoYAML) : JacoYAML :=
  { j with
    services := j.services.map (fun s => if s.placement = "" then { s with placement := "spread" } else s)
    routes := j.routes.map (fun r => { r with tls := defaultTLS j.acme r.tls }) }

def Parsers.parseJacoYAML (p : Parsers) (body : Bytes) : Except ValidationError JacoYAML :=
  (p.decodeJaco body).map JacoYAML.withDefaults

def validateService (seen : List String) (s : JacoServiceDecl) : Option ValidationError :=
  let q := quote s.name
  if s.name = "" then some (invalid "service name is required")
  else if s.replicas.any (· < 0) then some (invalid ("service " ++ q ++ " replicas must be >= 0"))
  else if s.placement ∉ ["spread", "pack", "hosts", "global"] then
    some (invalid ("service " ++ q ++ " has unknown placement " ++ quote s.placement ++
      " (want spread|pack|hosts|global)"))
  else if s.placement = "global" ∧ s.replicas.isSome = true then
    some (invalid ("service " ++ q ++
      " uses placement=global; remove replicas (global runs one replica per ready node)"))
  else if s.placement = "hosts" ∧ s.hosts = [] then
    some (invalid ("service " ++ q ++ " uses placement=hosts but hosts is empty"))
  else if s.name ∈ seen then some (invalid ("service " ++ q ++ " declared more than once"))
  else none

def validateServices (seen : List String) : List JacoServiceDecl → Option ValidationError
  | [] => none
  | s :: rest => (validateService seen s).or (validateServices (s.name :: seen) rest)

structure RoutesSeen where
  domainTLS : List (String × String) := []
  catchAll : List (String × String) := []
  keys : List (String × String) := []

def RoutesSeen.add (m : RoutesSeen) (r : JacoRouteDecl) : RoutesSeen where
  domainTLS := (r.domain, r.tls) :: m.domainTLS
  catchAll := if r.path = "" then (r.domain, r.service) :: m.catchAll else m.catchAll
  keys := (r.domain, r.path) :: m.keys

def validateRoute (m : RoutesSeen) (r : JacoRouteDecl) : Option ValidationError :=
  let q := quote r.domain
  if r.domain = "" then some (invalid "route domain is required")
  else if r.service = "" then some (invalid ("route " ++ q ++ " service is required"))
  else if r.port ≤ 0 then some (invalid ("route " ++ q ++ " port must be > 0"))
  else if r.tls ∉ ["auto", "off"] then
    some (invalid ("route " ++ q ++ " has unknown tls " ++ quote r.tls ++ " (want auto|off)"))
  else if (m.domainTLS.lookup r.domain).any (· ≠ r.tls) then
    some ⟨"route_tls_mixed",
      "domain " ++ q ++ " mixes tls:auto and tls:off routes; a domain must use a single TLS mode"⟩
  else match if r.path = "" then m.catchAll.lookup r.domain else none with
    | some prev => some ⟨"route_multiple_catchall",
        "multiple catch-all routes for domain " ++ q ++ ": services [" ++ prev ++ ", " ++ r.service ++
          "]; declare a path: prefix on all but one"⟩
    | none =>
      if (r.domain, r.path) ∈ m.keys then
        some (invalid ("route conflict: domain " ++ q ++ " path " ++ quote r.path ++
          " is declared more than once; (domain, path) combinations must be unique"))
      else none

def validateRoutes (m : RoutesSeen) : List JacoRouteDecl → Option ValidationError
  | [] => none
  | r :: rest => (validateRoute m r).or (validateRoutes (m.add r) rest)

def Parsers.acmeError (p : Parsers) (j : JacoYAML) : Option ValidationError :=
  let acme := toLower j.acme.toList
  if acme ∉ ["".toList, "on".toList, "off".toList] then
    some (invalid ("acme " ++ quote j.acme ++ " is unknown (want on|off)"))
  else if j.acmeEmail ≠ "" ∧ acme ≠ "off".toList then
    (p.mailError j.acmeEmail).map (fun err =>
      invalid ("acme_email " ++ quote j.acmeEmail ++ " is not a valid email address: " ++ err))
  else none

def Parsers.validateJacoYAML (p : Parsers) (j : JacoYAML) : Option ValidationError :=
  if j.deployment = "" then some (invalid "deployment name is required")
  else (p.acmeError j).or ((validateServices [] j.services).or (validateRoutes {} j.routes))

def placementToProto (s : String) : PlacementMode :=
  if s = "pack" then .pack else if s = "hosts" then .hosts else if s = "global" then .global else .spread

def sortNames (l : List String) : List String := l.insertionSort (· ≤ ·)

def mergeOne (svc : ServiceConfig) (override : Option JacoServiceDecl) : ServiceSpec where
  name := svc.name
  replicas := wrap32 (((override.bind (·.replicas)).or svc.deployReplicas).getD 1)
  placement := placementToProto (((override.map (·.placement)).filter (· ≠ "")).getD "spread")
  hosts := (override.map (·.hosts)).getD []
  networks := ((override.map (·.networks)).filter (· ≠ [])).getD (sortNames svc.networks)

def JacoYAML.override (j : JacoYAML) (name : String) : Option JacoServiceDecl :=
  j.services.reverse.find? (fun s => s.name = name)

def mergeServiceDefaults (j : JacoYAML) (project : Project) : Except String (List ServiceSpec) :=
  match j.services.find? (fun s => s.name ∉ project.services.map ServiceConfig.name) with
  | some s => .error ("MergeServiceDefaults: jaco service " ++ quote s.name ++
      " has no matching compose service")
  | none => .ok ((project.services.insertionSort (fun a b => a.name ≤ b.name)).map
      (fun svc => mergeOne svc (j.override svc.name)))

def PortConfig.publishes (p : PortConfig) : Option Int :=
  if p.published = "" then none
  else if p.protocol ≠ "" ∧ p.protocol ≠ "tcp" then none
  else if p.hostIP ≠ "" ∧ p.hostIP ≠ "0.0.0.0" then none
  else (atoi p.published).filter (0 < ·)

def toTCPRoutes (deployment : String) (project : Project) : List TCPRoute :=
  (project.services.flatMap (fun svc => svc.ports.filterMap (fun p => p.publishes.map (fun published =>
    { publishedPort := wrap32 published, deployment := deployment, service := svc.name,
      containerPort := wrap32 p.target })))).insertionSort (fun a b => a.publishedPort ≤ b.publishedPort)

def toRoutes (deployment : String) (decls : List JacoRouteDecl) : List Route :=
  decls.map (fun d =>
    { domain := d.domain, deployment := deployment, service := d.service, port := wrap32 d.port,
      tlsAuto := decide (d.tls = "auto"), path := d.path, stripPath := d.stripPath })

end Jaco
