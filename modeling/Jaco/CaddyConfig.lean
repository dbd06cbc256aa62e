import Jaco.AuditFollow
import Jaco.Rollout
import Jaco.TlsPolicies

namespace Jaco.Caddy

open Grouping TlsPolicies

inductive Json where
  | null
  | bool (b : Bool)
  | num (n : Int)
  | str (s : String)
  | arr (items : List Json)
  | obj (fields : List (String × Json))

structure Route extends Jaco.Route where
  acmeEmail : String
  deriving DecidableEq

structure ReplicaObservedView where
  id : String
  deployment : String
  service : String
  state : String
  lastHealthAt : Timestamp

structure ServiceMeta where
  deployment : String
  service : String
  replicaIPs : String → Option String

def metaKey (deployment service : String) : String := deployment ++ "/" ++ service

def isEligible (now : Timestamp) (r : ReplicaObservedView) : Bool :=
  r.state = "running" && r.lastHealthAt ≠ zeroTime && now - r.lastHealthAt < Rollout.healthFreshness

section Upstreams

variable (now : Timestamp) (replicas : List ReplicaObservedView) (services : String → Option ServiceMeta)

def healthyByService (key : String) : List ReplicaObservedView :=
  (replicas.filter (fun r => isEligible now r && metaKey r.deployment r.service = key)).insertionSort
    (fun a b => a.id ≤ b.id)

def dials (key : String) (port : Int) : List String :=
  match services key with
  | none => []
  | some m =>
    (healthyByService now replicas key).filterMap
      (fun r => (m.replicaIPs r.id).map (fun ip => ip ++ ":" ++ toString port))

def buildUpstreams (route : Route) : List String :=
  dials now replicas services (metaKey route.deployment route.service) route.port

def buildTCPUpstreams (tr : TCPRoute) : List String :=
  dials now replicas services (metaKey tr.deployment tr.service) tr.containerPort

end Upstreams

structure Proxy where
  route : Route
  upstreams : List String
  deriving DecidableEq

inductive Block where
  | single (proxy : Proxy)
  | subroutes (proxies : List Proxy)
  deriving DecidableEq

def Block.proxies : Block → List Proxy
  | .single p => [p]
  | .subroutes ps => ps

inductive SiteRoute where
  | challenge
  | redirect (domain : String)
  | site (domain : String) (block : Block)
  | fallback
  deriving DecidableEq

structure Layer4Server where
  route : TCPRoute
  upstreams : List String

structure Config where
  https : List SiteRoute
  http : List SiteRoute
  policies : List Policy
  layer4 : List Layer4Server

def longerFirst (a b : Route) : Bool :=
  if a.path.utf8ByteSize ≠ b.path.utf8ByteSize then b.path.utf8ByteSize < a.path.utf8ByteSize else a.path ≤ b.path

def pathRoutes (domRoutes : List Route) : List Route :=
  (domRoutes.filter (fun r => r.path ≠ "")).insertionSort (fun a b => longerFirst a b)

def catchAll (domRoutes : List Route) : Option Route := (domRoutes.filter (fun r => r.path = "")).getLast?

def evaluated (domRoutes : List Route) : List Route :=
  if pathRoutes domRoutes = [] then domRoutes.take 1 else pathRoutes domRoutes ++ (catchAll domRoutes).toList

def buildDomainRoute (up : Route → List String) (domRoutes : List Route) : Block :=
  match pathRoutes domRoutes, domRoutes with
  | [], r :: _ => .single ⟨r, up r⟩
  | paths, _ => .subroutes ((paths ++ (catchAll domRoutes).toList).map (fun r => ⟨r, up r⟩))

def domainMap (routes : List Route) (d : String) : List Route := routes.filter (fun r => r.domain = d)

def domains (routes : List Route) : List String :=
  sortNames ((firstOn (fun r : Route => r.domain) routes).map (fun r => r.domain))

def sortedRoutes (routes : List Route) : List Route := (domains routes).flatMap (domainMap routes)

def redirectDomainSet (routes : List Route) (opts : BuildOpts) (d : String) : Bool :=
  opts.acmeEnabled && routes.any (fun r => r.tlsAuto && r.domain = d)

def Route.view (r : Route) : RouteView := ⟨r.domain, r.tlsAuto, r.acmeEmail⟩

def setServer (servers : List Layer4Server) (s : Layer4Server) : List Layer4Server :=
  servers.filter (fun t => t.route.publishedPort ≠ s.route.publishedPort) ++ [s]

def byPort (tcpRoutes : List TCPRoute) : List TCPRoute :=
  tcpRoutes.insertionSort (fun a b => a.publishedPort ≤ b.publishedPort)

def buildLayer4Servers (up : TCPRoute → List String) (tcpRoutes : List TCPRoute) : List Layer4Server :=
  (byPort tcpRoutes).foldl (fun servers tr => if up tr = [] then servers else setServer servers ⟨tr, up tr⟩) []

def defaultCA (opts : BuildOpts) : BuildOpts :=
  if opts.acmeCA = "" then { opts with acmeCA := "https://acme-v02.api.letsencrypt.org/directory" } else opts

structure Inputs where
  routes : List Route
  tcpRoutes : List TCPRoute
  replicas : List ReplicaObservedView
  services : String → Option ServiceMeta
  opts : BuildOpts
  now : Timestamp

def Inputs.upstreams (i : Inputs) (r : Route) : List String := buildUpstreams i.now i.replicas i.services r

def Inputs.tcpUpstreams (i : Inputs) (tr : TCPRoute) : List String := buildTCPUpstreams i.now i.replicas i.services tr

def Inputs.site (i : Inputs) (d : String) : SiteRoute := .site d (buildDomainRoute i.upstreams (domainMap i.routes d))

def buildConfig (i : Inputs) : Config :=
  let opts := defaultCA i.opts
  let redirect := redirectDomainSet (sortedRoutes i.routes) opts
  let policies := buildTLSPolicies ((sortedRoutes i.routes).map Route.view) opts
  let http := (domains i.routes).map (fun d => if redirect d then .redirect d else i.site d) ++ [.fallback]
  { https := (domains i.routes).map i.site ++ [.fallback]
    http := if policies = [] then http else .challenge :: http
    policies := policies
    layer4 := buildLayer4Servers i.tcpUpstreams i.tcpRoutes }

def trimSuffix (c : Char) (cs : List Char) : List Char := if cs.getLast? = some c then cs.dropLast else cs

def stripPrefix (path : String) : String := String.ofList (trimSuffix '/' (trimSuffix '*' path.toList))

def pathMatchers (path : String) : List String :=
  if path.toList.getLast? = some '*' then [path]
  else
    let exact := String.ofList (trimSuffix '/' path.toList)
    [exact, exact ++ "/*"]

namespace Json

def strs (l : List String) : Json := .arr (l.map .str)

def nilable : List Json → Json
  | [] => .null
  | items => .arr items

end Json

open Json

def Proxy.proxy (p : Proxy) : Json := obj
  [("handler", str "reverse_proxy"),
    ("health_checks", obj [("passive", obj [("fail_duration", str "10s")])]),
    ("load_balancing", obj [("retries", num 2), ("selection_policy", obj [("policy", str "random")]),
      ("try_duration", str "0s")]),
    ("upstreams", nilable (p.upstreams.map (fun dial => obj [("dial", str dial)])))]

def buildHandleChain (p : Proxy) : Json :=
  if p.route.stripPath && p.route.path ≠ "" then
    arr [obj [("handler", str "rewrite"), ("strip_path_prefix", str (stripPrefix p.route.path))], p.proxy]
  else arr [p.proxy]

def buildProxyHandle (p : Proxy) : Json := obj [("handle", arr [p.proxy])]

def buildPathRoute (p : Proxy) : Json := obj
  [("handle", buildHandleChain p), ("match", arr [obj [("path", strs (pathMatchers p.route.path))]])]

def buildSingleRoute (domain : String) (p : Proxy) : Json := obj
  [("handle", buildHandleChain p),
    ("match", arr [obj (("host", strs [domain]) ::
      if p.route.path ≠ "" then [("path", strs (pathMatchers p.route.path))] else [])])]

def Block.json (domain : String) : Block → Json
  | .single p => buildSingleRoute domain p
  | .subroutes ps => obj
      [("handle", arr [obj [("handler", str "subroute"),
          ("routes", arr (ps.map (fun p => if p.route.path = "" then buildProxyHandle p else buildPathRoute p)))]]),
        ("match", arr [obj [("host", strs [domain])]])]

def acmeChallengePathGlob : String := "/.well-known/acme-challenge/*"

def SiteRoute.json : SiteRoute → Json
  | .challenge => obj
      [("handle", arr [obj [("handler", str "jaco_acme_challenge")]]),
        ("match", arr [obj [("path", strs [acmeChallengePathGlob])]])]
  | .redirect domain => obj
      [("handle", arr [obj [("handler", str "static_response"),
          ("headers", obj [("Location", strs ["https://\x7bhttp.request.host\x7d\x7bhttp.request.uri\x7d"])]),
          ("status_code", num 308)]]),
        ("match", arr [obj [("host", strs [domain]), ("not", arr [obj [("path", strs [acmeChallengePathGlob])]])]])]
  | .site domain block => block.json domain
  | .fallback => obj
      [("handle", arr [obj [("handler", str "static_response"), ("headers", obj [("Server", strs ["jaco"])]),
        ("status_code", num 404)]])]

def tlsPolicy (p : Policy) : Json := obj
  [("issuers", arr [obj ([("ca", str p.ca),
      ("challenges", obj [("http", obj []), ("tls-alpn", obj [("disabled", bool true)])])] ++
      (if p.email ≠ "" then [("email", str p.email)] else []) ++ [("module", str "acme")])]),
    ("key_type", str "p256"),
    ("storage", obj [("module", str "jaco")]),
    ("subjects", strs p.subjects)]

def Layer4Server.name (s : Layer4Server) : String := "tcp_" ++ toString s.route.publishedPort

def Layer4Server.json (s : Layer4Server) : Json := obj
  [("listen", strs [":" ++ toString s.route.publishedPort]),
    ("routes", arr [obj [("handle", arr [obj
      [("handler", str "proxy"),
        ("load_balancing", obj [("selection", obj [("policy", str "round_robin")])]),
        ("upstreams", nilable (s.upstreams.map (fun dial => obj [("dial", strs [dial])])))]])]])]

def Config.server (c : Config) (listen : String) (routes : List SiteRoute) : Json := obj
  [("automatic_https", obj [if c.policies = [] then ("disable", bool true) else ("disable_redirects", bool true)]),
    ("listen", strs [listen]),
    ("routes", arr (routes.map SiteRoute.json))]

def Config.json (c : Config) : Json := obj [("apps", obj
  ([("http", obj [("servers", obj [("jaco_http", c.server ":80" c.http), ("jaco_https", c.server ":443" c.https)])])] ++
    (if c.layer4 = [] then [] else
      [("layer4", obj [("servers", obj ((c.layer4.insertionSort (fun a b => a.name ≤ b.name)).map
      (fun s => (s.name, s.json))))])]) ++
    (if c.policies = [] then [] else
      [("tls", obj [("automation", obj [("policies", arr (c.policies.map tlsPolicy))])])])))]

def buildCaddyConfig (i : Inputs) : Json := (buildConfig i).json

end Jaco.Caddy
