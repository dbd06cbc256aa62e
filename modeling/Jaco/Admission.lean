import Jaco.Fsm

namespace Jaco

inductive GrpcCode where
  | invalidArgument | notFound | permissionDenied | failedPrecondition | internal | unavailable | unauthenticated
  | resourceExhausted | deadlineExceeded
  deriving DecidableEq

structure Status where
  grpc : GrpcCode
  code : String
  message : String
  deriving DecidableEq

inductive RaftRole where
  | unwired | follower | leader

def requireLeader (role : RaftRole) (call : String) : Option Status :=
  match role with
  | .unwired => some ⟨.unavailable, "raft_unavailable", "raft not wired"⟩
  | .follower => some ⟨.unavailable, "no_leader", call ++ " requires leader"⟩
  | .leader => none

namespace Admission

def localIdentity : String := "local"

structure CallContext where
  network : Option String
  authorization : Option (List String)

def isUnixPeer (ctx : CallContext) : Bool := ctx.network == some "unix"

def authError (code message : String) : Status := ⟨.unauthenticated, code, message⟩

def bearer (ctx : CallContext) : Except Status String :=
  match ctx.authorization with
  | none => .error (authError "token_invalid" "missing metadata")
  | some [] => .error (authError "token_invalid" "missing authorization header")
  | some (auth :: _) =>
    if "Bearer ".toList <+: auth.toList ∧ auth.toList.drop 7 ≠ [] then .ok (String.ofList (auth.toList.drop 7))
    else .error (authError "token_invalid" "authorization header must use Bearer scheme")

variable (sha256 : Bytes → Bytes)

def hashSecret (token : String) : Bytes := sha256 token.toUTF8.toList

def lookupTokenByHash {s : State} (tokens : s.tokens.Listing) (hash : Bytes) : Option Token :=
  tokens.items.find? (fun t => t.hashedSecret = hash)

def authResolve {s : State} (tokens : s.tokens.Listing) (ctx : CallContext) : Except Status String :=
  if isUnixPeer ctx then .ok localIdentity
  else match bearer ctx with
    | .error e => .error e
    | .ok token =>
      match lookupTokenByHash tokens (hashSecret sha256 token) with
      | none => .error (authError "token_invalid" "unknown token")
      | some t =>
        if t.revokedAt.isSome then .error (authError "token_revoked" "token has been revoked") else .ok t.identity

def unauthMethods : List String :=
  ["/jaco.v1.Cluster/NodeJoin", "/jaco.v1.Cluster/Status", "/jaco.v1.Internal/Submit", "/jaco.v1.Internal/SignNodeCert",
    "/jaco.v1.Internal/Logs", "/jaco.v1.Internal/EnsureSubnet"]

/-- The unary and the stream interceptor decide alike; the value is the identity the handler's context carries. -/
def interceptor {s : State} (tokens : s.tokens.Listing) (method : String) (ctx : CallContext) :
    Except Status (Option String) :=
  if method ∈ unauthMethods then .ok none
  else match authResolve sha256 tokens ctx with
    | .error e => .error e
    | .ok identity => .ok (some identity)

def Admitted {s : State} (tokens : s.tokens.Listing) (method : String) (ctx : CallContext) : Prop :=
  ∃ identity, interceptor sha256 tokens method ctx = .ok identity

theorem lookupTokenByHash_spec {s : State} (tokens : s.tokens.Listing) (hash : Bytes) (t : Token)
    (h : lookupTokenByHash tokens hash = some t) : s.tokens.get t.identity = some t ∧ t.hashedSecret = hash := by
  have hm := (tokens.mem_items t).mp (List.mem_of_find?_eq_some h)
  exact ⟨hm, by simpa using List.find?_some h⟩

theorem authResolve_ok {s : State} (tokens : s.tokens.Listing) (ctx : CallContext) (identity : String)
    (htcp : isUnixPeer ctx = false) (h : authResolve sha256 tokens ctx = .ok identity) :
    ∃ token t, bearer ctx = .ok token ∧ lookupTokenByHash tokens (hashSecret sha256 token) = some t ∧
      t.revokedAt = none ∧ t.identity = identity := by
  unfold authResolve at h
  simp only [htcp, Bool.false_eq_true, ↓reduceIte] at h
  cases hb : bearer ctx with
  | error e => simp [hb] at h
  | ok token =>
    simp only [hb] at h
    cases hl : lookupTokenByHash tokens (hashSecret sha256 token) with
    | none => simp [hl] at h
    | some t =>
      simp only [hl] at h
      cases hr : t.revokedAt with
      | some at_ => simp [hr] at h
      | none =>
        simp only [hr, Option.isSome_none, Bool.false_eq_true, ↓reduceIte, Except.ok.injEq] at h
        exact ⟨token, t, rfl, hl, hr, h⟩

end Admission

namespace Tokens

def issue (sha256 : Bytes → Bytes) (role : RaftRole) (caller identity : String) (allowsPrivileged : Bool)
    (random : Bytes) (now : Timestamp) : Except Status (String × Entry) :=
  match requireLeader role "issue" with
  | some e => .error e
  | none =>
    if identity = "" then .error ⟨.invalidArgument, "validation_failed", "identity is required"⟩
    else
      let token := GoStrings.hexEncode random
      .ok (token, ⟨caller, some now, .tokenIssue ⟨identity, Admission.hashSecret sha256 token, allowsPrivileged⟩⟩)

def revoke (role : RaftRole) (caller identity : String) (now : Timestamp) : Except Status Entry :=
  match requireLeader role "revoke" with
  | some e => .error e
  | none =>
    if identity = "" then .error ⟨.invalidArgument, "validation_failed", "identity is required"⟩
    else .ok ⟨caller, some now, .tokenRevoke identity⟩

end Tokens

end Jaco
