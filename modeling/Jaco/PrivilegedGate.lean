import Jaco.RouteOwnership

namespace Jaco.Deploy

open Admission

variable (sha256 : Bytes → Bytes)

def call (p : Parsers) (role : RaftRole) {s : State} (tokens : s.tokens.Listing) (ctx : CallContext)
    (now : Timestamp) (req : ApplyRequest) : Except Status ApplyResult :=
  match authResolve sha256 tokens ctx with
  | .error e => .error e
  | .ok identity => apply p role s identity now req

def Commits (r : Except Status ApplyResult) : Prop := ∃ result, r = .ok result ∧ result.commits ≠ []

def IsPrivileged (p : Parsers) (req : ApplyRequest) : Prop :=
  ∃ jaco project, parseAndValidate p req = .ok (jaco, project) ∧
    ∃ svc ∈ project.services, svc.privileged = true ∨ svc.securityOpt ≠ []

def Presents {s : State} (tokens : s.tokens.Listing) (ctx : CallContext) (t : Token) : Prop :=
  ∃ token, bearer ctx = .ok token ∧ lookupTokenByHash tokens (hashSecret sha256 token) = some t

theorem presents_unique {s : State} (tokens : s.tokens.Listing) (ctx : CallContext) (t t' : Token)
    (h : Presents sha256 tokens ctx t) (h' : Presents sha256 tokens ctx t') : t = t' := by
  obtain ⟨token, hb, hl⟩ := h
  obtain ⟨token', hb', hl'⟩ := h'
  rw [hb, Except.ok.injEq] at hb'
  subst hb'
  rw [hl] at hl'
  exact Option.some.inj hl'

theorem presents_stored {s : State} (tokens : s.tokens.Listing) (ctx : CallContext) (t : Token)
    (h : Presents sha256 tokens ctx t) : s.tokens.get t.identity = some t := by
  obtain ⟨token, -, hl⟩ := h
  exact (lookupTokenByHash_spec tokens _ t hl).1

variable (p : Parsers) (role : RaftRole)

theorem call_of_presents {s : State} (tokens : s.tokens.Listing) (ctx : CallContext)
    (now : Timestamp) (req : ApplyRequest) (t : Token) (hremote : isUnixPeer ctx = false)
    (h : Presents sha256 tokens ctx t) (hr : t.revokedAt = none) :
    call sha256 p role tokens ctx now req = apply p role s t.identity now req := by
  obtain ⟨token, hb, hl⟩ := h
  simp [call, authResolve, hremote, hb, hl, hr]

theorem presents_of_commits {s : State} (tokens : s.tokens.Listing)
    (ctx : CallContext) (now : Timestamp) (req : ApplyRequest) (hremote : isUnixPeer ctx = false)
    (h : Commits (call sha256 p role tokens ctx now req)) :
    ∃ t, Presents sha256 tokens ctx t ∧ t.revokedAt = none := by
  obtain ⟨result, hcall, -⟩ := h
  unfold call at hcall
  cases hauth : authResolve sha256 tokens ctx with
  | error e => simp [hauth] at hcall
  | ok identity =>
    obtain ⟨token, t, hb, hl, hr, -⟩ := authResolve_ok sha256 tokens ctx identity hremote hauth
    exact ⟨t, ⟨token, hb, hl⟩, hr⟩

theorem collectPrivilegedServices_ne_nil (project : Project) (svc : ServiceConfig) (hm : svc ∈ project.services)
    (h : svc.privileged = true ∨ svc.securityOpt ≠ []) : collectPrivilegedServices project ≠ [] := by
  have hf : privilegedFields svc ≠ [] := by
    rcases h with h | h
    · simp [privilegedFields, h]
    · simp [privilegedFields, h]
  apply List.ne_nil_of_mem (a := ⟨svc.name, privilegedFields svc⟩)
  rw [collectPrivilegedServices, List.mem_insertionSort, List.mem_filterMap]
  exact ⟨svc, hm, if_neg hf⟩

variable (s : State) (identity : String) (now : Timestamp) (req : ApplyRequest)

theorem privileged_commit_identity (h : Commits (apply p role s identity now req)) (hp : IsPrivileged p req) :
    identity = localIdentity ∨ ∃ t, s.tokens.get identity = some t ∧ t.allowsPrivileged = true := by
  obtain ⟨result, happly, hne⟩ := h
  obtain ⟨e, he⟩ := Option.isSome_iff_exists.mp (List.isSome_head?.mpr hne)
  obtain ⟨a, hadmit, -⟩ := apply_head p role s identity now req result e happly he
  obtain ⟨-, hparse, -, -, -, hgate⟩ := (admission_eq_ok_iff p role s identity req a).mp hadmit
  obtain ⟨jaco, project, hparse', svc, hsvc, hpriv⟩ := hp
  rw [hparse, Except.ok.injEq, Prod.mk.injEq] at hparse'
  rw [hparse'.2] at hgate
  have hcol := collectPrivilegedServices_ne_nil project svc hsvc hpriv
  unfold checkPrivilegedAdmission at hgate
  cases hc : collectPrivilegedServices project with
  | nil => exact absurd hc hcol
  | cons first rest =>
    by_cases hlocal : identity = localIdentity
    · exact Or.inl hlocal
    · right
      by_cases hempty : identity = ""
      · simp only [hc, if_neg hlocal, if_pos hempty, reduceCtorEq] at hgate
      · cases ht : s.tokens.get identity with
        | none => simp [hc, hlocal, hempty, ht] at hgate
        | some t =>
          refine ⟨t, rfl, ?_⟩
          by_contra hallow
          simp [hc, hlocal, hempty, ht, hallow] at hgate

/-- The request passes every check of `Apply` other than the privileged gate, and is not a dry run. -/
def Deployable (p : Parsers) (role : RaftRole) (s : State) (req : ApplyRequest) : Prop :=
  req.dryRun = false ∧ requireLeader role "apply" = none ∧ ∃ jaco project services,
    parseAndValidate p req = .ok (jaco, project) ∧ unknownOverride jaco project = none ∧
      mergeServiceDefaults jaco project = .ok services ∧ rejection s jaco project services = none

theorem commits_apply_iff :
    Commits (apply p role s identity now req) ↔ req.dryRun = false ∧ ∃ a, admission p role s identity req = .ok a := by
  unfold Commits apply
  cases hadmit : admission p role s identity req with
  | error e => simp
  | ok a => cases hdry : req.dryRun <;> simp

theorem commits_local_iff (s : State) (now : Timestamp) (req : ApplyRequest) :
    Commits (apply p role s localIdentity now req) ↔ Deployable p role s req := by
  have hgate : ∀ services, checkPrivilegedAdmission s localIdentity services = none := by
    intro services
    cases services <;> simp [checkPrivilegedAdmission]
  rw [commits_apply_iff, Deployable]
  refine and_congr_right (fun _ => ⟨?_, ?_⟩)
  · rintro ⟨a, ha⟩
    obtain ⟨hl, hparse, hu, hm, hr, -⟩ := (admission_eq_ok_iff p role s localIdentity req a).mp ha
    exact ⟨hl, a.jaco, a.project, a.services, hparse, hu, hm, hr⟩
  · rintro ⟨hl, jaco, project, services, hparse, hu, hm, hr⟩
    exact ⟨⟨jaco, project, services⟩,
      (admission_eq_ok_iff p role s localIdentity req _).mpr ⟨hl, hparse, hu, hm, hr, hgate _⟩⟩

theorem remote_privileged_iff (p : Parsers) (role : RaftRole) (s : State) (tokens : s.tokens.Listing)
    (ctx : CallContext) (now : Timestamp) (req : ApplyRequest) (hremote : isUnixPeer ctx = false) :
    (Commits (call sha256 p role tokens ctx now req) → IsPrivileged p req →
      ∃ t, Presents sha256 tokens ctx t ∧ t.allowsPrivileged = true ∧ t.revokedAt = none) ↔
    ∀ t, Presents sha256 tokens ctx t → t.revokedAt = none → t.identity = localIdentity →
      Deployable p role s req → IsPrivileged p req → t.allowsPrivileged = true := by
  constructor
  · intro h t hpres hr hlocal hdeploy hp
    have hcommit := (commits_local_iff p role s now req).mpr hdeploy
    rw [← hlocal, ← call_of_presents sha256 p role tokens ctx now req t hremote hpres hr] at hcommit
    obtain ⟨t', hpres', hallow, -⟩ := h hcommit hp
    rw [presents_unique sha256 tokens ctx t t' hpres hpres']
    exact hallow
  · intro h hcommit hp
    obtain ⟨t, hpres, hr⟩ := presents_of_commits sha256 p role tokens ctx now req hremote hcommit
    refine ⟨t, hpres, ?_, hr⟩
    rw [call_of_presents sha256 p role tokens ctx now req t hremote hpres hr] at hcommit
    rcases privileged_commit_identity p role s t.identity now req hcommit hp with hlocal | ⟨t', ht', hallow⟩
    · rw [hlocal] at hcommit
      exact h t hpres hr hlocal ((commits_local_iff p role s now req).mp hcommit) hp
    · rw [presents_stored sha256 tokens ctx t hpres] at ht'
      cases ht'
      exact hallow

def agentProject : Project where
  services := [{
    name := "agent", image := "agent", privileged := true, labels := [("jaco.io/allow-privileged", "true")] }]
  nodup := by decide

def agentParsers : Parsers where
  decodeJaco _ := .ok { deployment := "agent" }
  mailError _ := none
  validateCompose _ := none
  loadCompose _ := .ok agentProject
  specHash _ _ := .error ""

theorem agent_privileged : IsPrivileged agentParsers sampleRequest :=
  ⟨_, _, rfl, _, List.mem_singleton.mpr rfl, Or.inl rfl⟩

def sampleToken : String := GoStrings.hexEncode (List.replicate 32 0)

def overTcp : CallContext := ⟨some "tcp", some ["Bearer " ++ sampleToken]⟩

def issuedToken (identity : String) (allows : Bool) : Token :=
  { identity := identity, hashedSecret := hashSecret sha256 sampleToken, issuedAt := some 0,
    allowsPrivileged := allows }

def issueEntry (identity : String) (allows : Bool) : Entry :=
  ⟨"ops", some 0, .tokenIssue ⟨identity, hashSecret sha256 sampleToken, allows⟩⟩

def issuedState (identity : String) (allows : Bool) : State := applyEntry 1 .new (issueEntry sha256 identity allows)

theorem presents_issuedToken (identity : String) (allows : Bool) :
    Presents sha256 (issuedState sha256 identity allows).tokens.listing overTcp
    (issuedToken sha256 identity allows) := by
  refine ⟨sampleToken, by decide +kernel, ?_⟩
  have hlist : (issuedState sha256 identity allows).tokens.list = [issuedToken sha256 identity allows] :=
    Store.list_empty_apply _
  simp [lookupTokenByHash, Store.listing, hlist, issuedToken]

def sampleSha256 (_ : Bytes) : Bytes :=
  [0x60, 0xe0, 0x5b, 0xd1, 0xb1, 0x95, 0xaf, 0x2f, 0x94, 0x11, 0x2f, 0xa7, 0x19, 0x7a, 0x5c, 0x88,
   0x28, 0x90, 0x58, 0x84, 0x0c, 0xe7, 0xc6, 0xdf, 0x96, 0x93, 0x75, 0x6b, 0xc6, 0x25, 0x0f, 0x55]

theorem deployer_token_admits :
    ∃ t, Presents sampleSha256 (issuedState sampleSha256 "deployer" true).tokens.listing overTcp t ∧
      t.allowsPrivileged = true ∧ t.revokedAt = none := by
  refine (remote_privileged_iff sampleSha256 agentParsers .leader (issuedState sampleSha256 "deployer" true) _ overTcp 1
    sampleRequest (by decide)).mpr ?_ ?_ agent_privileged
  · intro t ht _ _ _ _
    rw [presents_unique sampleSha256 _ _ _ _ ht (presents_issuedToken sampleSha256 "deployer" true)]
    rfl
  · rw [call_of_presents sampleSha256 _ _ _ _ _ _ _ (by decide) (presents_issuedToken sampleSha256 "deployer" true) rfl]
    change Commits (apply agentParsers .leader (issuedState sampleSha256 "deployer" true) "deployer" 1 sampleRequest)
    have hget : (issuedState sampleSha256 "deployer" true).tokens.get "deployer" =
        some (issuedToken sampleSha256 "deployer" true) :=
      presents_stored sampleSha256 _ _ _ (presents_issuedToken sampleSha256 "deployer" true)
    have hgate : checkPrivilegedAdmission (issuedState sampleSha256 "deployer" true) "deployer"
        [⟨"agent", ["privileged"]⟩] = none := by
      simp only [checkPrivilegedAdmission]
      rw [if_neg (by decide), if_neg (by decide), hget]
      rfl
    have hadmit : admission agentParsers .leader (issuedState sampleSha256 "deployer" true) "deployer" sampleRequest =
        .ok ⟨{ deployment := "agent" }, agentProject, [{ name := "agent", replicas := 1, placement := .spread }]⟩ := by
      rw [admission_eq_ok_iff]
      exact ⟨rfl, rfl, rfl, rfl, rfl, hgate⟩
    exact ⟨_, by rw [apply, hadmit]; rfl, by simp⟩

theorem local_token_admits_privileged :
    Tokens.issue sampleSha256 .leader "ops" "local" false (List.replicate 32 0) 0 =
        .ok (sampleToken, issueEntry sampleSha256 "local" false) ∧
      isUnixPeer overTcp = false ∧ IsPrivileged agentParsers sampleRequest ∧
      Commits (call sampleSha256 agentParsers .leader (issuedState sampleSha256 "local" false).tokens.listing overTcp 1
        sampleRequest) ∧
      ¬ ∃ t, Presents sampleSha256 (issuedState sampleSha256 "local" false).tokens.listing overTcp t ∧
        t.allowsPrivileged = true ∧ t.revokedAt = none := by
  refine ⟨rfl, by decide, agent_privileged, ?_, ?_⟩
  · rw [call_of_presents sampleSha256 _ _ _ _ _ _ _ (by decide) (presents_issuedToken sampleSha256 "local" false) rfl]
    exact ⟨_, rfl, by simp⟩
  · rintro ⟨t, ht, hallow, -⟩
    rw [presents_unique sampleSha256 _ _ _ _ ht (presents_issuedToken sampleSha256 "local" false)] at hallow
    cases hallow

end Jaco.Deploy
