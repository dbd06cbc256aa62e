import Jaco.Histories
import Jaco.PrivilegedGate
import Jaco.SharedCluster

namespace Jaco.Membership

open Interleaving Runs List GoStrings

structure NodeJoinRequest where
  name : String
  joinToken : String
  csrPem : Bytes
  advertiseAddr : String
  wireguardPubkey : Bytes := []
  grpcAddress : String := ""

structure NodeJoinResponse where
  clusterId : String
  signedCert : Bytes
  caCert : Bytes
  peerAddrs : List String
  deriving DecidableEq

inductive Handler where
  | daemon | controlplane

/-- The daemon's errors are bare texts; the control plane's carry a code. -/
def Handler.error (h : Handler) (grpc : GrpcCode) (text code message : String) : Status :=
  match h with
  | .daemon => ⟨grpc, "", text⟩
  | .controlplane => ⟨grpc, code, message⟩

section

variable (sha256 : Bytes → Bytes) (signNodeCSR : Bytes → Bytes → Bytes → Except String Bytes)

def tokenKey (token : String) : String := hexEncode (Admission.hashSecret sha256 token)

def checkToken (h : Handler) (s : State) (now : Timestamp) (token : String) : Option Status :=
  match s.joinTokens.get (tokenKey sha256 token) with
  | none => some (h.error .permissionDenied "join_token_invalid" "join_token_invalid" "unknown join token")
  | some tok =>
    if tok.consumedAt.isSome then
      some (h.error .permissionDenied "join_token_consumed" "join_token_consumed" "join token already used")
    else if tok.expiresAt.any (fun exp => exp < now) then
      some (h.error .permissionDenied "join_token_expired" "join_token_expired" "join token expired")
    else none

def check (h : Handler) (role : RaftRole) (s : State) (now : Timestamp) (req : NodeJoinRequest) :
    Except Status (ClusterMeta × Bytes) :=
  match role with
  | .unwired => .error (h.error .unavailable
      "raft_unavailable: daemon has no raft state — run `jaco cluster init` first" "raft_unavailable" "raft not wired")
  | .follower => .error (h.error .unavailable "no_leader: NodeJoin must be sent to the leader" "no_leader"
      "join requires leader")
  | .leader =>
    if req.name = "" ∨ req.joinToken = "" ∨ req.csrPem = [] ∨ req.advertiseAddr = "" then
      .error (h.error .invalidArgument "validation_failed: name, join_token, csr_pem, advertise_addr required"
        "validation_failed" "name, join_token, csr_pem, advertise_addr required")
    else
      match checkToken sha256 h s now req.joinToken with
      | some e => .error e
      | none =>
        match s.cluster with
        | none => .error (h.error .internal "ca_missing: cluster CA not in state" "ca_missing"
            "cluster CA not present in state")
        | some info =>
          if info.caCert = [] ∨ info.caKey = [] then
            .error (h.error .internal "ca_missing: cluster CA not in state" "ca_missing"
              "cluster CA not present in state")
          else
            match signNodeCSR req.csrPem info.caCert info.caKey with
            | .error err => .error (h.error .invalidArgument ("csr_invalid: " ++ err) "csr_invalid" err)
            | .ok cert => .ok (info, cert)

def joinBatch (h : Handler) (now : Timestamp) (req : NodeJoinRequest) : Command :=
  let identity := "join_token:" ++ String.ofList ((tokenKey sha256 req.joinToken).toList.take 8)
  let child (p : Payload) : Command := .single ⟨identity, some now, p⟩
  let consume := child (.joinTokenConsume (Admission.hashSecret sha256 req.joinToken))
  match h with
  | .daemon => .batch identity (some now)
      [consume, child (.nodeJoin ⟨req.name, req.advertiseAddr, [], req.wireguardPubkey, req.grpcAddress⟩),
        child (.nodeStatusUpdate { hostname := req.name, status := .ready })]
  | .controlplane => .batch identity (some now)
      [consume, child (.nodeJoin ⟨req.name, req.advertiseAddr, [], req.wireguardPubkey, ""⟩)]

end

def peerAddrs (localAddr : String) (nodes : List Node) (req : NodeJoinRequest) : List String :=
  localAddr :: (nodes.map (·.address)).filter (fun a => a ≠ "" && a ≠ localAddr && a ≠ req.advertiseAddr)

inductive Phase where
  | started
  | checked (info : ClusterMeta) (cert : Bytes)
  | added (info : ClusterMeta) (cert : Bytes)
  | succeeded (r : NodeJoinResponse)
  | failed (e : Status)
  deriving DecidableEq

def Phase.pending : Phase → Bool
  | .checked _ _ | .added _ _ => true
  | _ => false

def Phase.success : Phase → Bool
  | .succeeded _ => true
  | _ => false

structure Call where
  handler : Handler
  req : NodeJoinRequest
  phase : Phase := .started

structure World where
  history : History State
  calls : List Call

def World.push (w : World) (c : Command) : World :=
  { w with history := w.history.push (c.apply w.history.states.length w.history.now) }

def World.moveTo (w : World) (i : Nat) (phase : Phase) : World :=
  { w with calls := w.calls.modify i (fun c => { c with phase := phase }) }

def LeavesToken (key : String) : Payload → Prop
  | .joinTokenIssue ji => hexEncode ji.hashedSecret ≠ key
  | .joinTokenConsume hashedSecret => hexEncode hashedSecret ≠ key
  | _ => True

structure Unrelated (key : String) where
  command : Command
  frame : ∀ e ∈ command.entries, LeavesToken key e.payload

inductive Event (key : String) where
  | begin (h : Handler) (req : NodeJoinRequest)
  | check (i lag : Nat) (role : RaftRole) (now : Timestamp)
  | addNonvoter (i : Nat) (error : Option String)
  | commit (i : Nat) (now : Timestamp) (fate : Fate) (error localAddr : String)
  | other (c : Unrelated key)

section

variable (sha256 : Bytes → Bytes) (signNodeCSR : Bytes → Bytes → Bytes → Except String Bytes)

def World.check (w : World) (i lag : Nat) (role : RaftRole) (now : Timestamp) (c : Call) : World :=
  w.moveTo i (match Membership.check sha256 signNodeCSR c.handler role (w.history.read lag) now c.req with
    | .error e => .failed e
    | .ok (info, cert) => .checked info cert)

def addFailed (h : Handler) (err : String) : Status :=
  h.error .internal ("raft_add_voter_failed: " ++ err) "raft_add_nonvoter_failed" err

def applyFailed (h : Handler) (err : String) : Status :=
  h.error .internal ("raft_apply_failed: " ++ err) "raft_apply_failed" err

def World.commit (w : World) (i : Nat) (now : Timestamp) (fate : Fate) (err localAddr : String) (c : Call)
    (info : ClusterMeta) (cert : Bytes) : World :=
  let committed := w.push (joinBatch sha256 c.handler now c.req)
  match fate with
  | .acked => committed.moveTo i (.succeeded ⟨info.clusterId, cert, info.caCert,
      peerAddrs localAddr committed.history.now.nodes.list c.req⟩)
  | .unacked => committed.moveTo i (.failed (applyFailed c.handler err))
  | .lost => w.moveTo i (.failed (applyFailed c.handler err))

def step (key : String) (w : World) : Event key → World
  | .begin h req => { w with calls := w.calls ++ [{ handler := h, req := req }] }
  | .check i lag role now =>
    match w.calls[i]? with
    | some c => if c.phase = .started then w.check sha256 signNodeCSR i lag role now c else w
    | none => w
  | .addNonvoter i error =>
    match w.calls[i]? with
    | some ⟨h, _, .checked info cert⟩ =>
      w.moveTo i (match error with
        | none => .added info cert
        | some err => .failed (addFailed h err))
    | _ => w
  | .commit i now fate err localAddr =>
    match w.calls[i]? with
    | some ⟨h, req, .added info cert⟩ =>
      w.commit sha256 i now fate err localAddr ⟨h, req, .added info cert⟩ info cert
    | _ => w
  | .other c => w.push c.command

def AtMostOnce (token : String) (w : World) : Prop :=
  ∀ (i j : Nat) (c d : Call), w.calls[i]? = some c → w.calls[j]? = some d → c.req.joinToken = token →
    d.req.joinToken = token → c.phase.success = true → d.phase.success = true → i = j

/-- The call checks the token while no other call that presents it is between its own check and its answer, and on a
state that shows the token as the newest one does. -/
def ChecksAlone (token : String) (w : World) : Event (tokenKey sha256 token) → Prop
  | .check i lag _ _ =>
    ∀ c, w.calls[i]? = some c → c.req.joinToken = token →
      (∀ d ∈ w.calls, d.req.joinToken = token → d.phase.pending = false) ∧
      (w.history.read lag).joinTokens.get (tokenKey sha256 token) =
        w.history.now.joinTokens.get (tokenKey sha256 token)
  | _ => True

end

def Spent (key : String) (s : State) : Prop := ∀ tok, s.joinTokens.get key = some tok → tok.consumedAt.isSome = true

theorem get_joinTokens_entry {idx : Nat} {s : State} {e : Entry} {key : String} (he : LeavesToken key e.payload) :
    (applyEntry idx s e).joinTokens.get key = s.joinTokens.get key := by
  have hmutate : (applyEntry idx s e).joinTokens = (mutate s e.ts idx e.payload).joinTokens :=
    applyEntry_agree_mutate idx s e .joinTokens (by decide)
  rw [hmutate]
  by_cases hw : Part.joinTokens ∈ writes e.payload
  · generalize e.payload = p at he hw ⊢
    cases p with
    | joinTokenIssue ji =>
      simp only [mutate, Store.get_apply]
      exact if_neg he
    | joinTokenConsume hashedSecret =>
      simp only [mutate]
      split
      · rfl
      · rename_i tok htok
        have hkey : tok.key = hexEncode hashedSecret := Store.get_key htok
        have hne : ({ tok with consumedAt := e.ts } : JoinToken).key ≠ key := hkey.trans_ne he
        rw [Store.get_apply, if_neg hne]
    | _ => simp [writes] at hw
  · rw [show (mutate s e.ts idx e.payload).joinTokens = s.joinTokens from mutate_agree s e.ts idx
      e.payload .joinTokens hw]

theorem spent_command (key : String) (idx : Nat) (s : State) (c : Command)
    (hc : ∀ e ∈ c.entries, LeavesToken key e.payload) (hs : Spent key s) : Spent key (c.apply idx s) := by
  refine Command.apply_keeps (Q := Spent key) (G := LeavesToken key) ?_ idx c hc s hs
  intro idx s e he hs tok htok
  rw [get_joinTokens_entry he] at htok
  exact hs tok htok

theorem spent_consume {key : String} {idx : Nat} {s : State} {e : Entry} {now : Timestamp} (hashedSecret : Bytes)
    (hts : e.ts = some now) (hp : e.payload = .joinTokenConsume hashedSecret)
    (h : hexEncode hashedSecret = key ∨ Spent key s) : Spent key (applyEntry idx s e) := by
  intro tok htok
  by_cases hkey : hexEncode hashedSecret = key
  · have hmutate : (applyEntry idx s e).joinTokens = (mutate s e.ts idx e.payload).joinTokens :=
      applyEntry_agree_mutate idx s e .joinTokens (by decide)
    rw [hmutate, hp, hts] at htok
    simp only [mutate, hkey] at htok
    split at htok
    · rename_i hnone
      rw [hnone] at htok
      cases htok
    · rename_i old hold
      have hold' : old.key = key := Store.get_key hold
      have hself : ({ old with consumedAt := some now } : JoinToken).key = key := hold'
      rw [Store.get_apply, if_pos hself] at htok
      cases htok
      rfl
  · rw [get_joinTokens_entry (by rw [hp]; exact hkey)] at htok
    exact (h.resolve_left hkey) tok htok

theorem spent_joinBatch (sha256 : Bytes → Bytes) (key : String) (idx : Nat) (s : State) (h : Handler)
    (now : Timestamp) (req : NodeJoinRequest) (hs : tokenKey sha256 req.joinToken = key ∨ Spent key s) :
    Spent key ((joinBatch sha256 h now req).apply idx s) := by
  -- the first child consumes the token, the others do not touch it
  have hrest (e : Entry) (t : State) (he : LeavesToken key e.payload) (ht : Spent key t) :
      Spent key (applyEntry idx t e) := by
    intro tok htok
    rw [get_joinTokens_entry he] at htok
    exact ht tok htok
  rw [Command.apply_eq_foldl]
  cases h with
  | daemon =>
    simp only [joinBatch, entries_batch, flatMap_cons, flatMap_nil, entries_single, append_nil,
      foldl_append, foldl_cons, foldl_nil]
    exact hrest _ _ trivial (hrest _ _ trivial (spent_consume _ rfl rfl hs))
  | controlplane =>
    simp only [joinBatch, entries_batch, flatMap_cons, flatMap_nil, entries_single, append_nil,
      foldl_append, foldl_cons, foldl_nil]
    exact hrest _ _ trivial (spent_consume _ rfl rfl hs)

def Phase.live (p : Phase) : Bool := p.pending || p.success

def Claims (token : String) (c : Call) : Prop := c.req.joinToken = token ∧ c.phase.live = true

structure Safe (sha256 : Bytes → Bytes) (token : String) (w : World) : Prop where
  unique : ∀ (i j : Nat) (c d : Call), w.calls[i]? = some c → w.calls[j]? = some d → Claims token c →
    Claims token d → i = j
  spent : ∀ c ∈ w.calls, c.req.joinToken = token → c.phase.success = true →
    Spent (tokenKey sha256 token) w.history.now

section

variable {sha256 : Bytes → Bytes} {signNodeCSR : Bytes → Bytes → Bytes → Except String Bytes}
  {token : String} {w : World}

theorem atMostOnce_of_safe (hw : Safe sha256 token w) : AtMostOnce token w := by
  intro i j c d hc hd hct hdt hcs hds
  exact hw.unique i j c d hc hd ⟨hct, by simp [Phase.live, hcs]⟩ ⟨hdt, by simp [Phase.live, hds]⟩

variable (hw : Safe sha256 token w)

include hw

theorem safe_push (cmd : Command) (h : Spent (tokenKey sha256 token) w.history.now →
      Spent (tokenKey sha256 token) (cmd.apply w.history.states.length w.history.now)) :
    Safe sha256 token (w.push cmd) :=
  ⟨hw.unique, fun c hc ht hs => h (hw.spent c hc ht hs)⟩

theorem safe_moveTo {i : Nat} {c : Call} {phase : Phase} (hc : w.calls[i]? = some c)
    (hlive : c.req.joinToken = token → phase.live = true →
      c.phase.live = true ∨ ∀ d ∈ w.calls, ¬ Claims token d)
    (hspent : c.req.joinToken = token → phase.success = true → Spent (tokenKey sha256 token) w.history.now) :
    Safe sha256 token (w.moveTo i phase) := by
  have hget (j : Nat) (d : Call) (hd : (w.moveTo i phase).calls[j]? = some d) :
      (i = j ∧ d = { c with phase := phase }) ∨ (i ≠ j ∧ w.calls[j]? = some d) := by
    rcases getElem?_modify_cases hd with ⟨rfl, a, ha, hx⟩ | hother
    · rw [hc] at ha
      cases ha
      exact .inl ⟨rfl, hx⟩
    · exact .inr hother
  -- a claim of the moved call leaves no other one standing
  have hmoved (j : Nat) (d : Call) (hij : i ≠ j) (hd : w.calls[j]? = some d) (hdc : Claims token d)
      (hm : Claims token { c with phase := phase }) : False := by
    rcases hlive hm.1 hm.2 with hcl | hnone
    · exact hij (hw.unique i j c d hc hd ⟨hm.1, hcl⟩ hdc)
    · exact hnone d (mem_of_getElem? hd) hdc
  refine ⟨?_, ?_⟩
  · intro j k d e hd he hdc hec
    rcases hget j d hd with ⟨rfl, rfl⟩ | ⟨hij, hd⟩
    · rcases hget k e he with ⟨rfl, -⟩ | ⟨hik, he⟩
      · rfl
      · exact (hmoved k e hik he hec hdc).elim
    · rcases hget k e he with ⟨rfl, rfl⟩ | ⟨-, he⟩
      · exact (hmoved j d hij hd hdc hec).elim
      · exact hw.unique j k d e hd he hdc hec
  · intro d hd ht hs
    obtain ⟨j, hj⟩ := List.getElem?_of_mem hd
    rcases hget j d hj with ⟨rfl, rfl⟩ | ⟨-, hd⟩
    · exact hspent ht hs
    · exact hw.spent d (mem_of_getElem? hd) ht hs

omit hw in
theorem checkToken_spent (h : Handler) {s : State} (now : Timestamp) (hs : Spent (tokenKey sha256 token) s) :
    checkToken sha256 h s now token ≠ none := by
  unfold checkToken
  cases htok : s.joinTokens.get (tokenKey sha256 token) with
  | none => simp
  | some tok => simp [hs tok htok]

omit hw in
theorem check_ok_token {h : Handler} {role : RaftRole} {s : State} {now : Timestamp} {req : NodeJoinRequest}
    {r : ClusterMeta × Bytes} (hr : check sha256 signNodeCSR h role s now req = .ok r) :
    checkToken sha256 h s now req.joinToken = none := by
  unfold check at hr
  cases role with
  | unwired => cases hr
  | follower => cases hr
  | leader =>
    dsimp only at hr
    split at hr
    · cases hr
    · cases hct : checkToken sha256 h s now req.joinToken with
      | none => rfl
      | some e =>
        rw [hct] at hr
        cases hr

theorem safe_check {i lag : Nat} {role : RaftRole} {now : Timestamp} {c : Call} (hc : w.calls[i]? = some c)
    (halone : ChecksAlone sha256 token w (.check i lag role now)) :
    Safe sha256 token (w.check sha256 signNodeCSR i lag role now c) := by
  unfold World.check
  cases hr : check sha256 signNodeCSR c.handler role (w.history.read lag) now c.req with
  | error e => exact safe_moveTo hw hc (fun _ h => by cases h) (fun _ h => by cases h)
  | ok r =>
    refine safe_moveTo hw hc (fun htok _ => .inr ?_) (fun _ h => by cases h)
    obtain ⟨hidle, hsame⟩ := halone c hc htok
    rintro d hd ⟨hdt, hlive⟩
    rw [Phase.live, hidle d hd hdt, Bool.false_or] at hlive
    -- an earlier success has spent the token, and this check would have seen it
    have hspent : Spent (tokenKey sha256 token) (w.history.read lag) := by
      intro tok hget
      rw [hsame] at hget
      exact hw.spent d hd hdt hlive tok hget
    have hpass := check_ok_token hr
    rw [htok] at hpass
    exact checkToken_spent c.handler now hspent hpass

theorem safe_commit {i : Nat} (now : Timestamp) (fate : Fate) (err localAddr : String) {c : Call}
    (info : ClusterMeta) (cert : Bytes) (hc : w.calls[i]? = some c) (hphase : c.phase.live = true) :
    Safe sha256 token (w.commit sha256 i now fate err localAddr c info cert) := by
  have hpush := safe_push hw (joinBatch sha256 c.handler now c.req)
    (fun h => spent_joinBatch sha256 _ _ _ c.handler now c.req (.inr h))
  unfold World.commit
  cases fate with
  | acked =>
    refine safe_moveTo hpush hc (fun _ _ => .inl hphase) (fun htok _ => ?_)
    exact spent_joinBatch sha256 _ _ _ c.handler now c.req (.inl (by rw [htok]))
  | unacked => exact safe_moveTo hpush hc (fun _ h => by cases h) (fun _ h => by cases h)
  | lost => exact safe_moveTo hw hc (fun _ h => by cases h) (fun _ h => by cases h)

theorem safe_begin (h : Handler) (req : NodeJoinRequest) :
    Safe sha256 token { w with calls := w.calls ++ [{ handler := h, req := req }] } := by
  have hold (j : Nat) (d : Call) (hd : (w.calls ++ [{ handler := h, req := req }])[j]? = some d)
      (hlive : d.phase.live = true) : w.calls[j]? = some d := by
    rw [List.getElem?_append] at hd
    split at hd
    · exact hd
    · have hlast : d = { handler := h, req := req } := mem_singleton.mp (mem_of_getElem? hd)
      rw [hlast] at hlive
      cases hlive
  refine ⟨?_, ?_⟩
  · intro i j c d hc hd hcc hdc
    exact hw.unique i j c d (hold i c hc hcc.2) (hold j d hd hdc.2) hcc hdc
  · intro d hd ht hs
    obtain ⟨j, hj⟩ := List.getElem?_of_mem hd
    have hd' := hold j d hj (by simp [Phase.live, hs])
    exact hw.spent d (mem_of_getElem? hd') ht hs

theorem safe_step (e : Event (tokenKey sha256 token)) (he : ChecksAlone sha256 token w e) :
    Safe sha256 token (step sha256 signNodeCSR _ w e) := by
  cases e with
  | begin h req => exact safe_begin hw h req
  | check i lag role now =>
    simp only [step]
    cases hc : w.calls[i]? with
    | none => exact hw
    | some c =>
      dsimp only
      split
      · exact safe_check hw hc he
      · exact hw
  | addNonvoter i error =>
    simp only [step]
    split
    · rename_i h req info cert hc
      refine safe_moveTo hw hc (fun _ _ => .inl rfl) (fun _ h => ?_)
      cases error <;> cases h
    · exact hw
  | commit i now fate err localAddr =>
    simp only [step]
    split
    · rename_i h req info cert hc
      exact safe_commit hw now fate err localAddr info cert hc rfl
    · exact hw
  | other c => exact safe_push hw c.command (spent_command _ _ _ c.command c.frame)

def World.start (s : State) : World := ⟨.start s, []⟩

omit hw in
theorem join_token_used_once (sha256 : Bytes → Bytes)
    (signNodeCSR : Bytes → Bytes → Bytes → Except String Bytes) (token : String) (s : State)
    (es : List (Event (tokenKey sha256 token)))
    (h : Along (step sha256 signNodeCSR _) (ChecksAlone sha256 token) (.start s) es) :
    AtMostOnce token (run (step sha256 signNodeCSR _) (.start s) es) := by
  have hstart : Safe sha256 token (.start s) :=
    ⟨fun i j c d hc => by simp [World.start] at hc, fun c hc => by cases hc⟩
  obtain ⟨hsafe, -⟩ := along_of_invariant (step sha256 signNodeCSR _) (Safe sha256 token) (ChecksAlone sha256 token)
    (fun _ _ => True) (fun w e hw he => ⟨safe_step hw e he, trivial⟩) (.start s) es hstart h
  exact atMostOnce_of_safe hsafe

end

namespace Sample

def key : String := tokenKey Deploy.sampleSha256 Deploy.sampleToken

def signed (csr _caCert _caKey : Bytes) : Except String Bytes := .ok csr

def request (name : String) : NodeJoinRequest :=
  { name := name, joinToken := Deploy.sampleToken, csrPem := [1], advertiseAddr := name ++ ":7000" }

def issued : State :=
  applyEntry 2
    (applyEntry 1 .new ⟨"bootstrap", some 0, .clusterInit ⟨"c", [1], [1], [], "node-a", "node-a:7000"⟩⟩)
    ⟨"local", some 0, .joinTokenIssue ⟨Deploy.sampleSha256 [], some 100⟩⟩

def joining (i : Nat) : List (Event key) :=
  [.check i 0 .leader 1, .addNonvoter i none, .commit i 1 .acked "" "node-a:7000"]

def begins : List (Event key) := [.begin .daemon (request "node-b"), .begin .daemon (request "node-c")]

def oneByOne : List (Event key) := begins ++ joining 0 ++ joining 1

def overlapping : List (Event key) :=
  begins ++ [.check 0 0 .leader 1, .check 1 0 .leader 1, .addNonvoter 0 none, .addNonvoter 1 none,
    .commit 0 1 .acked "" "node-a:7000", .commit 1 1 .acked "" "node-a:7000"]

def outcome (es : List (Event key)) : List Bool :=
  (run (step Deploy.sampleSha256 signed key) (.start issued) es).calls.map (·.phase.success)

end Sample

open Sample in
theorem second_joiner_refused : outcome oneByOne = [true, false] ∧
      AtMostOnce Deploy.sampleToken (run (step Deploy.sampleSha256 signed key) (.start issued) oneByOne) := by
  refine ⟨by decide +kernel, join_token_used_once Deploy.sampleSha256 signed Deploy.sampleToken issued oneByOne ?_⟩
  refine ⟨trivial, trivial, ?_, trivial, trivial, ?_, trivial, trivial, trivial⟩
  · intro c _ _
    decide +kernel
  · intro c _ _
    decide +kernel

open Sample in
theorem overlapping_joins_both_succeed : outcome overlapping = [true, true] ∧
      ¬ AtMostOnce Deploy.sampleToken (run (step Deploy.sampleSha256 signed key) (.start issued) overlapping) := by
  refine ⟨by decide +kernel, fun h => ?_⟩
  have hcalls : (run (step Deploy.sampleSha256 signed key) (.start issued) overlapping).calls.map
      (fun c => (c.req.joinToken, c.phase.success)) = [(Deploy.sampleToken, true), (Deploy.sampleToken, true)] := by
    decide +kernel
  obtain ⟨c, rest, hl, hc, hrest⟩ := map_eq_cons_iff.mp hcalls
  obtain ⟨d, rest', rfl, hd, -⟩ := map_eq_cons_iff.mp hrest
  obtain ⟨hct, hcs⟩ := Prod.mk.inj hc
  obtain ⟨hdt, hds⟩ := Prod.mk.inj hd
  have hsame := h 0 1 c d (by rw [hl]; rfl) (by rw [hl]; rfl) hct hdt hcs hds
  cases hsame

end Jaco.Membership
