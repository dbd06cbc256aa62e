import Jaco.Admission
import Jaco.FsmFrames
import Jaco.Runs

namespace Jaco.Tokens

open Admission List GoStrings Function

def bootstrap (sha256 : Bytes → Bytes) (clusterId : String) (caCert caKey random : Bytes) (name address : String)
    (now : Timestamp) : String × Entry :=
  let token := hexEncode random
  (token, ⟨"bootstrap", some now, .clusterInit ⟨clusterId, caCert, caKey, hashSecret sha256 token, name, address⟩⟩)

structure Unrelated where
  command : Command
  frame : ∀ e ∈ command.entries, Part.tokens ∉ writes e.payload

inductive Event where
  | bootstrap (clusterId : String) (caCert caKey random : Bytes) (name address : String) (now : Timestamp)
  | issue (role : RaftRole) (caller identity : String) (allowsPrivileged : Bool) (random : Bytes) (now : Timestamp)
  | revoke (role : RaftRole) (caller identity : String) (now : Timestamp)
  | other (c : Unrelated)

section

variable (sha256 : Bytes → Bytes)

def Event.committed : Event → Option Command
  | .bootstrap clusterId caCert caKey random name address now =>
    some (.single (Tokens.bootstrap sha256 clusterId caCert caKey random name address now).2)
  | .issue role caller identity allows random now =>
    (Tokens.issue sha256 role caller identity allows random now).toOption.map (fun r => .single r.2)
  | .revoke role caller identity now => (Tokens.revoke role caller identity now).toOption.map .single
  | .other c => some c.command

def Event.issued : Event → Option (String × String)
  | .bootstrap _ _ _ random _ _ _ => some ("bootstrap", hexEncode random)
  | .issue role caller identity allows random now =>
    (Tokens.issue sha256 role caller identity allows random now).toOption.map (fun r => (identity, r.1))
  | _ => none

def Event.revoked : Event → Option String
  | .revoke role caller identity now => (Tokens.revoke role caller identity now).toOption.map (fun _ => identity)
  | _ => none

def step (s : State) (e : Nat × Event) : State :=
  match e.2.committed sha256 with
  | none => s
  | some c => c.apply e.1 s

def after (es : List (Nat × Event)) : State := Runs.run (step sha256) .new es

def issues (es : List (Nat × Event)) : List (String × String) := es.filterMap (fun e => e.2.issued sha256)

def secrets (es : List (Nat × Event)) : List String := (issues sha256 es).map Prod.snd

def CollisionFree (es : List (Nat × Event)) : Prop :=
  ∀ a ∈ secrets sha256 es, ∀ b ∈ secrets sha256 es, hashSecret sha256 a = hashSecret sha256 b → a = b

end

abbrev Ledger := String → Option (String × Bool)

namespace Ledger

def issue (l : Ledger) (identity secret : String) : Ledger := update l identity (some (secret, false))

def revoke (l : Ledger) (identity : String) : Ledger :=
  update l identity ((l identity).map (fun r => (r.1, true)))

def step (sha256 : Bytes → Bytes) (l : Ledger) (e : Nat × Event) : Ledger :=
  match e.2.issued sha256, e.2.revoked with
  | some (identity, secret), _ => l.issue identity secret
  | none, some identity => l.revoke identity
  | none, none => l

def after (sha256 : Bytes → Bytes) (es : List (Nat × Event)) : Ledger := Runs.run (step sha256) (fun _ => none) es

end Ledger

section

variable (sha256 : Bytes → Bytes)

def Represents (s : State) (l : Ledger) : Prop :=
  ∀ identity, (s.tokens.get identity).map (fun t => (t.hashedSecret, t.revokedAt.isSome)) =
    (l identity).map (fun r => (hashSecret sha256 r.1, r.2))

theorem tokens_single (idx : Nat) (s : State) (e : Entry) :
    ((Command.single e).apply idx s).tokens = (mutate s e.ts idx e.payload).tokens := by
  rw [Command.apply_eq_foldl, Command.entries]
  exact applyEntry_agree_mutate idx s e .tokens (by decide)

theorem tokens_unrelated (idx : Nat) (s : State) (c : Unrelated) : (c.command.apply idx s).tokens = s.tokens :=
  Command.apply_keeps (Q := fun t => t.tokens = s.tokens) (G := fun p => Part.tokens ∉ writes p)
    (fun idx t e he ht => (applyEntry_agree idx t e .tokens he (by decide)).trans (u := s) ht) idx c.command c.frame
      s rfl

theorem represents_issue {s s' : State} {l : Ledger} (t : Token) (secret : String) (h : Represents sha256 s l)
    (hs : s'.tokens = s.tokens.apply t) (hhash : t.hashedSecret = hashSecret sha256 secret) (hr : t.revokedAt = none) :
    Represents sha256 s' (l.issue t.identity secret) := by
  intro identity
  rw [hs, Store.get_apply, Ledger.issue]
  by_cases hid : t.identity = identity
  · subst hid
    simp [hhash, hr]
  · rw [if_neg hid, update_of_ne (Ne.symm hid)]
    exact h identity

theorem represents_revoke {s : State} {l : Ledger} (idx : Nat) (who : String) (now : Timestamp)
    (h : Represents sha256 s l) : Represents sha256 (mutate s (some now) idx (.tokenRevoke who)) (l.revoke who) := by
  intro identity
  have hwho := h who
  simp only [mutate]
  split
  · rename_i hnone
    rw [hnone, Option.map_none, eq_comm, Option.map_eq_none_iff] at hwho
    rw [Ledger.revoke, hwho, Option.map_none]
    by_cases hid : identity = who
    · subst hid
      simp [hnone]
    · rw [update_of_ne hid]
      exact h identity
  · rename_i t ht
    have hkey : t.identity = who := Store.get_key ht
    rw [Store.get_apply, Ledger.revoke]
    by_cases hid : who = identity
    · subst hid
      rw [ht] at hwho
      cases hl : l who with
      | none => simp [hl] at hwho
      | some r =>
        simp only [hl, Option.map_some, Option.some.injEq, Prod.mk.injEq] at hwho
        simp [hkey, hwho.1]
    · rw [if_neg (by rw [hkey]; exact hid), update_of_ne (Ne.symm hid)]
      exact h identity

theorem issue_eq_ok {role : RaftRole} {caller identity : String} {allows : Bool} {random : Bytes} {now : Timestamp}
    {r : String × Entry} (h : issue sha256 role caller identity allows random now = .ok r) :
    r = (hexEncode random,
      ⟨caller, some now, .tokenIssue ⟨identity, hashSecret sha256 (hexEncode random), allows⟩⟩) := by
  unfold issue at h
  split at h
  · cases h
  · split at h
    · cases h
    · exact (Except.ok.inj h).symm

theorem revoke_eq_ok {role : RaftRole} {caller identity : String} {now : Timestamp} {e : Entry}
    (h : revoke role caller identity now = .ok e) : e = ⟨caller, some now, .tokenRevoke identity⟩ := by
  unfold revoke at h
  split at h
  · cases h
  · split at h
    · cases h
    · exact (Except.ok.inj h).symm

theorem represents_step (hsha : ∀ b, sha256 b ≠ []) {s : State} {l : Ledger} (e : Nat × Event)
    (h : Represents sha256 s l) : Represents sha256 (step sha256 s e) (l.step sha256 e) := by
  obtain ⟨idx, ev⟩ := e
  cases ev with
  | bootstrap clusterId caCert caKey random name address now =>
    refine represents_issue sha256
      ⟨"bootstrap", hashSecret sha256 (hexEncode random), some now, none, false⟩ _ h ?_ rfl rfl
    have hhash : hashSecret sha256 (hexEncode random) ≠ [] := hsha _
    simp only [step, Event.committed, bootstrap, tokens_single, mutate, initCluster, if_pos hhash]
  | issue role caller identity allows random now =>
    simp only [step, Ledger.step, Event.committed, Event.issued, Event.revoked]
    cases hi : Tokens.issue sha256 role caller identity allows random now with
    | error err => exact h
    | ok r =>
      rw [issue_eq_ok sha256 hi]
      exact represents_issue sha256
        ⟨identity, hashSecret sha256 (hexEncode random), some now, none, allows⟩ _ h (tokens_single _ _ _) rfl rfl
  | revoke role caller identity now =>
    simp only [step, Ledger.step, Event.committed, Event.issued, Event.revoked]
    cases hr : Tokens.revoke role caller identity now with
    | error err => exact h
    | ok entry =>
      rw [revoke_eq_ok hr]
      intro who
      have hrev := represents_revoke sha256 idx identity now h who
      rw [← tokens_single idx s ⟨caller, some now, .tokenRevoke identity⟩] at hrev
      exact hrev
  | other c =>
    intro identity
    rw [step, Event.committed, tokens_unrelated]
    exact h identity

theorem represents_after (hsha : ∀ b, sha256 b ≠ []) (es : List (Nat × Event)) :
    Represents sha256 (after sha256 es) (Ledger.after sha256 es) := by
  unfold after Ledger.after
  induction es using List.reverseRecOn with
  | nil =>
    intro identity
    rfl
  | append_singleton es e ih =>
    rw [Runs.run_append, Runs.run_append]
    exact represents_step sha256 hsha e ih

end

namespace Ledger

variable (sha256 : Bytes → Bytes)

theorem after_snoc (es : List (Nat × Event)) (e : Nat × Event) :
    after sha256 (es ++ [e]) = (after sha256 es).step sha256 e := Runs.run_append _ _ _ _

theorem step_eq (l : Ledger) (e : Nat × Event) (identity : String) : l.step sha256 e identity =
      match e.2.issued sha256 with
      | some (who, secret) => if who = identity then some (secret, false) else l identity
      | none => if e.2.revoked = some identity then (l identity).map (fun r => (r.1, true)) else l identity := by
  unfold step issue revoke
  cases e.2.issued sha256 with
  | some r =>
    obtain ⟨who, secret⟩ := r
    simp only [update_apply, eq_comm]
  | none =>
    cases e.2.revoked with
    | none => simp
    | some who =>
      simp only [update_apply, Option.some.injEq, eq_comm]
      split
      · rename_i hid
        rw [hid]
      · rfl

theorem issued_of_revoked (e : Event) (identity : String) (h : e.revoked = some identity) : e.issued sha256 = none := by
  cases e with
  | revoke role caller who now => rfl
  | _ => cases h

theorem mem_issues (es : List (Nat × Event)) (identity secret : String) (revoked : Bool)
    (h : after sha256 es identity = some (secret, revoked)) : (identity, secret) ∈ issues sha256 es := by
  induction es using List.reverseRecOn generalizing revoked with
  | nil => cases h
  | append_singleton es e ih =>
    rw [after_snoc, step_eq] at h
    rw [issues, filterMap_append, mem_append]
    cases hi : e.2.issued sha256 with
    | some r =>
      obtain ⟨who, fresh⟩ := r
      simp only [hi] at h
      split at h
      · rename_i hid
        cases h
        exact .inr (by simp [hi, hid])
      · exact .inl (ih revoked h)
    | none =>
      simp only [hi] at h
      split at h
      · obtain ⟨r, hr, hr'⟩ := Option.map_eq_some_iff.mp h
        obtain ⟨hsecret, -⟩ := Prod.mk.inj hr'
        exact .inl (ih r.2 (by rw [hr, ← hsecret]))
      · exact .inl (ih revoked h)

theorem stays_out (l : Ledger) (es : List (Nat × Event)) (identity secret : String)
    (h : l identity ≠ some (secret, false)) (hes : secret ∉ secrets sha256 es) :
    Runs.run (step sha256) l es identity ≠ some (secret, false) := by
  induction es generalizing l with
  | nil => exact h
  | cons e es ih =>
    rw [secrets, issues, filterMap_cons] at hes
    rw [Runs.run_cons]
    apply ih
    · rw [step_eq]
      cases hi : e.2.issued sha256 with
      | some r =>
        obtain ⟨who, fresh⟩ := r
        simp only [hi, map_cons, mem_cons, not_or] at hes
        dsimp only
        split
        · intro he
          cases he
          exact hes.1 rfl
        · exact h
      | none =>
        dsimp only
        split
        · intro he
          obtain ⟨r, -, hr⟩ := Option.map_eq_some_iff.mp he
          cases hr
        · exact h
    · cases hi : e.2.issued sha256 with
      | some r =>
        simp only [hi, map_cons, mem_cons, not_or] at hes
        exact hes.2
      | none =>
        simp only [hi] at hes
        exact hes

theorem stays_in (l : Ledger) (es : List (Nat × Event)) (identity secret : String)
    (h : l identity = some (secret, false))
    (hes : ∀ e ∈ es, (∀ fresh, e.2.issued sha256 ≠ some (identity, fresh)) ∧ e.2.revoked ≠ some identity) :
    Runs.run (step sha256) l es identity = some (secret, false) := by
  induction es generalizing l with
  | nil => exact h
  | cons e es ih =>
    obtain ⟨hissued, hrevoked⟩ := hes e mem_cons_self
    rw [Runs.run_cons]
    refine ih _ ?_ (fun e' he' => hes e' (mem_cons_of_mem e he'))
    rw [step_eq]
    cases hi : e.2.issued sha256 with
    | some r =>
      obtain ⟨who, fresh⟩ := r
      have hwho : who ≠ identity := by
        rintro rfl
        exact hissued fresh hi
      dsimp only
      rw [if_neg hwho, h]
    | none =>
      dsimp only
      rw [if_neg hrevoked, h]

theorem after_split (before rest : List (Nat × Event)) (e : Nat × Event) :
    after sha256 (before ++ e :: rest) = Runs.run (step sha256) ((after sha256 before).step sha256 e) rest := by
  rw [after, Runs.run_append, Runs.run_cons]
  rfl

end Ledger

section

variable (sha256 : Bytes → Bytes) (hsha : ∀ b, sha256 b ≠ []) (es : List (Nat × Event))

variable (hfresh : (secrets sha256 es).Nodup) (hcoll : CollisionFree sha256 es)

variable (tokens : (after sha256 es).tokens.Listing)

include hfresh in
theorem owner_unique {a b secret : String} (ha : (a, secret) ∈ issues sha256 es)
    (hb : (b, secret) ∈ issues sha256 es) : a = b := by
  have hinj := inj_on_of_nodup_map hfresh ha hb rfl
  exact (Prod.mk.inj hinj).1

include hsha hfresh hcoll

theorem lookup_owner {identity secret : String} (hissued : (identity, secret) ∈ issues sha256 es) (t : Token)
    (h : lookupTokenByHash tokens (hashSecret sha256 secret) = some t) :
    (after sha256 es).tokens.get identity = some t ∧
      Ledger.after sha256 es identity = some (secret, t.revokedAt.isSome) := by
  obtain ⟨hget, hhash⟩ := lookupTokenByHash_spec tokens _ t h
  have hrep := represents_after sha256 hsha es t.identity
  rw [hget] at hrep
  cases hl : Ledger.after sha256 es t.identity with
  | none => simp [hl] at hrep
  | some r =>
    obtain ⟨held, revoked⟩ := r
    simp only [hl, Option.map_some, Option.some.injEq, Prod.mk.injEq] at hrep
    have hheld := Ledger.mem_issues sha256 es _ _ _ hl
    have hsame : held = secret := hcoll held (mem_map.mpr ⟨_, hheld, rfl⟩) secret (mem_map.mpr ⟨_, hissued, rfl⟩)
        (hrep.1.symm.trans hhash)
    subst hsame
    have howner := owner_unique sha256 es hfresh hheld hissued
    rw [← howner, hl, hrep.2]
    exact ⟨hget, rfl⟩

theorem admitted_remote_iff {method : String} {ctx : CallContext} (hmethod : method ∉ unauthMethods)
    (hremote : isUnixPeer ctx = false) {identity secret : String} (hbearer : bearer ctx = .ok secret)
    (hissued : (identity, secret) ∈ issues sha256 es) :
    Admitted sha256 tokens method ctx ↔ Ledger.after sha256 es identity = some (secret, false) := by
  simp only [Admitted, interceptor, if_neg hmethod, authResolve, hremote, hbearer, Bool.false_eq_true, ↓reduceIte]
  cases hlookup : lookupTokenByHash tokens (hashSecret sha256 secret) with
  | none =>
    refine ⟨fun h => by simp at h, fun h => ?_⟩
    have hrep := represents_after sha256 hsha es identity
    rw [h] at hrep
    obtain ⟨t, hget, ht⟩ := Option.map_eq_some_iff.mp hrep
    have hkey : t.identity = identity := Store.get_key hget
    have hmem : t ∈ tokens.items := (tokens.mem_items t).mpr (by rw [hkey]; exact hget)
    have hno := List.find?_eq_none.mp hlookup t hmem
    simp [(Prod.mk.inj ht).1] at hno
  | some t =>
    obtain ⟨-, hledger⟩ := lookup_owner sha256 hsha es hfresh hcoll tokens hissued t hlookup
    rw [hledger]
    cases hr : t.revokedAt.isSome with
    | false => simp [hr]
    | true => simp [hr]

theorem revocation_holds_and_latest_admitted (method : String) (ctx : CallContext) (identity secret : String)
    (hbearer : bearer ctx = .ok secret) (before rest : List (Nat × Event))
    (e : Nat × Event) (hsplit : es = before ++ e :: rest) :
    (e.2.revoked = some identity → (identity, secret) ∈ issues sha256 before → method ∉ unauthMethods →
      isUnixPeer ctx = false → ¬ Admitted sha256 tokens method ctx) ∧
    (e.2.issued sha256 = some (identity, secret) →
      (∀ e' ∈ rest, (∀ fresh, e'.2.issued sha256 ≠ some (identity, fresh)) ∧ e'.2.revoked ≠ some identity) →
      Admitted sha256 tokens method ctx) := by
  subst hsplit
  constructor
  · intro hrevoked hbefore hmethod hremote
    have hissued : (identity, secret) ∈ issues sha256 (before ++ e :: rest) := by
      rw [issues, filterMap_append]
      exact mem_append_left _ hbefore
    rw [admitted_remote_iff sha256 hsha _ hfresh hcoll tokens hmethod hremote hbearer hissued, Ledger.after_split]
    apply Ledger.stays_out
    · rw [Ledger.step_eq, Ledger.issued_of_revoked sha256 e.2 identity hrevoked]
      dsimp only
      rw [if_pos hrevoked]
      intro he
      obtain ⟨r, -, hr⟩ := Option.map_eq_some_iff.mp he
      cases hr
    · -- the secret was already used by the earlier issue
      intro hrest
      have hcons : secret ∈ secrets sha256 (e :: rest) := by
        rw [secrets, issues, filterMap_cons, Ledger.issued_of_revoked sha256 e.2 identity hrevoked]
        exact hrest
      rw [secrets, issues, filterMap_append, map_append, nodup_append] at hfresh
      exact hfresh.2.2 secret (mem_map.mpr ⟨_, hbefore, rfl⟩) secret hcons rfl
  · intro hissue hrest
    by_cases hmethod : method ∈ unauthMethods
    · exact ⟨none, if_pos hmethod⟩
    · cases hremote : isUnixPeer ctx with
      | true => exact ⟨some localIdentity, by simp [interceptor, hmethod, authResolve, hremote]⟩
      | false =>
        have hissued : (identity, secret) ∈ issues sha256 (before ++ e :: rest) := by
          rw [issues, filterMap_append, filterMap_cons, hissue]
          exact mem_append_right _ mem_cons_self
        rw [admitted_remote_iff sha256 hsha _ hfresh hcoll tokens hmethod hremote hbearer hissued, Ledger.after_split]
        refine Ledger.stays_in sha256 _ rest identity secret ?_ hrest
        rw [Ledger.step_eq, hissue]
        exact if_pos rfl

end

namespace Sample

def firstSecret : String := hexEncode (List.replicate 32 0)

def secondSecret : String := hexEncode (List.replicate 32 1)

def sha256 (bs : Bytes) : Bytes :=
  if bs = firstSecret.toUTF8.toList then
    [0x60, 0xe0, 0x5b, 0xd1, 0xb1, 0x95, 0xaf, 0x2f, 0x94, 0x11, 0x2f, 0xa7, 0x19, 0x7a, 0x5c, 0x88,
     0x28, 0x90, 0x58, 0x84, 0x0c, 0xe7, 0xc6, 0xdf, 0x96, 0x93, 0x75, 0x6b, 0xc6, 0x25, 0x0f, 0x55]
  else
    [0x58, 0xba, 0xdd, 0x9b, 0x45, 0x51, 0x45, 0xb4, 0x87, 0xad, 0x24, 0xc7, 0xf2, 0x59, 0xcc, 0x43,
     0x7c, 0xc4, 0xff, 0xd0, 0x78, 0x47, 0x16, 0x84, 0x52, 0x49, 0x32, 0x1f, 0xb5, 0x96, 0x1c, 0xfc]

theorem secrets_differ : hashSecret sha256 firstSecret ≠ hashSecret sha256 secondSecret := by
  have hne : secondSecret.toUTF8.toList ≠ firstSecret.toUTF8.toList := by
    intro h
    exact absurd (utf8_injective h) (by decide +kernel)
  rw [hashSecret, hashSecret, sha256, sha256, if_pos rfl, if_neg hne]
  decide

def rotation : List (Nat × Event) :=
  [(1, .issue .leader "local" "ops" false (List.replicate 32 0) 0), (2, .revoke .leader "local" "ops" 1),
    (3, .issue .leader "local" "ops" false (List.replicate 32 1) 2)]

def bearing (secret : String) : CallContext := ⟨some "tcp", some ["Bearer " ++ secret]⟩

end Sample

open Sample in
theorem rotated_token :
    (¬ Admitted Sample.sha256 (after Sample.sha256 rotation).tokens.listing "/jaco.v1.Deploy/Apply"
      (bearing firstSecret)) ∧
      Admitted Sample.sha256 (after Sample.sha256 rotation).tokens.listing "/jaco.v1.Deploy/Apply"
      (bearing secondSecret) := by
  have hsha : ∀ b, Sample.sha256 b ≠ [] := by
    intro b
    unfold Sample.sha256
    split <;> exact cons_ne_nil _ _
  have hfresh : (secrets Sample.sha256 rotation).Nodup := by decide +kernel
  have hcoll : CollisionFree Sample.sha256 rotation := by
    have hs : secrets Sample.sha256 rotation = [firstSecret, secondSecret] := rfl
    have hd := secrets_differ
    intro a ha b hb hab
    simp only [hs, mem_cons, not_mem_nil, or_false] at ha hb
    rcases ha with rfl | rfl <;> rcases hb with rfl | rfl
    · rfl
    · exact absurd hab hd
    · exact absurd hab.symm hd
    · rfl
  constructor
  · exact (revocation_holds_and_latest_admitted Sample.sha256 hsha rotation hfresh hcoll _ _ (bearing firstSecret) "ops"
      firstSecret (by decide +kernel) [_] [_] _ rfl).1 rfl mem_cons_self (by decide) (by decide)
  · exact (revocation_holds_and_latest_admitted Sample.sha256 hsha rotation hfresh hcoll _ _ (bearing secondSecret)
      "ops" secondSecret (by decide +kernel) [_, _] [] _ rfl).2 rfl (by simp)

end Jaco.Tokens
