import Jaco.TlsPolicies

/-!
Which domains a follower reloads for. The latch that stops the reloads is kept per domain, while a renewal replaces the
leaf under it.
-/

namespace Jaco.FollowerReloads

open Runs Grouping CertKeys Function

/-- The first prod chain of the domain that decodes, `leafDER` being the first certificate block of a PEM text. -/
def prodLeafDER (leafDER : Bytes → Option Bytes) (blobs : List CertBlob) (domain : String) : Option Bytes :=
  blobs.findSome? (fun b =>
    if hasSuffix b.key ".crt" && !contains b.key "staging" && contains b.key ("/" ++ domain ++ "/")
      then leafDER b.value else none)

/-- One call: the state, the order its maps are iterated in, and what the certificate cache holds per domain
(`none` where the cache cannot be asked). -/
structure Call where
  st : State
  routes : st.routes.Listing
  blobs : String → st.certBlobs.Listing
  leafDERs : String → Option (List Bytes)

namespace Call

variable (leafDER : Bytes → Option Bytes) (c : Call) (d : String)

def tlsAutoDomains : List String := (firstOn Route.domain (c.routes.items.filter (·.tlsAuto))).map Route.domain

def complete : Bool := prodCertResourceComplete (c.blobs d).items d

def leaf : Option Bytes := prodLeafDER leafDER (c.blobs d).items d

def followerServesProdLeaf : Bool :=
  match c.leaf leafDER d with
  | none => false
  | some want => (c.leafDERs d).any (fun have_ => have_.contains want)

end Call

def visit (complete serves : String → Bool) (acc : (String → Bool) × List String) (d : String) :
    (String → Bool) × List String :=
  if !complete d then (update acc.1 d false, acc.2)
  else if acc.1 d then acc
  else if serves d then (update acc.1 d true, acc.2)
  else (acc.1, acc.2 ++ [d])

def followerProdReloadTargets (domains : List String) (complete serves : String → Bool) (loaded : String → Bool) :
    (String → Bool) × List String :=
  let visited := domains.foldl (visit complete serves) (loaded, [])
  (fun d => visited.1 d && d ∈ domains, visited.2)

variable (complete serves : String → Bool)

theorem visit_eq (loaded : String → Bool) (targets : List String) (d : String) :
    visit complete serves (loaded, targets) d =
      (update loaded d (complete d && (loaded d || serves d)),
        targets ++ [d].filter (fun d => complete d && !loaded d && !serves d)) := by
  rw [visit]
  cases hc : complete d <;> cases hl : loaded d <;> cases hs : serves d <;>
    simp [hc, hl, hs]

theorem visit_foldl (domains : List String) (hnodup : domains.Nodup) (loaded : String → Bool)
    (targets : List String) :
    domains.foldl (visit complete serves) (loaded, targets) =
      (fun d => if d ∈ domains then complete d && (loaded d || serves d) else loaded d,
        targets ++ domains.filter (fun d => complete d && !loaded d && !serves d)) := by
  induction domains generalizing loaded targets with
  | nil => simp
  | cons d rest ih =>
    obtain ⟨hd, hrest⟩ := List.nodup_cons.1 hnodup
    have hkept (d' : String) (hd' : d' ∈ rest) :
        update loaded d (complete d && (loaded d || serves d)) d' = loaded d' := by
      refine update_of_ne (fun h => hd ?_) _ _
      rwa [← h]
    rw [List.foldl_cons, visit_eq, ih hrest, Prod.mk.injEq]
    constructor
    · funext d'
      by_cases hd' : d' ∈ rest
      · rw [if_pos hd', hkept d' hd', if_pos (List.mem_cons_of_mem d hd')]
      · rw [if_neg hd']
        by_cases heq : d' = d
        · rw [heq, update_self, if_pos List.mem_cons_self]
        · rw [update_of_ne heq, if_neg (fun h => hd' ((List.mem_cons.1 h).resolve_left heq))]
    · rw [← List.singleton_append (l := rest), List.filter_append, List.append_assoc]
      refine congrArg (fun l => targets ++ (_ ++ l)) (List.filter_congr (fun d' hd' => ?_))
      rw [hkept d' hd']

theorem followerProdReloadTargets_eq {domains : List String} (hnodup : domains.Nodup) (loaded : String → Bool) :
    followerProdReloadTargets domains complete serves loaded =
      (fun d => d ∈ domains && complete d && (loaded d || serves d),
        domains.filter (fun d => complete d && !loaded d && !serves d)) := by
  rw [followerProdReloadTargets, visit_foldl complete serves domains hnodup]
  refine Prod.ext (funext (fun d => ?_)) (List.nil_append _)
  by_cases hd : d ∈ domains <;> simp [hd]

/-- The latch between calls, with what the calls so far have shown: the leaves the cache confirmed when it was asked,
and the leaves of the last call's state. -/
structure Latch where
  loaded : String → Bool := fun _ => false
  confirmed : String → List Bytes := fun _ => []
  last : String → Option Bytes := fun _ => none

section Run

variable (leafDER : Bytes → Option Bytes)

def Latch.call (s : Latch) (c : Call) : (String → Bool) × List String :=
  followerProdReloadTargets c.tlsAutoDomains c.complete (c.followerServesProdLeaf leafDER) s.loaded

def Latch.asks (s : Latch) (c : Call) (d : String) : Bool := d ∈ c.tlsAutoDomains && c.complete d && !s.loaded d

def Latch.step (s : Latch) (c : Call) : Latch where
  loaded := (s.call leafDER c).1
  confirmed d := if s.asks c d && c.followerServesProdLeaf leafDER d then
    (c.leaf leafDER d).toList ++ s.confirmed d else s.confirmed d
  last := c.leaf leafDER

theorem last_step (s : Latch) (c : Call) (d : String) : (s.step leafDER c).last d = c.leaf leafDER d := rfl

def LeftOutConfirmed (s : Latch) (c : Call) : Prop :=
  ∀ d ∈ c.tlsAutoDomains, c.complete d = true → d ∉ (s.call leafDER c).2 →
    ∃ w ∈ c.leaf leafDER d, w ∈ (s.step leafDER c).confirmed d

def Unrenewed (s : Latch) (c : Call) : Prop :=
  ∀ d ∈ c.tlsAutoDomains, s.loaded d = true → c.complete d = true → c.leaf leafDER d = s.last d

def Vouched (s : Latch) : Prop := ∀ d, s.loaded d = true → ∃ w ∈ s.last d, w ∈ s.confirmed d

theorem nodup_tlsAutoDomains (c : Call) : c.tlsAutoDomains.Nodup := nodup_firstOn _ _

variable {leafDER}

theorem confirmed_of_passed {s : Latch} {c : Call} (hvouched : Vouched s) (hsame : Unrenewed leafDER s c) {d : String}
    (hd : d ∈ c.tlsAutoDomains) (hcomplete : c.complete d = true)
    (hpassed : s.loaded d = true ∨ c.followerServesProdLeaf leafDER d = true) :
    ∃ w ∈ c.leaf leafDER d, w ∈ (s.step leafDER c).confirmed d := by
  by_cases hloaded : s.loaded d = true
  · obtain ⟨w, hw, hconfirmed⟩ := hvouched d hloaded
    refine ⟨w, (hsame d hd hloaded hcomplete).symm ▸ hw, ?_⟩
    simp only [Latch.step]
    split
    · exact List.mem_append_right _ hconfirmed
    · exact hconfirmed
  · have hserves := hpassed.resolve_left hloaded
    have hasked : (s.asks c d && c.followerServesProdLeaf leafDER d) = true := by
      simp [Latch.asks, hd, hcomplete, hloaded, hserves]
    cases hleaf : c.leaf leafDER d with
    | none =>
      rw [Call.followerServesProdLeaf, hleaf] at hserves
      cases hserves
    | some w =>
      refine ⟨w, rfl, ?_⟩
      simp only [Latch.step]
      rw [if_pos hasked, hleaf]
      exact List.mem_cons_self

theorem step_vouched {s : Latch} {c : Call} (hvouched : Vouched s) (hsame : Unrenewed leafDER s c) :
    Vouched (s.step leafDER c) ∧ LeftOutConfirmed leafDER s c := by
  have hcall : s.call leafDER c = _ :=
    followerProdReloadTargets_eq c.complete (c.followerServesProdLeaf leafDER) (nodup_tlsAutoDomains c) s.loaded
  constructor
  · intro d hloaded
    have hloaded' : (s.call leafDER c).1 d = true := hloaded
    rw [hcall] at hloaded'
    simp only [Bool.and_eq_true, decide_eq_true_eq, Bool.or_eq_true] at hloaded'
    exact confirmed_of_passed hvouched hsame hloaded'.1.1 hloaded'.1.2 hloaded'.2
  · intro d hd hcomplete hout
    refine confirmed_of_passed hvouched hsame hd hcomplete ?_
    by_contra hnot
    rw [not_or, Bool.not_eq_true, Bool.not_eq_true] at hnot
    rw [hcall] at hout
    exact hout (List.mem_filter.2 ⟨hd, by simp [hcomplete, hnot]⟩)

end Run

theorem left_out_domains_confirmed (leafDER : Bytes → Option Bytes) (calls : List Call)
    (hsame : Along (Latch.step leafDER) (Unrenewed leafDER) {} calls) :
    Along (Latch.step leafDER) (LeftOutConfirmed leafDER) {} calls :=
  (along_of_invariant (Latch.step leafDER) Vouched _ _ (fun _ _ => step_vouched) {} calls nofun hsame).2

namespace Renewal

def pem (body : String) : Bytes :=
  ("-----BEGIN CERTIFICATE-----\n" ++ body ++ "\n-----END CERTIFICATE-----\n").toUTF8.toList

def leafDER (text : Bytes) : Option Bytes :=
  if text = pem "AQ==" then some [1] else if text = pem "Ag==" then some [2] else none

def route : Route := ⟨"example.com", "shop", "web", 80, true, "", false⟩

def key (ext : String) : String := "certificates/acme-v02.api.letsencrypt.org-directory/example.com/example.com" ++ ext

def state (body : String) : State := { State.new with
  routes := Store.empty.apply route
  certBlobs := (Store.empty.apply ⟨key ".crt", pem body, none⟩).apply ⟨key ".key", [], none⟩ }

def call (body : String) : Call := ⟨state body, Store.listing _, fun _ => Store.listing _, fun _ => some [[1]]⟩

end Renewal

open Renewal in
theorem first_leaf_confirmed :
    Along (Latch.step leafDER) (LeftOutConfirmed leafDER) {} [call "AQ==", call "AQ=="] := by
  refine left_out_domains_confirmed leafDER _ ⟨nofun, fun d _ _ _ => ?_, trivial⟩
  rw [last_step]

open Renewal in
theorem renewed_leaf_left_out :
    ¬ Along (Latch.step leafDER) (LeftOutConfirmed leafDER) {} [call "AQ==", call "Ag=="] := by
  rintro ⟨-, hrenewed, -⟩
  obtain ⟨w, hw, hconfirmed⟩ := hrenewed "example.com" (by decide +kernel) (by decide +kernel) (by decide +kernel)
  have hleaf : (call "Ag==").leaf leafDER "example.com" = some [2] := by decide +kernel
  rw [hleaf] at hw
  cases hw
  exact absurd hconfirmed (by decide +kernel)

end Jaco.FollowerReloads
