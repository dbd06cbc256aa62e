import Jaco.DnsResponder

namespace Jaco.Dns

open Cidr

inductive UpstreamRcode where
  | noError | nameError | serverFailure | refused | notImplemented | other
  deriving DecidableEq

def UpstreamRcode.text : UpstreamRcode → String
  | .noError => "NOERROR"
  | .nameError => "NXDOMAIN"
  | .serverFailure => "SERVFAIL"
  | .refused => "REFUSED"
  | .notImplemented => "NOTIMP"
  | .other => ""

inductive Exchange where
  | error (err : String)
  | reply (rcode : UpstreamRcode) (answer : List (Option Addr))

def Exchange.failed : Exchange → Bool
  | .error _ => true
  | .reply rcode _ => rcode ∈ [.serverFailure, .refused, .notImplemented]

def extractIPs (qtype : QType) (answer : List (Option Addr)) : List Addr :=
  answer.filterMap (fun rr => match qtype, rr with
    | .a, some (.v4 ip) => some (.v4 ip)
    | .aaaa, some (.v6 ip) => some (.v6 ip)
    | _, _ => none)

structure Forwarder where
  upstreams : List String
  exchange : String → List Char → QType → Exchange

def errNoUpstreams : String := "dns: no upstream resolvers configured"

def Forwarder.walk (f : Forwarder) (host : List Char) (qtype : QType) :
    List String → Option String → List Addr × Option String
  | [], lastErr => ([], lastErr)
  | addr :: rest, _ =>
    match f.exchange addr host qtype with
    | .error err =>
      f.walk host qtype rest (some ("dns exchange " ++ String.ofList host ++ " @" ++ addr ++ ": " ++ err))
    | .reply rcode answer =>
      if (Exchange.reply rcode answer).failed then
        f.walk host qtype rest (some ("dns rcode " ++ rcode.text ++ " @" ++ addr ++ " for " ++ String.ofList host))
      else (extractIPs qtype answer, none)

def Forwarder.queryAcrossUpstreams (f : Forwarder) (host : List Char) (qtype : QType) : List Addr × Option String :=
  f.walk host qtype f.upstreams none

def contributed (r : List Addr × Option String) : List Addr := if r.2.isSome then [] else r.1

def merge (first second : List Addr × Option String) : Except String (List Addr) :=
  let all := contributed first ++ contributed second
  if all ≠ [] then .ok all
  else match second.2.or first.2 with
    | some err => .error err
    | none => .ok []

def Forwarder.lookup (f : Forwarder) (aaaaFirst : Bool) : LookupHost := fun host =>
  if f.upstreams = [] then .error errNoUpstreams
  else if aaaaFirst then merge (f.queryAcrossUpstreams host .aaaa) (f.queryAcrossUpstreams host .a)
  else merge (f.queryAcrossUpstreams host .a) (f.queryAcrossUpstreams host .aaaa)

theorem merge_cases (x y : List Addr × Option String) :
    ((contributed x ≠ [] ∨ contributed y ≠ []) ∧ ∃ ips, merge x y = .ok ips ∧ ips ≠ []) ∨
      (¬ (contributed x ≠ [] ∨ contributed y ≠ []) ∧ (x.2 ≠ none ∨ y.2 ≠ none) ∧ ∃ err, merge x y = .error err) ∨
      (¬ (contributed x ≠ [] ∨ contributed y ≠ []) ∧ ¬ (x.2 ≠ none ∨ y.2 ≠ none) ∧ merge x y = .ok []) := by
  have hall : contributed x ++ contributed y ≠ [] ↔ contributed x ≠ [] ∨ contributed y ≠ [] := by
    rw [ne_eq, List.append_eq_nil_iff, not_and_or]
  by_cases hfound : contributed x ≠ [] ∨ contributed y ≠ []
  · exact .inl ⟨hfound, _, if_pos (hall.2 hfound), hall.2 hfound⟩
  · refine .inr ?_
    rw [merge, if_neg (mt hall.1 hfound)]
    cases hx : x.2 <;> cases hy : y.2 <;> simp [hfound]

section Codes

variable (f : Forwarder) (host : List Char)

def Forwarder.Fails (qtype : QType) : Prop := ∀ u ∈ f.upstreams, (f.exchange u host qtype).failed = true

theorem walk_failed_iff (qtype : QType) (upstreams : List String) (lastErr : Option String) :
    (f.walk host qtype upstreams lastErr).2 ≠ none ↔
      (∀ u ∈ upstreams, (f.exchange u host qtype).failed = true) ∧ (upstreams = [] → lastErr ≠ none) := by
  induction upstreams generalizing lastErr with
  | nil => simp [Forwarder.walk]
  | cons u rest ih =>
    rw [Forwarder.walk]
    cases hu : f.exchange u host qtype with
    | error err => simp [ih, hu, Exchange.failed]
    | reply rcode answer =>
      by_cases hfailed : (Exchange.reply rcode answer).failed = true <;> simp [ih, hu, hfailed]

theorem queryAcrossUpstreams_failed_iff (hne : f.upstreams ≠ []) (qtype : QType) :
    (f.queryAcrossUpstreams host qtype).2 ≠ none ↔ f.Fails host qtype := by
  rw [Forwarder.queryAcrossUpstreams, walk_failed_iff, and_iff_left (fun h => absurd h hne), Forwarder.Fails]

def Forwarder.Finds : Prop := f.upstreams ≠ [] ∧
  (contributed (f.queryAcrossUpstreams host .a) ≠ [] ∨ contributed (f.queryAcrossUpstreams host .aaaa) ≠ [])

theorem lookup_cases (aaaaFirst : Bool) : (f.Finds host ∧ ∃ ips, f.lookup aaaaFirst host = .ok ips ∧ ips ≠ []) ∨
      (¬ f.Finds host ∧ (f.Fails host .a ∨ f.Fails host .aaaa) ∧ ∃ err, f.lookup aaaaFirst host = .error err) ∨
      (¬ f.Finds host ∧ ¬ (f.Fails host .a ∨ f.Fails host .aaaa) ∧ f.lookup aaaaFirst host = .ok []) := by
  by_cases hne : f.upstreams = []
  · refine .inr (.inl ⟨fun h => h.1 hne, .inl ?_, errNoUpstreams, if_pos hne⟩)
    rw [Forwarder.Fails, hne]
    exact nofun
  · simp only [← queryAcrossUpstreams_failed_iff f host hne, Forwarder.Finds, Forwarder.lookup, if_neg hne,
      and_iff_right hne]
    cases aaaaFirst with
    | false => exact merge_cases _ _
    | true =>
      rw [or_comm (a := contributed _ ≠ []), or_comm (a := Prod.snd _ ≠ none)]
      exact merge_cases _ _

end Codes

section Responses

variable (scope : Scope) (services : ServiceMap) (f : Forwarder) (order : QType → Bool) (σ : Shuffle) (name : List Char)

def response (qtype : QType) : Reply :=
  (Responder.mk scope services (some (f.lookup (order qtype)))).handle σ [⟨name, qtype⟩]

def asked : List Char := GoStrings.toLower (trimSuffix ['.'] name)

def External : Prop := parseInScopeName scope (asked name) = none

theorem response_rcode (h : External scope name) (qtype : QType) :
    (response scope services f order σ name qtype).rcode =
      match f.lookup (order qtype) (asked name) with
      | .error _ => if qtype = .other then .nameError else .serverFailure
      | .ok ips => if ips = [] then .nameError else .success := by
  rw [External, asked] at h
  cases qtype <;>
    simp only [response, Responder.handle, Responder.find, Responder.answerA, Responder.answerAAAA,
      Responder.nameResolvable, Responder.forward, List.map_cons, List.map_nil, h, asked] <;>
    cases f.lookup _ _ with
    | error err => simp
    | ok ips => cases ips <;> simp

def FailsFor : QType → Prop
  | .a => f.Fails (asked name) .a
  | .aaaa => f.Fails (asked name) .aaaa
  | .other => f.Fails (asked name) .a ∧ f.Fails (asked name) .aaaa

structure RetriableFailures : Prop where
  servfail : ∀ qtype, FailsFor f name qtype → (response scope services f order σ name qtype).rcode = .serverFailure
  consistent : ∀ qtype qtype', (response scope services f order σ name qtype).rcode = .nameError ↔
    (response scope services f order σ name qtype').rcode = .nameError

theorem retriable_failures_iff (hexternal : External scope name) : RetriableFailures scope services f order σ name ↔
      ∀ qtype ∈ [QType.a, .aaaa], ∃ u ∈ f.upstreams, (f.exchange u (asked name) qtype).failed = false := by
  have hcond : (∀ qtype ∈ [QType.a, .aaaa], ∃ u ∈ f.upstreams, (f.exchange u (asked name) qtype).failed = false) ↔
      ¬ (f.Fails (asked name) .a ∨ f.Fails (asked name) .aaaa) := by
    simp [Forwarder.Fails, not_or]
  have hrcode := response_rcode scope services f order σ name hexternal
  rw [hcond]
  constructor
  · rintro ⟨hservfail, hconsistent⟩ hfails
    -- addresses of the other type hide the failure; without any the codes of the types part
    rcases lookup_cases f (asked name) (order .a) with ⟨hfinds, -⟩ | ⟨hnone, -, err, ha⟩ | ⟨-, hok, -⟩
    · have hsuccess : ∀ qtype, (response scope services f order σ name qtype).rcode = .success := by
        intro qtype
        rcases lookup_cases f (asked name) (order qtype) with ⟨-, ips, hips, hne⟩ | ⟨hnone, -⟩ | ⟨hnone, -⟩
        · simp only [hrcode, hips, if_neg hne]
        · exact absurd hfinds hnone
        · exact absurd hfinds hnone
      rcases hfails with hfails | hfails
      · exact absurd ((hsuccess .a).symm.trans (hservfail .a hfails)) (by decide)
      · exact absurd ((hsuccess .aaaa).symm.trans (hservfail .aaaa hfails)) (by decide)
    · rcases lookup_cases f (asked name) (order .other) with ⟨hfinds, -⟩ | ⟨-, -, err', hother⟩ | ⟨-, hok, -⟩
      · exact hnone hfinds
      · have hparted := hconsistent .a .other
        simp [hrcode, ha, hother] at hparted
      · exact hok hfails
    · exact hok hfails
  · intro hok
    refine ⟨?_, fun qtype qtype' => ?_⟩
    · intro qtype hfails
      cases qtype with
      | a => exact absurd (.inl hfails) hok
      | aaaa => exact absurd (.inr hfails) hok
      | other => exact absurd (.inl hfails.1) hok
    · have hempty : ∀ qtype, (response scope services f order σ name qtype).rcode = .nameError ↔
          ¬ f.Finds (asked name) := by
        intro qtype
        rcases lookup_cases f (asked name) (order qtype) with ⟨hfinds, ips, hips, hne⟩ |
          ⟨-, hfails, -⟩ | ⟨hnone, -, hips⟩
        · simp [hrcode, hips, hne, hfinds]
        · exact absurd hfails hok
        · simp [hrcode, hips, hnone]
      rw [hempty, hempty]

end Responses

namespace Upstreams

def scope : Scope := ⟨"shop", "_default"⟩

def name : List Char := "example.com.".toList

def pair (up : QType → Bool) : Forwarder where
  upstreams := ["9.9.9.9:53", "1.1.1.1:53"]
  exchange u _ qtype :=
    if u = "1.1.1.1:53" ∧ up qtype = true then .reply .noError [some (if qtype = .a then .v4 0x5db8d822 else .v6 1)]
    else .error "i/o timeout"

theorem external : External scope name := by
  unfold External
  decide +kernel

end Upstreams

open Upstreams

theorem one_upstream_up_retriable : External scope name ∧ RetriableFailures scope (fun _ => [])
      (pair fun _ => true) (fun _ => false) .none name := by
  refine ⟨external, (retriable_failures_iff _ _ _ _ _ _ external).2 ?_⟩
  intro qtype _
  refine ⟨"1.1.1.1:53", by decide, ?_⟩
  cases qtype <;> decide

theorem failed_upstreams_negative_cached :
    (response scope (fun _ => []) (pair fun _ => false) (fun _ => false) .none name .a).rcode =
        .serverFailure ∧
      (response scope (fun _ => []) (pair fun _ => false) (fun _ => false) .none name .other).rcode =
        .nameError ∧
      response scope (fun _ => []) (pair (· = .aaaa)) (fun _ => false) .none name .a =
        ⟨[], .success⟩ := by
  refine ⟨?_, ?_, ?_⟩ <;> decide +kernel

end Jaco.Dns
