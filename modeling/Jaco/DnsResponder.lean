import Jaco.Cidr
import Jaco.GoStrings

namespace Jaco.Dns

open Cidr GoStrings List

structure Scope where
  deployment : String
  network : String

abbrev IP := BitVec 32

/-- A service without an entry has the empty list: no entry is ever made for it. -/
abbrev ServiceMap := String → List IP

abbrev LookupHost := List Char → Except String (List Addr)

/-- What `rand.Shuffle` happens to do. -/
structure Shuffle where
  apply : List IP → List IP
  perm : ∀ l, (apply l).Perm l

theorem Shuffle.ne_nil_iff (σ : Shuffle) (l : List IP) : σ.apply l ≠ [] ↔ l ≠ [] := by
  rw [← length_pos_iff, ← length_pos_iff, (σ.perm l).length_eq]

def Shuffle.none : Shuffle := ⟨id, List.Perm.refl⟩

structure Responder where
  scope : Scope
  services : ServiceMap
  forwarder : Option LookupHost

inductive QType where
  | a | aaaa | other
  deriving DecidableEq

structure Question where
  name : List Char
  qtype : QType

inductive RR where
  | a (name : List Char) (ip : IP)
  | aaaa (name : List Char) (ip : BitVec 128)
  deriving DecidableEq

inductive Rcode where
  | success | nameError | serverFailure
  deriving DecidableEq

structure Reply where
  answer : List RR
  rcode : Rcode
  deriving DecidableEq

structure Found where
  records : List RR := []
  known : Bool := false
  failed : Bool := false

def trimSuffix (suffix s : List Char) : List Char :=
  if suffix <:+ s then s.take (s.length - suffix.length) else s

def internalSuffix : List Char := ".jaco.internal".toList

def parseInScopeName (scope : Scope) (name : List Char) : Option String :=
  let name := trimSuffix internalSuffix name
  if '.' ∉ name then some (String.ofList name)
  else match cut '.' name with
    | (svc, some dep) => if String.ofList dep = scope.deployment then some (String.ofList svc) else none
    | (_, none) => none

def v4 (original : List Char) : Addr → Option RR
  | .v4 ip => some (.a original ip)
  | .v6 _ => none

def v6 (original : List Char) : Addr → Option RR
  | .v4 _ => none
  | .v6 ip => some (.aaaa original ip)

def Responder.forward (r : Responder) (name : List Char) (keep : Addr → Option RR) : Found :=
  match r.forwarder with
  | none => {}
  | some lookupHost =>
    match lookupHost name with
    | .error _ => { failed := true }
    | .ok ips => { records := ips.filterMap keep, known := ips ≠ [] }

def Responder.answerA (r : Responder) (σ : Shuffle) (name original : List Char) : Found :=
  match parseInScopeName r.scope name with
  | some service =>
    { records := (σ.apply (r.services service)).map (.a original), known := r.services service ≠ [] }
  | none => r.forward name (v4 original)

def Responder.nameResolvable (r : Responder) (name : List Char) : Bool :=
  match parseInScopeName r.scope name with
  | some service => r.services service ≠ []
  | none => (r.forward name (fun _ => none)).known

def Responder.answerAAAA (r : Responder) (name original : List Char) : Found :=
  match parseInScopeName r.scope name with
  | some _ => { known := r.nameResolvable name }
  | none => r.forward name (v6 original)

def Responder.find (r : Responder) (σ : Shuffle) (q : Question) : Found :=
  let name := toLower (trimSuffix ['.'] q.name)
  match q.qtype with
  | .a => r.answerA σ name q.name
  | .aaaa => r.answerAAAA name q.name
  | .other => { known := r.nameResolvable name }

def Responder.handle (r : Responder) (σ : Shuffle) (questions : List Question) : Reply :=
  let found := questions.map (r.find σ)
  let answer := found.flatMap (·.records)
  if answer = [] ∧ found.all (fun f => !f.known) = true then
    ⟨answer, if found.any (·.failed) then .serverFailure else .nameError⟩
  else ⟨answer, .success⟩

def Responder.addresses (r : Responder) (σ : Shuffle) (name : List Char) : List IP :=
  (r.handle σ [⟨name ++ ['.'], .a⟩]).answer.filterMap (fun rr => match rr with
    | .a _ ip => some ip
    | .aaaa _ _ => none)

theorem trimSuffix_append (s suffix : List Char) : trimSuffix suffix (s ++ suffix) = s := by
  rw [trimSuffix, if_pos (suffix_append s suffix), length_append, Nat.add_sub_cancel, take_left]

theorem handle_answer (r : Responder) (σ : Shuffle) (questions : List Question) :
    (r.handle σ questions).answer = (questions.map (r.find σ)).flatMap (·.records) := by
  simp only [Responder.handle]
  split <;> rfl

theorem addresses_of_inScope {r : Responder} {name : List Char} {service : String} (σ : Shuffle)
    (h : parseInScopeName r.scope (toLower name) = some service) :
    r.addresses σ name = σ.apply (r.services service) := by
  simp [Responder.addresses, handle_answer, Responder.find, trimSuffix_append, Responder.answerA, h, filterMap_map]

theorem addresses_of_external {r : Responder} {name : List Char} {lookupHost : LookupHost} {ip : IP} (σ : Shuffle)
    (h : parseInScopeName r.scope (toLower name) = none) (hf : r.forwarder = some lookupHost)
    (hup : lookupHost (toLower name) = .ok [.v4 ip]) : r.addresses σ name = [ip] := by
  simp [Responder.addresses, handle_answer, Responder.find, trimSuffix_append, Responder.answerA, h,
    Responder.forward, hf, hup, v4]

end Jaco.Dns
