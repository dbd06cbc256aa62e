import Mathlib

/-!
A stateless reading of one nftables table: named sets, base chains bound to a hook, and the verdict a
packet gets there. `custom` stands for any rule a foreign editor may have put in a chain.
-/

namespace Jaco.PacketFilter

inductive CtState where
  | new | established | related | invalid | untracked
  deriving DecidableEq

inductive Verdict where
  | accept | drop
  deriving DecidableEq

structure Packet (A : Type) where
  saddr : A
  daddr : A
  ct : CtState

inductive Match where
  | ctState (states : List CtState)
  | saddr (set : String)
  | daddr (set : String)

inductive Rule (A : Type) where
  | guarded (tests : List Match) (verdict : Verdict)
  | custom (decide : Packet A → Option Verdict)

structure Chain (A : Type) where
  name : String
  hook : String
  prio : Int
  policy : String
  rules : List (Rule A)

structure Table (A E : Type) where
  sets : List (String × List E)
  chains : List (Chain A)

section Semantics

variable {A E : Type} (covers : E → A → Bool)

def Table.elements (t : Table A E) (name : String) : List E :=
  ((t.sets.find? (fun s => s.1 = name)).map Prod.snd).getD []

def Table.inSet (t : Table A E) (name : String) (a : A) : Bool := (t.elements name).any (covers · a)

def Match.holds (t : Table A E) (p : Packet A) : Match → Bool
  | .ctState states => decide (p.ct ∈ states)
  | .saddr set => t.inSet covers set p.saddr
  | .daddr set => t.inSet covers set p.daddr

def Rule.verdict (t : Table A E) (p : Packet A) : Rule A → Option Verdict
  | .guarded tests v => if tests.all (Match.holds covers t p) then some v else none
  | .custom decide => decide p

def Chain.policyVerdict (c : Chain A) : Verdict := if c.policy = "drop" then .drop else .accept

def Chain.verdict (t : Table A E) (p : Packet A) (c : Chain A) : Verdict :=
  (c.rules.findSome? (Rule.verdict covers t p)).getD c.policyVerdict

def Table.accepts (t : Table A E) (hook : String) (p : Packet A) : Bool :=
  (t.chains.filter (fun c => c.hook = hook)).all (fun c => Chain.verdict covers t p c = .accept)

theorem inSet_iff (t : Table A E) (name : String) (a : A) :
    t.inSet covers name a = true ↔ ∃ e ∈ t.elements name, covers e a = true := by
  simp [Table.inSet]

theorem elements_of_mem (t : Table A E) (name : String) (es : List E)
    (hn : (t.sets.map Prod.fst).Nodup) (h : (name, es) ∈ t.sets) : t.elements name = es := by
  have hf : ∃ s, t.sets.find? (fun s => s.1 = name) = some s := by
    rw [← Option.isSome_iff_exists, List.find?_isSome]
    exact ⟨(name, es), h, by simp⟩
  obtain ⟨⟨n, fs⟩, hs⟩ := hf
  have hm := List.mem_of_find?_eq_some hs
  have hname : n = name := by simpa using List.find?_some hs
  subst hname
  have he : fs = es := congrArg Prod.snd (List.inj_on_of_nodup_map hn hm h rfl)
  simp [Table.elements, hs, he]

theorem verdict_guarded_cons (t : Table A E) (p : Packet A) (tests : List Match) (v : Verdict)
    (rs : List (Rule A)) (d : Verdict) :
    ((Rule.guarded tests v :: rs).findSome? (Rule.verdict covers t p)).getD d =
      if tests.all (Match.holds covers t p) then v else (rs.findSome? (Rule.verdict covers t p)).getD d := by
  rw [List.findSome?_cons]
  simp only [Rule.verdict]
  split <;> rename_i hv
  · split at hv
    · cases hv; simp_all
    · cases hv
  · split at hv
    · cases hv
    · simp_all

theorem verdict_accepts_append (t : Table A E) (p : Packet A) (tests : List (List Match))
    (rs : List (Rule A)) (d : Verdict) :
    ((tests.map (fun ms => Rule.guarded ms .accept) ++ rs).findSome? (Rule.verdict covers t p)).getD d =
      if ∃ ms ∈ tests, ms.all (Match.holds covers t p) = true then .accept
      else (rs.findSome? (Rule.verdict covers t p)).getD d := by
  induction tests with
  | nil => simp
  | cons ms tests ih =>
    rw [List.map_cons, List.cons_append, verdict_guarded_cons, ih]
    by_cases h : ms.all (Match.holds covers t p) = true
    · rw [if_pos h, if_pos ⟨ms, List.mem_cons_self, h⟩]
    · rw [if_neg h]
      apply if_congr _ rfl rfl
      simp only [List.mem_cons, exists_eq_or_imp, h]
      simp

end Semantics

end Jaco.PacketFilter
