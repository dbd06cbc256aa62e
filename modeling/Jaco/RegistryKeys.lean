import Jaco.FsmFrames

namespace Jaco.Pull

open GoStrings List

def domainChar (c : Char) : Bool := c.isAlphanum || c ∈ ['.', '-', ':', '[', ']']

def pathChar (c : Char) : Bool := c.isLower || c.isDigit || c ∈ ['.', '_', '-', '/']

structure Named where
  domain : List Char
  path : List Char
  domain_ok : ∀ c ∈ domain, domainChar c = true
  path_ok : ∀ c ∈ path, pathChar c = true

/-- `reference.ParseNormalizedNamed`. -/
structure Grammar where
  parseNormalizedNamed : String → Except String Named
  rejects_empty : ∃ e, parseNormalizedNamed "" = .error e

def dockerHubHost : List Char := "docker.io".toList

def Grammar.canonicalHost (g : Grammar) (ref : String) : Except String (List Char) :=
  if ref = "" then .error "pull: empty image reference"
  else match g.parseNormalizedNamed ref with
    | .error e => .error ("pull: parse " ++ quote ref ++ ": " ++ e)
    | .ok named =>
      let host := toLower named.domain
      .ok (if host = "index.docker.io".toList then dockerHubHost else host)

def Grammar.canonicalRepo (g : Grammar) (ref : String) : Except String (List Char) :=
  match g.canonicalHost ref with
  | .error e => .error e
  | .ok host =>
    match g.parseNormalizedNamed ref with
    | .error e => .error ("pull: parse " ++ quote ref ++ ": " ++ e)
    | .ok named => .ok (if named.path = [] then host else host ++ '/' :: named.path)

def matchLoop (lookup : List Char → Bool) : Nat → List Char → Option (List Char)
  | 0, _ => none
  | fuel + 1, candidate =>
    if candidate = [] then none
    else if lookup candidate then some candidate
    else match beforeLast '/' candidate with
      | none => none
      | some shorter => matchLoop lookup fuel shorter

def matchCredentialKey (repo : List Char) (lookup : List Char → Bool) : Option (List Char) :=
  matchLoop lookup (repo.length + 1) repo

def registryHost (key : List Char) : List Char := (cut '/' key).1

def soleLoop (covers : List Char → Bool) (sole : List Char) : List (List Char) → Option (List Char)
  | [] => if sole = [] then none else some sole
  | k :: ks =>
    if covers k then if sole ≠ [] then none else soleLoop covers k ks
    else soleLoop covers sole ks

local instance lawfulBEq_key : LawfulBEq (List Char) := inferInstance

def resolveCredentialKey (repo : List Char) (keys : List (List Char)) : Option (List Char) :=
  match matchCredentialKey repo (fun k => k ∈ keys) with
  | some key => some key
  | none =>
    let host := registryHost repo
    if host = [] then none else soleLoop (fun k => k = host ∨ host ++ ['/'] <+: k) [] keys

def hubAliases : List (List Char) :=
  ["index.docker.io".toList, "registry-1.docker.io".toList, "registry.docker.io".toList]

def foldHub (host : List Char) : List Char := if host ∈ hubAliases then dockerHubHost else host

/-- What was typed, without its scheme, query, fragment and letter case. -/
def location (ref : String) : List Char :=
  let h := toLower (trimSpace ref.toList)
  ((afterFirst "://".toList h).getD h).takeWhile (fun c => c ≠ '?' && c ≠ '#')

def hostOf (ref : String) : List Char := (cut '/' (location ref)).1

def namespaceOf (ref : String) : List Char := trimWith (· = '/') ((cut '/' (location ref)).2.getD [])

def joined (host ns : List Char) : List Char := if ns = [] then host else host ++ '/' :: ns

theorem canonicalRegistryKey_eq (ref : String) : canonicalRegistryKey ref =
      String.ofList (if foldHub (hostOf ref) = [] then [] else joined (foldHub (hostOf ref)) (namespaceOf ref)) := by
  have hfold : (if String.ofList (hostOf ref) ∈ ["index.docker.io", "registry-1.docker.io", "registry.docker.io"]
      then "docker.io" else String.ofList (hostOf ref)) = String.ofList (foldHub (hostOf ref)) := by
    have hiff : String.ofList (hostOf ref) ∈ ["index.docker.io", "registry-1.docker.io", "registry.docker.io"] ↔
        hostOf ref ∈ hubAliases := by
      simp only [hubAliases, mem_cons, not_mem_nil, or_false, ← String.toList_inj, String.toList_ofList]
    simp only [hiff, foldHub]
    split <;> rfl
  have hdef : canonicalRegistryKey ref =
      (let host := if String.ofList (hostOf ref) ∈ ["index.docker.io", "registry-1.docker.io", "registry.docker.io"]
        then "docker.io" else String.ofList (hostOf ref)
      let path := String.ofList (namespaceOf ref)
      if host = "" then "" else if path = "" then host else host ++ "/" ++ path) := rfl
  rw [hdef, hfold]
  have hempty : ∀ l : List Char, String.ofList l = "" ↔ l = [] := by
    intro l
    rw [← String.toList_inj, String.toList_ofList]
    rfl
  simp only [hempty]
  split
  · rfl
  · rw [joined]
    split
    · rfl
    · rw [← String.toList_inj]
      simp

theorem foldHub_notMem (host : List Char) : foldHub host ∉ hubAliases := by
  unfold foldHub
  split
  · decide
  · assumption

variable {host : List Char} {c : Char}

theorem slash_notMem_foldHub (h : '/' ∉ host) : '/' ∉ foldHub host := by
  unfold foldHub
  split
  · decide
  · exact h

theorem registryHost_joined (h : '/' ∉ host) (ns : List Char) : registryHost (joined host ns) = host := by
  unfold registryHost joined
  split
  · rw [cut_of_notMem h]
  · rw [cut_append '/' host ns h]

theorem registryHost_canonical {ref : String} (h : canonicalRegistryKey ref ≠ "") :
    registryHost (canonicalRegistryKey ref).toList = foldHub (hostOf ref) := by
  rw [canonicalRegistryKey_eq] at h ⊢
  rw [String.toList_ofList]
  split
  · rename_i hnil
    rw [if_pos hnil] at h
    exact absurd rfl h
  · exact registryHost_joined (slash_notMem_foldHub (notMem_cut_fst '/' _)) _

def plain (c : Char) : Bool := !isSpace c && toLowerRune c = c && (c ≠ '?' && c ≠ '#')

theorem plain_ascii : ∀ n < 128,
    (domainChar (Char.ofNat n) = true → plain (toLowerRune (Char.ofNat n)) = true ∧ toLowerRune (Char.ofNat n) ≠ '/') ∧
      (pathChar (Char.ofNat n) = true → plain (Char.ofNat n) = true ∧ Char.ofNat n ≠ ':') := by
  decide +kernel

theorem lt_of_domainChar (h : domainChar c = true) : c.toNat < 128 := by
  simp only [domainChar, Bool.or_eq_true, decide_eq_true_eq, Char.isAlphanum, Char.isAlpha, Char.isUpper, Char.isLower,
    Char.isDigit, Bool.and_eq_true, mem_cons, not_mem_nil, or_false] at h
  rcases h with ((h | h) | h) | h | h | h | h | h
  · exact lt_of_le_of_lt (show c.toNat ≤ 90 from h.2) (by decide)
  · exact lt_of_le_of_lt (show c.toNat ≤ 122 from h.2) (by decide)
  · exact lt_of_le_of_lt (show c.toNat ≤ 57 from h.2) (by decide)
  all_goals
    rw [h]
    decide

theorem lt_of_pathChar (h : pathChar c = true) : c.toNat < 128 := by
  simp only [pathChar, Bool.or_eq_true, decide_eq_true_eq, Char.isLower, Char.isDigit, Bool.and_eq_true, mem_cons,
    not_mem_nil, or_false] at h
  rcases h with (h | h) | h | h | h | h
  · exact lt_of_le_of_lt (show c.toNat ≤ 122 from h.2) (by decide)
  · exact lt_of_le_of_lt (show c.toNat ≤ 57 from h.2) (by decide)
  all_goals
    rw [h]
    decide

theorem plain_of_domainChar (h : domainChar c = true) : plain (toLowerRune c) = true ∧ toLowerRune c ≠ '/' := by
  have hc := (plain_ascii c.toNat (lt_of_domainChar h)).1
  rw [Char.ofNat_toNat] at hc
  exact hc h

theorem plain_of_pathChar (h : pathChar c = true) : plain c = true ∧ c ≠ ':' := by
  have hc := (plain_ascii c.toNat (lt_of_pathChar h)).2
  rw [Char.ofNat_toNat] at hc
  exact hc h

theorem no_scheme {ns : List Char} (hslash : '/' ∉ host) (hns : ¬ "://".toList <:+: ns) (hhead : ns.head? ≠ some '/') :
    ¬ "://".toList <:+: joined host ns := by
  rintro ⟨s, t, hst⟩
  have hscheme : "://".toList = [':', '/', '/'] := by decide
  rw [hscheme] at hns hst
  rw [append_assoc] at hst
  unfold joined at hst
  split at hst
  · apply hslash
    rw [← hst]
    simp
  · rcases append_eq_append_iff.1 hst with ⟨mid, hhost, hrest⟩ | ⟨mid, -, hrest⟩
    · match mid, hrest with
      | [_], hrest =>
        injection hrest with _ hrest
        injection hrest with _ hns'
        exact hhead (by rw [← hns']; rfl)
      | _ :: d :: mid, hrest =>
        injection hrest with _ hrest
        injection hrest with hd _
        apply hslash
        rw [hhost, ← hd]
        simp
    · match mid, hrest with
      | _ :: mid, hrest =>
        injection hrest with _ hns'
        exact hns ⟨mid, t, (append_assoc _ _ _).trans hns'.symm⟩

theorem cut_joined (hslash : '/' ∉ host) (ns : List Char) :
    (cut '/' (joined host ns)).1 = host ∧ (cut '/' (joined host ns)).2.getD [] = ns := by
  unfold joined
  split
  · rename_i hns
    rw [cut_of_notMem hslash, hns]
    exact ⟨rfl, rfl⟩
  · rw [cut_append '/' host ns hslash]
    exact ⟨rfl, rfl⟩

theorem location_eq_self {cs : List Char} (htrim : trimSpace cs = cs) (hlower : toLower cs = cs)
    (hscheme : ¬ "://".toList <:+: cs) (hquery : ∀ c ∈ cs, c ≠ '?' ∧ c ≠ '#') : location (String.ofList cs) = cs := by
  simp only [location, String.toList_ofList, htrim, hlower, afterFirst_eq_none (by decide) hscheme, Option.getD_none]
  rw [takeWhile_eq_self_iff]
  intro c hc
  simpa using hquery c hc

theorem canonicalRegistryKey_joined {ns : List Char} (hne : host ≠ []) (hhub : host ∉ hubAliases)
    (hslash : '/' ∉ host) (htrim : trimWith (· = '/') ns = ns)
    (hloc : location (String.ofList (joined host ns)) = joined host ns) :
    canonicalRegistryKey (String.ofList (joined host ns)) = String.ofList (joined host ns) := by
  obtain ⟨hhost, hns⟩ := cut_joined hslash ns
  have hhostOf : hostOf (String.ofList (joined host ns)) = host := by rw [hostOf, hloc, hhost]
  have hnsOf : namespaceOf (String.ofList (joined host ns)) = ns := by rw [namespaceOf, hloc, hns, htrim]
  have hfold : foldHub host = host := if_neg hhub
  rw [canonicalRegistryKey_eq, hhostOf, hnsOf, hfold, if_neg hne]

end Jaco.Pull
