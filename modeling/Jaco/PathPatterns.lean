import Jaco.CaddyConfig
import Jaco.PrefixRouting

namespace Jaco.Caddy

open PrefixRouting List
open GoStrings (toLower toLowerRune caseRanges)

def matchPath (pattern req : List Char) : Bool :=
  if pattern.getLast? = some '*' then (toLower pattern.dropLast).isPrefixOf (toLower req)
  else toLower pattern = toLower req

def routeMatches (path req : String) : Bool :=
  path = "" || (pathMatchers path).any (fun pattern => matchPath pattern.toList req.toList)

def Request (req : String) : Prop := req.toList.head? = some '/'

def normalised (path : String) : List Char := (stripPrefix path).toList

def prefixKey (path : String) : List Char := toLower (normalised path)

def glob (path : String) : Bool := path.toList.getLast? = some '*'

def Shaped (path : String) : Prop :=
  path = "" ∨ path = "*" ∨ path.toList.head? = some '/' ∧
    (path.toList.getLast? = some '*' → ['/', '*'] <:+ path.toList) ∧
    ¬ ['*', '/'] <:+ path.toList

theorem toLower_append (a b : List Char) : toLower (a ++ b) = toLower a ++ toLower b := map_append

theorem length_toLower (a : List Char) : (toLower a).length = a.length := length_map _

theorem toLower_fill (n : Nat) : toLower (List.replicate n 'a') = List.replicate n 'a' := by
  have ha : toLowerRune 'a' = 'a' := by decide
  rw [toLower, map_replicate, ha]

variable {req path : String} {c : Char} {cs a q : List Char}

theorem lower_of_request (h : Request req) : ∃ t, toLower req.toList = '/' :: t := by
  obtain ⟨t, ht⟩ := List.head?_eq_some_iff.1 h
  exact ⟨toLower t, by rw [ht]; rfl⟩

theorem getLast_trimSuffix (h : cs.getLast? = some c) : ∃ t, cs = t ++ [c] ∧ trimSuffix c cs = t := by
  obtain ⟨t, rfl⟩ := List.getLast?_eq_some_iff.1 h
  exact ⟨t, rfl, by rw [trimSuffix, if_pos h, dropLast_concat]⟩

theorem trimSuffix_of_ne (h : cs.getLast? ≠ some c) : trimSuffix c cs = cs := if_neg h

theorem matchPath_glob (a req : List Char) : matchPath (a ++ ['*']) req = true ↔ toLower a <+: toLower req := by
  rw [matchPath, if_pos (by simp), dropLast_concat, isPrefixOf_iff_prefix]

theorem matchPath_plain {req : List Char} (h : a.getLast? ≠ some '*') :
    matchPath a req = true ↔ toLower a = toLower req := by
  rw [matchPath, if_neg h, decide_eq_true_eq]

theorem matches_of_glob (hpath : path.toList = q ++ ['*']) :
    routeMatches path req = true ↔ toLower q <+: toLower req.toList := by
  have hlast : path.toList.getLast? = some '*' := by rw [hpath, List.getLast?_concat]
  have hne : path ≠ "" := by
    rintro rfl
    cases hlast
  rw [routeMatches, pathMatchers, if_pos hlast, any_cons, any_nil, Bool.or_false, hpath, decide_eq_false hne,
    Bool.false_or, matchPath_glob]

theorem matches_of_plain (hne : path ≠ "") (hpath : path.toList.getLast? ≠ some '*') :
    routeMatches path req = true ↔ matchPath (trimSuffix '/' path.toList) req.toList = true ∨
      toLower (trimSuffix '/' path.toList) ++ ['/'] <+: toLower req.toList := by
  have hbelow : (String.ofList (trimSuffix '/' path.toList) ++ "/*").toList =
      (trimSuffix '/' path.toList ++ ['/']) ++ ['*'] := by
    rw [String.toList_append, String.toList_ofList, append_assoc]
    rfl
  rw [routeMatches, pathMatchers, if_neg hpath, any_cons, any_cons, any_nil, Bool.or_false,
    decide_eq_false hne, Bool.false_or, Bool.or_eq_true, String.toList_ofList, hbelow, matchPath_glob, toLower_append]
  rfl

theorem normalised_plain (h : path.toList.getLast? ≠ some '*') : normalised path = trimSuffix '/' path.toList := by
  rw [normalised, stripPrefix, String.toList_ofList, trimSuffix_of_ne h]

theorem normalised_glob (hpath : path.toList = q ++ ['*']) : normalised path = trimSuffix '/' q := by
  obtain ⟨t, ht, htrim⟩ := getLast_trimSuffix (show path.toList.getLast? = some '*' by
    rw [hpath, List.getLast?_concat])
  rw [hpath] at ht
  rw [normalised, stripPrefix, String.toList_ofList, htrim, (append_inj' ht rfl).1]

theorem covers_root {w : List Char} (h : ∃ t, w = '/' :: t) : Covers '/' [] w := by
  obtain ⟨t, rfl⟩ := h
  exact .inr ⟨t, rfl⟩

theorem plain_of_not_slash (hlast : cs.getLast? ≠ some '*') (hslash : ¬ ['*', '/'] <:+ cs) :
    (trimSuffix '/' cs).getLast? ≠ some '*' := by
  intro hstar
  obtain ⟨t, ht⟩ := List.getLast?_eq_some_iff.1 hstar
  by_cases hend : cs.getLast? = some '/'
  · obtain ⟨t', rfl, htrim⟩ := getLast_trimSuffix hend
    rw [htrim] at ht
    exact hslash ⟨t, by rw [ht, append_assoc]; rfl⟩
  · rw [trimSuffix_of_ne hend] at hstar
    exact hlast hstar

theorem matches_iff_takes (hshaped : Shaped path) (hreq : Request req) :
    routeMatches path req = true ↔ Takes '/' prefixKey glob path (toLower req.toList) := by
  have hhead := lower_of_request hreq
  have hnil : toLower req.toList ≠ [] := by
    obtain ⟨t, ht⟩ := hhead
    rw [ht]
    exact cons_ne_nil _ _
  rcases hshaped with rfl | rfl | ⟨hroot, hglob, hslash⟩
  · exact iff_of_true rfl ⟨covers_root hhead, fun h => absurd h (by decide)⟩
  · exact iff_of_true ((matches_of_glob (show "*".toList = [] ++ ['*'] from rfl)).2 nil_prefix)
      ⟨covers_root hhead, fun _ => hnil⟩
  · have hne : path ≠ "" := by
      rintro rfl
      cases hroot
    by_cases hlast : path.toList.getLast? = some '*'
    · obtain ⟨n, hn⟩ := hglob hlast
      have hpath : path.toList = (n ++ ['/']) ++ ['*'] := by rw [← hn, append_assoc]; rfl
      have hkey : prefixKey path = toLower n := by
        rw [prefixKey, normalised_glob hpath, trimSuffix, if_pos (by simp), dropLast_concat]
      rw [matches_of_glob hpath, toLower_append, Takes, hkey]
      refine ⟨fun h => (show Takes '/' (fun _ : Unit => toLower n) (fun _ => true) () _ from takes_of_below h).imp_right
        (fun h _ => h rfl), fun h => h.1.resolve_left (h.2 (decide_eq_true hlast))⟩
    · have hkey : prefixKey path = toLower (trimSuffix '/' path.toList) := by rw [prefixKey, normalised_plain hlast]
      rw [matches_of_plain hne hlast, matchPath_plain (plain_of_not_slash hlast hslash), Takes, hkey, Covers, eq_comm]
      exact ⟨fun h => ⟨h, fun hg => absurd (of_decide_eq_true hg) hlast⟩, fun h => h.1⟩

theorem nil_or_head {b : List Char} (h : (a ++ b).head? = some c) : a = [] ∨ a.head? = some c := by
  cases a with
  | nil => exact .inl rfl
  | cons x t => exact .inr h

theorem trimSuffix_prefix (c : Char) (cs : List Char) : trimSuffix c cs <+: cs := by
  rw [trimSuffix]
  split
  · exact dropLast_prefix cs
  · exact prefix_rfl

theorem normalised_prefix (path : String) : normalised path <+: path.toList := by
  rw [normalised, stripPrefix, String.toList_ofList]
  calc
    _ <+: _ := trimSuffix_prefix _ _
    _ <+: path.toList := trimSuffix_prefix _ _

theorem normalised_head (hshaped : Shaped path) : normalised path = [] ∨ (normalised path).head? = some '/' := by
  rcases hshaped with rfl | rfl | ⟨hroot, -⟩
  · exact .inl rfl
  · exact .inl rfl
  · obtain ⟨t, ht⟩ := normalised_prefix path
    rw [← ht] at hroot
    exact nil_or_head hroot

theorem caseRanges_above : ∀ r ∈ caseRanges, 47 < (r.1 : Int) + r.2.2.2 := by decide +kernel

theorem toLower_ascii_slash : ∀ n < 128, (Char.ofNat n).toLower = '/' → n = 47 := by decide +kernel

theorem toLowerRune_slash (h : toLowerRune c = '/') : c = '/' := by
  rw [toLowerRune] at h
  split at h
  · rename_i hascii
    rw [← Char.ofNat_toNat c] at h
    rw [← Char.ofNat_toNat c, toLower_ascii_slash c.toNat hascii h]
  · split at h
    · rename_i r hr
      have hlow := caseRanges_above r (mem_of_find?_eq_some hr)
      have hrange := List.find?_some hr
      simp only [Bool.and_eq_true, decide_eq_true_eq] at hrange
      have hnat := congrArg Char.toNat h
      rw [Char.toNat_ofNat] at hnat
      split at hnat
      · have : (c.toNat + r.2.2.2).toNat = 47 := hnat
        omega
      · cases hnat
    · exact h

theorem not_prefix_of_head (hne : a ≠ []) (hhead : a.head? ≠ some '/') (hreq : Request req) :
    ¬ toLower a <+: toLower req.toList := by
  rintro ⟨t, ht⟩
  obtain ⟨t', ht'⟩ := lower_of_request hreq
  cases a with
  | nil => exact hne rfl
  | cons x rest =>
    rw [ht'] at ht
    have hx : toLowerRune x = '/' := (List.cons.inj ht).1
    exact hhead (congrArg some (toLowerRune_slash hx))

theorem not_eq_of_head (hne : a ≠ []) (hhead : a.head? ≠ some '/') (hreq : Request req) :
    toLower a ≠ toLower req.toList :=
  fun h => not_prefix_of_head hne hhead hreq (h ▸ prefix_rfl)

structure Wild (path : String) (stem : List Char) : Prop where
  root : stem.head? = some '/'
  takes : ∀ req, Request req → (routeMatches path req = true ↔ toLower stem <+: toLower req.toList)
  off : ∀ n, ¬ Covers '/' (prefixKey path) (toLower stem ++ List.replicate (n + 1) 'a')

theorem wild_or_unreached_glob (hpath : path.toList = q ++ ['*']) (hne : q ≠ [])
    (hend : q.getLast? ≠ some '/') : (∃ stem, Wild path stem) ∨ ∀ req, Request req → routeMatches path req = false := by
  by_cases hroot : q.head? = some '/'
  · refine .inl ⟨q, hroot, fun req _ => matches_of_glob hpath, fun n hcovers => ?_⟩
    rw [prefixKey, normalised_glob hpath, trimSuffix_of_ne hend] at hcovers
    rcases hcovers with heq | hpre
    · simpa using congrArg List.length heq
    · rw [prefix_append_right_inj] at hpre
      exact absurd (cons_prefix_cons.1 hpre).1 (by decide)
  · refine .inr (fun req hreq => Bool.eq_false_iff.2 (fun h => ?_))
    exact not_prefix_of_head hne hroot hreq ((matches_of_glob hpath).1 h)

theorem wild_or_unreached_slash (hpath : path.toList = q ++ ['*', '/']) :
    (∃ stem, Wild path stem) ∨ ∀ req, Request req → routeMatches path req = false := by
  have hlast : path.toList.getLast? ≠ some '*' := by simp [hpath]
  have hne : path ≠ "" := by
    rintro rfl
    cases q <;> cases hpath
  have htrim : trimSuffix '/' path.toList = q ++ ['*'] := by
    rw [hpath, trimSuffix, if_pos (by simp), dropLast_append_of_ne_nil (by decide)]
    rfl
  have hkey : prefixKey path = toLower q ++ ['*'] := by
    rw [prefixKey, normalised_plain hlast, htrim, toLower_append]
    rfl
  have htakes (req : String) : routeMatches path req = true ↔ toLower q <+: toLower req.toList := by
    rw [matches_of_plain hne hlast, htrim, matchPath_glob, toLower_append]
    refine ⟨fun h => h.elim id (fun h => ?_), .inl⟩
    exact ((prefix_append _ _).trans (prefix_append _ _)).trans h
  have hoff (w : List Char) (hw : w.head? ≠ some '*') : ¬ Covers '/' (toLower q ++ ['*']) (toLower q ++ w) := by
    rintro (heq | hpre)
    · rw [append_right_inj] at heq
      exact hw (heq ▸ rfl)
    · rw [append_assoc, prefix_append_right_inj] at hpre
      obtain ⟨t, rfl⟩ := hpre
      exact hw rfl
  by_cases hnil : q = []
  · refine .inl ⟨['/'], rfl, fun req hreq => ?_, fun n => ?_⟩
    · obtain ⟨t, ht⟩ := lower_of_request hreq
      rw [htakes req, hnil, ht]
      exact iff_of_true nil_prefix ⟨t, rfl⟩
    · subst hnil
      rw [hkey]
      exact hoff ('/' :: List.replicate (n + 1) 'a') (by simp)
  · by_cases hroot : q.head? = some '/'
    · refine .inl ⟨q, hroot, fun req _ => htakes req, fun n => ?_⟩
      rw [hkey]
      exact hoff _ (by simp [replicate_succ])
    · refine .inr (fun req hreq => Bool.eq_false_iff.2 (fun h => ?_))
      exact not_prefix_of_head hnil hroot hreq ((htakes req).1 h)

theorem wild_or_unreached (h : ¬ Shaped path) :
    (∃ stem, Wild path stem) ∨ ∀ req, Request req → routeMatches path req = false := by
  have hne : path ≠ "" := fun hpath => h (.inl hpath)
  by_cases hlast : path.toList.getLast? = some '*'
  · obtain ⟨q, hpath⟩ := List.getLast?_eq_some_iff.1 hlast
    have hq : q ≠ [] := by
      rintro rfl
      exact h (.inr (.inl (String.toList_inj.1 hpath)))
    by_cases hend : q.getLast? = some '/'
    · obtain ⟨n, rfl⟩ := List.getLast?_eq_some_iff.1 hend
      have hroot : (n ++ ['/']).head? ≠ some '/' := by
        intro hroot
        refine h (.inr (.inr ⟨?_, fun _ => ⟨n, by rw [hpath, append_assoc]; rfl⟩, ?_⟩))
        · rw [hpath, List.head?_append_of_ne_nil _ hq]
          exact hroot
        · rintro ⟨t, ht⟩
          have hend := congrArg List.getLast? ht
          rw [hlast] at hend
          simp at hend
      refine .inr (fun req hreq => Bool.eq_false_iff.2 (fun hm => ?_))
      exact not_prefix_of_head hq hroot hreq ((matches_of_glob hpath).1 hm)
    · exact wild_or_unreached_glob hpath hq hend
  · by_cases hslash : ['*', '/'] <:+ path.toList
    · obtain ⟨q, hq⟩ := hslash
      exact wild_or_unreached_slash hq.symm
    · have hroot : path.toList.head? ≠ some '/' :=
        fun hroot => h (.inr (.inr ⟨hroot, fun hl => absurd hl hlast, hslash⟩))
      obtain ⟨t, ht⟩ := trimSuffix_prefix '/' path.toList
      have hnil : trimSuffix '/' path.toList ≠ [] := by
        intro hnil
        rw [trimSuffix] at hnil
        split at hnil
        · rename_i hend
          obtain ⟨t', ht'⟩ := List.getLast?_eq_some_iff.1 hend
          rw [ht', dropLast_concat] at hnil
          exact hroot (by rw [ht', hnil]; rfl)
        · exact hne (String.toList_inj.1 hnil)
      have hhead : (trimSuffix '/' path.toList).head? ≠ some '/' := by
        rw [← ht, List.head?_append_of_ne_nil _ hnil] at hroot
        exact hroot
      refine .inr (fun req hreq => Bool.eq_false_iff.2 (fun hm => ?_))
      rcases (matches_of_plain hne hlast).1 hm with hm | hm
      · exact not_eq_of_head hnil hhead hreq ((matchPath_plain (plain_of_not_slash hlast hslash)).1 hm)
      · exact not_prefix_of_head hnil hhead hreq ((prefix_append _ _).trans hm)

end Jaco.Caddy
