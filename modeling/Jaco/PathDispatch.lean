import Jaco.ConfigOrders
import Jaco.PathPatterns
import Jaco.UpstreamOwners

/-!
Which route of a domain a request reaches. The block tries the routes by the length of their raw paths, the matchers
take requests by the normalised ones.
-/

namespace Jaco.Caddy

open PrefixRouting Grouping List
open GoStrings (toLower)

def Block.dispatch (b : Block) (req : String) : Option Route :=
  (b.proxies.find? (fun p => routeMatches p.route.path req)).map (·.route)

def CoversPath (path req : String) : Prop := Covers '/' (prefixKey path) (toLower req.toList)

structure Dispatched (domRoutes : List Route) (b : Block) : Prop where
  reached : ∀ r ∈ domRoutes, ∃ req, Request req ∧ b.dispatch req = some r
  longest : ∀ req, Request req → ∀ r' ∈ domRoutes, r'.path ≠ "" → CoversPath r'.path req →
    ∃ r, b.dispatch req = some r ∧ r.path ≠ "" ∧ CoversPath r.path req ∧
      (normalised r'.path).length ≤ (normalised r.path).length
  fallback : ∀ req, Request req → (∀ r' ∈ domRoutes, r'.path ≠ "" → ¬ CoversPath r'.path req) →
    b.dispatch req = domRoutes.find? (fun r => r.path = "")

theorem find?_insertionSort {α : Type} {r : α → α → Prop} [DecidableRel r] [Std.Total r] [IsTrans α r] {l : List α}
    (hanti : ∀ a ∈ l, ∀ b ∈ l, r a b → r b a → a = b) (p : α → Bool) (x : α) :
    (l.insertionSort r).find? p = some x ↔ x ∈ l ∧ p x = true ∧ ∀ y ∈ l, p y = true → r x y := by
  have hmem {y : α} : y ∈ l.insertionSort r ↔ y ∈ l := (perm_insertionSort r l).mem_iff
  have hleast {z : α} (hz : (l.insertionSort r).find? p = some z) : ∀ y ∈ l, p y = true → r z y := by
    obtain ⟨-, before, after, hsplit, hbefore⟩ := List.find?_eq_some_iff_append.1 hz
    intro y hy hp
    have hsorted := pairwise_insertionSort r l
    rw [← hmem, hsplit] at hy
    rw [hsplit] at hsorted
    rcases mem_append.1 hy with hy | hy
    · have hnot := hbefore y hy
      rw [hp] at hnot
      cases hnot
    · rcases mem_cons.1 hy with rfl | hy
      · exact (Std.Total.total (r := r) y y).elim id id
      · exact (pairwise_cons.1 (pairwise_append.1 hsorted).2.1).1 y hy
  constructor
  · intro h
    exact ⟨hmem.1 (mem_of_find?_eq_some h), List.find?_some h, hleast h⟩
  · rintro ⟨hx, hp, hfirst⟩
    obtain ⟨z, hz⟩ := Option.isSome_iff_exists.1 (List.find?_isSome.2 ⟨x, hmem.2 hx, hp⟩)
    have hzl := hmem.1 (mem_of_find?_eq_some hz)
    rw [hz, hanti x hx z hzl (hfirst z hzl (List.find?_some hz)) (hleast hz x hx hp)]

section Domain

variable {l : List Route} (hnodup : l.Nodup) (hpaths : ∀ a ∈ l, ∀ b ∈ l, a.path = b.path → a = b)
  (up : Route → List String)

include hnodup hpaths

theorem dispatch_eq_some_iff (req : String) (r : Route) : (buildDomainRoute up l).dispatch req = some r ↔
      r ∈ l ∧ routeMatches r.path req = true ∧ ∀ r' ∈ l, routeMatches r'.path req = true → longerFirst r r' = true := by
  rw [Block.dispatch, proxies_buildDomainRoute, evaluated_eq_insertionSort hnodup hpaths,
    List.find?_map, Option.map_map]
  have hid : (fun p : Proxy => p.route) ∘ (fun r : Route => (⟨r, up r⟩ : Proxy)) = id := rfl
  rw [hid, Option.map_id_fun, id]
  exact find?_insertionSort (r := fun a b => longerFirst a b = true)
    (fun a ha b hb hab hba => hpaths a ha b hb (path_of_longerFirst hab hba)) _ r

theorem dispatch_isSome {req : String} {r : Route} (hr : r ∈ l) (hm : routeMatches r.path req = true) :
    ∃ x, (buildDomainRoute up l).dispatch req = some x := by
  rw [← Option.isSome_iff_exists, Block.dispatch, Option.isSome_map, proxies_buildDomainRoute,
    evaluated_eq_insertionSort hnodup hpaths, List.find?_map, Option.isSome_map]
  exact List.find?_isSome.2 ⟨r, (perm_insertionSort _ _).mem_iff.2 hr, hm⟩

omit hnodup in
theorem linear_longerFirst : Linear l (fun a b => longerFirst a b = true) where
  total r _ r' _ := Std.Total.total (r := fun a b => longerFirst a b = true) r r'
  trans r _ r' _ r'' _ := IsTrans.trans (r := fun a b => longerFirst a b = true) r r' r''
  antisymm a ha b hb hab hba := hpaths a ha b hb (path_of_longerFirst hab hba)

theorem not_dispatched_of_wild (hdispatched : Dispatched l (buildDomainRoute up l)) {r : Route} (hr : r ∈ l)
    {stem : List Char}
    (hwild : Wild r.path stem)
    (hothers : ∀ x ∈ l, ∀ n ≥ (prefixKey x.path).length, routeMatches x.path
      (String.ofList (stem ++ List.replicate (n + 1) 'a')) = true →
      ∀ req, Request req → toLower stem <+: toLower req.toList → routeMatches x.path req = true) : False := by
  obtain ⟨n, hn⟩ := exists_bound (fun x : Route => (prefixKey x.path).length) l
  have hlower : toLower (String.ofList (stem ++ List.replicate (n + 1) 'a')).toList = toLower stem ++
      List.replicate (n + 1) 'a' := by
    rw [String.toList_ofList, toLower_append, toLower_fill]
  have hreq : Request (String.ofList (stem ++ List.replicate (n + 1) 'a')) := by
    obtain ⟨t, rfl⟩ := List.head?_eq_some_iff.1 hwild.root
    rw [Request, String.toList_ofList]
    rfl
  have hmatch := (hwild.takes _ hreq).2 (hlower ▸ prefix_append _ _)
  obtain ⟨x, hx⟩ := dispatch_isSome hnodup hpaths up hr hmatch
  obtain ⟨hxl, hxm, hxfirst⟩ := (dispatch_eq_some_iff hnodup hpaths up _ x).1 hx
  by_cases hxr : x = r
  · -- The route itself: it covers none of this.
    subst hxr
    have hoff : ¬ CoversPath x.path (String.ofList (stem ++ List.replicate (n + 1) 'a')) := by
      rw [CoversPath, hlower]
      exact hwild.off n
    by_cases hcovered : ∃ r' ∈ l, r'.path ≠ "" ∧ CoversPath r'.path (String.ofList (stem ++ List.replicate (n + 1) 'a'))
    · obtain ⟨r', hr', hne, hcovers⟩ := hcovered
      obtain ⟨y, hy, -, hcovers', -⟩ := hdispatched.longest _ hreq r' hr' hne hcovers
      rw [hx] at hy
      cases hy
      exact hoff hcovers'
    · have hback := hdispatched.fallback _ hreq (fun r' hr' hne hcovers => hcovered ⟨r', hr', hne, hcovers⟩)
      rw [hx] at hback
      have hempty := List.find?_some hback.symm
      rw [decide_eq_true_eq] at hempty
      refine hoff (.inr ?_)
      obtain ⟨t, ht⟩ := lower_of_request hreq
      rw [hempty, ht]
      exact ⟨t, rfl⟩
  · -- An earlier route, which then takes whatever the route would.
    obtain ⟨req, hreq', hget⟩ := hdispatched.reached r hr
    obtain ⟨-, hrm, hrfirst⟩ := (dispatch_eq_some_iff hnodup hpaths up _ r).1 hget
    have hxm' := hothers x hxl n (hn x hxl) hxm req hreq' ((hwild.takes req hreq').1 hrm)
    exact hxr (hpaths x hxl r hr (path_of_longerFirst (hxfirst r hr hmatch) (hrfirst x hxl hxm')))

omit hnodup hpaths in
theorem prefix_of_fill {k stem : List Char} {n : Nat} (h : k ++ ['/'] <+: stem ++ List.replicate (n + 1) 'a') :
    k ++ ['/'] <+: stem := by
  refine prefix_of_prefix_length_le h (prefix_append _ _) ?_
  by_contra hlen
  rw [length_append, length_singleton] at hlen
  obtain ⟨t, ht⟩ := h
  have hget : (stem ++ List.replicate (n + 1) 'a')[k.length]? = some '/' := by
    rw [← ht, append_assoc, List.getElem?_append_right le_rfl]
    simp
  rw [List.getElem?_append_right (by omega), List.getElem?_replicate] at hget
  split at hget
  · exact absurd (Option.some.inj hget) (by decide)
  · cases hget

theorem shaped_of_dispatched (hdispatched : Dispatched l (buildDomainRoute up l)) : ∀ r ∈ l, Shaped r.path := by
  classical
  by_contra hunshaped
  have hwild : ∀ r ∈ l, ¬ Shaped r.path → ∃ stem, Wild r.path stem := by
    intro r hr hnot
    refine (wild_or_unreached hnot).resolve_right (fun hnone => ?_)
    obtain ⟨req, hreq, hget⟩ := hdispatched.reached r hr
    have hm := ((dispatch_eq_some_iff hnodup hpaths up _ r).1 hget).2.1
    rw [hnone req hreq] at hm
    cases hm
  choose! stem hstem using hwild
  obtain ⟨r, hr, hnot⟩ : ∃ r ∈ l, ¬ Shaped r.path := by simpa using hunshaped
  obtain ⟨m, hm, hmax⟩ := Finset.exists_max_image (l.toFinset.filter (fun r => ¬ Shaped r.path))
    (fun r => (stem r).length)
    ⟨r, by simp [hr, hnot]⟩
  simp only [Finset.mem_filter, mem_toFinset] at hm hmax
  refine not_dispatched_of_wild hnodup hpaths up hdispatched hm.1 (hstem m hm.1 hm.2)
    (fun x hx n hn hxm req hreq hpre => ?_)
  have hdeep : Request (String.ofList (stem m ++ List.replicate (n + 1) 'a')) := by
    obtain ⟨t, ht⟩ := List.head?_eq_some_iff.1 (hstem m hm.1 hm.2).root
    rw [Request, String.toList_ofList, ht]
    rfl
  have hlower : toLower (String.ofList (stem m ++ List.replicate (n + 1) 'a')).toList =
      toLower (stem m) ++ List.replicate (n + 1) 'a' := by
    rw [String.toList_ofList, toLower_append, toLower_fill]
  by_cases hshaped : Shaped x.path
  · rw [matches_iff_takes hshaped hdeep, hlower] at hxm
    rw [matches_iff_takes hshaped hreq]
    rcases hxm.1 with heq | hbelow
    · have hlen := congrArg List.length heq
      rw [length_append, length_replicate] at hlen
      omega
    · exact takes_of_below ((prefix_of_fill hbelow).trans hpre)
  · have hx' := hstem x hx hshaped
    rw [hx'.takes _ hdeep, hlower] at hxm
    rw [hx'.takes _ hreq]
    refine (prefix_of_prefix_length_le hxm (prefix_append _ _) ?_).trans hpre
    rw [length_toLower, length_toLower]
    exact hmax x ⟨hx, hshaped⟩

end Domain

end Jaco.Caddy
