import Jaco.PathDispatch

namespace Jaco.Caddy

open PrefixRouting Grouping List
open GoStrings (toLower)

abbrev pathKey (r : Route) : List Char := prefixKey r.path

abbrev pathGlob (r : Route) : Bool := glob r.path

abbrev tried (r r' : Route) : Prop := longerFirst r r' = true

def Requested (w : List Char) : Prop := ∃ req, Request req ∧ toLower req.toList = w

theorem requested_ofList {cs : List Char} (h : cs.head? = some '/') : Requested (toLower cs) :=
  ⟨String.ofList cs, by rwa [Request, String.toList_ofList], by rw [String.toList_ofList]⟩

theorem length_pathKey (r : Route) : (pathKey r).length = (normalised r.path).length := length_toLower _

section Domain

variable {l : List Route} (hnodup : l.Nodup) (hpaths : ∀ a ∈ l, ∀ b ∈ l, a.path = b.path → a = b)
  (up : Route → List String)
  (hshaped : ∀ r ∈ l, Shaped r.path)

include hshaped

theorem words_requested : Words '/' pathKey l 'a' Requested where
  head w hw := by
    obtain ⟨req, hreq, rfl⟩ := hw
    exact lower_of_request hreq
  key_mem r hr hne := by
    refine requested_ofList ((normalised_head (hshaped r hr)).resolve_left (fun hnil => hne ?_))
    rw [pathKey, prefixKey, hnil]
    rfl
  deep_mem r hr n := by
    have hlower : toLower (normalised r.path ++ '/' :: List.replicate n 'a') = pathKey r ++ '/' ::
        List.replicate n 'a' := by
      have hsplit : normalised r.path ++ '/' :: List.replicate n 'a' = normalised r.path ++ ['/'] ++
          List.replicate n 'a' := by
        rw [append_assoc]
        rfl
      have hslash : toLower ['/'] = ['/'] := by decide
      rw [hsplit, toLower_append, toLower_append, toLower_fill, hslash, append_assoc]
      rfl
    rw [← hlower]
    refine requested_ofList ?_
    rcases normalised_head (hshaped r hr) with hnil | hhead
    · rw [hnil]
      rfl
    · obtain ⟨t, ht⟩ := List.head?_eq_some_iff.1 hhead
      rw [ht]
      rfl
  filler_ne := by decide

include hnodup hpaths

theorem dispatch_iff_first {req : String} (hreq : Request req) (r : Route) :
    (buildDomainRoute up l).dispatch req = some r ↔ First '/' pathKey pathGlob l tried (toLower req.toList) r := by
  rw [dispatch_eq_some_iff hnodup hpaths]
  refine and_congr_right (fun hr => and_congr (matches_iff_takes (hshaped r hr) hreq)
    (forall₂_congr (fun r' hr' => ?_)))
  exact imp_congr_left (matches_iff_takes (hshaped r' hr') hreq)

theorem serves_of_dispatched (h : Dispatched l (buildDomainRoute up l)) :
    Serves '/' pathKey pathGlob l tried Requested where
  reached r hr := by
    obtain ⟨req, hreq, hget⟩ := h.reached r hr
    exact ⟨_, ⟨req, hreq, rfl⟩, (dispatch_iff_first hnodup hpaths up hshaped hreq r).1 hget⟩
  longest w hw r' hr' hcovers := by
    obtain ⟨req, hreq, rfl⟩ := hw
    by_cases hcovered : ∃ r ∈ l, r.path ≠ "" ∧ CoversPath r.path req ∧ (pathKey r').length ≤ (pathKey r).length
    · obtain ⟨r, hr, hne, hcovers', hlen⟩ := hcovered
      obtain ⟨x, hx, -, -, hlen'⟩ := h.longest req hreq r hr hne hcovers'
      refine ⟨x, (dispatch_iff_first hnodup hpaths up hshaped hreq x).1 hx, hlen.trans ?_⟩
      rw [length_pathKey, length_pathKey]
      exact hlen'
    · -- Only the catch-all covers the request.
      have hempty : r'.path = "" := by
        by_contra hne
        exact hcovered ⟨r', hr', hne, hcovers, le_rfl⟩
      have hlen : (pathKey r').length = 0 := by
        rw [pathKey, hempty]
        rfl
      have hback := h.fallback req hreq (fun r hr hne hcovers' => hcovered ⟨r, hr, hne, hcovers', hlen ▸ Nat.zero_le _⟩)
      have hsome : (l.find? (fun r => r.path = "")).isSome = true :=
        List.find?_isSome.2 ⟨r', hr', decide_eq_true hempty⟩
      obtain ⟨x, hx⟩ := Option.isSome_iff_exists.1 hsome
      rw [hx] at hback
      exact ⟨x, (dispatch_iff_first hnodup hpaths up hshaped hreq x).1 hback, hlen ▸ Nat.zero_le _⟩

theorem dispatched_of_serves (h : Serves '/' pathKey pathGlob l tried Requested) :
    Dispatched l (buildDomainRoute up l) where
  reached r hr := by
    obtain ⟨w, ⟨req, hreq, rfl⟩, hfirst⟩ := h.reached r hr
    exact ⟨req, hreq, (dispatch_iff_first hnodup hpaths up hshaped hreq r).2 hfirst⟩
  longest req hreq r' hr' hne hcovers := by
    obtain ⟨r, hfirst, hlen⟩ := h.longest _ ⟨req, hreq, rfl⟩ r' hr' hcovers
    refine ⟨r, (dispatch_iff_first hnodup hpaths up hshaped hreq r).2 hfirst, fun hempty => ?_, hfirst.2.1.1, ?_⟩
    · -- The catch-all is tried last, so not before a route of its own key.
      have hnil : pathKey r' = [] := by
        rw [pathKey, pathKey, hempty] at hlen
        exact eq_nil_of_length_eq_zero (Nat.le_zero.1 hlen)
      have htakes : Takes '/' pathKey pathGlob r' (toLower req.toList) := by
        refine ⟨hcovers, fun _ heq => ?_⟩
        obtain ⟨t, ht⟩ := lower_of_request hreq
        rw [hnil, ht] at heq
        cases heq
      rcases longerFirst_iff.1 (hfirst.2.2 r' hr' htakes) with hlt | ⟨heq, -⟩
      · rw [hempty] at hlt
        exact absurd hlt (Nat.not_lt_zero _)
      · rw [hempty] at heq
        exact hne (String.utf8ByteSize_eq_zero_iff.1 heq.symm)
    · rw [length_pathKey, length_pathKey] at hlen
      exact hlen
  fallback req hreq hnone := by
    have honly (x : Route) (hx : x ∈ l) (hm : Takes '/' pathKey pathGlob x (toLower req.toList)) : x.path = "" := by
      by_contra hne
      exact hnone x hx hne hm.1
    cases hfind : l.find? (fun r => r.path = "") with
    | some c =>
      have hc := mem_of_find?_eq_some hfind
      have hempty := List.find?_some hfind
      rw [decide_eq_true_eq] at hempty
      rw [dispatch_iff_first hnodup hpaths up hshaped hreq]
      refine ⟨hc, ⟨?_, fun hglob => ?_⟩, fun x hx hm => ?_⟩
      · rw [pathKey, hempty]
        exact covers_root (lower_of_request hreq)
      · rw [pathGlob, hempty] at hglob
        cases hglob
      · rw [hpaths x hx c hc ((honly x hx hm).trans hempty.symm)]
        exact (linear_longerFirst hpaths).total c hc c hc |>.elim id id
    | none =>
      rw [Option.eq_none_iff_forall_ne_some]
      intro x hx
      obtain ⟨hxl, htakes, -⟩ := (dispatch_iff_first hnodup hpaths up hshaped hreq x).1 hx
      have hnot := List.find?_eq_none.1 hfind x hxl
      exact hnot (decide_eq_true (honly x hxl htakes))

end Domain

structure PathsApart (l : List Route) : Prop where
  shaped : ∀ r ∈ l, Shaped r.path
  ordered : Ordered '/' pathKey pathGlob l tried

theorem dispatched_iff_apart {l : List Route} (hnodup : l.Nodup) (hpaths : ∀ a ∈ l, ∀ b ∈ l, a.path = b.path → a = b)
    (up : Route → List String) : Dispatched l (buildDomainRoute up l) ↔ PathsApart l := by
  constructor
  · intro h
    have hshaped := shaped_of_dispatched hnodup hpaths up h
    exact ⟨hshaped, (serves_iff_ordered (linear_longerFirst hpaths) (words_requested hshaped)).1
      (serves_of_dispatched hnodup hpaths up hshaped h)⟩
  · rintro ⟨hshaped, hordered⟩
    exact dispatched_of_serves hnodup hpaths up hshaped
      ((serves_iff_ordered (linear_longerFirst hpaths) (words_requested hshaped)).2 hordered)

def declared (j : JacoYAML) (domain : String) : List Route :=
  (toRoutes j.deployment (j.routes.filter (fun r => r.domain = domain))).map (fun r => ⟨r, j.acmeEmail⟩)

theorem nodup_of_validateRoutes {m : RoutesSeen} {decls : List JacoRouteDecl} (h : validateRoutes m decls = none) :
    (decls.map (fun r => (r.domain, r.path))).Nodup ∧ ∀ r ∈ decls, (r.domain, r.path) ∉ m.keys := by
  induction decls generalizing m with
  | nil => exact ⟨nodup_nil, nofun⟩
  | cons r rest ih =>
    rw [validateRoutes, Option.or_eq_none_iff] at h
    have hnew : (r.domain, r.path) ∉ m.keys := by
      intro hmem
      have hroute := h.1
      rw [validateRoute] at hroute
      repeat' split at hroute
      all_goals cases hroute
    obtain ⟨hnodup, hfresh⟩ := ih h.2
    refine ⟨nodup_cons.2 ⟨fun hmem => ?_, hnodup⟩, fun r' hr' => ?_⟩
    · obtain ⟨r', hr', heq⟩ := mem_map.1 hmem
      exact hfresh r' hr' (heq ▸ mem_cons_self)
    · rcases mem_cons.1 hr' with rfl | hr'
      · exact hnew
      · exact fun hmem => hfresh r' hr' (mem_cons_of_mem _ hmem)

theorem declared_paths {P : Parsers} {j : JacoYAML} (h : P.validateJacoYAML j = none) (domain : String) :
    ((declared j domain).map (fun r => r.path)).Nodup := by
  rw [Parsers.validateJacoYAML] at h
  split at h
  · cases h
  · rw [Option.or_eq_none_iff, Option.or_eq_none_iff] at h
    have hnodup := (nodup_of_validateRoutes h.2.2).1
    have hsub := hnodup.sublist ((filter_sublist (p := fun r => r.domain = domain)).map _)
    have hpairs : (j.routes.filter (fun r => r.domain = domain)).map (fun r => (r.domain, r.path)) =
        ((declared j domain).map (fun r => r.path)).map (fun path => (domain, path)) := by
      rw [declared, toRoutes, map_map, map_map, map_map]
      refine map_congr_left (fun r hr => Prod.ext ?_ rfl)
      exact of_decide_eq_true (mem_filter.1 hr).2
    rw [hpairs] at hsub
    exact List.Nodup.of_map _ hsub

theorem longest_path_served_iff (P : Parsers) (j : JacoYAML) (haccepted : P.validateJacoYAML j = none) (domain : String)
    (up : Route → List String) :
    Dispatched (declared j domain) (buildDomainRoute up (declared j domain)) ↔ PathsApart (declared j domain) := by
  have hpaths := declared_paths haccepted domain
  exact dispatched_iff_apart (List.Nodup.of_map _ hpaths) (fun a ha b hb => inj_on_of_nodup_map hpaths ha hb) up

namespace Declared

def parsers : Parsers where
  decodeJaco _ := .error (invalid "")
  mailError _ := none
  validateCompose _ := none
  loadCompose _ := .error ""
  specHash _ _ := .error ""

def decl (service path : String) : JacoRouteDecl :=
  { domain := "example.com", service := service, port := 80, tls := "auto", path := path }

def layered : JacoYAML :=
  { deployment := "shop", routes := [decl "web" "", decl "api" "/api", decl "admin" "/api/admin/"] }

def doubled : JacoYAML := { deployment := "shop", routes := [decl "api" "/api", decl "legacy" "/api/"] }

def upstreams : Route → List String := fun _ => ["10.244.5.2:80"]

end Declared

open Declared in
theorem nested_paths_served : parsers.validateJacoYAML layered = none ∧
      Dispatched (declared layered "example.com") (buildDomainRoute upstreams (declared layered "example.com")) := by
  have haccepted : parsers.validateJacoYAML layered = none := by decide +kernel
  refine ⟨haccepted, (longest_path_served_iff parsers layered haccepted "example.com" upstreams).2 ⟨?_, ?_, ?_, ?_⟩⟩
  · intro r hr
    rw [declared, mem_map] at hr
    obtain ⟨d, hd, rfl⟩ := hr
    have hpath : d.path = "" ∨ d.path = "/api" ∨ d.path = "/api/admin/" := by
      revert d
      decide +kernel
    rcases hpath with h | h | h
    · exact .inl h
    · exact .inr (.inr (h ▸ by decide +kernel))
    · exact .inr (.inr (h ▸ by decide +kernel))
  · decide +kernel
  · decide +kernel
  · decide +kernel

open Declared in
theorem shadowed_by_its_slash : parsers.validateJacoYAML doubled = none ∧
      ¬ Dispatched (declared doubled "example.com") (buildDomainRoute upstreams (declared doubled "example.com")) := by
  have haccepted : parsers.validateJacoYAML doubled = none := by decide +kernel
  refine ⟨haccepted, fun h => ?_⟩
  have hpaths := declared_paths haccepted "example.com"
  have hapart := (dispatched_iff_apart (List.Nodup.of_map _ hpaths) (fun a ha b hb => inj_on_of_nodup_map hpaths ha hb)
    upstreams).1 h
  have hpaired := hapart.ordered.paired ⟨⟨"example.com", "shop", "api", 80, true, "/api", false⟩, ""⟩
    (by decide +kernel)
    ⟨⟨"example.com", "shop", "legacy", 80, true, "/api/", false⟩, ""⟩ (by decide +kernel) (by decide)
      (by decide +kernel)
  exact absurd hpaired (by decide +kernel)

end Jaco.Caddy
