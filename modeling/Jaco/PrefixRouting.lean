import Mathlib

/-!
Dispatch by prefix. Routes are tried in a fixed order and each takes the words at or below its key; when the first
taker is always a route of a longest key, and every route takes something.
-/

namespace Jaco.PrefixRouting

open List

variable {α ρ : Type} (sep : α)

def Covers (k w : List α) : Prop := w = k ∨ k ++ [sep] <+: w

variable (key : ρ → List α) (below : ρ → Bool)

def Takes (r : ρ) (w : List α) : Prop := Covers sep (key r) w ∧ (below r = true → w ≠ key r)

variable (routes : List ρ) (le : ρ → ρ → Prop)

def First (w : List α) (r : ρ) : Prop :=
  r ∈ routes ∧ Takes sep key below r w ∧ ∀ r' ∈ routes, Takes sep key below r' w → le r r'

structure Serves (words : List α → Prop) : Prop where
  reached : ∀ r ∈ routes, ∃ w, words w ∧ First sep key below routes le w r
  longest : ∀ w, words w → ∀ r' ∈ routes, Covers sep (key r') w →
    ∃ r, First sep key below routes le w r ∧ (key r').length ≤ (key r).length

structure Ordered : Prop where
  nested : ∀ r ∈ routes, ∀ r' ∈ routes, key r ++ [sep] <+: key r' → le r' r
  paired : ∀ r ∈ routes, ∀ r' ∈ routes, r ≠ r' → key r = key r' → key r ≠ [] ∧
    (below r = true ∧ below r' = false ∧ le r r' ∨ below r' = true ∧ below r = false ∧ le r' r)
  accompanied : ∀ r ∈ routes, below r = true → key r ≠ [] → ∃ r' ∈ routes, below r' = false ∧ key r' = key r

structure Linear : Prop where
  total : ∀ r ∈ routes, ∀ r' ∈ routes, le r r' ∨ le r' r
  trans : ∀ r ∈ routes, ∀ r' ∈ routes, ∀ r'' ∈ routes, le r r' → le r' r'' → le r r''
  antisymm : ∀ r ∈ routes, ∀ r' ∈ routes, le r r' → le r' r → r = r'

structure Words (filler : α) (words : List α → Prop) : Prop where
  head : ∀ w, words w → ∃ t, w = sep :: t
  key_mem : ∀ r ∈ routes, key r ≠ [] → words (key r)
  deep_mem : ∀ r ∈ routes, ∀ n, words (key r ++ sep :: List.replicate n filler)
  filler_ne : filler ≠ sep

variable {sep key below routes le} {words : List α → Prop} {filler : α}

theorem covers_length {k w : List α} (h : Covers sep k w) : k.length ≤ w.length := by
  rcases h with rfl | h
  · exact le_rfl
  · have := h.length_le
    simp only [length_append, length_singleton] at this
    omega

theorem covers_of_covers {k k' w : List α} (h : Covers sep k w) (h' : Covers sep k' w) (hlen : k.length ≤ k'.length) :
    Covers sep k k' := by
  rcases h' with rfl | h'
  · exact h
  · rcases h with rfl | h
    · have := h'.length_le
      simp only [length_append, length_singleton] at this
      omega
    · have hk : k ++ [sep] <+: k' ++ [sep] := prefix_of_prefix_length_le h h' (by simpa using hlen)
      rcases prefix_concat_iff.1 hk with heq | hlt
      · exact .inl (append_inj' heq rfl).1.symm
      · exact .inr hlt

theorem covers_antisymm {k k' : List α} (h : Covers sep k k') (hlen : k'.length ≤ k.length) : k = k' := by
  rcases h with rfl | h
  · rfl
  · have := h.length_le
    simp only [length_append, length_singleton] at this
    omega

theorem takes_of_below {r : ρ} {w : List α} (h : key r ++ [sep] <+: w) : Takes sep key below r w := by
  refine ⟨.inr h, fun _ heq => ?_⟩
  have := h.length_le
  rw [heq, length_append, length_singleton] at this
  omega

theorem exists_bound (f : ρ → Nat) (l : List ρ) : ∃ n, ∀ x ∈ l, f x ≤ n :=
  ⟨(l.map f).sum, fun _ hx => le_sum_of_mem (mem_map_of_mem hx)⟩

theorem exists_least {P : ρ → Prop} (hlinear : Linear routes le) (h : ∃ r ∈ routes, P r) :
    ∃ r ∈ routes, P r ∧ ∀ r' ∈ routes, P r' → le r r' := by
  induction routes with
  | nil =>
    obtain ⟨r, hr, -⟩ := h
    cases hr
  | cons a rest ih =>
    have hrest : Linear rest le := ⟨fun r hr r' hr' => hlinear.total r (.tail a hr) r' (.tail a hr'),
      fun r hr r' hr' r'' hr'' => hlinear.trans r (.tail a hr) r' (.tail a hr') r'' (.tail a hr''),
      fun r hr r' hr' => hlinear.antisymm r (.tail a hr) r' (.tail a hr')⟩
    have hrefl : le a a := (hlinear.total a (.head rest) a (.head rest)).elim id id
    by_cases hex : ∃ r ∈ rest, P r
    · obtain ⟨m, hm, hPm, hleast⟩ := ih hrest hex
      by_cases ha : P a ∧ le a m
      · refine ⟨a, .head rest, ha.1, fun r' hr' hP => ?_⟩
        rcases mem_cons.1 hr' with rfl | hr'
        · exact hrefl
        · exact hlinear.trans a (.head rest) m (.tail a hm) r' (.tail a hr') ha.2 (hleast r' hr' hP)
      · refine ⟨m, .tail a hm, hPm, fun r' hr' hP => ?_⟩
        rcases mem_cons.1 hr' with rfl | hr'
        · exact (hlinear.total m (.tail r' hm) r' (.head rest)).resolve_right (fun hle => ha ⟨hP, hle⟩)
        · exact hleast r' hr' hP
    · obtain ⟨r, hr, hP⟩ := h
      have hra : r = a := (mem_cons.1 hr).resolve_right (fun hrest => hex ⟨r, hrest, hP⟩)
      refine ⟨a, .head rest, hra ▸ hP, fun r' hr' hP' => ?_⟩
      rcases mem_cons.1 hr' with rfl | hr'
      · exact hrefl
      · exact absurd ⟨r', hr', hP'⟩ hex

section Necessary

variable (hlinear : Linear routes le) (hwords : Words sep key routes filler words)
  (hserves : Serves sep key below routes le words)

include hlinear hserves

theorem not_shadowed {r r' : ρ} (hr : r ∈ routes) (hr' : r' ∈ routes) (hle : le r' r)
    (hall : ∀ w, words w → Takes sep key below r w → Takes sep key below r' w) : r' = r := by
  obtain ⟨w, hw, -, htakes, hfirst⟩ := hserves.reached r hr
  exact hlinear.antisymm r' hr' r hr hle (hfirst r' hr' (hall w hw htakes))

theorem paired_of_serves {r r' : ρ} (hr : r ∈ routes) (hr' : r' ∈ routes) (hne : r ≠ r') (hkey : key r = key r')
    (hle : le r r') :
    below r = true ∧ below r' = false ∧ ∃ w, words w ∧ w = key r := by
  obtain ⟨w, hw, -, htakes, hfirst⟩ := hserves.reached r' hr'
  have hnot : ¬ Takes sep key below r w := fun h => hne (hlinear.antisymm r hr r' hr' hle (hfirst r hr h))
  have hcovers : Covers sep (key r) w := hkey ▸ htakes.1
  have hkeyed : below r = true ∧ w = key r := by
    by_contra hcontra
    exact hnot ⟨hcovers, fun hb heq => hcontra ⟨hb, heq⟩⟩
  refine ⟨hkeyed.1, ?_, w, hw, hkeyed.2⟩
  cases hb : below r' with
  | false => rfl
  | true => exact absurd (hkeyed.2.trans hkey) (htakes.2 hb)

include hwords

omit hlinear in
theorem key_taken {r : ρ} (hr : r ∈ routes) (hne : key r ≠ []) :
    ∃ x, First sep key below routes le (key r) x ∧ key x = key r ∧ below x = false := by
  obtain ⟨x, hfirst, hlen⟩ := hserves.longest (key r) (hwords.key_mem r hr hne) r hr (.inl rfl)
  have hkey : key x = key r := covers_antisymm hfirst.2.1.1 hlen
  refine ⟨x, hfirst, hkey, ?_⟩
  cases hb : below x with
  | false => rfl
  | true => exact absurd hkey.symm (hfirst.2.1.2 hb)

theorem ordered_of_serves : Ordered sep key below routes le where
  nested r hr r' hr' hnested := by
    by_contra hle
    have hne : key r' ≠ [] := by
      intro hnil
      rw [hnil] at hnested
      simpa using hnested.length_le
    obtain ⟨x, ⟨hx, -, hfirst⟩, hkey, hbelow⟩ := key_taken hwords hserves hr' hne
    have hxr : le x r := hfirst r hr (takes_of_below hnested)
    -- `x` comes before `r`, which comes before `r'`, and takes whatever `r'` takes.
    have hxr' : le x r' := hlinear.trans x hx r hr r' hr' hxr ((hlinear.total r hr r' hr').resolve_right hle)
    have hsame : x = r' := by
      refine not_shadowed hlinear hserves hr' hx hxr' (fun w _ htakes => ⟨hkey ▸ htakes.1, fun hb => ?_⟩)
      rw [hbelow] at hb
      cases hb
    exact hle (hsame ▸ hxr)
  paired r hr r' hr' hne hkey := by
    have hword (h : ∃ w, words w ∧ w = key r) : key r ≠ [] := by
      rintro hnil
      obtain ⟨w, hw, rfl⟩ := h
      obtain ⟨t, ht⟩ := hwords.head _ hw
      rw [hnil] at ht
      cases ht
    rcases hlinear.total r hr r' hr' with hle | hle
    · obtain ⟨hb, hb', hw⟩ := paired_of_serves hlinear hserves hr hr' hne hkey hle
      exact ⟨hword hw, .inl ⟨hb, hb', hle⟩⟩
    · obtain ⟨hb, hb', hw⟩ := paired_of_serves hlinear hserves hr' hr (Ne.symm hne) hkey.symm hle
      exact ⟨hword (by rwa [hkey]), .inr ⟨hb, hb', hle⟩⟩
  accompanied r hr hb hne := by
    obtain ⟨x, hfirst, hkey, hbelow⟩ := key_taken hwords hserves hr hne
    exact ⟨x, hfirst.1, hbelow, hkey⟩

end Necessary

theorem exists_taker (hwords : Words sep key routes filler words) (hordered : Ordered sep key below routes le)
    {w : List α}
    (hw : words w) {r : ρ} (hr : r ∈ routes) (hcovers : Covers sep (key r) w) :
    ∃ r' ∈ routes, key r' = key r ∧ Takes sep key below r' w := by
  by_cases hsolo : below r = true ∧ w = key r
  · have hne : key r ≠ [] := by
      intro hnil
      obtain ⟨t, ht⟩ := hwords.head w hw
      rw [hsolo.2, hnil] at ht
      cases ht
    obtain ⟨r', hr', hb, hkey⟩ := hordered.accompanied r hr hsolo.1 hne
    refine ⟨r', hr', hkey, hkey ▸ hcovers, fun hb' => ?_⟩
    rw [hb] at hb'
    cases hb'
  · exact ⟨r, hr, rfl, hcovers, fun hb heq => hsolo ⟨hb, heq⟩⟩

theorem deep_covered (hne : filler ≠ sep) {r x : ρ} {n : Nat} (hlong : (key x).length ≤ n)
    (hcovers : Covers sep (key x) (key r ++ sep :: List.replicate n filler)) : (key x).length ≤ (key r).length := by
  rcases hcovers with heq | hpre
  · have hlen := congrArg List.length heq
    simp only [length_append, length_cons, length_replicate] at hlen
    omega
  · by_contra hlen
    -- The separator after the longer key would lie among the fillers.
    obtain ⟨t, ht⟩ := hpre
    have hget : (key r ++ sep :: List.replicate n filler)[(key x).length]? = some sep := by
      rw [← ht, append_assoc, List.getElem?_append_right le_rfl]
      simp
    rw [List.getElem?_append_right (by omega), List.getElem?_cons, if_neg (by omega), List.getElem?_replicate] at hget
    split at hget
    · exact hne (Option.some.inj hget)
    · cases hget

section Sufficient

variable (hlinear : Linear routes le) (hwords : Words sep key routes filler words)
  (hordered : Ordered sep key below routes le)

include hlinear hordered

theorem longest_of_first {w : List α} {x r : ρ} (hx : First sep key below routes le w x) (hr : r ∈ routes)
    (htakes : Takes sep key below r w) : (key r).length ≤ (key x).length := by
  by_contra hlen
  have hcovers := covers_of_covers hx.2.1.1 htakes.1 (by omega)
  rcases hcovers with heq | hnested
  · rw [heq] at hlen
    omega
  · have hsame := hlinear.antisymm x hx.1 r hr (hx.2.2 r hr htakes) (hordered.nested x hx.1 r hr hnested)
    rw [hsame] at hlen
    omega

theorem first_of_unrivalled {w : List α} {r : ρ} (hr : r ∈ routes) (htakes : Takes sep key below r w)
    (hlongest : ∀ x ∈ routes, Covers sep (key x) w → (key x).length ≤ (key r).length)
    (hrivals : ∀ x ∈ routes, key x = key r → x ≠ r → Takes sep key below x w → le r x) :
    First sep key below routes le w r := by
  obtain ⟨x, hx, hxw, hleast⟩ := exists_least (P := fun x => Takes sep key below x w) hlinear ⟨r, hr, htakes⟩
  have hlen := longest_of_first hlinear hordered ⟨hx, hxw, hleast⟩ hr htakes
  have hkey : key r = key x := by
    refine covers_antisymm (covers_of_covers htakes.1 hxw.1 hlen) (hlongest x hx hxw.1)
  by_cases hxr : x = r
  · exact hxr ▸ ⟨hx, hxw, hleast⟩
  · exact absurd (hlinear.antisymm x hx r hr (hleast r hr htakes) (hrivals x hx hkey.symm hxr hxw)) hxr

include hwords

theorem serves_of_ordered : Serves sep key below routes le words where
  reached r hr := by
    obtain ⟨n, hn⟩ := exists_bound (fun x => (key x).length) routes
    have hdeep (hrivals : ∀ x ∈ routes, key x = key r → x ≠ r → le r x) :
        ∃ w, words w ∧ First sep key below routes le w r :=
      ⟨_, hwords.deep_mem r hr n, first_of_unrivalled hlinear hordered hr (takes_of_below ⟨_, append_assoc _ _ _⟩)
        (fun x hx => deep_covered hwords.filler_ne (hn x hx)) (fun x hx hkey hne _ => hrivals x hx hkey hne)⟩
    cases hb : below r with
    | true =>
      refine hdeep (fun x hx hkey hne => ?_)
      rcases (hordered.paired x hx r hr hne hkey).2 with ⟨-, hb', -⟩ | ⟨-, -, hle⟩
      · rw [hb] at hb'
        cases hb'
      · exact hle
    | false =>
      by_cases hnil : key r = []
      · refine hdeep (fun x hx hkey hne => ?_)
        exact absurd (hkey.trans hnil) (hordered.paired x hx r hr hne hkey).1
      · refine ⟨key r, hwords.key_mem r hr hnil, first_of_unrivalled hlinear hordered hr ⟨.inl rfl, fun h => ?_⟩
          (fun x _ => covers_length) (fun x hx hkey hne htakes => ?_)⟩
        · rw [hb] at h
          cases h
        · rcases (hordered.paired x hx r hr hne hkey).2 with ⟨hbx, -, -⟩ | ⟨hbr, -, -⟩
          · exact absurd hkey.symm (htakes.2 hbx)
          · rw [hb] at hbr
            cases hbr
  longest w hw r hr hcovers := by
    obtain ⟨r', hr', hkey, htakes⟩ := exists_taker hwords hordered hw hr hcovers
    obtain ⟨x, hx, hxw, hleast⟩ := exists_least (P := fun x => Takes sep key below x w) hlinear ⟨r', hr', htakes⟩
    refine ⟨x, ⟨hx, hxw, hleast⟩, ?_⟩
    rw [← hkey]
    exact longest_of_first hlinear hordered ⟨hx, hxw, hleast⟩ hr' htakes

end Sufficient

theorem serves_iff_ordered (hlinear : Linear routes le) (hwords : Words sep key routes filler words) :
    Serves sep key below routes le words ↔ Ordered sep key below routes le :=
  ⟨ordered_of_serves hlinear hwords, serves_of_ordered hlinear hwords⟩

end Jaco.PrefixRouting
