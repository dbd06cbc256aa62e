import Jaco.CertListing

namespace Jaco.CertStorage

open List Store

section Listing

variable {sha256 : Bytes → Bytes} {s : JacoStorage} {l : s.state.certBlobs.Listing} {pre : String}

theorem stored_of_below (h : SegmentSafe sha256 s pre) {key : String} (hexists : s.keyExists sha256 key = true)
    {rest : List Char}
    (hbelow : Below pre.toList key.toList rest) : s.Stored (directory pre.toList ++ rest) := by
  rw [← hbelow.1, stored_iff]
  cases hget : s.state.certBlobs.get key with
  | some b => rfl
  | none =>
    rw [JacoStorage.keyExists, hget, Option.isSome_none, Bool.false_or] at hexists
    exact absurd hbelow (h.stored key hexists hget rest)

section Necessary

variable (h : ListsExactly sha256 s l pre)

include h

theorem stored_of_exists {key : String} (hexists : s.keyExists sha256 key = true) {rest : List Char}
    (hbelow : Below pre.toList key.toList rest) : s.Stored key.toList := by
  obtain ⟨rest', hstored, -, hname⟩ := mem_list_iff.1 ((h.recursive key).2 ⟨hexists, rest, hbelow⟩)
  rw [hname]
  exact hstored

theorem slash_of_exact (hopen : Open pre.toList) : ¬ s.Stored (pre.toList ++ ['/']) := by
  intro hstored
  have hexists : s.keyExists sha256 (String.ofList (pre.toList ++ ['/'])) = true :=
    exists_of_stored (by rwa [String.toList_ofList])
  have hmem := (h.recursive _).2 ⟨hexists, ['/'], by rw [String.toList_ofList, directory_of_open hopen],
    cons_ne_nil _ _⟩
  obtain ⟨rest, -, hne, hname⟩ := mem_list_iff.1 hmem
  rw [String.toList_ofList, if_pos rfl, append_right_inj] at hname
  subst hname
  exact hne rfl

theorem empty_of_exact (hopen : Open pre.toList) {t : List Char} (hstored : s.Stored (pre.toList ++ '/' :: t)) :
    ∃ t, s.Stored (pre.toList ++ '/' :: '/' :: t) := by
  have hkey : (String.ofList (pre.toList ++ '/' :: t)).toList = pre.toList ++ '/' :: t := String.toList_ofList
  have hmem : pre ∈ s.list l pre false := (h.direct pre).2 ⟨_, exists_of_stored (hkey ▸ hstored), '/' :: t,
    ⟨by rw [hkey, directory_of_open hopen], cons_ne_nil _ _⟩,
    by rw [directory_of_open hopen]; exact (append_nil _).symm⟩
  obtain ⟨rest, hrest, hne, hname⟩ := mem_list_iff.1 hmem
  rw [if_neg (by decide), directory_of_open hopen, self_eq_append_right] at hname
  obtain ⟨t', ht'⟩ := List.head?_eq_some_iff.1 ((segment_eq_nil hname).resolve_left hne)
  by_cases hhead : rest.head? = some '/'
  · obtain ⟨t₁, rfl⟩ := List.head?_eq_some_iff.1 hhead
    rw [trimPrefix_slash] at ht'
    exact ⟨t', ht' ▸ hrest⟩
  · rw [trimPrefix_of_ne hhead] at ht'
    exact absurd (ht' ▸ rfl) hhead

theorem named_of_exact (hopen : Open pre.toList) {t : List Char} (hstored : s.Stored (pre.toList ++ '/' :: t))
    (hhead : t.head? ≠ some '/') : ∃ t', s.Stored (pre.toList ++ t') ∧ t'.head? ≠ some '/' ∧
    segment t' = segment t := by
  have hne : t ≠ [] := by
    rintro rfl
    exact slash_of_exact h hopen hstored
  have hmem : String.ofList (pre.toList ++ segment t) ∈ s.list l pre false := by
    refine mem_list_iff.2 ⟨'/' :: t, hstored, hne, ?_⟩
    rw [String.toList_ofList, if_neg (by decide), directory_of_open hopen, trimPrefix_slash]
  obtain ⟨key, hexists, rest, hbelow, hname⟩ := (h.direct _).1 hmem
  rw [String.toList_ofList, directory_of_open hopen, append_right_inj] at hname
  have hkey := stored_of_exists h hexists hbelow
  rw [hbelow.1, directory_of_open hopen] at hkey
  refine ⟨rest, hkey, fun hslash => ?_, hname.symm⟩
  obtain ⟨t', rfl⟩ := List.head?_eq_some_iff.1 hslash
  exact (segment_eq_nil hname).elim hne hhead

theorem segmentSafe_of_exact : SegmentSafe sha256 s pre where
  stored key hcached hget rest hbelow := by
    have hstored := stored_of_exists h (by rw [JacoStorage.keyExists, hcached, Bool.or_true]) hbelow
    rw [stored_iff, hget] at hstored
    cases hstored
  whole hclosed rest hstored hne := by
    by_contra hhead
    have hmem : String.ofList (pre.toList ++ rest) ∈ s.list l pre true := by
      refine mem_list_iff.2 ⟨rest, hstored, ?_, String.toList_ofList⟩
      rw [trimPrefix_of_ne hhead]
      exact hne
    obtain ⟨-, rest', hbelow, -⟩ := (h.recursive _).1 hmem
    rw [String.toList_ofList, directory_of_not_open hclosed, append_assoc, append_right_inj] at hbelow
    exact hhead (hbelow ▸ rfl)
  slash := slash_of_exact h
  empty hopen hex := by
    obtain ⟨t, hstored⟩ := hex
    exact ⟨empty_of_exact h hopen hstored, fun t => named_of_exact h hopen⟩

end Necessary

section Sufficient

variable (h : SegmentSafe sha256 s pre)

include h

theorem below_of_listed {rest : List Char} (hstored : s.Stored (pre.toList ++ rest)) (hne : trimPrefix '/' rest ≠ []) :
    ∃ rest', Below pre.toList (pre.toList ++ rest) rest' := by
  have hrest : rest ≠ [] := by
    rintro rfl
    exact hne rfl
  by_cases hopen : Open pre.toList
  · exact ⟨rest, by rw [directory_of_open hopen], hrest⟩
  · obtain ⟨t, rfl⟩ := List.head?_eq_some_iff.1 (h.whole hopen rest hstored hrest)
    exact ⟨t, by rw [directory_of_not_open hopen, append_assoc]; rfl, hne⟩

theorem listed_of_below {key : List Char} {rest : List Char} (hbelow : Below pre.toList key rest)
    (hstored : s.Stored key) :
    ∃ rest', key = pre.toList ++ rest' ∧ trimPrefix '/' rest' ≠ [] := by
  by_cases hopen : Open pre.toList
  · have hkey := hbelow.1
    rw [directory_of_open hopen] at hkey
    refine ⟨rest, hkey, fun hnil => ?_⟩
    by_cases hhead : rest.head? = some '/'
    · obtain ⟨t, rfl⟩ := List.head?_eq_some_iff.1 hhead
      rw [trimPrefix_slash] at hnil
      exact h.slash hopen (by rwa [hkey, hnil] at hstored)
    · rw [trimPrefix_of_ne hhead] at hnil
      exact hbelow.2 hnil
  · have hkey := hbelow.1
    rw [directory_of_not_open hopen, append_assoc] at hkey
    exact ⟨'/' :: rest, hkey, hbelow.2⟩

theorem child_of_listed {rest : List Char} (hstored : s.Stored (pre.toList ++ rest)) (hne : trimPrefix '/' rest ≠ []) :
    ∃ key rest', s.Stored key ∧ Below pre.toList key rest' ∧ segment rest' = segment (trimPrefix '/' rest) := by
  by_cases hopen : Open pre.toList
  · by_cases hhead : rest.head? = some '/'
    · obtain ⟨t, rfl⟩ := List.head?_eq_some_iff.1 hhead
      by_cases hslash : t.head? = some '/'
      · refine ⟨_, '/' :: t, hstored, ⟨by rw [directory_of_open hopen], cons_ne_nil _ _⟩, ?_⟩
        obtain ⟨t', rfl⟩ := List.head?_eq_some_iff.1 hslash
        rfl
      · obtain ⟨t', ht', hhead', hsegment⟩ := (h.empty hopen ⟨t, hstored⟩).2 t hstored hslash
        refine ⟨_, t', ht', ⟨by rw [directory_of_open hopen], ?_⟩, hsegment⟩
        rintro rfl
        exact (segment_eq_nil hsegment.symm).elim hne hslash
    · rw [trimPrefix_of_ne hhead] at hne ⊢
      exact ⟨_, rest, hstored, ⟨by rw [directory_of_open hopen], hne⟩, rfl⟩
  · have hrest : rest ≠ [] := by
      rintro rfl
      exact hne rfl
    obtain ⟨t, rfl⟩ := List.head?_eq_some_iff.1 (h.whole hopen rest hstored hrest)
    exact ⟨_, t, hstored, ⟨by rw [directory_of_not_open hopen, append_assoc]; rfl, hne⟩, rfl⟩

theorem listed_of_child {rest : List Char} (hstored : s.Stored (directory pre.toList ++ rest)) (hne : rest ≠ []) :
    ∃ rest', s.Stored (pre.toList ++ rest') ∧ trimPrefix '/' rest' ≠ [] ∧
      segment (trimPrefix '/' rest') = segment rest := by
  by_cases hopen : Open pre.toList
  · rw [directory_of_open hopen] at hstored
    by_cases hhead : rest.head? = some '/'
    · obtain ⟨t, rfl⟩ := List.head?_eq_some_iff.1 hhead
      obtain ⟨t', ht'⟩ := (h.empty hopen ⟨t, hstored⟩).1
      exact ⟨'/' :: '/' :: t', ht', cons_ne_nil _ _, rfl⟩
    · exact ⟨rest, hstored, by rwa [trimPrefix_of_ne hhead], by rw [trimPrefix_of_ne hhead]⟩
  · rw [directory_of_not_open hopen, append_assoc] at hstored
    exact ⟨'/' :: rest, hstored, hne, rfl⟩

theorem exact_of_segmentSafe : ListsExactly sha256 s l pre where
  recursive name := by
    rw [mem_list_iff]
    constructor
    · rintro ⟨rest, hstored, hne, hname⟩
      rw [if_pos rfl] at hname
      rw [hname]
      exact ⟨exists_of_stored (hname ▸ hstored), below_of_listed h hstored hne⟩
    · rintro ⟨hexists, rest, hbelow⟩
      have hstored := stored_of_below h hexists hbelow
      rw [← hbelow.1] at hstored
      obtain ⟨rest', hkey, hne⟩ := listed_of_below h hbelow hstored
      exact ⟨rest', hkey ▸ hstored, hne, hkey⟩
  direct name := by
    rw [mem_list_iff]
    constructor
    · rintro ⟨rest, hstored, hne, hname⟩
      obtain ⟨key, rest', hkey, hbelow, hsegment⟩ := child_of_listed h hstored hne
      refine ⟨String.ofList key, exists_of_stored ?_, rest', ?_, ?_⟩
      · rwa [String.toList_ofList]
      · rwa [String.toList_ofList]
      · rw [hname, if_neg (by decide), hsegment]
    · rintro ⟨key, hexists, rest, hbelow, hname⟩
      obtain ⟨rest', hstored, hne, hsegment⟩ := listed_of_child h (stored_of_below h hexists hbelow) hbelow.2
      refine ⟨rest', hstored, hne, ?_⟩
      rw [hname, if_neg (by decide), hsegment]
  distinct := nodup_list l pre

end Sufficient

end Listing

theorem lists_exactly_iff (sha256 : Bytes → Bytes) (s : JacoStorage) (l : s.state.certBlobs.Listing) (pre : String) :
    ListsExactly sha256 s l pre ↔ SegmentSafe sha256 s pre :=
  ⟨segmentSafe_of_exact, exact_of_segmentSafe⟩

namespace Issuers

def blob (key : String) : CertBlob := ⟨key, [1], none⟩

def storage : JacoStorage where
  state := { State.new with
    certBlobs := (empty.apply (blob "certificates/acme/a.crt")).apply (blob "certificates/acme-staging/a.crt") }
  cacheDir := ""
  disk _ := none

end Issuers

open Issuers in
theorem sibling_issuer_listed :
    storage.list (listing _) "certificates/acme" true = ["certificates/acme-staging/a.crt", "certificates/acme/a.crt"] ∧
      storage.list (listing _) "certificates/acme" false = ["certificates/acme/-staging", "certificates/acme/a.crt"] ∧
      ¬ ListsExactly id storage (listing _) "certificates/acme" := by
  have hlist : storage.list (listing _) "certificates/acme" true =
      ["certificates/acme-staging/a.crt", "certificates/acme/a.crt"] := by decide +kernel
  refine ⟨hlist, by decide +kernel, fun h => ?_⟩
  have hmem : "certificates/acme-staging/a.crt" ∈ storage.list (listing _) "certificates/acme" true := by
    rw [hlist]
    exact mem_cons_self
  obtain ⟨-, rest, hbelow, -⟩ := (h.recursive _).1 hmem
  have hpre : directory "certificates/acme".toList <+: "certificates/acme-staging/a.crt".toList := ⟨rest, hbelow.symm⟩
  exact absurd hpre (by decide +kernel)

end Jaco.CertStorage
