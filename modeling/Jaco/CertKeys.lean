import Jaco.Entities
import Jaco.Segments

namespace Jaco.CertKeys

open List

def contains (s sub : String) : Bool := sub.toList <:+: s.toList

def hasSuffix (s suffix : String) : Bool := suffix.toList <:+ s.toList

def envFromCertKey (key : String) : String := if contains key "staging" then "staging" else "prod"

section Lookups

variable (blobs : List CertBlob) (domain : String)

def loadStagingChain : Option Bytes :=
  (blobs.find? (fun b => hasSuffix b.key ".crt" && contains b.key "staging" &&
    contains b.key ("/" ++ domain ++ "/"))).map (·.value)

def prodCertIssued : Bool :=
  blobs.any (fun b => hasSuffix b.key ".crt" && !contains b.key "staging" && contains b.key ("/" ++ domain ++ "/"))

def prodCertResourceComplete : Bool :=
  let mine := blobs.filter (fun b => !contains b.key "staging" && contains b.key ("/" ++ domain ++ "/"))
  mine.any (fun b => hasSuffix b.key ".crt") && mine.any (fun b => !hasSuffix b.key ".crt" && hasSuffix b.key ".key")

def stagingKeys : List String :=
  (blobs.filter (fun b => contains b.key "staging" && contains b.key ("/" ++ domain ++ "/"))).map (·.key)

end Lookups

def clearStagingCertBlobs (deletes : String → Bool) (blobs : List CertBlob) (domain : String)
    (store : Store CertBlob (·.key)) : Store CertBlob (·.key) × Nat :=
  let removed := (stagingKeys blobs domain).filter deletes
  (removed.foldl (fun s key => s.remove key) store, removed.length)

structure Segment where
  text : String
  whole : '/' ∉ text.toList

instance : DecidableEq Segment := fun s t =>
  decidable_of_iff (s.text = t.text) ⟨fun h => by cases s; cases t; cases h; rfl, fun h => congrArg _ h⟩

inductive Kind where
  | crt | key | json
  deriving DecidableEq

def Kind.ext : Kind → String
  | .crt => "crt"
  | .key => "key"
  | .json => "json"

structure Resource where
  issuer : Segment
  domain : Segment
  kind : Kind
  value : Bytes
  updatedAt : Option Timestamp := none

def Resource.key (r : Resource) : String :=
  "certificates" ++ "/" ++ r.issuer.text ++ "/" ++ r.domain.text ++ "/" ++ r.domain.text ++ "." ++ r.kind.ext

def Resource.blob (r : Resource) : CertBlob := ⟨r.key, r.value, r.updatedAt⟩

variable (r : Resource)

@[simp] theorem Resource.blob_key : r.blob.key = r.key := rfl

@[simp] theorem Resource.blob_value : r.blob.value = r.value := rfl

def Segment.staging (s : Segment) : Bool := contains s.text "staging"

theorem joined_toList (issuer domain ext : String) :
    ("certificates" ++ "/" ++ issuer ++ "/" ++ domain ++ "/" ++ domain ++ "." ++ ext).toList =
      "certificates".toList ++ '/' :: (issuer.toList ++ '/' :: (domain.toList ++ '/' ::
        (domain.toList ++ '.' :: ext.toList))) := by
  simp

theorem Resource.key_toList : r.key.toList = "certificates".toList ++ '/' :: (r.issuer.text.toList ++ '/' ::
    (r.domain.text.toList ++ '/' :: (r.domain.text.toList ++ '.' :: r.kind.ext.toList))) := by
  exact joined_toList r.issuer.text r.domain.text r.kind.ext

open Segments

theorem contains_staging : contains r.key "staging" = (r.issuer.staging || r.domain.staging) := by
  have hslash : '/' ∉ "staging".toList := by decide
  have hdot : '.' ∉ "staging".toList := by decide
  have hhead : ¬ "staging".toList <:+: "certificates".toList := by decide
  have hext : ¬ "staging".toList <:+: r.kind.ext.toList := by
    cases r.kind <;> decide
  rw [Bool.eq_iff_iff, contains, decide_eq_true_eq, r.key_toList, infix_append_sep hslash, infix_append_sep hslash,
    infix_append_sep hslash, infix_append_sep hdot]
  simp only [hhead, hext, Segment.staging, contains, false_or, or_false, or_self, Bool.or_eq_true, decide_eq_true_eq]

theorem contains_segment (d : Segment) :
    contains r.key ("/" ++ d.text ++ "/") = decide (r.issuer = d ∨ r.domain = d) := by
  have hneedle : ("/" ++ d.text ++ "/").toList = '/' :: (d.text.toList ++ ['/']) := by
    rw [String.toList_append, String.toList_append]
    rfl
  have hhead : '/' ∉ "certificates".toList := by decide
  have hext : '/' ∉ r.kind.ext.toList := by
    cases r.kind <;> decide
  have hlast : '/' ∉ r.domain.text.toList ++ '.' :: r.kind.ext.toList := by
    rw [mem_append, mem_cons, not_or, not_or]
    exact ⟨r.domain.whole, by decide, hext⟩
  have htext : ∀ s : Segment, d.text.toList = s.text.toList ↔ s = d := by
    intro s
    rw [String.toList_inj]
    obtain ⟨s, hs⟩ := s
    obtain ⟨d, hd⟩ := d
    simp [eq_comm]
  rw [Bool.eq_iff_iff, contains, decide_eq_true_eq, decide_eq_true_eq, hneedle, r.key_toList,
    enclosed_infix d.whole r.issuer.whole hhead, enclosed_infix d.whole r.domain.whole r.issuer.whole,
    infix_opened r.domain.whole, htext, htext]
  simp only [not_prefix_closed hlast, not_infix_opened hlast, or_self, or_false]

theorem hasSuffix_ext (kind : Kind) : hasSuffix r.key ("." ++ kind.ext) = decide (r.kind = kind) := by
  have hsuffix : ('.' :: r.kind.ext.toList) <:+ r.key.toList := by
    refine ⟨"certificates".toList ++ '/' :: (r.issuer.text.toList ++ '/' :: (r.domain.text.toList ++ '/' ::
      r.domain.text.toList)), ?_⟩
    rw [r.key_toList]
    simp only [append_assoc, cons_append]
  have hdot : ("." ++ kind.ext).toList = '.' :: kind.ext.toList := by
    rw [String.toList_append]
    rfl
  rw [Bool.eq_iff_iff, hasSuffix, decide_eq_true_eq, decide_eq_true_eq, hdot]
  constructor
  · intro h
    have hends := suffix_or_suffix_of_suffix hsuffix h
    cases hk : r.kind <;> cases kind <;> first | rfl | (rw [hk] at hends; revert hends; decide)
  · rintro rfl
    exact hsuffix

structure Classified (d : Segment) (rs : List Resource) : Prop where
  env : ∀ r ∈ rs, envFromCertKey r.key = if r.issuer.staging then "staging" else "prod"
  chain : loadStagingChain (rs.map Resource.blob) d.text =
    (rs.find? (fun r => r.kind = .crt && r.issuer.staging && r.domain = d)).map (·.value)
  issued : prodCertIssued (rs.map Resource.blob) d.text =
    rs.any (fun r => r.kind = .crt && !r.issuer.staging && r.domain = d)
  complete : prodCertResourceComplete (rs.map Resource.blob) d.text =
    (rs.any (fun r => r.kind = .crt && !r.issuer.staging && r.domain = d) &&
      rs.any (fun r => r.kind = .key && !r.issuer.staging && r.domain = d))
  cleared : ∀ deletes store key, (clearStagingCertBlobs deletes (rs.map Resource.blob) d.text store).1.get key =
    if rs.any (fun r => r.issuer.staging && r.domain = d && r.key = key) && deletes key then none else store.get key

/-- A certificate the lookups for `d` cannot take for another. -/
def Plain (d issuer domain : Segment) : Prop :=
  (domain.staging = true → issuer.staging = true) ∧ (issuer = d → domain = d)

section Classify

variable {d : Segment}

theorem plain_staging {r : Resource} (h : Plain d r.issuer r.domain) : contains r.key "staging" = r.issuer.staging := by
  rw [contains_staging]
  cases hi : r.issuer.staging with
  | true => rfl
  | false =>
    rw [Bool.false_or, ← Bool.not_eq_true]
    intro hd
    rw [h.1 hd] at hi
    cases hi

theorem plain_segment {r : Resource} (h : Plain d r.issuer r.domain) :
    contains r.key ("/" ++ d.text ++ "/") = decide (r.domain = d) := by
  rw [contains_segment, decide_eq_decide]
  exact ⟨fun hor => hor.elim h.2 id, Or.inr⟩

theorem get_foldl_remove (keys : List String) (store : Store CertBlob (·.key)) (key : String) :
    (keys.foldl (fun s k => s.remove k) store).get key = if key ∈ keys then none else store.get key := by
  induction keys generalizing store with
  | nil => rfl
  | cons k keys ih =>
    rw [foldl_cons, ih, Store.get_remove]
    by_cases hk : k = key
    · simp [hk]
    · simp [hk, Ne.symm hk]

theorem get_clear (deletes : String → Bool) (blobs : List CertBlob) (domain : String) (store : Store CertBlob (·.key))
    (key : String) : (clearStagingCertBlobs deletes blobs domain store).1.get key =
      if key ∈ stagingKeys blobs domain ∧ deletes key = true then none else store.get key := by
  rw [clearStagingCertBlobs, get_foldl_remove]
  simp only [mem_filter]

theorem hasSuffix_crt (r : Resource) : hasSuffix r.key ".crt" = decide (r.kind = .crt) := hasSuffix_ext r .crt

theorem hasSuffix_key (r : Resource) : hasSuffix r.key ".key" = decide (r.kind = .key) := hasSuffix_ext r .key

theorem any_congr_mem {α : Type} {l : List α} {p q : α → Bool} (h : ∀ x ∈ l, p x = q x) : l.any p = l.any q := by
  induction l with
  | nil => rfl
  | cons x l ih =>
    rw [any_cons, any_cons, h x mem_cons_self, ih (fun y hy => h y (mem_cons_of_mem x hy))]

section Plain

variable {rs : List Resource} (h : ∀ r ∈ rs, Plain d r.issuer r.domain)

include h

theorem plain_chain : loadStagingChain (rs.map Resource.blob) d.text =
    (rs.find? (fun r => r.kind = .crt && r.issuer.staging && r.domain = d)).map (·.value) := by
  have hfind : (rs.find? (fun r => hasSuffix r.key ".crt" && contains r.key "staging" &&
      contains r.key ("/" ++ d.text ++ "/"))) =
      rs.find? (fun r => r.kind = .crt && r.issuer.staging && r.domain = d) :=
    List.find?_congr (fun r hr => by rw [hasSuffix_crt, plain_staging (h r hr), plain_segment (h r hr)])
  simp only [loadStagingChain, List.find?_map, Option.map_map, Function.comp_def, Resource.blob_key,
    Resource.blob_value, hfind]

theorem plain_any (kind : Kind) : (rs.any (fun r => hasSuffix r.key ("." ++ kind.ext) && !contains r.key "staging" &&
    contains r.key ("/" ++ d.text ++ "/"))) = rs.any (fun r => r.kind = kind && !r.issuer.staging && r.domain = d) :=
  any_congr_mem (fun r hr => by rw [hasSuffix_ext, plain_staging (h r hr), plain_segment (h r hr)])

theorem plain_issued : prodCertIssued (rs.map Resource.blob) d.text =
    rs.any (fun r => r.kind = .crt && !r.issuer.staging && r.domain = d) := by
  simp only [prodCertIssued, any_map, Function.comp_def, Resource.blob_key]
  exact plain_any h .crt

theorem plain_complete : prodCertResourceComplete (rs.map Resource.blob) d.text =
    (rs.any (fun r => r.kind = .crt && !r.issuer.staging && r.domain = d) &&
      rs.any (fun r => r.kind = .key && !r.issuer.staging && r.domain = d)) := by
  have hcrt : (rs.any (fun r => !contains r.key "staging" && contains r.key ("/" ++ d.text ++ "/") &&
      hasSuffix r.key ".crt")) = rs.any (fun r => r.kind = .crt && !r.issuer.staging && r.domain = d) :=
    any_congr_mem (fun r hr => by
      rw [hasSuffix_crt, plain_staging (h r hr), plain_segment (h r hr), Bool.and_comm, Bool.and_assoc])
  have hkey : (rs.any (fun r => !contains r.key "staging" && contains r.key ("/" ++ d.text ++ "/") &&
      (!hasSuffix r.key ".crt" && hasSuffix r.key ".key"))) =
        rs.any (fun r => r.kind = .key && !r.issuer.staging && r.domain = d) :=
    any_congr_mem (fun r hr => by
      rw [hasSuffix_crt, hasSuffix_key, plain_staging (h r hr), plain_segment (h r hr), Bool.and_comm, Bool.and_assoc]
      cases r.kind <;> rfl)
  simp only [prodCertResourceComplete, filter_map, any_map, any_filter, Function.comp_def,
    Resource.blob_key, hcrt, hkey]

theorem plain_cleared (deletes : String → Bool) (store : Store CertBlob (·.key)) (key : String) :
    (clearStagingCertBlobs deletes (rs.map Resource.blob) d.text store).1.get key =
      if rs.any (fun r => r.issuer.staging && r.domain = d && r.key = key) && deletes key then none
      else store.get key := by
  have hkeys : key ∈ stagingKeys (rs.map Resource.blob) d.text ↔
      rs.any (fun r => r.issuer.staging && r.domain = d && r.key = key) = true := by
    simp only [stagingKeys, filter_map, map_map, Function.comp_def, Resource.blob_key, mem_map,
      mem_filter, any_eq_true, Bool.and_eq_true, decide_eq_true_eq]
    constructor
    · rintro ⟨r, ⟨hr, htaken⟩, rfl⟩
      rw [plain_staging (h r hr), plain_segment (h r hr), decide_eq_true_eq] at htaken
      exact ⟨r, hr, htaken, rfl⟩
    · rintro ⟨r, hr, htaken, rfl⟩
      refine ⟨r, ⟨hr, ?_⟩, rfl⟩
      rw [plain_staging (h r hr), plain_segment (h r hr), decide_eq_true_eq]
      exact htaken
  rw [get_clear]
  simp only [hkeys, Bool.and_eq_true]

theorem classified_of_plain : Classified d rs where
  env r hr := by rw [envFromCertKey, plain_staging (h r hr)]
  chain := plain_chain h
  issued := plain_issued h
  complete := plain_complete h
  cleared := plain_cleared h

end Plain

theorem plain_of_classified {i e : Segment} (h : Classified d [⟨i, e, .crt, [], none⟩]) : Plain d i e := by
  have hstaging : e.staging = true → i.staging = true := by
    intro he
    have henv := h.env ⟨i, e, .crt, [], none⟩ (mem_singleton_self _)
    rw [envFromCertKey, contains_staging] at henv
    simp only [he, Bool.or_true, if_true] at henv
    by_contra hi
    rw [if_neg hi] at henv
    exact absurd henv (by decide)
  refine ⟨hstaging, fun hi => ?_⟩
  by_contra he
  have hsegment : contains (Resource.key ⟨i, e, .crt, [], none⟩) ("/" ++ d.text ++ "/") = true := by
    rw [contains_segment]
    exact decide_eq_true (Or.inl hi)
  -- the lookup whose issuer test the blob passes finds it
  cases hs : i.staging with
  | true =>
    have hchain := h.chain
    simp only [loadStagingChain, map_cons, map_nil, List.find?_cons, Resource.blob_key, hsegment,
      hasSuffix_crt, contains_staging, hs, decide_true, decide_false, Bool.true_or, Bool.and_true, Bool.and_false, he,
      List.find?_nil, Option.map_some, Option.map_none, reduceCtorEq] at hchain
  | false =>
    have he' : e.staging = false := by
      rw [← Bool.not_eq_true]
      intro he'
      rw [hstaging he'] at hs
      cases hs
    have hissued := h.issued
    simp [prodCertIssued, hsegment, hasSuffix_crt, contains_staging, hs, he, he'] at hissued

end Classify

theorem classified_iff_plain (d : Segment) (certs : List (Segment × Segment)) :
    (∀ rs : List Resource, (∀ r ∈ rs, (r.issuer, r.domain) ∈ certs) → Classified d rs) ↔
      ∀ p ∈ certs, Plain d p.1 p.2 := by
  constructor
  · intro h p hp
    exact plain_of_classified (h [⟨p.1, p.2, .crt, [], none⟩] (fun r hr => by rw [mem_singleton.1 hr]; exact hp))
  · intro h rs hrs
    exact classified_of_plain (fun r hr => h _ (hrs r hr))

namespace Sample

def letsEncrypt : Segment := ⟨"acme-v02.api.letsencrypt.org-directory", by decide⟩

def domain : Segment := ⟨"staging.example.com", by decide⟩

def certificate : List Resource := [⟨letsEncrypt, domain, .crt, [1], none⟩, ⟨letsEncrypt, domain, .key, [2], none⟩]

end Sample

open Sample

theorem prod_certificate_taken_for_staging : ¬ Classified domain certificate ∧
    prodCertIssued (certificate.map Resource.blob) domain.text = false ∧
    loadStagingChain (certificate.map Resource.blob) domain.text = some [1] ∧
    stagingKeys (certificate.map Resource.blob) domain.text = certificate.map Resource.key :=
  ⟨fun h => absurd h.issued (by decide +kernel), by decide +kernel⟩

end Jaco.CertKeys
