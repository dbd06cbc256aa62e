import Jaco.CertBlobs
import Jaco.Manifest

namespace Jaco.CertStorage

open List

structure JacoStorage where
  state : State
  cacheDir : String
  disk : String → Option Bytes

namespace JacoStorage

variable (sha256 : Bytes → Bytes) (s : JacoStorage)

def cached (key : String) : Option Bytes := if s.cacheDir = "" then none else s.disk (cachePath sha256 key)

def keyExists (key : String) : Bool := (s.state.certBlobs.get key).isSome || (s.cached sha256 key).isSome

end JacoStorage

def trimPrefix (c : Char) (cs : List Char) : List Char := if cs.head? = some c then cs.tail else cs

def segment (cs : List Char) : List Char := cs.takeWhile (· ≠ '/')

def directory (pre : List Char) : List Char :=
  if pre = [] then [] else if pre.getLast? = some '/' then pre else pre ++ ['/']

def listed (pre : List Char) (recursive : Bool) (key : List Char) : Option (List Char) :=
  if ¬ pre <+: key then none
  else
    let remainder := trimPrefix '/' (key.drop pre.length)
    if remainder = [] then none
    else if recursive then some key
    else some (directory pre ++ segment remainder)

def JacoStorage.list (s : JacoStorage) (l : s.state.certBlobs.Listing) (pre : String) (recursive : Bool) :
    List String :=
  sortNames (l.items.filterMap (fun b => (listed pre.toList recursive b.key.toList).map String.ofList)).dedup

def Below (pre key rest : List Char) : Prop := key = directory pre ++ rest ∧ rest ≠ []

theorem mem_list {s : JacoStorage} (l : s.state.certBlobs.Listing) (pre : String) (recursive : Bool) (name : String) :
    name ∈ s.list l pre recursive ↔
      ∃ key, (s.state.certBlobs.get key).isSome = true ∧ listed pre.toList recursive key.toList = some name.toList := by
  rw [JacoStorage.list, sortNames, (perm_insertionSort _ _).mem_iff, mem_dedup, mem_filterMap]
  constructor
  · rintro ⟨b, hb, hlisted⟩
    obtain ⟨cs, hcs, rfl⟩ := Option.map_eq_some_iff.1 hlisted
    refine ⟨b.key, ?_, by rw [hcs, String.toList_ofList]⟩
    rw [(l.mem_items b).1 hb]
    rfl
  · rintro ⟨key, hstored, hlisted⟩
    obtain ⟨b, hb⟩ := Option.isSome_iff_exists.1 hstored
    have hkey : b.key = key := Store.get_key hb
    refine ⟨b, (l.mem_items b).2 (hkey ▸ hb), ?_⟩
    rw [hkey, hlisted, Option.map_some, String.ofList_toList]

theorem nodup_list {s : JacoStorage} (l : s.state.certBlobs.Listing) (pre : String) (recursive : Bool) :
    (s.list l pre recursive).Nodup :=
  (perm_insertionSort _ _).nodup_iff.2 (nodup_dedup _)

theorem segment_eq_nil {cs : List Char} (h : segment cs = []) : cs = [] ∨ cs.head? = some '/' := by
  cases cs with
  | nil => exact .inl rfl
  | cons c rest =>
    by_cases hc : c = '/'
    · exact .inr (congrArg some hc)
    · simp [segment, hc] at h

theorem trimPrefix_slash (t : List Char) : trimPrefix '/' ('/' :: t) = t := rfl

theorem trimPrefix_of_ne {cs : List Char} (h : cs.head? ≠ some '/') : trimPrefix '/' cs = cs := if_neg h

theorem listed_append (pre : List Char) (recursive : Bool) (rest : List Char) : listed pre recursive (pre ++ rest) =
      if trimPrefix '/' rest = [] then none
      else if recursive then some (pre ++ rest) else some (directory pre ++ segment (trimPrefix '/' rest)) := by
  rw [listed, if_neg (not_not.2 (prefix_append pre rest)), drop_left]

theorem prefix_of_listed {pre key name : List Char} {recursive : Bool} (h : listed pre recursive key = some name) :
    ∃ rest, key = pre ++ rest ∧ trimPrefix '/' rest ≠ [] ∧
      name = if recursive then pre ++ rest else directory pre ++ segment (trimPrefix '/' rest) := by
  by_cases hpre : pre <+: key
  · obtain ⟨rest, rfl⟩ := hpre
    rw [listed_append] at h
    split at h
    · cases h
    · rename_i hne
      refine ⟨rest, rfl, hne, ?_⟩
      cases recursive <;> exact (Option.some.inj h).symm
  · rw [listed, if_pos hpre] at h
    cases h

def Open (pre : List Char) : Prop := pre = [] ∨ pre.getLast? = some '/'

theorem directory_of_open {pre : List Char} (h : Open pre) : directory pre = pre := by
  rw [directory]
  rcases h with rfl | h
  · rfl
  · rw [if_pos h, ite_eq_right_iff]
    exact Eq.symm

theorem directory_of_not_open {pre : List Char} (h : ¬ Open pre) : directory pre = pre ++ ['/'] := by
  rw [directory, if_neg (fun hnil => h (.inl hnil)), if_neg (fun hlast => h (.inr hlast))]

section Listing

variable (sha256 : Bytes → Bytes) (s : JacoStorage) (l : s.state.certBlobs.Listing) (pre : String)

def JacoStorage.Stored (key : List Char) : Prop := (s.state.certBlobs.get (String.ofList key)).isSome = true

structure ListsExactly : Prop where
  recursive : ∀ name, name ∈ s.list l pre true ↔ s.keyExists sha256 name = true ∧
    ∃ rest, Below pre.toList name.toList rest
  direct : ∀ name, name ∈ s.list l pre false ↔ ∃ key, s.keyExists sha256 key = true ∧
    ∃ rest, Below pre.toList key.toList rest ∧ name.toList = directory pre.toList ++ segment rest
  distinct : ∀ recursive, (s.list l pre recursive).Nodup

structure SegmentSafe : Prop where
  stored : ∀ key, (s.cached sha256 key).isSome = true → s.state.certBlobs.get key = none →
    ∀ rest, ¬ Below pre.toList key.toList rest
  whole : ¬ Open pre.toList → ∀ rest, s.Stored (pre.toList ++ rest) → rest ≠ [] → rest.head? = some '/'
  slash : Open pre.toList → ¬ s.Stored (pre.toList ++ ['/'])
  empty : Open pre.toList → (∃ t, s.Stored (pre.toList ++ '/' :: t)) →
    (∃ t, s.Stored (pre.toList ++ '/' :: '/' :: t)) ∧ ∀ t, s.Stored (pre.toList ++ '/' :: t) → t.head? ≠ some '/' →
      ∃ t', s.Stored (pre.toList ++ t') ∧ t'.head? ≠ some '/' ∧ segment t' = segment t

variable {sha256 s l pre}

theorem stored_iff {key : String} : s.Stored key.toList ↔ (s.state.certBlobs.get key).isSome = true := by
  rw [JacoStorage.Stored, String.ofList_toList]

theorem mem_list_iff {recursive : Bool} {name : String} :
    name ∈ s.list l pre recursive ↔ ∃ rest, s.Stored (pre.toList ++ rest) ∧ trimPrefix '/' rest ≠ [] ∧
      name.toList = if recursive then pre.toList ++ rest
        else directory pre.toList ++ segment (trimPrefix '/' rest) := by
  rw [mem_list]
  constructor
  · rintro ⟨key, hstored, hlisted⟩
    obtain ⟨rest, hkey, hne, hname⟩ := prefix_of_listed hlisted
    exact ⟨rest, hkey ▸ stored_iff.2 hstored, hne, hname⟩
  · rintro ⟨rest, hstored, hne, hname⟩
    refine ⟨String.ofList (pre.toList ++ rest), hstored, ?_⟩
    rw [String.toList_ofList, listed_append, if_neg hne, hname]
    cases recursive <;> rfl

theorem exists_of_stored {key : String} (h : s.Stored key.toList) : s.keyExists sha256 key = true := by
  rw [JacoStorage.keyExists, stored_iff.1 h, Bool.true_or]

end Listing

end Jaco.CertStorage
