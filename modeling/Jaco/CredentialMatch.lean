import Jaco.RegistryKeys

namespace Jaco.Pull

open GoStrings List

def Extends (base key : List Char) : Prop := key = base ∨ ∃ rest, key = base ++ '/' :: rest

theorem extends_joined (host ns : List Char) : Extends host (joined host ns) := by
  unfold joined
  split
  · exact .inl rfl
  · exact .inr ⟨ns, rfl⟩

theorem extends_joined_joined (host : List Char) {ns path : List Char} (h : ns = [] ∨ Extends ns path) :
    Extends (joined host ns) (joined host path) := by
  by_cases hns : ns = []
  · rw [joined, if_pos hns]
    exact extends_joined host path
  · rcases h.resolve_left hns with rfl | ⟨rest, rfl⟩
    · exact .inl rfl
    · right
      refine ⟨rest, ?_⟩
      simp [joined, hns]

variable {host base key repo : List Char} {keys : List (List Char)}

theorem joined_ne_nil (h : host ≠ []) (ns : List Char) : joined host ns ≠ [] := by
  unfold joined
  split
  · exact h
  · simp

theorem Extends.trans {a b c : List Char} (hab : Extends a b) (hbc : Extends b c) : Extends a c := by
  rcases hab with rfl | ⟨s, rfl⟩
  · exact hbc
  · rcases hbc with rfl | ⟨t, rfl⟩
    · exact .inr ⟨s, rfl⟩
    · exact .inr ⟨s ++ '/' :: t, by simp⟩

theorem Extends.initial (h : Extends base key) : base <+: key := by
  rcases h with rfl | ⟨rest, rfl⟩
  · exact prefix_rfl
  · exact prefix_append base _

theorem Extends.registryHost_eq (hslash : '/' ∉ host) (h : Extends host key) : registryHost key = host := by
  rcases h with rfl | ⟨rest, rfl⟩
  · rw [registryHost, cut_of_notMem hslash]
  · rw [registryHost, cut_append '/' host rest hslash]

theorem beforeLast_extends (base rest : List Char) : ∃ shorter, beforeLast '/' (base ++ '/' :: rest) = some shorter ∧
    Extends base shorter ∧ Extends shorter (base ++ '/' :: rest) ∧ shorter.length < (base ++ '/' :: rest).length := by
  by_cases h : '/' ∈ rest
  · obtain ⟨as, bs, hrest, has⟩ := eq_append_cons_of_mem (mem_reverse.2 h)
    have hsplit : rest = bs.reverse ++ '/' :: as.reverse := by
      rw [← reverse_reverse rest, hrest]
      simp
    refine ⟨base ++ '/' :: bs.reverse, ?_, .inr ⟨_, rfl⟩, .inr ⟨as.reverse, by rw [hsplit]; simp⟩, ?_⟩
    · have hlast := beforeLast_append '/' (base ++ '/' :: bs.reverse) as.reverse (by simpa using has)
      rw [← hlast, hsplit]
      simp
    · rw [hsplit]
      simp
  · exact ⟨base, beforeLast_append '/' base rest h, .inl rfl, .inr ⟨rest, rfl⟩, by simp⟩

theorem matchLoop_finds (lookup : List Char → Bool) (hne : base ≠ []) (hbase : lookup base = true)
    (fuel : Nat) (k : List Char) (hlen : k.length < fuel) (hk : Extends base k) :
    ∃ key, matchLoop lookup fuel k = some key ∧ lookup key = true ∧ Extends base key := by
  induction fuel generalizing k with
  | zero => omega
  | succ fuel ih =>
    have hknil : k ≠ [] := by
      rcases hk with rfl | ⟨rest, rfl⟩
      · exact hne
      · simp
    rw [matchLoop, if_neg hknil]
    by_cases hl : lookup k = true
    · rw [if_pos hl]
      exact ⟨k, rfl, hl, hk⟩
    · rw [if_neg hl]
      rcases hk with rfl | ⟨rest, rfl⟩
      · exact absurd hbase hl
      · obtain ⟨shorter, hlast, hext, -, hshort⟩ := beforeLast_extends base rest
        rw [hlast]
        exact ih shorter (by omega) hext

theorem matchLoop_sound {lookup : List Char → Bool} (hslash : '/' ∉ host) (fuel : Nat)
    (k : List Char) (hk : Extends host k) (h : matchLoop lookup fuel k = some key) :
    lookup key = true ∧ Extends host key ∧ Extends key k := by
  induction fuel generalizing k with
  | zero => cases h
  | succ fuel ih =>
    rw [matchLoop] at h
    split at h
    · cases h
    · split at h
      · rename_i hl
        cases h
        exact ⟨hl, hk, .inl rfl⟩
      · rcases hk with rfl | ⟨rest, rfl⟩
        · rw [beforeLast_of_notMem hslash] at h
          cases h
        · obtain ⟨shorter, hlast, hext, hover, -⟩ := beforeLast_extends host rest
          rw [hlast] at h
          obtain ⟨hl, hhost, hkey⟩ := ih shorter hext h
          exact ⟨hl, hhost, hkey.trans hover⟩

theorem soleLoop_eq_some_iff {covers : List Char → Bool} (hne : ∀ k, covers k = true → k ≠ []) (sole : List Char)
    (keys : List (List Char)) (key : List Char) :
    soleLoop covers sole keys = some key ↔
      if sole = [] then keys.filter covers = [key] else keys.filter covers = [] ∧ sole = key := by
  induction keys generalizing sole with
  | nil =>
    by_cases hsole : sole = [] <;> simp [soleLoop, hsole]
  | cons k ks ih =>
    by_cases hk : covers k = true
    · by_cases hsole : sole = []
      · simp [soleLoop, hk, hsole, ih k, hne k hk, and_comm]
      · simp [soleLoop, hk, hsole]
    · simp only [soleLoop, hk, if_false, ih sole, filter_cons_of_neg, not_false_eq_true, Bool.false_eq_true]

theorem extends_registryHost (key : List Char) : Extends (registryHost key) key := by
  by_cases h : '/' ∈ key
  · obtain ⟨host, rest, hkey, hslash⟩ := eq_append_cons_of_mem h
    rw [hkey, registryHost, cut_append '/' host rest hslash]
    exact .inr ⟨rest, rfl⟩
  · rw [registryHost, cut_of_notMem h]
    exact .inl rfl

theorem slash_notMem_registryHost (key : List Char) : '/' ∉ registryHost key := notMem_cut_fst '/' key

theorem onHost_iff (hslash : '/' ∉ host) (key : List Char) :
    (key = host ∨ host ++ ['/'] <+: key) ↔ registryHost key = host := by
  have hover : (key = host ∨ host ++ ['/'] <+: key) ↔ Extends host key :=
    or_congr_right (exists_congr fun rest => by rw [append_assoc, singleton_append, eq_comm])
  rw [hover]
  constructor
  · exact fun h => h.registryHost_eq hslash
  · rintro rfl
    exact extends_registryHost key

theorem matchCredentialKey_finds (hne : base ≠ []) (hbase : base ∈ keys) (h : Extends base repo) :
    ∃ key ∈ keys, matchCredentialKey repo (fun k => k ∈ keys) = some key ∧ Extends base key := by
  obtain ⟨key, hmatch, hkey, hext⟩ := matchLoop_finds (fun k => k ∈ keys) hne (decide_eq_true hbase)
    (repo.length + 1) repo (Nat.lt_succ_self _) h
  exact ⟨key, of_decide_eq_true hkey, hmatch, hext⟩

theorem resolveCredentialKey_finds (hne : base ≠ []) (hbase : base ∈ keys) (h : Extends base repo) :
    ∃ key ∈ keys, resolveCredentialKey repo keys = some key ∧ Extends base key := by
  obtain ⟨key, hkey, hmatch, hext⟩ := matchCredentialKey_finds hne hbase h
  exact ⟨key, hkey, by rw [resolveCredentialKey, hmatch], hext⟩

theorem ne_nil_of_extends (hhost : registryHost repo ≠ []) (h : Extends base repo) : base ≠ [] := by
  rintro rfl
  exact hhost (h.registryHost_eq not_mem_nil)

theorem matchCredentialKey_eq_some_iff (hhost : registryHost repo ≠ []) (keys : List (List Char)) (key : List Char) :
    matchCredentialKey repo (fun k => k ∈ keys) = some key ↔
      key ∈ keys ∧ Extends key repo ∧ ∀ k ∈ keys, Extends k repo → k.length ≤ key.length := by
  have hsound : ∀ {key}, matchCredentialKey repo (fun k => k ∈ keys) = some key → key ∈ keys ∧ Extends key repo := by
    intro key hmatch
    obtain ⟨hmem, -, hext⟩ :=
      matchLoop_sound (slash_notMem_registryHost repo) _ repo (extends_registryHost repo) hmatch
    exact ⟨of_decide_eq_true hmem, hext⟩
  constructor
  · intro hmatch
    refine ⟨(hsound hmatch).1, (hsound hmatch).2, fun k hk hext => ?_⟩
    obtain ⟨key', -, hmatch', hover⟩ := matchCredentialKey_finds (ne_nil_of_extends hhost hext) hk hext
    obtain rfl := Option.some.inj (hmatch'.symm.trans hmatch)
    exact hover.initial.length_le
  · rintro ⟨hmem, hext, hlongest⟩
    obtain ⟨key', hmem', hmatch, hover⟩ := matchCredentialKey_finds (ne_nil_of_extends hhost hext) hmem hext
    rw [hmatch, hover.initial.eq_of_length_le (hlongest key' hmem' (hsound hmatch).2)]

def LongestCover (repo : List Char) (keys : List (List Char)) (key : List Char) : Prop :=
  key ∈ keys ∧ Extends key repo ∧ ∀ k ∈ keys, Extends k repo → k.length ≤ key.length

def SoleOnHost (repo : List Char) (keys : List (List Char)) (key : List Char) : Prop :=
  (∀ k ∈ keys, ¬ Extends k repo) ∧ key ∈ keys ∧ registryHost key = registryHost repo ∧
    ∀ k ∈ keys, registryHost k = registryHost repo → k = key

theorem filter_eq_singleton_iff (hnodup : keys.Nodup) (p : List Char → Bool) (key : List Char) :
    keys.filter p = [key] ↔ key ∈ keys ∧ p key = true ∧ ∀ k ∈ keys, p k = true → k = key := by
  rw [← perm_singleton, perm_ext_iff_of_nodup (hnodup.filter p) (nodup_singleton key)]
  simp only [mem_filter, mem_singleton]
  constructor
  · intro h
    exact ⟨((h key).2 rfl).1, ((h key).2 rfl).2, fun k hk hp => (h k).1 ⟨hk, hp⟩⟩
  · rintro ⟨hmem, hp, honly⟩ k
    exact ⟨fun hk => honly k hk.1 hk.2, fun hk => hk ▸ ⟨hmem, hp⟩⟩

theorem fallback_eq_some_iff (hhost : registryHost repo ≠ []) (keys : List (List Char)) (key : List Char) :
    soleLoop (fun k => k = registryHost repo ∨ registryHost repo ++ ['/'] <+: k) [] keys = some key ↔
      keys.filter (fun k => registryHost k = registryHost repo) = [key] := by
  simp only [onHost_iff (slash_notMem_registryHost repo)]
  refine (soleLoop_eq_some_iff ?_ [] keys key).trans (by rw [if_pos rfl])
  rintro k hk rfl
  exact hhost (of_decide_eq_true hk).symm

theorem resolveCredentialKey_eq_some_iff (hhost : registryHost repo ≠ []) (hnodup : keys.Nodup) (key : List Char) :
    resolveCredentialKey repo keys = some key ↔ LongestCover repo keys key ∨ SoleOnHost repo keys key := by
  have hcover := matchCredentialKey_eq_some_iff hhost keys
  cases hmatch : matchCredentialKey repo (fun k => k ∈ keys) with
  | some found =>
    have hfound := (hcover found).1 hmatch
    have hcovered : ¬ SoleOnHost repo keys key := fun h => h.1 found hfound.1 hfound.2.1
    rw [or_iff_left hcovered, LongestCover, ← hcover key, resolveCredentialKey, hmatch]
  | none =>
    have huncovered : ∀ k ∈ keys, ¬ Extends k repo := by
      intro k hk hext
      obtain ⟨found, -, hfound, -⟩ := matchCredentialKey_finds (ne_nil_of_extends hhost hext) hk hext
      rw [hmatch] at hfound
      cases hfound
    have hlongest : ¬ LongestCover repo keys key := fun h => huncovered key h.1 h.2.1
    rw [or_iff_right hlongest, SoleOnHost, and_iff_right huncovered, resolveCredentialKey, hmatch]
    simp only [if_neg hhost]
    rw [fallback_eq_some_iff hhost, filter_eq_singleton_iff hnodup]
    simp only [decide_eq_true_eq]

theorem resolveCredentialKey_none (hslash : '/' ∉ host)
    (h : Extends host repo) (hkeys : ∀ k ∈ keys, registryHost k ≠ host) : resolveCredentialKey repo keys = none := by
  have hhost := h.registryHost_eq hslash
  have hmatch : matchCredentialKey repo (fun k => k ∈ keys) = none := by
    apply Option.eq_none_iff_forall_ne_some.2
    intro key hkey
    obtain ⟨hmem, hext, -⟩ := matchLoop_sound hslash _ repo h hkey
    exact hkeys key (of_decide_eq_true hmem) (hext.registryHost_eq hslash)
  rw [resolveCredentialKey, hmatch]
  dsimp only
  split
  · rfl
  · rename_i hne
    apply Option.eq_none_iff_forall_ne_some.2
    intro key hkey
    have hmem : key ∈ keys.filter (fun k => registryHost k = registryHost repo) := by
      rw [(fallback_eq_some_iff hne keys key).1 hkey]
      exact mem_singleton_self key
    obtain ⟨hmem, hon⟩ := mem_filter.1 hmem
    exact hkeys key hmem ((of_decide_eq_true hon).trans hhost)

theorem resolves_longest_or_sole (repo : List Char) (keys : List (List Char)) (hhost : registryHost repo ≠ [])
    (hnodup : keys.Nodup) :
    (∀ key, resolveCredentialKey repo keys = some key ↔ LongestCover repo keys key ∨ SoleOnHost repo keys key) ∧
      (∀ key, resolveCredentialKey repo keys = some key → registryHost key = registryHost repo) ∧
      ∀ keys', keys'.Perm keys → resolveCredentialKey repo keys' = resolveCredentialKey repo keys := by
  have hiff := fun key => resolveCredentialKey_eq_some_iff hhost hnodup key
  refine ⟨hiff, fun key hkey => ?_, fun keys' hperm => Option.ext fun key => ?_⟩
  · rcases (hiff key).1 hkey with ⟨-, hext, -⟩ | ⟨-, -, hon, -⟩
    · have hover := (extends_registryHost key).trans hext
      exact (hover.registryHost_eq (slash_notMem_registryHost key)).symm
    · exact hon
  · rw [hiff, resolveCredentialKey_eq_some_iff hhost (hperm.nodup_iff.2 hnodup), LongestCover, LongestCover, SoleOnHost,
      SoleOnHost]
    simp only [hperm.mem_iff]

theorem namespace_key_resolved :
    resolveCredentialKey "ghcr.io/acme/web".toList ["ghcr.io".toList, "ghcr.io/acme".toList, "quay.io".toList] =
      some "ghcr.io/acme".toList ∧
    LongestCover "ghcr.io/acme/web".toList ["ghcr.io".toList, "ghcr.io/acme".toList, "quay.io".toList]
      "ghcr.io/acme".toList := by
  have hresolved : resolveCredentialKey "ghcr.io/acme/web".toList
      ["ghcr.io".toList, "ghcr.io/acme".toList, "quay.io".toList] = some "ghcr.io/acme".toList := by decide +kernel
  refine ⟨hresolved, ?_⟩
  rcases ((resolves_longest_or_sole _ _ (by decide +kernel) (by decide +kernel)).1 _).1 hresolved with h | h
  · exact h
  · exact absurd (.inr ⟨"web".toList, by decide +kernel⟩) (h.1 "ghcr.io/acme".toList (by decide +kernel))

end Jaco.Pull
