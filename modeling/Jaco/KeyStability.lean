import Jaco.RegistryKeys

namespace Jaco.Pull

open GoStrings List

/-- No code point of the span is in a range. -/
def missed (lo hi : Nat) (evens : Bool) : List (Nat × Nat × Nat × Int) → Bool
  | [] => true
  | (lo', hi', step, _) :: rest =>
    (Nat.blt hi lo' || Nat.blt hi' lo || (Nat.beq step 2 && evens && Nat.beq ((lo + lo') % 2) 1)) &&
      missed lo hi evens rest

theorem caseRanges_missed : (caseRanges.all fun r => missed (r.1 + r.2.2.2).toNat (r.2.1 + r.2.2.2).toNat
    (Nat.beq r.2.2.1 2 || Nat.beq r.1 r.2.1) caseRanges) = true := by decide +kernel

theorem caseRanges_images : ∀ r ∈ caseRanges, 0 ≤ (r.1 : Int) + r.2.2.2 ∧
    (128 ≤ (r.1 : Int) + r.2.2.2 ∨ r.1 = r.2.1 ∧
      (Char.ofNat (r.1 + r.2.2.2).toNat).toLower = Char.ofNat (r.1 + r.2.2.2).toNat) := by
  decide +kernel

theorem toLower_toLower_ascii : ∀ n < 128, (Char.ofNat n).toLower.toNat < 128 ∧
    (Char.ofNat n).toLower.toLower = (Char.ofNat n).toLower := by
  decide +kernel

theorem find?_missed {lo hi n : Nat} {evens : Bool} {ranges : List (Nat × Nat × Nat × Int)}
    (h : missed lo hi evens ranges = true) (hlo : lo ≤ n) (hhi : n ≤ hi) (hevens : evens = true → (n - lo) % 2 = 0) :
    ranges.find? (fun r => r.1 ≤ n && n ≤ r.2.1 && (n - r.1) % r.2.2.1 == 0) = none := by
  induction ranges with
  | nil => rfl
  | cons r ranges ih =>
    obtain ⟨lo', hi', step, d⟩ := r
    simp only [missed, Bool.and_eq_true, Bool.or_eq_true, Nat.blt_eq, Nat.beq_eq] at h
    rw [List.find?_cons_of_neg, ih h.2]
    simp only [Bool.and_eq_true, decide_eq_true_eq, beq_iff_eq, not_and]
    intro hle hge
    rcases h.1 with (hlt | hlt) | ⟨⟨rfl, hev⟩, hodd⟩
    · omega
    · omega
    · have := hevens hev
      omega

theorem toLowerRune_toLowerRune (c : Char) : toLowerRune (toLowerRune c) = toLowerRune c := by
  by_cases hascii : c.toNat < 128
  · obtain ⟨hlt, hlower⟩ := toLower_toLower_ascii c.toNat hascii
    rw [Char.ofNat_toNat] at hlt hlower
    rw [toLowerRune, toLowerRune, if_pos hascii, if_pos hlt, hlower]
  · cases hfind : caseRanges.find? (fun r => r.1 ≤ c.toNat && c.toNat ≤ r.2.1 && (c.toNat - r.1) % r.2.2.1 == 0) with
    | none =>
      have hsame : toLowerRune c = c := by simp only [toLowerRune, if_neg hascii, hfind]
      rw [hsame, hsame]
    | some r =>
      have himage : toLowerRune c = Char.ofNat (c.toNat + r.2.2.2).toNat := by
        simp only [toLowerRune, if_neg hascii, hfind]
      have hmem := mem_of_find?_eq_some hfind
      have hrange := List.find?_some hfind
      simp only [Bool.and_eq_true, decide_eq_true_eq, beq_iff_eq] at hrange
      obtain ⟨⟨hlo, hhi⟩, hstep⟩ := hrange
      obtain ⟨hpos, hlow⟩ := caseRanges_images r hmem
      have hmissed := all_eq_true.1 caseRanges_missed r hmem
      rw [himage]
      generalize hm : (c.toNat + r.2.2.2).toNat = m
      by_cases hvalid : m.isValidChar
      · have hnat : (Char.ofNat m).toNat = m := by rw [Char.toNat_ofNat, if_pos hvalid]
        have hnone := find?_missed (n := m) hmissed (by omega) (by omega) (by
          simp only [Bool.or_eq_true, Nat.beq_eq]
          rintro (htwo | hsingle)
          · rw [htwo] at hstep
            omega
          · omega)
        rw [toLowerRune, hnat]
        split
        · rcases hlow with hlow | ⟨hsingle, hfixed⟩
          · omega
          · have hsame : (r.1 + r.2.2.2).toNat = m := by omega
            rwa [hsame] at hfixed
        · simp only [hnone]
      · have hzero : Char.ofNat m = '\x00' := by
          rw [← Char.toNat_inj, Char.toNat_ofNat, if_neg hvalid]
          rfl
        rw [hzero]
        decide +kernel

example : toLowerRune (toLowerRune 'Å') = 'å' := by decide +kernel

theorem trimWith_eq_self_iff {p : Char → Bool} {cs : List Char} : trimWith p cs = cs ↔
    cs.head?.all (fun c => !p c) = true ∧ cs.getLast?.all (fun c => !p c) = true := by
  simp only [Option.all_eq_true, Bool.not_eq_true']
  constructor
  · intro h
    refine ⟨fun c hc => head?_trimWith (h ▸ hc), fun c hc => ?_⟩
    rw [← h, trimWith, List.getLast?_reverse] at hc
    exact head?_dropWhile hc
  · rintro ⟨hhead, hlast⟩
    rw [trimWith, dropWhile_of_head? hhead, dropWhile_of_head? (by simpa only [List.head?_reverse] using hlast),
      reverse_reverse]

theorem trimWith_sublist (p : Char → Bool) (cs : List Char) : List.Sublist (trimWith p cs) cs := by
  have hend := (dropWhile_suffix p (l := (cs.dropWhile p).reverse)).sublist.reverse
  rw [reverse_reverse] at hend
  exact hend.trans (dropWhile_suffix p).sublist

theorem afterFirst_suffix {sub cs t : List Char} (h : afterFirst sub cs = some t) : t <:+ cs := by
  induction cs with
  | nil =>
    rw [afterFirst] at h
    split at h <;> cases h
    exact suffix_rfl
  | cons c cs ih =>
    rw [afterFirst] at h
    split at h
    · cases h
      exact drop_suffix _ _
    · exact (ih h).trans (suffix_cons c cs)

theorem afterFirst_of_infix {sub cs : List Char} (hsub : sub ≠ []) (h : sub <:+: cs) :
    ∃ t, afterFirst sub cs = some t ∧ t.length < cs.length := by
  induction cs with
  | nil => exact absurd (infix_nil.1 h) hsub
  | cons c cs ih =>
    rw [afterFirst]
    by_cases hhere : sub <+: c :: cs
    · have hpos := length_pos_iff.2 hsub
      refine ⟨_, if_pos hhere, ?_⟩
      rw [length_drop, length_cons]
      omega
    · obtain ⟨t, ht, hlen⟩ := ih ((infix_cons_iff.1 h).resolve_left hhere)
      exact ⟨t, (if_neg hhere).trans ht, hlen.trans (Nat.lt_succ_self _)⟩

theorem location_sublist (ref : String) : List.Sublist (location ref)
      ((afterFirst "://".toList (toLower (trimSpace ref.toList))).getD (toLower (trimSpace ref.toList))) :=
  List.IsPrefix.sublist <| takeWhile_prefix _

theorem location_lower (ref : String) : List.Sublist (location ref) (toLower (trimSpace ref.toList)) := by
  refine (location_sublist ref).trans ?_
  cases h : afterFirst "://".toList (toLower (trimSpace ref.toList)) with
  | none => exact List.Sublist.refl _
  | some t => exact (afterFirst_suffix h).sublist

theorem mem_location {ref : String} {c : Char} (h : c ∈ location ref) : toLowerRune c = c ∧ c ≠ '?' ∧ c ≠ '#' := by
  obtain ⟨b, -, rfl⟩ := mem_map.1 ((location_lower ref).subset h)
  have hquery := mem_takeWhile_imp h
  exact ⟨toLowerRune_toLowerRune b, by simpa using hquery⟩

theorem joined_sublist (ref : String) : List.Sublist (joined (hostOf ref) (namespaceOf ref)) (location ref) := by
  by_cases hslash : '/' ∈ location ref
  · obtain ⟨host, rest, hloc, hhost⟩ := eq_append_cons_of_mem hslash
    rw [hostOf, namespaceOf, hloc, cut_append '/' host rest hhost, joined]
    split
    · exact sublist_append_left _ _
    · exact ((trimWith_sublist _ _).cons_cons _).append_left host
  · rw [hostOf, namespaceOf, cut_of_notMem hslash, joined, if_pos (by rfl)]

def keyOf (ref : String) : List Char := joined (foldHub (hostOf ref)) (namespaceOf ref)

section Key

variable {ref : String}

theorem plain_dockerHubHost : ∀ c ∈ dockerHubHost, plain c = true ∧ c ≠ '/' := by
  have hhub : dockerHubHost = ['d', 'o', 'c', 'k', 'e', 'r', '.', 'i', 'o'] := by decide
  rw [hhub]
  simp [plain, isSpace, toLowerRune]

theorem mem_key {c : Char} (h : c ∈ keyOf ref) : toLowerRune c = c ∧ c ≠ '?' ∧ c ≠ '#' := by
  have hlocation := fun hc => mem_location ((joined_sublist ref).subset hc) (c := c)
  have hns : c ∈ namespaceOf ref → c ∈ joined (hostOf ref) (namespaceOf ref) := by
    intro hc
    rw [joined, if_neg (ne_nil_of_mem hc)]
    exact mem_append_right _ (mem_cons_of_mem _ hc)
  unfold keyOf foldHub at h
  split at h
  · have hcases : c ∈ dockerHubHost ∨ c = '/' ∨ c ∈ namespaceOf ref := by
      unfold joined at h
      split at h
      · exact Or.inl h
      · simpa using h
    rcases hcases with hc | rfl | hc
    · have hplain := (plain_dockerHubHost c hc).1
      simp only [plain, Bool.and_eq_true, decide_eq_true_eq] at hplain
      exact ⟨hplain.1.2, hplain.2⟩
    · decide +kernel
    · exact hlocation (hns hc)
  · exact hlocation h

theorem length_canonicalRegistryKey_le (ref : String) :
    (canonicalRegistryKey ref).toList.length ≤ (location ref).length := by
  have hshorter : (foldHub (hostOf ref)).length ≤ (hostOf ref).length := by
    have hub : ∀ host ∈ hubAliases, dockerHubHost.length ≤ host.length := by decide +kernel
    unfold foldHub
    split
    · exact hub _ ‹_›
    · exact le_rfl
  refine le_trans ?_ (joined_sublist ref).length_le
  rw [canonicalRegistryKey_eq, String.toList_ofList]
  unfold joined
  split
  · exact Nat.zero_le _
  · split
    · exact hshorter
    · simpa using hshorter

def Settled (ref : String) : Prop :=
  hostOf ref = [] ∨ (hostOf ref).head?.all (fun c => !isSpace c) = true ∧
    (hostOf ref ++ namespaceOf ref).getLast?.all (fun c => !isSpace c) = true ∧ ¬ "://".toList <:+: namespaceOf ref

theorem foldHub_ends (host ns : List Char) :
    (foldHub host).head?.all (fun c => !isSpace c) = host.head?.all (fun c => !isSpace c) ∧
      (foldHub host ++ ns).getLast?.all (fun c => !isSpace c) = (host ++ ns).getLast?.all (fun c => !isSpace c) := by
  have hub : ∀ host ∈ hubAliases, dockerHubHost.head?.all (fun c => !isSpace c) = host.head?.all (fun c => !isSpace c) ∧
      dockerHubHost.getLast?.all (fun c => !isSpace c) = host.getLast?.all (fun c => !isSpace c) := by decide +kernel
  unfold foldHub
  split
  · rename_i halias
    refine ⟨(hub host halias).1, ?_⟩
    rw [List.getLast?_append, List.getLast?_append]
    cases ns.getLast? with
    | none => exact (hub host halias).2
    | some c => rfl
  · exact ⟨rfl, rfl⟩

theorem trimSpace_key_iff (hne : foldHub (hostOf ref) ≠ []) : trimSpace (keyOf ref) = keyOf ref ↔
      (hostOf ref).head?.all (fun c => !isSpace c) = true ∧
        (hostOf ref ++ namespaceOf ref).getLast?.all (fun c => !isSpace c) = true := by
  have hends := foldHub_ends (hostOf ref) (namespaceOf ref)
  rw [trimSpace, trimWith_eq_self_iff, keyOf, ← hends.1, ← hends.2]
  generalize foldHub (hostOf ref) = host at hne
  unfold joined
  split
  · rename_i hns
    rw [hns, append_nil]
  · rename_i hns
    rw [List.head?_append_of_ne_nil _ hne, List.getLast?_append, List.getLast?_append, List.getLast?_cons]
    obtain ⟨ns, c, hlast⟩ := eq_nil_or_concat (namespaceOf ref) |>.resolve_left hns
    rw [hlast]
    simp

theorem canonicalRegistryKey_idem_iff (ref : String) :
    canonicalRegistryKey (canonicalRegistryKey ref) = canonicalRegistryKey ref ↔ Settled ref := by
  have hkey := canonicalRegistryKey_eq ref
  by_cases hne : foldHub (hostOf ref) = []
  · have hhost : hostOf ref = [] := by
      unfold foldHub at hne
      split at hne
      · exact absurd hne (by decide)
      · exact hne
    rw [if_pos hne] at hkey
    rw [hkey]
    exact iff_of_true (by decide +kernel) (Or.inl hhost)
  · rw [if_neg hne, ← keyOf] at hkey
    have hhost : hostOf ref ≠ [] := fun hnil => hne (by rw [hnil]; decide)
    have hlower : toLower (keyOf ref) = keyOf ref := by
      rw [toLower, map_congr_left (fun c hc => (mem_key hc).1), map_id']
    have hslash : '/' ∉ foldHub (hostOf ref) := slash_notMem_foldHub (notMem_cut_fst '/' _)
    have hhead : (namespaceOf ref).head? ≠ some '/' := fun hh => absurd (head?_trimWith hh) (by decide)
    have hsettled : Settled ref ↔ trimSpace (keyOf ref) = keyOf ref ∧ ¬ "://".toList <:+: namespaceOf ref := by
      rw [Settled, or_iff_right hhost, trimSpace_key_iff hne, and_assoc]
    rw [hsettled, hkey]
    constructor
    · intro hsame
      have hlen := length_canonicalRegistryKey_le (String.ofList (keyOf ref))
      rw [hsame, String.toList_ofList] at hlen
      have hlocation := location_lower (String.ofList (keyOf ref))
      rw [String.toList_ofList] at hlocation
      have htrim := (trimWith_sublist isSpace _).eq_of_length_le
        (hlen.trans (hlocation.length_le.trans_eq (length_map _)))
      refine ⟨htrim, fun hinfix => ?_⟩
      -- a second scheme would be cut off, and with it the key gets shorter
      have hwithin : "://".toList <:+: keyOf ref := by
        rw [keyOf, joined, if_neg (fun hnil => absurd (infix_nil.1 (hnil ▸ hinfix)) (by decide))]
        exact hinfix.trans ((suffix_cons _ _).trans (suffix_append _ _)).isInfix
      obtain ⟨t, ht, hshort⟩ := afterFirst_of_infix (by decide) hwithin
      have hcut := (location_sublist (String.ofList (keyOf ref))).length_le
      rw [show (String.ofList (keyOf ref)).toList = keyOf ref from String.toList_ofList, trimSpace, htrim, hlower, ht,
        Option.getD_some] at hcut
      omega
    · rintro ⟨htrim, hns⟩
      exact canonicalRegistryKey_joined hne (foldHub_notMem _) hslash (trimWith_trimWith _ _)
        (location_eq_self htrim hlower (no_scheme hslash hns hhead) (fun c hc => (mem_key hc).2))

end Key

end Jaco.Pull
