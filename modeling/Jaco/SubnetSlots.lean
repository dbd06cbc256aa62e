import Jaco.Ipam

namespace Jaco.Ipam

open Interleaving List

theorem splitAtChar_ne_nil (sep : Char) (cs : List Char) : Cidr.splitAtChar sep cs ≠ [] := by
  cases cs with
  | nil => exact cons_ne_nil _ _
  | cons c cs =>
    rw [Cidr.splitAtChar]
    split
    · exact cons_ne_nil _ _
    · split <;> exact cons_ne_nil _ _

theorem splitAtChar_append (sep : Char) (xs ys : List Char) (h : sep ∉ xs) :
    Cidr.splitAtChar sep (xs ++ sep :: ys) = xs :: Cidr.splitAtChar sep ys := by
  induction xs with
  | nil =>
    rw [nil_append, Cidr.splitAtChar]
    split
    · rename_i hnil
      exact absurd hnil (splitAtChar_ne_nil sep ys)
    · rename_i piece rest hcons
      rw [if_pos rfl, hcons]
  | cons x xs ih =>
    rw [mem_cons, not_or] at h
    rw [cons_append, Cidr.splitAtChar, ih h.2]
    exact if_neg (fun hx => h.1 hx.symm)

theorem splitAtChar_of_notMem (sep : Char) (xs : List Char) (h : sep ∉ xs) : Cidr.splitAtChar sep xs = [xs] := by
  induction xs with
  | nil => rfl
  | cons x xs ih =>
    rw [mem_cons, not_or] at h
    rw [Cidr.splitAtChar, ih h.2]
    exact if_neg (fun hx => h.1 hx.symm)

theorem octet_spelling : ∀ n < 256, Cidr.parseOctet (toString n).toList = some n ∧
    '.' ∉ (toString n).toList ∧ '/' ∉ (toString n).toList ∧ ':' ∉ (toString n).toList := by
  decide +kernel

def dotted (a b c d : Nat) : List Char :=
  (toString a).toList ++ '.' :: ((toString b).toList ++ '.' :: ((toString c).toList ++ '.' :: (toString d).toList))

section Dotted

variable {a b c d : Nat} (ha : a < 256) (hb : b < 256) (hc : c < 256) (hd : d < 256)

include ha hb hc hd

theorem parseAddr4_dotted :
    Cidr.parseAddr4 (dotted a b c d) = some (BitVec.ofNat 32 (((a * 256 + b) * 256 + c) * 256 + d)) := by
  obtain ⟨hpa, hda, -⟩ := octet_spelling a ha
  obtain ⟨hpb, hdb, -⟩ := octet_spelling b hb
  obtain ⟨hpc, hdc, -⟩ := octet_spelling c hc
  obtain ⟨hpd, hdd, -⟩ := octet_spelling d hd
  rw [Cidr.parseAddr4, dotted, splitAtChar_append _ _ _ hda, splitAtChar_append _ _ _ hdb, splitAtChar_append _ _ _ hdc,
    splitAtChar_of_notMem _ _ hdd]
  simp only [map_cons, map_nil, hpa, hpb, hpc, hpd]

theorem notMem_dotted : '/' ∉ dotted a b c d ∧ ':' ∉ dotted a b c d := by
  have hspell := fun {n : Nat} (hn : n < 256) => (octet_spelling n hn).2.2
  simp only [dotted, mem_append, mem_cons, not_or]
  exact ⟨⟨(hspell ha).1, by decide, (hspell hb).1, by decide, (hspell hc).1, by decide, (hspell hd).1⟩,
    (hspell ha).2, by decide, (hspell hb).2, by decide, (hspell hc).2, by decide, (hspell hd).2⟩

theorem parse_dotted {len : List Char} {n : Nat} (hlen : '/' ∉ len) (hbits : Cidr.parseDecimal 32 len = some n)
    (hn : n ≤ 32)
    {cidr : String} (h : cidr.toList = dotted a b c d ++ '/' :: len) :
    Cidr.parse cidr = some ⟨BitVec.ofNat 32 (((a * 256 + b) * 256 + c) * 256 + d), n, hn⟩ := by
  rw [Cidr.parse, h, splitAtChar_append _ _ _ (notMem_dotted ha hb hc hd).1, splitAtChar_of_notMem _ _ hlen]
  simp only [parseAddr4_dotted ha hb hc hd, hbits, dif_pos hn]

end Dotted

theorem slot_toList (pool : AddressPool) (n : Nat) :
    (pool.slot n).toList = dotted pool.first.toNat pool.second.toNat n 0 ++ '/' :: ['2', '4'] := by
  have hfirst : toString pool.first = toString pool.first.toNat := rfl
  have hsecond : toString pool.second = toString pool.second.toNat := rfl
  simp only [AddressPool.slot, dotted, hfirst, hsecond, String.toList_append, append_assoc, cons_append]
  rfl

theorem thirdOctet_slot (pool : AddressPool) (n : Nat) (hn : n < 256) : thirdOctet (pool.slot n) = some n := by
  have hfirst : pool.first.toNat < 256 := pool.first.toNat_lt
  have hsecond : pool.second.toNat < 256 := pool.second.toNat_lt
  have htake : (pool.slot n).toList.takeWhile (· ≠ '/') = dotted pool.first.toNat pool.second.toNat n 0 := by
    rw [slot_toList, takeWhile_append_of_pos]
    · simp
    · intro c hc
      exact decide_eq_true (fun he => (notMem_dotted hfirst hsecond hn (by decide)).1 (he ▸ hc))
  rw [thirdOctet, if_pos, htake, parseAddr4_dotted hfirst hsecond hn (by decide)]
  · simp only [Option.map_some, BitVec.toNat_ofNat, Option.some.injEq]
    omega
  · rw [slot_toList]
    exact mem_append_right _ mem_cons_self

def Fewer (s t : State) : Prop := ∀ key sn, s.subnets.get key = some sn → t.subnets.get key = some sn

theorem fewer_refl (s : State) : Fewer s s := fun _ _ h => h

theorem fewer_trans {s t u : State} (hst : Fewer s t) (htu : Fewer t u) : Fewer s u :=
  fun key sn h => htu key sn (hst key sn h)

structure Slotted (s : State) : Prop where
  named : ∀ key sn, s.subnets.get key = some sn → (thirdOctet sn.cidr).isSome
  apart : ∀ key key' sn sn', s.subnets.get key = some sn → s.subnets.get key' = some sn' →
    thirdOctet sn.cidr = thirdOctet sn'.cidr → key = key'

theorem slotted_fewer {s t : State} (hst : Fewer s t) (h : Slotted t) : Slotted s where
  named key sn hsn := h.named key sn (hst key sn hsn)
  apart key key' sn sn' hsn hsn' := h.apart key key' sn sn' (hst key sn hsn) (hst key' sn' hsn')

def Unused (s : State) (c : Command) : Prop :=
  ∃ (pool : AddressPool) (req : EnsureSubnetRequest) (n : Nat) (now : Timestamp),
    c = allocateCommand req (pool.slot n) now ∧ n < 256 ∧
      ∀ key sn, s.subnets.get key = some sn → thirdOctet sn.cidr ≠ some n

theorem unused_fewer {s t : State} {c : Command} (hst : Fewer s t) (h : Unused t c) : Unused s c := by
  obtain ⟨pool, req, n, now, hc, hn, hfree⟩ := h
  exact ⟨pool, req, n, now, hc, hn, fun key sn hsn => hfree key sn (hst key sn hsn)⟩

def allocates : Payload → Bool
  | .subnetAllocate _ => true
  | _ => false

def NoAllocation (p : Payload) : Prop := allocates p = false

instance : DecidablePred NoAllocation := fun p => inferInstanceAs (Decidable (allocates p = false))

instance (c : Command) : Decidable (Allows NoAllocation c) :=
  inferInstanceAs (Decidable (∀ e ∈ c.entries, NoAllocation e.payload))

theorem applyEntry_fewer (idx : Nat) (s : State) (e : Entry) (h : NoAllocation e.payload) :
    Fewer (applyEntry idx s e) s := by
  intro key sn hsn
  rcases get_subnets_entry hsn with hold | ⟨sa, hp, -⟩
  · exact hold
  · rw [hp] at h
    cases h

theorem commit_fewer (w : World) (c : Command) (h : Allows NoAllocation c) : Fewer (w.commit c).state w.state :=
  commit_keeps (Q := fun s => Fewer s w.state) (fun idx s e he hs => fewer_trans (applyEntry_fewer idx s e he) hs)
    c w h (fewer_refl w.state)

theorem slotted_allocate {w : World} {c : Command} (hw : Slotted w.state) (hc : Unused w.state c) :
    Slotted (w.commit c).state := by
  obtain ⟨pool, req, n, now, rfl, hn, hfree⟩ := hc
  have hsub : (w.commit (allocateCommand req (pool.slot n) now)).state.subnets =
      w.state.subnets.apply ⟨req.deployment, req.network, pool.slot n, some now, req.host⟩ := by
    change ((allocateCommand req (pool.slot n) now).apply (w.index + 1) w.state).subnets = _
    rw [Command.apply_eq_foldl, allocateCommand, entries_single]
    exact applyEntry_agree_mutate (w.index + 1) w.state
      ⟨"scheduler", some now, .subnetAllocate ⟨req.deployment, req.network, pool.slot n, req.host⟩⟩ .subnets (by decide)
  have hget : ∀ key sn, (w.commit (allocateCommand req (pool.slot n) now)).state.subnets.get key = some sn →
      (key = subnetKey req.deployment req.network req.host ∧ thirdOctet sn.cidr = some n) ∨
        w.state.subnets.get key = some sn := by
    intro key sn hsn
    rw [hsub, Store.get_apply] at hsn
    split at hsn
    · rename_i hkey
      cases hsn
      exact Or.inl ⟨hkey.symm, thirdOctet_slot pool n hn⟩
    · exact Or.inr hsn
  refine ⟨fun key sn hsn => ?_, fun key key' sn sn' hsn hsn' he => ?_⟩
  · rcases hget key sn hsn with ⟨-, h⟩ | h
    · rw [h]
      rfl
    · exact hw.named key sn h
  · rcases hget key sn hsn with ⟨hk, h⟩ | h <;> rcases hget key' sn' hsn' with ⟨hk', h'⟩ | h'
    · rw [hk, hk']
    · exact absurd (he.symm.trans h) (hfree key' sn' h')
    · exact absurd (he.trans h') (hfree key sn h)
    · exact hw.apart key key' sn sn' h h' he

theorem nextFree_unused {pool : AddressPool} {subnets : List Subnet} {cidr : String}
    (h : nextFree pool subnets = .ok cidr) :
    ∃ n < 256, cidr = pool.slot n ∧ ∀ sn ∈ subnets, thirdOctet sn.cidr ≠ some n := by
  unfold nextFree at h
  dsimp only at h
  split at h
  · rename_i n hn
    cases h
    refine ⟨n, mem_range.1 (mem_of_find?_eq_some hn), rfl, fun sn hsn he => ?_⟩
    have hfree := List.find?_some hn
    exact of_decide_eq_true hfree (mem_filterMap.2 ⟨sn, hsn, he⟩)
  · cases h

theorem allocate_closing (s : State) (pool : AddressPool) (req : EnsureSubnetRequest) :
    Closing (fun w : World => Fewer s w.state) (fun _ => False) (Unused s) (allocate pool req) := by
  unfold allocate
  split
  · exact closing_ret
  · refine closing_bind_any (within_read_any _) (fun existing => ?_)
    cases existing with
    | some sn => exact closing_ret
    | none =>
      refine closing_bind (Q := fun subnets => ∀ key sn, s.subnets.get key = some sn → sn ∈ subnets)
        (within_read _ (fun w hw key sn hsn => ?_)) (fun subnets hsubnets => ?_)
      · rw [mem_listing, Store.get_key hsn]
        exact hw key sn hsn
      · cases hfree : nextFree pool subnets with
        | error e => exact closing_ret
        | ok cidr =>
          obtain ⟨n, hn, hcidr, hunused⟩ := nextFree_unused hfree
          refine closing_bind_any (within_read_any _) (fun now => closing_last ?_ (fun answer => ?_))
          · rw [hcidr]
            exact ⟨pool, req, n, now, rfl, hn, fun key sn hsn => hunused sn (hsubnets key sn hsn)⟩
          · cases answer with
            | false => exact trivial
            | true => exact fun _ => trivial

end Jaco.Ipam
