import Mathlib

namespace Jaco.GoStrings

open List

def caseRanges : List (Nat × Nat × Nat × Int) :=
  [(192, 214, 1, 32), (216, 222, 1, 32), (256, 302, 2, 1), (304, 304, 1, -199), (306, 310, 2, 1),
    (313, 327, 2, 1), (330, 374, 2, 1), (376, 376, 1, -121), (377, 381, 2, 1), (385, 385, 1, 210),
    (386, 388, 2, 1), (390, 390, 1, 206), (391, 391, 1, 1), (393, 394, 1, 205), (395, 395, 1, 1),
    (398, 398, 1, 79), (399, 399, 1, 202), (400, 400, 1, 203), (401, 401, 1, 1), (403, 403, 1, 205),
    (404, 404, 1, 207), (406, 406, 1, 211), (407, 407, 1, 209), (408, 408, 1, 1), (412, 412, 1, 211),
    (413, 413, 1, 213), (415, 415, 1, 214), (416, 420, 2, 1), (422, 422, 1, 218), (423, 423, 1, 1),
    (425, 425, 1, 218), (428, 428, 1, 1), (430, 430, 1, 218), (431, 431, 1, 1), (433, 434, 1, 217),
    (435, 437, 2, 1), (439, 439, 1, 219), (440, 440, 1, 1), (444, 444, 1, 1), (452, 452, 1, 2),
    (453, 453, 1, 1), (455, 455, 1, 2), (456, 456, 1, 1), (458, 458, 1, 2), (459, 475, 2, 1),
    (478, 494, 2, 1), (497, 497, 1, 2), (498, 500, 2, 1), (502, 502, 1, -97), (503, 503, 1, -56),
    (504, 542, 2, 1), (544, 544, 1, -130), (546, 562, 2, 1), (570, 570, 1, 10795), (571, 571, 1, 1),
    (573, 573, 1, -163), (574, 574, 1, 10792), (577, 577, 1, 1), (579, 579, 1, -195), (580, 580, 1, 69),
    (581, 581, 1, 71), (582, 590, 2, 1), (880, 882, 2, 1), (886, 886, 1, 1), (895, 895, 1, 116),
    (902, 902, 1, 38), (904, 906, 1, 37), (908, 908, 1, 64), (910, 911, 1, 63), (913, 929, 1, 32),
    (931, 939, 1, 32), (975, 975, 1, 8), (984, 1006, 2, 1), (1012, 1012, 1, -60), (1015, 1015, 1, 1),
    (1017, 1017, 1, -7), (1018, 1018, 1, 1), (1021, 1023, 1, -130), (1024, 1039, 1, 80),
    (1040, 1071, 1, 32), (1120, 1152, 2, 1), (1162, 1214, 2, 1), (1216, 1216, 1, 15), (1217, 1229, 2, 1),
    (1232, 1326, 2, 1), (1329, 1366, 1, 48), (4256, 4293, 1, 7264), (4295, 4295, 1, 7264),
    (4301, 4301, 1, 7264), (5024, 5103, 1, 38864), (5104, 5109, 1, 8), (7312, 7354, 1, -3008),
    (7357, 7359, 1, -3008), (7680, 7828, 2, 1), (7838, 7838, 1, -7615), (7840, 7934, 2, 1),
    (7944, 7951, 1, -8), (7960, 7965, 1, -8), (7976, 7983, 1, -8), (7992, 7999, 1, -8), (8008, 8013, 1, -8),
    (8025, 8031, 2, -8), (8040, 8047, 1, -8), (8072, 8079, 1, -8), (8088, 8095, 1, -8), (8104, 8111, 1, -8),
    (8120, 8121, 1, -8), (8122, 8123, 1, -74), (8124, 8124, 1, -9), (8136, 8139, 1, -86),
    (8140, 8140, 1, -9), (8152, 8153, 1, -8), (8154, 8155, 1, -100), (8168, 8169, 1, -8),
    (8170, 8171, 1, -112), (8172, 8172, 1, -7), (8184, 8185, 1, -128), (8186, 8187, 1, -126),
    (8188, 8188, 1, -9), (8486, 8486, 1, -7517), (8490, 8490, 1, -8383), (8491, 8491, 1, -8262),
    (8498, 8498, 1, 28), (8544, 8559, 1, 16), (8579, 8579, 1, 1), (9398, 9423, 1, 26),
    (11264, 11311, 1, 48), (11360, 11360, 1, 1), (11362, 11362, 1, -10743), (11363, 11363, 1, -3814),
    (11364, 11364, 1, -10727), (11367, 11371, 2, 1), (11373, 11373, 1, -10780), (11374, 11374, 1, -10749),
    (11375, 11375, 1, -10783), (11376, 11376, 1, -10782), (11378, 11378, 1, 1), (11381, 11381, 1, 1),
    (11390, 11391, 1, -10815), (11392, 11490, 2, 1), (11499, 11501, 2, 1), (11506, 11506, 1, 1),
    (42560, 42604, 2, 1), (42624, 42650, 2, 1), (42786, 42798, 2, 1), (42802, 42862, 2, 1),
    (42873, 42875, 2, 1), (42877, 42877, 1, -35332), (42878, 42886, 2, 1), (42891, 42891, 1, 1),
    (42893, 42893, 1, -42280), (42896, 42898, 2, 1), (42902, 42920, 2, 1), (42922, 42922, 1, -42308),
    (42923, 42923, 1, -42319), (42924, 42924, 1, -42315), (42925, 42925, 1, -42305),
    (42926, 42926, 1, -42308), (42928, 42928, 1, -42258), (42929, 42929, 1, -42282),
    (42930, 42930, 1, -42261), (42931, 42931, 1, 928), (42932, 42946, 2, 1), (42948, 42948, 1, -48),
    (42949, 42949, 1, -42307), (42950, 42950, 1, -35384), (42951, 42953, 2, 1), (42960, 42960, 1, 1),
    (42966, 42968, 2, 1), (42997, 42997, 1, 1), (65313, 65338, 1, 32), (66560, 66599, 1, 40),
    (66736, 66771, 1, 40), (66928, 66938, 1, 39), (66940, 66954, 1, 39), (66956, 66962, 1, 39),
    (66964, 66965, 1, 39), (68736, 68786, 1, 64), (71840, 71871, 1, 32), (93760, 93791, 1, 32),
    (125184, 125217, 1, 34)]

def toLowerRune (c : Char) : Char :=
  if c.toNat < 128 then c.toLower
  else match caseRanges.find? (fun r => r.1 ≤ c.toNat && c.toNat ≤ r.2.1 && (c.toNat - r.1) % r.2.2.1 == 0) with
    | some r => Char.ofNat (c.toNat + r.2.2.2).toNat
    | none => c

def isSpace (c : Char) : Bool :=
  (9 ≤ c.toNat && c.toNat ≤ 13) || [32, 0x85, 0xA0, 0x1680, 0x2028, 0x2029, 0x202F, 0x205F, 0x3000].contains c.toNat ||
    (0x2000 ≤ c.toNat && c.toNat ≤ 0x200A)

def trimWith (p : Char → Bool) (cs : List Char) : List Char :=
  ((cs.dropWhile p).reverse.dropWhile p).reverse

def toLower (cs : List Char) : List Char := cs.map toLowerRune

def trimSpace (cs : List Char) : List Char := trimWith isSpace cs

def afterFirst (sub : List Char) : List Char → Option (List Char)
  | [] => if sub = [] then some [] else none
  | c :: cs => if sub <+: c :: cs then some ((c :: cs).drop sub.length) else afterFirst sub cs

def cut (sep : Char) (cs : List Char) : List Char × Option (List Char) :=
  match cs.dropWhile (· ≠ sep) with
  | [] => (cs.takeWhile (· ≠ sep), none)
  | _ :: rest => (cs.takeWhile (· ≠ sep), some rest)

theorem cut_append (sep : Char) (xs ys : List Char) (h : sep ∉ xs) : cut sep (xs ++ sep :: ys) = (xs, some ys) := by
  have hall : ∀ c ∈ xs, decide (c ≠ sep) = true := by
    intro c hc
    simp only [decide_eq_true_eq]
    rintro rfl
    exact h hc
  rw [cut, dropWhile_append_of_pos hall, takeWhile_append_of_pos hall]
  simp

def beforeLast (sep : Char) (cs : List Char) : Option (List Char) :=
  match cs.reverse.dropWhile (· ≠ sep) with
  | [] => none
  | _ :: rest => some rest.reverse

theorem beforeLast_append (sep : Char) (xs ys : List Char) (h : sep ∉ ys) :
    beforeLast sep (xs ++ sep :: ys) = some xs := by
  have hall : ∀ c ∈ ys.reverse, decide (c ≠ sep) = true := by
    intro c hc
    simp only [decide_eq_true_eq]
    rintro rfl
    exact h (mem_reverse.1 hc)
  rw [beforeLast, reverse_append, reverse_cons, append_assoc, dropWhile_append_of_pos hall]
  simp

variable {cs : List Char} {p : Char → Bool}

theorem beforeLast_of_notMem {sep : Char} (h : sep ∉ cs) : beforeLast sep cs = none := by
  have hnil : cs.reverse.dropWhile (fun c => decide (c ≠ sep)) = [] := by
    rw [dropWhile_eq_nil_iff]
    intro c hc
    simp only [decide_eq_true_eq]
    rintro rfl
    exact h (mem_reverse.1 hc)
  rw [beforeLast, hnil]

theorem cut_of_notMem {sep : Char} (h : sep ∉ cs) : cut sep cs = (cs, none) := by
  have hall : ∀ c ∈ cs, decide (c ≠ sep) = true := by
    intro c hc
    simp only [decide_eq_true_eq]
    rintro rfl
    exact h hc
  rw [cut, dropWhile_eq_nil_iff.2 hall, takeWhile_eq_self_iff.2 hall]

theorem notMem_cut_fst (sep : Char) (cs : List Char) : sep ∉ (cut sep cs).1 := by
  have hfst : (cut sep cs).1 = cs.takeWhile (· ≠ sep) := by
    unfold cut
    split <;> rfl
  rw [hfst]
  intro h
  have := mem_takeWhile_imp h
  simp at this

theorem head?_dropWhile {c : Char} (h : (cs.dropWhile p).head? = some c) : p c = false := by
  have hnot := List.head?_dropWhile_not p cs
  rw [h] at hnot
  exact hnot

theorem dropWhile_of_head? (h : ∀ c, cs.head? = some c → p c = false) : cs.dropWhile p = cs := by
  cases cs with
  | nil => rfl
  | cons c cs => rw [dropWhile_cons_of_neg (by simp [h c rfl])]

theorem head?_trimWith {c : Char} (h : (trimWith p cs).head? = some c) : p c = false := by
  -- what is left after trimming the end is a front part of what was left after trimming the start
  have hpre : trimWith p cs <+: cs.dropWhile p := by
    rw [trimWith, ← reverse_suffix, reverse_reverse]
    exact dropWhile_suffix p
  obtain ⟨t, ht⟩ := hpre
  have hhead : (cs.dropWhile p).head? = some c := by
    rw [← ht, List.head?_append, h]
    rfl
  exact head?_dropWhile hhead

theorem trimWith_trimWith (p : Char → Bool) (cs : List Char) : trimWith p (trimWith p cs) = trimWith p cs := by
  conv_lhs => rw [trimWith]
  rw [dropWhile_of_head? (fun c hc => head?_trimWith hc)]
  rw [trimWith, reverse_reverse, dropWhile_of_head? (fun c hc => head?_dropWhile hc)]

theorem afterFirst_eq_none {sub : List Char} (hsub : sub ≠ []) (h : ¬ sub <:+: cs) : afterFirst sub cs = none := by
  induction cs with
  | nil => rw [afterFirst, if_neg hsub]
  | cons c cs ih =>
    rw [afterFirst, if_neg (fun hp => h hp.isInfix)]
    exact ih (fun hi => h (hi.trans (suffix_cons c cs).isInfix))

def hexDigit (n : Nat) : Char := "0123456789abcdef".toList.getD n '0'

def hexEncode (bs : List UInt8) : String :=
  String.ofList (bs.flatMap (fun b => [hexDigit (b.toNat / 16), hexDigit (b.toNat % 16)]))

def digitsValue (cs : List Char) : Nat := cs.foldl (fun acc c => 10 * acc + (c.toNat - 48)) 0

def atoi (s : String) : Option Int :=
  let (negative, digits) := match s.toList with
    | '-' :: cs => (true, cs)
    | '+' :: cs => (false, cs)
    | cs => (false, cs)
  if digits.isEmpty || !digits.all Char.isDigit then none
  else
    let n : Int := if negative then -(digitsValue digits : Int) else digitsValue digits
    if -(2 ^ 63) ≤ n ∧ n < 2 ^ 63 then some n else none

def parseUint (s : String) : Option Nat :=
  let digits := s.toList
  if digits.isEmpty || !digits.all Char.isDigit then none
  else if digitsValue digits < 2 ^ 64 then some (digitsValue digits) else none

theorem digitsValue_toString (n : Nat) : digitsValue (toString n).toList = n := by
  have h : Nat.ofDigitChars 10 (Nat.toDigits 10 n) 0 = n := Nat.ofDigitChars_ten_toDigits
  rw [Nat.ofDigitChars_eq_foldl] at h
  rw [Nat.toString_eq_ofList_toDigits, String.toList_ofList]
  exact h

theorem eq_of_parseUint_toString {m n : Nat} (h : parseUint (toString m) = some n) : m = n := by
  unfold parseUint at h
  dsimp only at h
  split at h
  · cases h
  · split at h
    · rw [digitsValue_toString] at h
      exact Option.some.inj h
    · cases h

def escapes : List (Char × Char) :=
  [('"', '"'), ('\\', '\\'), ('\x07', 'a'), ('\x08', 'b'), ('\x0c', 'f'), ('\n', 'n'), ('\r', 'r'), ('\t', 't'),
    ('\x0b', 'v')]

def quoteRune (c : Char) : List Char :=
  match escapes.lookup c with
  | some e => ['\\', e]
  | none =>
    if c.toNat < 32 ∨ c.toNat = 127 then ['\\', 'x', hexDigit (c.toNat / 16), hexDigit (c.toNat % 16)] else [c]

/-- The `%q` verb; runes outside ASCII are taken to be printable. -/
def quote (s : String) : String := String.ofList ('"' :: s.toList.flatMap quoteRune ++ ['"'])

theorem hexDigit_injective : ∀ a < 16, ∀ b < 16, hexDigit a = hexDigit b → a = b := by decide +kernel

theorem hexEncode_injective {as bs : List UInt8} (h : hexEncode as = hexEncode bs) : as = bs := by
  have hlist := String.ofList_injective h
  clear h
  induction as generalizing bs with
  | nil =>
    cases bs with
    | nil => rfl
    | cons b bs => cases hlist
  | cons a as ih =>
    cases bs with
    | nil => cases hlist
    | cons b bs =>
      simp only [flatMap_cons, cons_append, nil_append, List.cons.injEq] at hlist
      obtain ⟨hhigh, hlow, htail⟩ := hlist
      have ha : a.toNat < 256 := a.toNat_lt
      have hb : b.toNat < 256 := b.toNat_lt
      have hdiv := hexDigit_injective _ (by omega) _ (by omega) hhigh
      have hmod := hexDigit_injective _ (by omega) _ (by omega) hlow
      have hab : a = b := UInt8.toNat_inj.mp (by omega)
      rw [hab, ih htail]

theorem bytes_toList_loop (bs : ByteArray) (i : Nat) (r : List UInt8) :
    ByteArray.toList.loop bs i r = r.reverse ++ bs.data.toList.drop i := by
  fun_induction ByteArray.toList.loop bs i r with
  | case1 i r h ih =>
    have hlt : i < bs.data.toList.length := h
    have hget : bs.get! i = bs.data.toList[i] := by simp [ByteArray.get!, h]
    rw [ih, reverse_cons, append_assoc, singleton_append, drop_eq_getElem_cons hlt, hget]
  | case2 i r h =>
    have hge : bs.data.toList.length ≤ i := Nat.le_of_not_lt h
    rw [drop_eq_nil_of_le hge, append_nil]

theorem utf8_injective {a b : String} (h : a.toUTF8.toList = b.toUTF8.toList) : a = b := by
  have hlist (s : String) : s.toUTF8.toList = s.toUTF8.data.toList := by
    rw [ByteArray.toList, bytes_toList_loop, reverse_nil, nil_append, drop_zero]
  rw [hlist, hlist] at h
  exact String.toByteArray_inj.mp (ByteArray.ext (Array.toList_inj.mp h))

end Jaco.GoStrings
