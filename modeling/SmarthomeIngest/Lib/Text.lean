import Mathlib.Data.List.DropRight
import Mathlib.Algebra.Order.BigOperators.Group.List
import Mathlib.Algebra.Order.Ring.Nat

/-!
# Texts

Replacing and escaping characters, trimming, splitting, decimal numbers, and what each of them does
to the length of a text in bytes.
-/

namespace Text

/-! ### Escaping -/

/-- Every `c` replaced by `r`. -/
def replace (c : Char) (r s : String) : String :=
  String.ofList (s.toList.flatMap fun d => if d = c then r.toList else [d])

/-- What a character becomes when the `special` ones get a backslash. -/
def escapeChar (special : List Char) (d : Char) : List Char :=
  if d ∈ special then ['\\', d] else [d]

/-- A backslash in front of every special character, in one pass. -/
def escape (special : List Char) (s : String) : String :=
  String.ofList (s.toList.flatMap (escapeChar special))

lemma toList_escape (special : List Char) (s : String) :
    (escape special s).toList = s.toList.flatMap (escapeChar special) := String.toList_ofList

lemma replace_backslash (s : String) : replace '\\' "\\\\" s = escape ['\\'] s := by
  have hr : ("\\\\" : String).toList = ['\\', '\\'] := rfl
  rw [replace, escape, hr]
  congr 1
  refine List.flatMap_congr fun d _ => ?_
  by_cases hd : d = '\\'
  · simp [escapeChar, hd]
  · simp [escapeChar, hd]

/-- Replacing one more character in an escaped text is escaping that character too. -/
lemma replace_escape {special : List Char} {c : Char} {r : String} (hr : r.toList = ['\\', c])
    (hback : '\\' ∈ special) (hc : c ∉ special) (s : String) :
    replace c r (escape special s) = escape (c :: special) s := by
  have hne : '\\' ≠ c := fun h => hc (h ▸ hback)
  rw [replace, escape, escape, String.toList_ofList, hr, List.flatMap_assoc]
  congr 1
  refine List.flatMap_congr fun d _ => ?_
  by_cases hd : d ∈ special
  · have hdc : d ≠ c := fun h => hc (h ▸ hd)
    simp [escapeChar, hd, hne, hdc]
  · by_cases hdc : d = c
    · simp [escapeChar, hdc, hc]
    · simp [escapeChar, hd, hdc]

/-! ### Trimming -/

/-- The characters with the property White_Space. -/
def isWhitespace (c : Char) : Bool :=
  let n := c.toNat
  (9 ≤ n && n ≤ 13) || n == 0x20 || n == 0x85 || n == 0xA0 || n == 0x1680 ||
    (0x2000 ≤ n && n ≤ 0x200A) || n == 0x2028 || n == 0x2029 || n == 0x202F || n == 0x205F ||
    n == 0x3000

/-- The text without the leading and trailing characters that satisfy `p`. -/
def trimMatches (p : Char → Bool) (s : String) : String :=
  String.ofList ((s.toList.dropWhile p).rdropWhile p)

def trim (s : String) : String := trimMatches isWhitespace s

/-- A text that starts and ends with other characters stays as it is. -/
lemma trimMatches_eq_self {p : Char → Bool} {s : String} (hhead : ∀ c ∈ s.toList.head?, ¬ p c)
    (hlast : ∀ c ∈ s.toList.getLast?, ¬ p c) : trimMatches p s = s := by
  have hdrop : s.toList.dropWhile p = s.toList := by
    cases hs : s.toList with
    | nil => rfl
    | cons c cs =>
      rw [hs] at hhead
      rw [List.dropWhile_cons_of_neg (hhead c rfl)]
  rw [trimMatches, hdrop, List.rdropWhile_eq_self_iff.mpr fun hne => ?_, String.ofList_toList]
  exact hlast _ (List.getLast?_eq_getLast_of_ne_nil hne)

lemma dropWhile_append_of_all {p : Char → Bool} {cs ds : List Char} (hcs : ∀ c ∈ cs, p c) :
    (cs ++ ds).dropWhile p = ds.dropWhile p := by
  rw [List.dropWhile_append, List.dropWhile_eq_nil_iff.mpr hcs]
  rfl

lemma rdropWhile_append_of_all {p : Char → Bool} {cs ds : List Char} (hds : ∀ c ∈ ds, p c) :
    (cs ++ ds).rdropWhile p = cs.rdropWhile p := by
  rw [List.rdropWhile, List.reverse_append, dropWhile_append_of_all]
  · rfl
  · exact fun c hc => hds c (List.mem_reverse.mp hc)

/-- What surrounds a text, and would be trimmed, makes no difference. -/
lemma trimMatches_surround {p : Char → Bool} {cs ds : List Char} (hcs : ∀ c ∈ cs, p c)
    (hds : ∀ c ∈ ds, p c) (s : String) :
    trimMatches p (String.ofList (cs ++ s.toList ++ ds)) = trimMatches p s := by
  rw [trimMatches, trimMatches, String.toList_ofList, List.append_assoc,
    dropWhile_append_of_all hcs, List.dropWhile_append]
  split_ifs with hempty
  · have hall : ∀ c ∈ s.toList, p c := List.dropWhile_eq_nil_iff.mp (List.isEmpty_iff.mp hempty)
    rw [List.dropWhile_eq_nil_iff.mpr hds, List.dropWhile_eq_nil_iff.mpr hall]
  · rw [rdropWhile_append_of_all hds]

/-! ### ASCII case -/

/-- `to_ascii_lowercase`. -/
def toAsciiLowercase (s : String) : String := String.ofList (s.toList.map Char.toLower)

/-- The texts differ in the case of ASCII letters only. -/
def EqIgnoreAsciiCase (s t : String) : Prop := toAsciiLowercase s = toAsciiLowercase t

instance (s t : String) : Decidable (EqIgnoreAsciiCase s t) := inferInstanceAs (Decidable (_ = _))

/-- The printable ASCII characters. -/
lemma isWhitespace_of_printable {c : Char} (h : 0x20 < c.toNat) (h' : c.toNat < 0x7F) :
    isWhitespace c = false := by
  simp only [isWhitespace, Bool.or_eq_false_iff, Bool.and_eq_false_iff, decide_eq_false_iff_not,
    beq_eq_false_iff_ne]
  omega

lemma toNat_toLower {c : Char} (h : c.val ≥ 'A'.val ∧ c.val ≤ 'Z'.val) :
    c.toLower.toNat = c.toNat + 32 := by
  have hlower : c.toLower = ⟨c.val + ('a'.val - 'A'.val), _⟩ := dif_pos h
  rw [hlower]
  have hle : c.val.toNat ≤ 90 := h.2
  show (c.val + 32).toNat = c.val.toNat + 32
  rw [UInt32.toNat_add]
  show (c.val.toNat + 32) % 2 ^ 32 = _
  omega

lemma isWhitespace_toLower (c : Char) : isWhitespace c.toLower = isWhitespace c := by
  by_cases h : c.val ≥ 'A'.val ∧ c.val ≤ 'Z'.val
  · have hlower := toNat_toLower h
    have hge : 65 ≤ c.toNat := h.1
    have hle : c.toNat ≤ 90 := h.2
    rw [isWhitespace_of_printable (by omega) (by omega),
      isWhitespace_of_printable (by omega) (by omega)]
  · rw [show c.toLower = c from dif_neg h]

/-- Trimming what the case of a letter has no bearing on. -/
lemma toAsciiLowercase_trimMatches {p : Char → Bool} (hp : ∀ c : Char, p c.toLower = p c)
    (s : String) : toAsciiLowercase (trimMatches p s) = trimMatches p (toAsciiLowercase s) := by
  have hcomp : p ∘ Char.toLower = p := funext hp
  rw [toAsciiLowercase, toAsciiLowercase, trimMatches, trimMatches, String.toList_ofList,
    String.toList_ofList, List.dropWhile_map, hcomp, List.rdropWhile, List.rdropWhile,
    ← List.map_reverse, List.dropWhile_map, hcomp, List.map_reverse]

/-! ### Splitting -/

/-- The parts of a text between the separators. -/
def split (sep : Char) (s : String) : List String :=
  (s.toList.splitOn sep).map String.ofList

/-- The parts of a text have no separators in them. -/
lemma notMem_of_mem_split {sep : Char} {s part : String} (h : part ∈ split sep s) :
    sep ∉ part.toList := by
  obtain ⟨cs, hcs, rfl⟩ := List.mem_map.mp h
  rw [String.toList_ofList]
  clear h
  generalize s.toList = text at hcs
  induction text generalizing cs with
  | nil =>
    rw [List.splitOn_nil, List.mem_singleton] at hcs
    rw [hcs]
    exact List.not_mem_nil
  | cons c rest ih =>
    rw [List.splitOn_cons_eq_if_modifyHead] at hcs
    split_ifs at hcs with hc
    · rcases List.mem_cons.mp hcs with rfl | hrest
      · exact List.not_mem_nil
      · exact ih cs hrest
    · cases hsplit : rest.splitOn sep with
      | nil => exact absurd hsplit (List.splitOn_ne_nil _ _)
      | cons head tail =>
        rw [hsplit, List.modifyHead_cons] at hcs
        rcases List.mem_cons.mp hcs with rfl | htail
        · rw [List.mem_cons, not_or]
          exact ⟨fun heq => hc (beq_iff_eq.mpr heq.symm), ih head (hsplit ▸ List.mem_cons_self)⟩
        · exact ih cs (hsplit ▸ List.mem_cons_of_mem _ htail)

/-- The text whose parts are given. -/
def join (sep : Char) (parts : List String) : String :=
  String.ofList ([sep].intercalate (parts.map String.toList))

lemma split_join {sep : Char} {parts : List String} (hne : parts ≠ [])
    (hparts : ∀ part ∈ parts, sep ∉ part.toList) : split sep (join sep parts) = parts := by
  rw [split, join, String.toList_ofList, List.splitOn_intercalate sep]
  · rw [List.map_map]
    exact (List.map_congr_left fun part _ => String.ofList_toList).trans (List.map_id _)
  · exact List.forall_mem_map.mpr hparts
  · exact fun h => hne (List.map_eq_nil_iff.mp h)

/-- A text joined from parts starts and ends with characters of the parts. -/
lemma ends_of_intercalate {sep : Char} {parts : List (List Char)}
    (hparts : ∀ part ∈ parts, part ≠ [] ∧ sep ∉ part) :
    (∀ c ∈ ([sep].intercalate parts).head?, c ≠ sep) ∧
      ∀ c ∈ ([sep].intercalate parts).getLast?, c ≠ sep := by
  induction parts with
  | nil => exact ⟨by simp, by simp⟩
  | cons part rest ih =>
    obtain ⟨⟨hne, hpart⟩, hrest⟩ := List.forall_mem_cons.mp hparts
    have hmem : ∀ c ∈ part, c ≠ sep := fun c hc heq => hpart (heq ▸ hc)
    cases rest with
    | nil =>
      rw [List.intercalate_singleton]
      exact ⟨fun c hc => hmem c (List.mem_of_mem_head? hc),
        fun c hc => hmem c (List.mem_of_mem_getLast? hc)⟩
    | cons part' rest =>
      have hne' : [sep].intercalate (part' :: rest) ≠ [] := by
        intro hnil
        have hsplit := List.splitOn_intercalate sep (fun l hl => (hrest l hl).2)
          (List.cons_ne_nil part' rest)
        rw [hnil, List.splitOn_nil] at hsplit
        cases hsplit
        exact (hrest [] List.mem_cons_self).1 rfl
      rw [List.intercalate_cons_cons]
      refine ⟨fun c hc => ?_, fun c hc => ?_⟩
      · rw [List.append_assoc, List.head?_append_of_ne_nil _ hne] at hc
        exact hmem c (List.mem_of_mem_head? hc)
      · rw [List.getLast?_append_of_ne_nil _ hne'] at hc
        exact (ih hrest).2 c hc

/-! ### Decimal numbers -/

/-- The number a string of decimal digits stands for. -/
def readNat (cs : List Char) : Option ℕ :=
  if cs ≠ [] ∧ cs.all Char.isDigit then some (Nat.ofDigitChars 10 cs 0) else none

def readInt : List Char → Option ℤ
  | '-' :: cs => (readNat cs).map fun n => -(n : ℤ)
  | cs        => (readNat cs).map fun n => (n : ℤ)

lemma readNat_toDigits (n : ℕ) : readNat (Nat.toDigits 10 n) = some n := by
  have hdigits : (Nat.toDigits 10 n).all Char.isDigit := List.all_eq_true.mpr fun c hc =>
    Nat.isDigit_of_mem_toDigits (by decide) (by decide) hc
  rw [readNat, if_pos ⟨Nat.toDigits_ne_nil, hdigits⟩, Nat.ofDigitChars_ten_toDigits]

lemma readInt_of_isDigit {c : Char} {cs : List Char} (hc : c.isDigit) :
    readInt (c :: cs) = (readNat (c :: cs)).map fun n => (n : ℤ) := by
  unfold readInt
  split
  · rename_i heq
    cases heq
    exact absurd hc (by decide)
  · rfl

lemma toList_toString_ofNat (n : ℕ) : (toString (n : ℤ)).toList = Nat.toDigits 10 n := by
  show (Int.repr (n : ℤ)).toList = _
  simp [Int.repr, Nat.toList_repr]

lemma toList_toString_negSucc (n : ℕ) :
    (toString (Int.negSucc n)).toList = '-' :: Nat.toDigits 10 (n + 1) := by
  show (Int.repr (Int.negSucc n)).toList = _
  simp [Int.repr, Nat.toList_repr]

/-- Numbers are read back. -/
lemma readInt_toString (i : ℤ) : readInt (toString i).toList = some i := by
  cases i with
  | ofNat n =>
    rw [Int.ofNat_eq_natCast, toList_toString_ofNat]
    cases hdigits : Nat.toDigits 10 n with
    | nil => exact absurd hdigits Nat.toDigits_ne_nil
    | cons c cs =>
      have hc : c.isDigit := Nat.isDigit_of_mem_toDigits (n := n) (b := 10) (by decide) (by decide)
        (hdigits ▸ List.mem_cons_self)
      rw [readInt_of_isDigit hc, ← hdigits, readNat_toDigits]
      rfl
  | negSucc n =>
    rw [toList_toString_negSucc, readInt, readNat_toDigits]
    rfl

lemma isDigit_or_minus {i : ℤ} {c : Char} (hc : c ∈ (toString i).toList) :
    c.isDigit = true ∨ c = '-' := by
  cases i with
  | ofNat n =>
    rw [Int.ofNat_eq_natCast, toList_toString_ofNat] at hc
    exact .inl (Nat.isDigit_of_mem_toDigits (by decide) (by decide) hc)
  | negSucc n =>
    rw [toList_toString_negSucc, List.mem_cons] at hc
    exact hc.symm.imp_left (Nat.isDigit_of_mem_toDigits (by decide) (by decide))

/-! ### Length in bytes -/

lemma utf8ByteSize_ofList (cs : List Char) :
    (String.ofList cs).utf8ByteSize = (cs.map Char.utf8Size).sum := by
  induction cs with
  | nil => rfl
  | cons c cs ih =>
    have hcons : String.ofList (c :: cs) = String.singleton c ++ String.ofList cs := by
      rw [String.singleton_eq_ofList, ← String.ofList_append]
      rfl
    rw [hcons, String.utf8ByteSize_append, String.utf8ByteSize_singleton, ih, List.map_cons,
      List.sum_cons]

lemma utf8ByteSize_eq (s : String) : s.utf8ByteSize = (s.toList.map Char.utf8Size).sum := by
  rw [← utf8ByteSize_ofList, String.ofList_toList]

/-- Escaping at most doubles a text. -/
lemma utf8ByteSize_escape_le (special : List Char) (s : String) :
    (escape special s).utf8ByteSize ≤ 2 * s.utf8ByteSize := by
  rw [escape, utf8ByteSize_ofList, utf8ByteSize_eq s]
  induction s.toList with
  | nil => exact le_rfl
  | cons d cs ih =>
    have hd : ((escapeChar special d).map Char.utf8Size).sum ≤ 2 * d.utf8Size := by
      have hpos : 0 < d.utf8Size := Char.utf8Size_pos d
      have hback : Char.utf8Size '\\' = 1 := rfl
      unfold escapeChar
      split_ifs
      · simp only [List.map_cons, List.map_nil, List.sum_cons, List.sum_nil, hback]
        omega
      · simp only [List.map_cons, List.map_nil, List.sum_cons, List.sum_nil]
        omega
    rw [List.flatMap_cons, List.map_append, List.sum_append, List.map_cons, List.sum_cons, mul_add]
    exact Nat.add_le_add hd ih

lemma utf8ByteSize_trimMatches_le (p : Char → Bool) (s : String) :
    (trimMatches p s).utf8ByteSize ≤ s.utf8ByteSize := by
  rw [trimMatches, utf8ByteSize_ofList, utf8ByteSize_eq s]
  have hsub : ((s.toList.dropWhile p).rdropWhile p).Sublist s.toList :=
    (List.rdropWhile_prefix p _).sublist.trans (List.dropWhile_suffix p).sublist
  exact (hsub.map Char.utf8Size).sum_le_sum fun _ _ => Nat.zero_le _

lemma utf8Size_of_isDigit {c : Char} (hc : c.isDigit) : c.utf8Size = 1 := by
  have hle : c.val ≤ 57 := by
    simp only [Char.isDigit, Bool.and_eq_true, decide_eq_true_eq] at hc
    exact hc.2
  have hascii : c.val ≤ 127 := UInt32.le_trans hle (by decide)
  unfold Char.utf8Size
  exact if_pos hascii

lemma utf8ByteSize_of_digits {cs : List Char} (h : ∀ c ∈ cs, c.isDigit = true) :
    (cs.map Char.utf8Size).sum = cs.length := by
  have hone : cs.map Char.utf8Size = cs.map fun _ => 1 :=
    List.map_congr_left fun c hc => utf8Size_of_isDigit (h c hc)
  simp [hone]

lemma utf8ByteSize_toDigits (n : ℕ) :
    ((Nat.toDigits 10 n).map Char.utf8Size).sum = (Nat.toDigits 10 n).length :=
  utf8ByteSize_of_digits fun _ hc => Nat.isDigit_of_mem_toDigits (by decide) (by decide) hc

/-- A number below `10 ^ k` has at most `k` digits. -/
lemma utf8ByteSize_toString_le {i : ℤ} {k : ℕ} (hk : 0 < k) (hi : i.natAbs < 10 ^ k) :
    (toString i).utf8ByteSize ≤ k + 1 := by
  have hdigits : (Nat.toDigits 10 i.natAbs).length ≤ k :=
    (Nat.length_toDigits_le_iff (by decide) hk).mpr hi
  rw [utf8ByteSize_eq]
  cases i with
  | ofNat n =>
    rw [Int.ofNat_eq_natCast, toList_toString_ofNat, utf8ByteSize_toDigits]
    exact hdigits.trans (Nat.le_succ k)
  | negSucc n =>
    have hminus : Char.utf8Size '-' = 1 := rfl
    rw [toList_toString_negSucc, List.map_cons, List.sum_cons, utf8ByteSize_toDigits, hminus,
      add_comm]
    exact Nat.succ_le_succ hdigits

end Text
