import SmarthomeIngest.Lib.Text

/-!
# Decimal numbers of fixed width

A number in decimal with leading zeros up to a width, and the strings of digits of that width: each
is the one or the other.
-/

namespace Text

/-- The digits of `n`, with zeros in front up to the width. -/
def zeroPad (width n : ℕ) : List Char := (Nat.toDigits 10 n).leftpad width '0'

/-- The characters are decimal digits. -/
def AllDigits (cs : List Char) : Prop := ∀ c ∈ cs, c.isDigit = true

lemma readNat_eq_some {cs : List Char} {n : ℕ} :
    readNat cs = some n ↔ cs ≠ [] ∧ AllDigits cs ∧ Nat.ofDigitChars 10 cs 0 = n := by
  unfold readNat AllDigits
  rw [← List.all_eq_true]
  split_ifs with h
  · rw [Option.some_inj]
    exact ⟨fun heq => ⟨h.1, h.2, heq⟩, fun h => h.2.2⟩
  · exact ⟨nofun, fun hcs => absurd ⟨hcs.1, hcs.2.1⟩ h⟩

lemma allDigits_zeroPad (width n : ℕ) : AllDigits (zeroPad width n) := by
  intro c hc
  rcases List.mem_append.mp hc with hzero | hdigit
  · rw [List.eq_of_mem_replicate hzero]
    rfl
  · exact Nat.isDigit_of_mem_toDigits (by decide) (by decide) hdigit

lemma ofDigitChars_zeroPad (width n : ℕ) : Nat.ofDigitChars 10 (zeroPad width n) 0 = n := by
  rw [zeroPad, List.leftpad, Nat.ofDigitChars_append, Nat.ofDigitChars_replicate_zero, mul_zero,
    Nat.ofDigitChars_ten_toDigits]

lemma length_zeroPad {width n : ℕ} (hwidth : 0 < width) (hn : n < 10 ^ width) :
    (zeroPad width n).length = width := by
  rw [zeroPad, List.length_leftpad]
  exact max_eq_left ((Nat.length_toDigits_le_iff (by decide) hwidth).mpr hn)

lemma readNat_zeroPad {width n : ℕ} : readNat (zeroPad width n) = some n := by
  refine readNat_eq_some.mpr ⟨?_, allDigits_zeroPad width n, ofDigitChars_zeroPad width n⟩
  exact List.append_ne_nil_of_right_ne_nil _ Nat.toDigits_ne_nil

/-! ### Strings of digits -/

lemma digit_lt {c : Char} (hc : c.isDigit = true) : c.toNat - '0'.toNat < 10 := by
  simp only [Char.isDigit, Bool.and_eq_true, decide_eq_true_eq] at hc
  have hle : c.toNat ≤ 57 := hc.2
  have hzero : '0'.toNat = 48 := rfl
  omega

lemma digit_inj {c d : Char} (hc : c.isDigit = true) (hd : d.isDigit = true)
    (h : c.toNat - '0'.toNat = d.toNat - '0'.toNat) : c = d := by
  simp only [Char.isDigit, Bool.and_eq_true, decide_eq_true_eq] at hc hd
  have hcle : 48 ≤ c.toNat := hc.1
  have hdle : 48 ≤ d.toNat := hd.1
  have hzero : '0'.toNat = 48 := rfl
  exact Char.toNat_inj.mp (by omega)

/-- The first digit has the weight of the length of the others. -/
lemma ofDigitChars_cons_zero (c : Char) (cs : List Char) :
    Nat.ofDigitChars 10 (c :: cs) 0 =
      10 ^ cs.length * (c.toNat - '0'.toNat) + Nat.ofDigitChars 10 cs 0 := by
  rw [Nat.ofDigitChars_cons, Nat.ofDigitChars_eq_ofDigitChars_zero, mul_zero, zero_add]

lemma ofDigitChars_lt {cs : List Char} (h : AllDigits cs) :
    Nat.ofDigitChars 10 cs 0 < 10 ^ cs.length := by
  induction cs with
  | nil => exact Nat.one_pos
  | cons c cs ih =>
    obtain ⟨hc, hcs⟩ := List.forall_mem_cons.mp h
    rw [ofDigitChars_cons_zero, List.length_cons]
    calc 10 ^ cs.length * (c.toNat - '0'.toNat) + Nat.ofDigitChars 10 cs 0
        < 10 ^ cs.length * (c.toNat - '0'.toNat) + 10 ^ cs.length :=
          Nat.add_lt_add_left (ih hcs) _
      _ = 10 ^ cs.length * (c.toNat - '0'.toNat + 1) := (Nat.mul_succ _ _).symm
      _ ≤ 10 ^ cs.length * 10 := Nat.mul_le_mul_left _ (digit_lt hc)
      _ = 10 ^ (cs.length + 1) := (pow_succ _ _).symm

/-- Strings of digits of one length stand for different numbers. -/
lemma ofDigitChars_inj {cs ds : List Char} (hcs : AllDigits cs) (hds : AllDigits ds)
    (hlen : cs.length = ds.length)
    (h : Nat.ofDigitChars 10 cs 0 = Nat.ofDigitChars 10 ds 0) : cs = ds := by
  induction cs generalizing ds with
  | nil => exact (List.length_eq_zero_iff.mp hlen.symm).symm
  | cons c cs ih =>
    cases ds with
    | nil => cases hlen
    | cons d ds =>
      obtain ⟨hc, hcs⟩ := List.forall_mem_cons.mp hcs
      obtain ⟨hd, hds⟩ := List.forall_mem_cons.mp hds
      have hlen : cs.length = ds.length := Nat.succ.inj hlen
      have hlt := ofDigitChars_lt hcs
      have hlt' := ofDigitChars_lt hds
      rw [ofDigitChars_cons_zero, ofDigitChars_cons_zero, hlen] at h
      rw [hlen] at hlt
      -- quotient and remainder of the number by the weight of the first digit
      have hdigit : c.toNat - '0'.toNat = d.toNat - '0'.toNat := by
        have hdiv := congrArg (· / 10 ^ ds.length) h
        simpa [Nat.mul_add_div, Nat.div_eq_of_lt hlt, Nat.div_eq_of_lt hlt'] using hdiv
      rw [hdigit] at h
      rw [digit_inj hc hd hdigit, ih hcs hds hlen (Nat.add_left_cancel h)]

/-- A string of digits is the number it stands for, with zeros up to its length. -/
theorem zeroPad_of_readNat {cs : List Char} {n : ℕ} (h : readNat cs = some n) :
    zeroPad cs.length n = cs := by
  obtain ⟨hne, hdigits, rfl⟩ := readNat_eq_some.mp h
  refine ofDigitChars_inj (allDigits_zeroPad _ _) hdigits ?_ (ofDigitChars_zeroPad _ _)
  exact length_zeroPad (List.length_pos_iff.mpr hne) (ofDigitChars_lt hdigits)

end Text
