import Mathlib.Algebra.Group.Nat.Even
import SmarthomeIngest.Lib.Text

/-!
# Escaped texts

A text in which some characters are escaped by a backslash, the backslash among them. The text can
be read back, and a separator in it stands behind an odd number of backslashes.
-/

namespace Text

/-- One level of backslashes is taken away: a character behind a backslash stands for itself. -/
def unescapeChars : List Char → List Char
  | []              => []
  | '\\' :: d :: cs => d :: unescapeChars cs
  | c :: cs         => c :: unescapeChars cs

def unescape (s : String) : String := String.ofList (unescapeChars s.toList)

/-- The number of backslashes at the end. -/
def backslashRun (cs : List Char) : ℕ := (cs.rtakeWhile (· = '\\')).length

/-- Every separator in the text stands behind an odd number of backslashes. -/
def Guarded (separators : List Char) (s : String) : Prop :=
  ∀ before c after, s.toList = before ++ c :: after → c ∈ separators → Odd (backslashRun before)

/-! ### Reading back -/

lemma unescapeChars_cons {c : Char} (hc : c ≠ '\\') (cs : List Char) :
    unescapeChars (c :: cs) = c :: unescapeChars cs := by
  conv_lhs => unfold unescapeChars
  split <;> simp_all

lemma ne_backslash {special : List Char} (hback : '\\' ∈ special) {d : Char} (hd : d ∉ special) :
    d ≠ '\\' := by
  rintro rfl
  exact hd hback

lemma unescapeChars_escapeChar {special : List Char} (hback : '\\' ∈ special) (d : Char)
    (cs : List Char) :
    unescapeChars (escapeChar special d ++ cs) = d :: unescapeChars cs := by
  unfold escapeChar
  split_ifs with hd
  · rfl
  · exact unescapeChars_cons (ne_backslash hback hd) cs

theorem unescape_escape {special : List Char} (hback : '\\' ∈ special) (s : String) :
    unescape (escape special s) = s := by
  have hchars : ∀ cs : List Char, unescapeChars (cs.flatMap (escapeChar special)) = cs := by
    intro cs
    induction cs with
    | nil => rfl
    | cons d cs ih => rw [List.flatMap_cons, unescapeChars_escapeChar hback, ih]
  rw [unescape, toList_escape, hchars, String.ofList_toList]

theorem escape_injective {special : List Char} (hback : '\\' ∈ special) :
    Function.Injective (escape special) :=
  Function.LeftInverse.injective (unescape_escape hback)

/-! ### Separators -/

lemma backslashRun_append_backslash (cs : List Char) :
    backslashRun (cs ++ ['\\']) = backslashRun cs + 1 := by
  rw [backslashRun, List.rtakeWhile_concat_pos _ _ _ (by simp), List.length_append]
  rfl

lemma backslashRun_append_of_ne {d : Char} (hd : d ≠ '\\') (cs : List Char) :
    backslashRun (cs ++ [d]) = 0 := by
  rw [backslashRun, List.rtakeWhile_concat_neg _ _ _ (by simpa using hd)]
  rfl

/-- An escaped character leaves an even number of backslashes behind. -/
lemma even_backslashRun_append {special : List Char} (hback : '\\' ∈ special)
    {written : List Char} (heven : Even (backslashRun written)) (d : Char) :
    Even (backslashRun (written ++ escapeChar special d)) := by
  unfold escapeChar
  split_ifs with hd
  · rw [List.append_cons]
    by_cases hdb : d = '\\'
    · rw [hdb, backslashRun_append_backslash, backslashRun_append_backslash]
      exact heven.add_one.add_one
    · rw [backslashRun_append_of_ne hdb]
      exact Even.zero
  · rw [backslashRun_append_of_ne (ne_backslash hback hd)]
    exact Even.zero

/-- The induction is on the characters that are still to be escaped: what has been written before
them ends in an even number of backslashes. -/
lemma odd_backslashRun {special : List Char} (hback : '\\' ∈ special) {cs written : List Char}
    (heven : Even (backslashRun written)) {before after : List Char} {c : Char}
    (h : cs.flatMap (escapeChar special) = before ++ c :: after) (hspecial : c ∈ special)
    (hc : c ≠ '\\') : Odd (backslashRun (written ++ before)) := by
  induction cs generalizing written before with
  | nil => simp at h
  | cons d cs ih =>
    have hrest := fun before => @ih _ (even_backslashRun_append hback heven d) before
    rw [List.flatMap_cons] at h
    unfold escapeChar at h hrest
    split_ifs at h hrest with hd
    · rcases before with - | ⟨b, - | ⟨b', before⟩⟩
      · exact absurd (List.cons.inj h).1.symm hc
      · rw [← (List.cons.inj h).1, backslashRun_append_backslash]
        exact heven.add_one
      · obtain ⟨hb, h⟩ := List.cons.inj h
        obtain ⟨hb', h⟩ := List.cons.inj h
        rw [← hb, ← hb', List.append_cons, List.append_cons, ← List.append_cons written]
        exact hrest before h
    · rcases before with - | ⟨b, before⟩
      · exact absurd ((List.cons.inj h).1 ▸ hspecial) hd
      · obtain ⟨hb, h⟩ := List.cons.inj h
        rw [← hb, List.append_cons]
        exact hrest before h

theorem guarded_escape {special separators : List Char} (hback : '\\' ∈ special)
    (hsep : ∀ c ∈ separators, c ∈ special ∧ c ≠ '\\') (s : String) :
    Guarded separators (escape special s) := by
  intro before c after h hc
  rw [toList_escape] at h
  obtain ⟨hspecial, hne⟩ := hsep c hc
  exact @odd_backslashRun special hback s.toList [] Even.zero before after c h hspecial hne

end Text
