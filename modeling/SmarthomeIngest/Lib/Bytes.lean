import Mathlib.Data.List.Basic
import Mathlib.Tactic.Ring
import Mathlib.Algebra.Order.Ring.Nat

/-!
# Byte strings

Fixed-width integers as byte strings, least significant byte first (`le`) or last (`be`), and texts
as byte strings.
-/

/-- A string of bytes. -/
abbrev Bytes := List UInt8

namespace Bytes

/-- The `width` low bytes of `n`, least significant first. -/
def ofNatLe : ℕ → ℕ → Bytes
  | 0, _         => []
  | width + 1, n => UInt8.ofNat (n % 256) :: ofNatLe width (n / 256)

/-- The number a byte string stands for, least significant byte first. -/
def toNatLe : Bytes → ℕ
  | []      => 0
  | b :: bs => b.toNat + 256 * toNatLe bs

/-- The `width` low bytes of `n`, most significant first. -/
def ofNatBe (width n : ℕ) : Bytes := (ofNatLe width n).reverse

/-- The number a byte string stands for, most significant byte first. -/
def toNatBe (b : Bytes) : ℕ := toNatLe b.reverse

@[simp] lemma length_ofNatLe (width n : ℕ) : (ofNatLe width n).length = width := by
  induction width generalizing n with
  | zero => rfl
  | succ width ih => simp [ofNatLe, ih]

@[simp] lemma length_ofNatBe (width n : ℕ) : (ofNatBe width n).length = width := by
  simp [ofNatBe]

lemma toNatLe_ofNatLe {width n : ℕ} (h : n < 256 ^ width) : toNatLe (ofNatLe width n) = n := by
  induction width generalizing n with
  | zero => simp at h; simp [ofNatLe, toNatLe, h]
  | succ width ih =>
    have hdiv : n / 256 < 256 ^ width := by
      rw [pow_succ'] at h
      exact Nat.div_lt_of_lt_mul h
    have hbyte : (UInt8.ofNat (n % 256)).toNat = n % 256 := by
      simp
    simp only [ofNatLe, toNatLe, ih hdiv, hbyte]
    omega

lemma ofNatLe_toNatLe (b : Bytes) : ofNatLe b.length (toNatLe b) = b := by
  induction b with
  | nil => rfl
  | cons x b ih =>
    have hlt := x.toNat_lt
    have hmod : (x.toNat + 256 * toNatLe b) % 256 = x.toNat := by omega
    have hdiv : (x.toNat + 256 * toNatLe b) / 256 = toNatLe b := by omega
    rw [List.length_cons, toNatLe, ofNatLe, hmod, hdiv, ih, UInt8.ofNat_toNat]

lemma toNatBe_ofNatBe {width n : ℕ} (h : n < 256 ^ width) : toNatBe (ofNatBe width n) = n := by
  simp [toNatBe, ofNatBe, toNatLe_ofNatLe h]

/-! ### Texts -/

/-- The UTF-8 bytes of a string. -/
def utf8 (s : String) : Bytes := s.toByteArray.data.toList

/-- The string with these bytes, if they are UTF-8. -/
def ofUtf8 (b : Bytes) : Option String := String.fromUTF8? ⟨b.toArray⟩

lemma length_utf8 (s : String) : (utf8 s).length = s.utf8ByteSize := by
  simp only [utf8, String.utf8ByteSize, ByteArray.size, Array.length_toList]

lemma ofUtf8_utf8 (s : String) : ofUtf8 (utf8 s) = some s := by
  have harr : (⟨(utf8 s).toArray⟩ : ByteArray) = s.toByteArray := by simp [utf8]
  rw [ofUtf8, harr, String.fromUTF8?, dif_pos s.isValidUTF8]
  rfl

lemma utf8_of_ofUtf8 {b : Bytes} {s : String} (h : ofUtf8 b = some s) : utf8 s = b := by
  unfold ofUtf8 String.fromUTF8? at h
  split_ifs at h
  cases h
  simp [utf8, String.fromUTF8]

lemma utf8ByteSize_of_ofUtf8 {b : Bytes} {s : String} (h : ofUtf8 b = some s) :
    s.utf8ByteSize = b.length := by
  unfold ofUtf8 String.fromUTF8? at h
  split_ifs at h
  cases h
  exact b.size_toArray

end Bytes
