import Mathlib.Algebra.Order.BigOperators.Group.List
import Mathlib.Algebra.Order.Ring.Nat
import Mathlib.Data.List.Infix

/-!
# Scanning a string piece by piece

A scanner is a rule that cuts the next piece off the front of a string, or stops. `scan` applies it
until it stops and lists the pieces with their offsets; `stop` is the length of the part that was
cut up. The laws a scanner carries say that a piece depends on nothing behind it, so that the scan
of a longer string extends the scan of its prefix.
-/

/-- A rule that cuts a non-empty piece off the front of a string. Each piece is determined by its
own symbols. -/
structure Scanner (β α : Type*) where
  next : List β → Option (α × ℕ)
  next_pos : ∀ {b a n}, next b = some (a, n) → 0 < n
  next_le : ∀ {b a n}, next b = some (a, n) → n ≤ b.length
  next_append : ∀ {b a n}, next b = some (a, n) → ∀ c, next (b ++ c) = some (a, n)
  next_take : ∀ {b a n}, next b = some (a, n) → next (b.take n) = some (a, n)

namespace Scanner

/-- A piece of a scanned string: where it starts, how wide it is and what it stands for. -/
structure Piece (α : Type*) where
  offset : ℕ
  width : ℕ
  value : α
  deriving DecidableEq, Repr

variable {β α : Type*} (S : Scanner β α)

/-- The pieces found with at most `fuel` cuts, the first one at offset `off`. -/
def scanFuel : ℕ → ℕ → List β → List (Piece α)
  | 0, _, _          => []
  | fuel + 1, off, b =>
    match S.next b with
    | none        => []
    | some (a, n) => ⟨off, n, a⟩ :: scanFuel fuel (off + n) (b.drop n)

/-- The pieces of a string whose first symbol is at offset `off`. -/
def scan (off : ℕ) (b : List β) : List (Piece α) := S.scanFuel b.length off b

/-- The length of the part of the string that the scan cuts up. -/
def stop (b : List β) : ℕ := ((S.scan 0 b).map Piece.width).sum

/-- The offsets between the pieces, the first one and the stop included. -/
def boundaries (b : List β) : List ℕ := 0 :: (S.scan 0 b).map fun p => p.offset + p.width

/-- Everything up to the end of the string is pieces. -/
def Whole (b : List β) : Prop := S.stop b = b.length

/-- Induction along the cuts of a scan. -/
@[elab_as_elim]
theorem scan_induction {P : List β → Prop} (b : List β) (none : ∀ b, S.next b = none → P b)
    (some : ∀ b a n, S.next b = some (a, n) → P (b.drop n) → P b) : P b := by
  induction hn : b.length using Nat.strong_induction_on generalizing b with
  | _ len ih =>
    cases h : S.next b with
    | none => exact none b h
    | some p =>
      have hpos := S.next_pos h
      have hle := S.next_le h
      exact some b _ _ h (ih _ (by simp; omega) (b.drop p.2) rfl)

@[simp] lemma next_nil : S.next [] = none := by
  cases h : S.next [] with
  | none => rfl
  | some p =>
    have hpos := S.next_pos h
    have hle := S.next_le h
    simp only [List.length_nil] at hle
    omega

/-- Where a string has no piece, its prefixes have none. -/
lemma next_of_prefix_none {b c : List β} (hb : b <+: c) (h : S.next c = none) :
    S.next b = none := by
  obtain ⟨t, rfl⟩ := hb
  cases hnext : S.next b with
  | none => rfl
  | some p =>
    rw [S.next_append hnext t] at h
    cases h

/-- Fuel for one cut per symbol is enough. -/
lemma scanFuel_congr {f g : ℕ} {b : List β} (hf : b.length ≤ f) (hg : b.length ≤ g) (off : ℕ) :
    S.scanFuel f off b = S.scanFuel g off b := by
  induction f generalizing g b off with
  | zero =>
    obtain rfl : b = [] := List.eq_nil_of_length_eq_zero (by omega)
    cases g <;> simp [scanFuel]
  | succ f ih =>
    cases hb : S.next b with
    | none => cases g <;> simp [scanFuel, hb]
    | some p =>
      obtain ⟨a, n⟩ := p
      have hpos := S.next_pos hb
      have hle := S.next_le hb
      obtain ⟨g, rfl⟩ : ∃ g', g = g' + 1 := ⟨g - 1, by omega⟩
      simp only [scanFuel, hb, List.cons.injEq, true_and]
      exact ih (by simp; omega) (by simp; omega) _

lemma scan_of_none {b : List β} (h : S.next b = none) (off : ℕ) : S.scan off b = [] := by
  unfold scan
  cases b.length <;> simp [scanFuel, h]

lemma scan_of_some {b : List β} {a : α} {n : ℕ} (h : S.next b = some (a, n)) (off : ℕ) :
    S.scan off b = ⟨off, n, a⟩ :: S.scan (off + n) (b.drop n) := by
  rw [scan, S.scanFuel_congr le_rfl (Nat.le_succ _), scanFuel, h]
  simp only [List.cons.injEq, true_and]
  exact S.scanFuel_congr (by simp) le_rfl _

/-- The offset of the first symbol only shifts the offsets of the pieces. -/
lemma width_scan (off : ℕ) (b : List β) :
    (S.scan off b).map Piece.width = (S.scan 0 b).map Piece.width := by
  induction b using S.scan_induction generalizing off with
  | none b h => simp [S.scan_of_none h]
  | some b a n h ih =>
    rw [S.scan_of_some h, S.scan_of_some h, List.map_cons, List.map_cons, ih, ih (0 + n)]

lemma stop_of_none {b : List β} (h : S.next b = none) : S.stop b = 0 := by
  simp [stop, S.scan_of_none h]

lemma stop_of_some {b : List β} {a : α} {n : ℕ} (h : S.next b = some (a, n)) :
    S.stop b = n + S.stop (b.drop n) := by
  rw [stop, S.scan_of_some h, List.map_cons, List.sum_cons, S.width_scan, ← stop]

lemma stop_le (b : List β) : S.stop b ≤ b.length := by
  induction b using S.scan_induction with
  | none b h => simp [S.stop_of_none h]
  | some b a n h ih =>
    have hle := S.next_le h
    rw [S.stop_of_some h]
    simp only [List.length_drop] at ih
    omega

/-- Where the scan stops there is no further piece. -/
lemma next_drop_stop (b : List β) : S.next (b.drop (S.stop b)) = none := by
  induction b using S.scan_induction with
  | none b h => rwa [S.stop_of_none h, List.drop_zero]
  | some b a n h ih => rwa [S.stop_of_some h, ← List.drop_drop]

/-- A longer string is scanned like its prefix first, and on from where that scan stopped. -/
lemma scan_append (off : ℕ) (b c : List β) :
    S.scan off (b ++ c) = S.scan off b ++ S.scan (off + S.stop b) (b.drop (S.stop b) ++ c) := by
  induction b using S.scan_induction generalizing off with
  | none b h => simp [S.scan_of_none h, S.stop_of_none h]
  | some b a n h ih =>
    have hle := S.next_le h
    rw [S.scan_of_some h, S.stop_of_some h, S.scan_of_some (S.next_append h c),
      List.drop_append_of_le_length hle, ih, ← List.drop_drop, List.cons_append, Nat.add_assoc]

lemma stop_append (b c : List β) :
    S.stop (b ++ c) = S.stop b + S.stop (b.drop (S.stop b) ++ c) := by
  rw [stop, scan_append, List.map_append, List.sum_append, S.width_scan (0 + _), ← stop, ← stop]

/-- Cutting a string where its scan stops changes nothing about the scan. -/
lemma scan_take_stop (off : ℕ) (b : List β) : S.scan off (b.take (S.stop b)) = S.scan off b := by
  induction b using S.scan_induction generalizing off with
  | none b h =>
    simp [S.stop_of_none h, S.scan_of_none h, S.scan_of_none S.next_nil]
  | some b a n h ih =>
    have hle := S.next_le h
    have hcut : S.next (b.take (S.stop b)) = some (a, n) := by
      have := S.next_append (S.next_take h) ((b.drop n).take (S.stop (b.drop n)))
      rwa [← List.take_add, ← S.stop_of_some h] at this
    rw [S.scan_of_some h, S.scan_of_some hcut, S.stop_of_some h, List.drop_take,
      Nat.add_sub_cancel_left, ih]

lemma stop_take_stop (b : List β) : S.stop (b.take (S.stop b)) = S.stop b := by
  rw [stop, S.scan_take_stop, ← stop]

/-- Once truncated to where its scan stops, a string is pieces throughout. -/
lemma whole_take_stop (b : List β) : S.Whole (b.take (S.stop b)) := by
  rw [Whole, S.stop_take_stop, List.length_take, Nat.min_eq_left (S.stop_le b)]

@[simp] lemma scan_nil (off : ℕ) : S.scan off [] = [] := S.scan_of_none S.next_nil off

@[simp] lemma stop_nil : S.stop [] = 0 := S.stop_of_none S.next_nil

@[simp] lemma whole_nil : S.Whole [] := S.stop_nil

variable {S}

/-- Behind a whole string the scan starts afresh. -/
lemma Whole.scan_append {b : List β} (h : S.Whole b) (off : ℕ) (c : List β) :
    S.scan off (b ++ c) = S.scan off b ++ S.scan (off + b.length) c := by
  rw [Scanner.scan_append, h, List.drop_length, List.nil_append]

lemma Whole.append {b c : List β} (hb : S.Whole b) (hc : S.Whole c) : S.Whole (b ++ c) := by
  rw [Whole, S.stop_append, hb, List.drop_length, List.nil_append, hc, List.length_append]

lemma Whole.eq_nil_of_scan {b : List β} {off : ℕ} (h : S.Whole b) (hs : S.scan off b = []) :
    b = [] := by
  have hw := S.width_scan off b
  rw [hs, List.map_nil] at hw
  rw [Whole, stop, ← hw, List.sum_nil] at h
  exact List.eq_nil_of_length_eq_zero h.symm

lemma Whole.drop {b : List β} (h : S.Whole b) {a : α} {n : ℕ} (hn : S.next b = some (a, n)) :
    S.Whole (b.drop n) := by
  have hle := S.next_le hn
  have hs := S.stop_of_some hn
  rw [Whole] at h ⊢
  rw [List.length_drop]
  omega

/-- A string that is exactly one piece. -/
lemma whole_of_next {b : List β} {a : α} (h : S.next b = some (a, b.length)) : S.Whole b := by
  simp [Whole, S.stop_of_some h]

/-! ### Boundaries -/

variable (S)

lemma le_offset_of_mem_scan {b : List β} {off : ℕ} {p : Piece α} (h : p ∈ S.scan off b) :
    off ≤ p.offset := by
  induction b using S.scan_induction generalizing off with
  | none b hb => simp [S.scan_of_none hb] at h
  | some b a n hb ih =>
    rw [S.scan_of_some hb] at h
    rcases List.mem_cons.mp h with rfl | h
    · exact le_rfl
    · exact (Nat.le_add_right off n).trans (ih h)

/-- The pieces of a string whose first symbol is at offset `off` end where it is pieces up to. -/
lemma mem_ends_scan {b : List β} {off k : ℕ} :
    (k ∈ (S.scan off b).map fun p => p.offset + p.width) ↔
      ∃ n, 0 < n ∧ k = off + n ∧ n ≤ b.length ∧ S.Whole (b.take n) := by
  induction b using S.scan_induction generalizing off with
  | none b hb =>
    rw [S.scan_of_none hb, List.map_nil]
    constructor
    · intro h
      exact absurd h List.not_mem_nil
    · rintro ⟨n, hpos, -, hn, hwhole⟩
      -- a whole prefix would be a first piece
      have hnone : S.next (b.take n) = none := S.next_of_prefix_none (List.take_prefix n b) hb
      have hnil := hwhole.eq_nil_of_scan (S.scan_of_none hnone 0)
      have hlen := congrArg List.length hnil
      rw [List.length_take, Nat.min_eq_left hn, List.length_nil] at hlen
      omega
  | some b a n hb ih =>
    have hpos := S.next_pos hb
    have hle := S.next_le hb
    have hlen : (b.take n).length = n := by rw [List.length_take, Nat.min_eq_left hle]
    have hfirst : S.Whole (b.take n) := by
      have hnext : S.next (b.take n) = some (a, (b.take n).length) := by
        rw [hlen]
        exact S.next_take hb
      exact whole_of_next hnext
    rw [S.scan_of_some hb, List.map_cons, List.mem_cons, ih]
    constructor
    · rintro (rfl | ⟨m, hm, rfl, hle', hwhole⟩)
      · exact ⟨n, hpos, rfl, hle, hfirst⟩
      · rw [List.length_drop] at hle'
        refine ⟨n + m, by omega, by omega, by omega, ?_⟩
        rw [List.take_add]
        exact hfirst.append hwhole
    · rintro ⟨m, hm, rfl, hle', hwhole⟩
      rcases Nat.lt_or_ge n m with hlt | hge
      · right
        obtain ⟨j, rfl⟩ := Nat.exists_eq_add_of_lt hlt
        refine ⟨j + 1, by omega, by omega, by rw [List.length_drop]; omega, ?_⟩
        rw [Nat.add_assoc, List.take_add] at hwhole
        have hnext := S.next_append (S.next_take hb) ((b.drop n).take (j + 1))
        have := hwhole.drop hnext
        rwa [List.drop_left' hlen] at this
      · -- no piece ends inside the first one
        left
        have hfirst' : S.next (b.take m) = some (a, n) := by
          cases hnext : S.next (b.take m) with
          | none =>
            have hnil := hwhole.eq_nil_of_scan (S.scan_of_none hnext 0)
            have := congrArg List.length hnil
            rw [List.length_take, Nat.min_eq_left hle', List.length_nil] at this
            omega
          | some q =>
            have := S.next_append hnext (b.drop m)
            rwa [List.take_append_drop, hb, eq_comm] at this
        have := S.next_le hfirst'
        rw [List.length_take, Nat.min_eq_left hle'] at this
        show off + m = off + n
        omega

/-- The boundaries are where a string is pieces up to. -/
lemma mem_boundaries {b : List β} {k : ℕ} :
    k ∈ S.boundaries b ↔ k ≤ b.length ∧ S.Whole (b.take k) := by
  rw [boundaries, List.mem_cons, mem_ends_scan]
  constructor
  · rintro (rfl | ⟨n, -, rfl, hn, hwhole⟩)
    · exact ⟨Nat.zero_le _, by simp⟩
    · rw [Nat.zero_add]
      exact ⟨hn, hwhole⟩
  · rintro ⟨hk, hwhole⟩
    rcases Nat.eq_zero_or_pos k with rfl | hpos
    · exact .inl rfl
    · exact .inr ⟨k, hpos, (Nat.zero_add k).symm, hk, hwhole⟩

/-- A string that ends at a boundary of a longer one is pieces to its end. -/
lemma whole_of_length_mem {b c : List β} (h : b.length ∈ S.boundaries (b ++ c)) : S.Whole b := by
  have hwhole := (S.mem_boundaries.mp h).2
  rwa [List.take_left] at hwhole

lemma boundaries_append {b : List β} {k : ℕ} (h : k ∈ S.boundaries b) (c : List β) :
    k ∈ S.boundaries (b ++ c) := by
  rw [mem_boundaries] at h ⊢
  rw [List.length_append, List.take_append_of_le_length h.1]
  exact ⟨h.1.trans (Nat.le_add_right _ _), h.2⟩

/-- Behind a piece cut at a boundary is a boundary. -/
lemma add_mem_boundaries {b : List β} {k n : ℕ} {a : α} (h : k ∈ S.boundaries b)
    (hnext : S.next (b.drop k) = some (a, n)) : k + n ∈ S.boundaries b := by
  rw [mem_boundaries] at h ⊢
  have hle := S.next_le hnext
  have hlen : ((b.drop k).take n).length = n := by rw [List.length_take, Nat.min_eq_left hle]
  have hpiece : S.next ((b.drop k).take n) = some (a, ((b.drop k).take n).length) := by
    rw [hlen]
    exact S.next_take hnext
  rw [List.length_drop] at hle
  refine ⟨by omega, ?_⟩
  rw [List.take_add]
  exact h.2.append (whole_of_next hpiece)

/-- The scan from a boundary stops where the scan from the front does. -/
lemma stop_of_mem_boundaries {b : List β} {k : ℕ} (h : k ∈ S.boundaries b) :
    S.stop b = k + S.stop (b.drop k) := by
  obtain ⟨hk, hwhole⟩ := S.mem_boundaries.mp h
  have := S.stop_append (b.take k) (b.drop k)
  rwa [List.take_append_drop, hwhole, List.drop_length, List.nil_append, List.length_take,
    Nat.min_eq_left hk] at this

/-- Cutting a string where its scan stops, seen from a boundary. -/
lemma drop_take_stop {b : List β} {k : ℕ} (h : k ∈ S.boundaries b) :
    (b.take (S.stop b)).drop k = (b.drop k).take (S.stop (b.drop k)) := by
  rw [S.stop_of_mem_boundaries h, List.drop_take, Nat.add_sub_cancel_left]

/-- The cut leaves the boundaries where they are. -/
@[simp] lemma boundaries_take_stop (b : List β) :
    S.boundaries (b.take (S.stop b)) = S.boundaries b := by
  rw [boundaries, S.scan_take_stop, ← boundaries]

end Scanner
