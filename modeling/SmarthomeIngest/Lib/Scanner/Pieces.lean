import SmarthomeIngest.Lib.Scanner

/-!
# The pieces of a scan

The pieces lie in order, none reaches past the end of the string, and a piece is found in a prefix of
the string as soon as the prefix holds all of it.
-/

namespace Scanner

variable {β α : Type*} (S : Scanner β α) {b c : List β} {off k : ℕ} {p : Piece α}

lemma width_pos_of_mem_scan (h : p ∈ S.scan off b) : 0 < p.width := by
  induction b using S.scan_induction generalizing off with
  | none b hb => simp [S.scan_of_none hb] at h
  | some b a n hb ih =>
    rw [S.scan_of_some hb] at h
    rcases List.mem_cons.mp h with rfl | h
    · exact S.next_pos hb
    · exact ih h

lemma end_le_of_mem_scan (h : p ∈ S.scan off b) : p.offset + p.width ≤ off + b.length := by
  have hend := S.mem_ends_scan.mp (List.mem_map_of_mem (f := fun p => p.offset + p.width) h)
  obtain ⟨n, -, heq, hle, -⟩ := hend
  omega

lemma pairwise_scan (off : ℕ) (b : List β) :
    (S.scan off b).Pairwise fun p q => p.offset < q.offset := by
  induction b using S.scan_induction generalizing off with
  | none b hb =>
    rw [S.scan_of_none hb]
    exact .nil
  | some b a n hb ih =>
    rw [S.scan_of_some hb]
    refine List.pairwise_cons.mpr ⟨fun q hq => ?_, ih _⟩
    exact (Nat.lt_add_of_pos_right (S.next_pos hb)).trans_le (S.le_offset_of_mem_scan hq)

/-- Where the scan of the prefix stops, no piece of the longer string ends inside the prefix. -/
lemma mem_scan_append : p ∈ S.scan off b ↔
    p ∈ S.scan off (b ++ c) ∧ p.offset + p.width ≤ off + b.length := by
  constructor
  · intro h
    refine ⟨?_, S.end_le_of_mem_scan h⟩
    rw [S.scan_append]
    exact List.mem_append_left _ h
  · rintro ⟨h, hend⟩
    rw [S.scan_append] at h
    refine (List.mem_append.mp h).resolve_right fun h => ?_
    have hstop := S.stop_le b
    cases hnext : S.next (b.drop (S.stop b) ++ c) with
    | none =>
      rw [S.scan_of_none hnext] at h
      cases h
    | some q =>
      obtain ⟨a, n⟩ := q
      have hlong : b.length - S.stop b < n := by
        by_contra hshort
        have htake := S.next_take hnext
        rw [List.take_append_of_le_length (by simp; omega)] at htake
        have hprefix := S.next_append htake ((b.drop (S.stop b)).drop n)
        rw [List.take_append_drop, S.next_drop_stop] at hprefix
        cases hprefix
      rw [S.scan_of_some hnext, List.mem_cons] at h
      rcases h with rfl | h
      · simp only at hend
        omega
      · have := S.le_offset_of_mem_scan h
        omega

lemma mem_scan_of_isPrefix (hbc : b <+: c) : p ∈ S.scan off b ↔
    p ∈ S.scan off c ∧ p.offset + p.width ≤ off + b.length := by
  obtain ⟨t, rfl⟩ := hbc
  exact S.mem_scan_append

/-- The pieces behind a boundary are those of the rest of the string. -/
lemma mem_scan_drop (hk : k ∈ S.boundaries b) :
    p ∈ S.scan (off + k) (b.drop k) ↔ p ∈ S.scan off b ∧ off + k ≤ p.offset := by
  obtain ⟨hle, hwhole⟩ := S.mem_boundaries.mp hk
  have hscan := hwhole.scan_append off (b.drop k)
  have hlen : (b.take k).length = k := by rw [List.length_take, Nat.min_eq_left hle]
  rw [List.take_append_drop, hlen] at hscan
  rw [hscan, List.mem_append]
  constructor
  · exact fun h => ⟨.inr h, S.le_offset_of_mem_scan h⟩
  · rintro ⟨h | h, hoff⟩
    · have hend := S.end_le_of_mem_scan h
      have hpos := S.width_pos_of_mem_scan h
      omega
    · exact h

end Scanner
