import SmarthomeIngest.Wal.Codec

/-!
# Recovery scan

The two decoders agree with the scanner `frames`, and `lastValidOffset` is where its scan stops.
-/

namespace SmarthomeIngest

/-! ### The decoders on a file without read errors -/

section Decoders

variable (bc : Bincode)

lemma decodeInto_of_complete {b body : Bytes} (h : Frame.cut b = .complete body) (p : Bytes) :
    decodeInto bc ⟨b, none⟩ p =
      (match bc.deserialize body with
        | .error e  => .error e
        | .ok event => .ok (some (event, 4 + body.length)),
        ⟨b.drop (4 + body.length), none⟩, body) := by
  obtain ⟨hmax, hlen, hfour, hpre⟩ := Frame.cut_eq_complete.mp h
  have htake : (b.drop 4).take body.length = body := (List.prefix_iff_eq_take.mp hpre).symm
  have hle : body.length ≤ (b.drop 4).length := hpre.length_le
  simp only [decodeInto, ByteSource.readExact_ok (r := ⟨b, none⟩) hfour, ← hlen,
    ensureLenWithinLimit, if_neg (not_lt.mpr hmax),
    ByteSource.readExact_ok (r := ⟨b.drop 4, none⟩) hle, htake, List.drop_drop]
  cases bc.deserialize body <;> rfl

lemma decodeForRecovery_of_complete {b body : Bytes} (h : Frame.cut b = .complete body)
    (p : Bytes) :
    decodeForRecovery bc ⟨b, none⟩ p =
      (.ok (match bc.deserialize body with
        | .ok event => .validRecord event (4 + body.length)
        | .error _  => .frameCorrupt (4 + body.length)),
        ⟨b.drop (4 + body.length), none⟩, body) := by
  obtain ⟨hmax, hlen, hfour, hpre⟩ := Frame.cut_eq_complete.mp h
  have htake : (b.drop 4).take body.length = body := (List.prefix_iff_eq_take.mp hpre).symm
  have hle : body.length ≤ (b.drop 4).length := hpre.length_le
  simp only [decodeForRecovery, ByteSource.readExact_ok (r := ⟨b, none⟩) hfour, ← hlen,
    ensureLenWithinLimit, if_neg (not_lt.mpr hmax),
    ByteSource.readExact_ok (r := ⟨b.drop 4, none⟩) hle, htake, List.drop_drop]
  cases bc.deserialize body <;> rfl

/-- A short string is an end of file to both decoders, and both swallow it whole. -/
lemma decodeInto_of_short {b : Bytes} (h : Frame.cut b = .short) (p : Bytes) :
    ∃ p', decodeInto bc ⟨b, none⟩ p = (.ok none, ⟨[], none⟩, p') := by
  by_cases hfour : b.length < 4
  · exact ⟨p, by simp only [decodeInto, ByteSource.readExact_eof hfour]⟩
  · have hlim : ¬ maxWalRecordPayloadBytes < Bytes.toNatLe (b.take 4) := by
      intro hlt
      simp [Frame.cut, hfour, hlt] at h
    have hshort : (b.drop 4).length < Bytes.toNatLe (b.take 4) := by
      by_contra hle
      simp only [List.length_drop] at hle
      simp only [Frame.cut, hfour, hlim, if_false] at h
      rw [if_neg (by omega)] at h
      cases h
    exact ⟨List.replicate (Bytes.toNatLe (b.take 4)) 0, by
      simp only [decodeInto, ByteSource.readExact_ok (r := ⟨b, none⟩) (not_lt.mp hfour),
        ensureLenWithinLimit, if_neg hlim, ByteSource.readExact_eof hshort]⟩

lemma decodeInto_of_oversized {b : Bytes} {len : ℕ} (h : Frame.cut b = .oversized len)
    (p : Bytes) : ∃ e r p', decodeInto bc ⟨b, none⟩ p = (.error e, r, p') := by
  have hfour : ¬ b.length < 4 := by
    intro hlt
    simp [Frame.cut, hlt] at h
  have hlim : maxWalRecordPayloadBytes < Bytes.toNatLe (b.take 4) := by
    by_contra hle
    simp only [Frame.cut, hfour, hle, if_false] at h
    split at h <;> cases h
  simp only [decodeInto, ByteSource.readExact_ok (r := ⟨b, none⟩) (not_lt.mp hfour),
    ensureLenWithinLimit, if_pos hlim]
  exact ⟨_, _, _, rfl⟩

lemma decodeForRecovery_of_not_complete {b : Bytes} (h : ∀ body, Frame.cut b ≠ .complete body)
    (p : Bytes) : (decodeForRecovery bc ⟨b, none⟩ p).1 = .ok .cleanEof := by
  by_cases hfour : b.length < 4
  · simp only [decodeForRecovery, ByteSource.readExact_eof hfour]
  · simp only [decodeForRecovery, ByteSource.readExact_ok (r := ⟨b, none⟩) (not_lt.mp hfour),
      ensureLenWithinLimit]
    by_cases hlim : maxWalRecordPayloadBytes < Bytes.toNatLe (b.take 4)
    · simp only [if_pos hlim]
    · have hshort : (b.drop 4).length < Bytes.toNatLe (b.take 4) := by
        by_contra hle
        simp only [List.length_drop] at hle
        refine h ((b.drop 4).take (Bytes.toNatLe (b.take 4))) ?_
        simp only [Frame.cut, hfour, hlim, if_false]
        rw [if_neg (by omega)]
      simp only [if_neg hlim, ByteSource.readExact_eof hshort]

/-- Whatever fault follows, a record is returned only for a complete frame. -/
lemma complete_of_decodeInto {src src' : ByteSource} {p p' : Bytes} {event : WalEvent} {n : ℕ}
    (h : decodeInto bc src p = (.ok (some (event, n)), src', p')) :
    ∃ body, Frame.cut src.rest = .complete body := by
  obtain ⟨rest, fault⟩ := src
  by_cases hfour : 4 ≤ rest.length
  · simp only [decodeInto, ByteSource.readExact_ok (r := ⟨rest, fault⟩) hfour,
      ensureLenWithinLimit] at h
    by_cases hlim : maxWalRecordPayloadBytes < Bytes.toNatLe (rest.take 4)
    · simp [hlim] at h
    by_cases hlen : Bytes.toNatLe (rest.take 4) ≤ rest.length - 4
    · refine ⟨(rest.drop 4).take (Bytes.toNatLe (rest.take 4)), ?_⟩
      simp only [Frame.cut, if_neg (not_lt.mpr hfour), if_neg hlim]
      rw [if_neg (by omega)]
    · rw [if_neg hlim] at h
      cases fault <;> simp [ByteSource.readExact, hlen] at h
  · cases fault <;> simp [decodeInto, ByteSource.readExact, hfour] at h

end Decoders

/-! ### The scan -/

variable (bc : Bincode)

/-- The loop of `last_valid_offset`. -/
def lastValidOffsetLoop : ℕ → ByteSource → Bytes → ℕ → Except String ℕ
  | 0, _, _, validLen => .ok validLen
  | fuel + 1, r, payload, validLen =>
    match decodeForRecovery bc r payload with
    | (.error e, _, _) => .error e
    | (.ok (.validRecord _ consumed), r, payload) =>
      lastValidOffsetLoop fuel r payload (validLen + consumed)
    | (.ok .cleanEof, _, _) => .ok validLen
    | (.ok (.frameCorrupt consumed), r, payload) =>
      lastValidOffsetLoop fuel r payload (validLen + consumed)

/-- `last_valid_offset`; a missing file has length `0`. Every round of the loop consumes a length
prefix, so one round for each byte and one for the end are enough. -/
def lastValidOffset : Option ByteSource → Except String ℕ
  | none   => .ok 0
  | some r => lastValidOffsetLoop bc (r.rest.length + 1) r [] 0

/-- `truncate_to`, on the contents of the file. -/
def truncateTo (b : Bytes) (len : ℕ) : Bytes := b.take len

variable {bc}

lemma lastValidOffsetLoop_eq {fuel : ℕ} {b : Bytes} (h : b.length < fuel) (p : Bytes) (n : ℕ) :
    lastValidOffsetLoop bc fuel ⟨b, none⟩ p n = .ok (n + (frames bc).stop b) := by
  induction fuel generalizing b p n with
  | zero => omega
  | succ fuel ih =>
    cases hnext : (frames bc).next b with
    | none =>
      have hdec := decodeForRecovery_of_not_complete bc (frames_next_eq_none.mp hnext) p
      rw [(frames bc).stop_of_none hnext, lastValidOffsetLoop]
      split
      · rename_i heq
        rw [heq] at hdec
        cases hdec
      · rename_i heq
        rw [heq] at hdec
        cases hdec
      · rfl
      · rename_i heq
        rw [heq] at hdec
        cases hdec
    | some q =>
      obtain ⟨body, hcut, -, -⟩ := exists_of_frames_next hnext
      have hstep := frames_next_of_complete bc hcut
      have hlen : (b.drop (4 + body.length)).length < fuel := by
        have := (frames bc).next_le hstep
        simp only [List.length_drop]
        omega
      rw [(frames bc).stop_of_some hstep, lastValidOffsetLoop,
        decodeForRecovery_of_complete bc hcut, ← Nat.add_assoc]
      cases bc.deserialize body with
      | error e => exact ih hlen _ _
      | ok event => exact ih hlen _ _

/-- The recovered length is where the scan of the file stops. -/
theorem lastValidOffset_eq (b : Bytes) :
    lastValidOffset bc (some ⟨b, none⟩) = .ok ((frames bc).stop b) := by
  rw [lastValidOffset, lastValidOffsetLoop_eq (Nat.lt_succ_self _), Nat.zero_add]

end SmarthomeIngest
