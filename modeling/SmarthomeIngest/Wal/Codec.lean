import SmarthomeIngest.Lib.Io
import SmarthomeIngest.Lib.Scanner
import SmarthomeIngest.Wal.Types

/-!
# Record codec

A record is a frame `[u32 little-endian length][payload]`, its payload the bincode form of a
`WalEvent`. There is one encoder and there are two decoders: `decodeInto` for the reader of the
live log and `decodeForRecovery` for the scan at start-up. Both are translated as written; their
common core is `Frame.cut`, the view of a byte string as a complete frame, and `frames` is the
scanner it induces.
-/

namespace SmarthomeIngest

/-- The bincode library at the type `WalEvent`. -/
structure Bincode where
  serialize : WalEvent → Except String Bytes
  deserialize : Bytes → Except String WalEvent

/-- `deserialize` undoes `serialize`. -/
def Bincode.RoundTrips (bc : Bincode) : Prop :=
  ∀ e b, bc.serialize e = .ok b → bc.deserialize b = .ok e

def maxWalRecordPayloadBytes : ℕ := 1024 * 1024

/-- Outcome of decoding a record during recovery. -/
inductive DecodeOutcome where
  | validRecord (event : WalEvent) (consumed : ℕ)
  | cleanEof
  | frameCorrupt (consumed : ℕ)
  deriving DecidableEq

variable (bc : Bincode)

/-- `encode_into`: the contents of the buffer afterwards. -/
def encodeInto (event : WalEvent) : Except String Bytes :=
  match bc.serialize event with
  | .error e => .error e
  | .ok body =>
    if 2 ^ 32 ≤ body.length then .error "WAL record exceeds u32::MAX bytes"
    else .ok (Bytes.ofNatLe 4 body.length ++ body)

variable {bc} in
lemma exists_of_encodeInto {event : WalEvent} {frame : Bytes}
    (h : encodeInto bc event = .ok frame) :
    ∃ body, bc.serialize event = .ok body ∧ body.length < 2 ^ 32 ∧
      frame = Bytes.ofNatLe 4 body.length ++ body := by
  unfold encodeInto at h
  split at h
  · cases h
  · rename_i body hser
    split_ifs at h with hlong
    cases h
    exact ⟨body, hser, not_le.mp hlong, rfl⟩

def ensureLenWithinLimit (len : ℕ) : Except String Unit :=
  if maxWalRecordPayloadBytes < len then
    .error ("WAL record length " ++ toString len ++ " exceeds max " ++
      toString maxWalRecordPayloadBytes ++ " bytes")
  else .ok ()

/-- `decode_into`: the outcome, the reader afterwards and the scratch buffer afterwards. `.ok none`
is a clean end of file or a torn tail. -/
def decodeInto (r : ByteSource) (payload : Bytes) :
    Except String (Option (WalEvent × ℕ)) × ByteSource × Bytes :=
  match r.readExact 4 with
  | (.error .unexpectedEof, r) => (.ok none, r, payload)
  | (.error (.other e), r)     => (.error e, r, payload)
  | (.ok lenBuf, r) =>
    let len := Bytes.toNatLe lenBuf
    match ensureLenWithinLimit len with
    | .error e => (.error e, r, payload)
    | .ok () =>
      -- `payload.clear()` and `payload.resize(len, 0)`
      match r.readExact len with
      | (.error .unexpectedEof, r) => (.ok none, r, List.replicate len 0)
      | (.error (.other e), r)     => (.error e, r, List.replicate len 0)
      | (.ok payload, r) =>
        match bc.deserialize payload with
        | .error e  => (.error e, r, payload)
        | .ok event => (.ok (some (event, 4 + len)), r, payload)

/-- `decode_for_recovery`. An oversized length counts as the end of the log here, and a payload
that does not deserialize as a frame to step over. -/
def decodeForRecovery (r : ByteSource) (payload : Bytes) :
    Except String DecodeOutcome × ByteSource × Bytes :=
  match r.readExact 4 with
  | (.error .unexpectedEof, r) => (.ok .cleanEof, r, payload)
  | (.error (.other e), r)     => (.error e, r, payload)
  | (.ok lenBuf, r) =>
    let len := Bytes.toNatLe lenBuf
    match ensureLenWithinLimit len with
    | .error _ => (.ok .cleanEof, r, payload)
    | .ok () =>
      match r.readExact len with
      | (.error .unexpectedEof, r) => (.ok .cleanEof, r, List.replicate len 0)
      | (.error (.other e), r)     => (.error e, r, List.replicate len 0)
      | (.ok payload, r) =>
        match bc.deserialize payload with
        | .ok event => (.ok (.validRecord event (4 + len)), r, payload)
        | .error _  => (.ok (.frameCorrupt (4 + len)), r, payload)

/-! ### Frames -/

/-- A byte string seen from its front: too short for a frame, a length prefix over the limit, or a
complete frame with its payload. -/
inductive Frame where
  | short
  | oversized (len : ℕ)
  | complete (payload : Bytes)
  deriving DecidableEq

def Frame.cut (b : Bytes) : Frame :=
  if b.length < 4 then .short
  else
    let len := Bytes.toNatLe (b.take 4)
    if maxWalRecordPayloadBytes < len then .oversized len
    else if b.length < 4 + len then .short
    else .complete ((b.drop 4).take len)

lemma Frame.cut_eq_complete {b payload : Bytes} :
    Frame.cut b = .complete payload ↔
      payload.length ≤ maxWalRecordPayloadBytes ∧ payload.length = Bytes.toNatLe (b.take 4) ∧
        4 ≤ b.length ∧ payload <+: b.drop 4 := by
  unfold Frame.cut
  constructor
  · intro h
    split at h
    · cases h
    · dsimp only at h
      split at h
      · cases h
      · split at h
        · cases h
        · cases h
          refine ⟨?_, ?_, by omega, List.take_prefix _ _⟩ <;> simp <;> omega
  · rintro ⟨hmax, hlen, hfour, t, ht⟩
    have hb : b.length = 4 + payload.length + t.length := by
      have := congrArg List.length ht
      simp only [List.length_append, List.length_drop] at this
      omega
    rw [if_neg (by omega)]
    dsimp only
    rw [← hlen, if_neg (by omega), if_neg (by omega), ← ht, List.take_left]

/-- A complete frame stays one when the string gets longer. -/
lemma Frame.cut_of_prefix {b c payload : Bytes} (hb : b <+: c)
    (h : Frame.cut b = .complete payload) : Frame.cut c = .complete payload := by
  obtain ⟨t, rfl⟩ := hb
  obtain ⟨hmax, hlen, hfour, hpre⟩ := Frame.cut_eq_complete.mp h
  refine Frame.cut_eq_complete.mpr ⟨hmax, ?_, ?_, ?_⟩
  · rwa [List.take_append_of_le_length hfour]
  · simp
    omega
  · rw [List.drop_append_of_le_length hfour]
    exact hpre.trans (List.prefix_append _ _)

/-- The start of a string that does not start with an oversized prefix does not either. -/
lemma Frame.cut_take_ne_oversized {c : Bytes} {k : ℕ} (h : ∀ len, Frame.cut c ≠ .oversized len)
    (len : ℕ) : Frame.cut (c.take k) ≠ .oversized len := by
  intro hcut
  unfold Frame.cut at hcut
  split at hcut
  · cases hcut
  · rename_i hfour
    rw [List.length_take] at hfour
    dsimp only at hcut
    split at hcut
    · rename_i hlim
      rw [List.take_take, Nat.min_eq_left (by omega)] at hlim
      apply h (Bytes.toNatLe (c.take 4))
      rw [Frame.cut, if_neg (by omega)]
      exact if_pos hlim
    · split at hcut <;> cases hcut

/-- The recovery scanner: complete frames, with their event if the payload deserializes. -/
def frames : Scanner UInt8 (Option WalEvent) where
  next b :=
    match Frame.cut b with
    | .complete payload => some ((bc.deserialize payload).toOption, 4 + payload.length)
    | _ => none
  next_pos h := by
    split at h
    · cases h
      omega
    · cases h
  next_le {b a n} h := by
    split at h
    · rename_i payload hcut
      cases h
      obtain ⟨-, -, hfour, hpre⟩ := Frame.cut_eq_complete.mp hcut
      have := hpre.length_le
      simp only [List.length_drop] at this
      omega
    · cases h
  next_append {b a n} h c := by
    split at h
    · rename_i payload hcut
      cases h
      rw [Frame.cut_of_prefix (List.prefix_append b c) hcut]
    · cases h
  next_take {b a n} h := by
    split at h
    · rename_i payload hcut
      cases h
      obtain ⟨hmax, hlen, hfour, hpre⟩ := Frame.cut_eq_complete.mp hcut
      have hle := hpre.length_le
      have hcut' : Frame.cut (b.take (4 + payload.length)) = .complete payload := by
        refine Frame.cut_eq_complete.mpr ⟨hmax, ?_, ?_, ?_⟩
        · rwa [List.take_take, Nat.min_eq_left (by omega)]
        · simp
          omega
        · rw [List.drop_take, Nat.add_sub_cancel_left]
          exact List.prefix_take_iff.mpr ⟨hpre, le_rfl⟩
      rw [hcut']
    · cases h

variable {bc}

lemma frames_next_of_complete (bc : Bincode) {b payload : Bytes}
    (h : Frame.cut b = .complete payload) :
    (frames bc).next b = some ((bc.deserialize payload).toOption, 4 + payload.length) := by
  simp [frames, h]

lemma exists_of_frames_next {b : Bytes} {value : Option WalEvent} {n : ℕ}
    (h : (frames bc).next b = some (value, n)) :
    ∃ payload, Frame.cut b = .complete payload ∧ value = (bc.deserialize payload).toOption ∧
      n = 4 + payload.length := by
  cases hcut : Frame.cut b with
  | complete payload =>
    rw [frames_next_of_complete bc hcut] at h
    cases h
    exact ⟨payload, rfl, rfl, rfl⟩
  | short => simp [frames, hcut] at h
  | oversized len => simp [frames, hcut] at h

lemma cut_ne_short_of_next {b : Bytes} {value : Option WalEvent} {n : ℕ}
    (h : (frames bc).next b = some (value, n)) : Frame.cut b ≠ .short := by
  obtain ⟨body, hcut, -⟩ := exists_of_frames_next h
  rw [hcut]
  exact fun h => by cases h

lemma frames_next_eq_none {b : Bytes} :
    (frames bc).next b = none ↔ ∀ payload, Frame.cut b ≠ .complete payload := by
  cases h : Frame.cut b <;> simp [frames, h]

lemma Frame.cut_take_eq_short {c : Bytes} {k : ℕ} (h : ∀ len, Frame.cut c ≠ .oversized len)
    (hnext : (frames bc).next (c.take k) = none) : Frame.cut (c.take k) = .short := by
  cases hcut : Frame.cut (c.take k) with
  | short => rfl
  | oversized len => exact absurd hcut (cut_take_ne_oversized h len)
  | complete body => exact absurd hcut (frames_next_eq_none.mp hnext body)

end SmarthomeIngest
