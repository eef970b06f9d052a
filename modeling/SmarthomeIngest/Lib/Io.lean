import SmarthomeIngest.Lib.Bytes

/-!
# Byte input and output

Models of the two ends of a file that a program sees through the standard library: a reader that
may run out of bytes or fail, and a buffered writer whose flush may fail after any part of the
buffered bytes has reached the file.
-/

/-! ### Reading -/

/-- Why `read_exact` did not fill its buffer. -/
inductive ReadError where
  | unexpectedEof
  | other (error : String)
  deriving DecidableEq, Repr

/-- What a reader still has to offer: the bytes up to the end of the file, or up to a fault. -/
structure ByteSource where
  rest : Bytes
  fault : Option String
  deriving DecidableEq, Repr

namespace ByteSource

/-- `Read::read_exact`: the next `n` bytes. On failure the bytes that were left are consumed. -/
def readExact (n : ℕ) (r : ByteSource) : Except ReadError Bytes × ByteSource :=
  if n ≤ r.rest.length then
    (.ok (r.rest.take n), { r with rest := r.rest.drop n })
  else
    match r.fault with
    | none   => (.error .unexpectedEof, { r with rest := [] })
    | some e => (.error (.other e), { r with rest := [] })

lemma readExact_ok {n : ℕ} {r : ByteSource} (h : n ≤ r.rest.length) :
    r.readExact n = (.ok (r.rest.take n), { r with rest := r.rest.drop n }) := if_pos h

lemma readExact_eof {n : ℕ} {b : Bytes} (h : b.length < n) :
    readExact n ⟨b, none⟩ = (.error .unexpectedEof, ⟨[], none⟩) := if_neg (by simpa using h)

end ByteSource

/-! ### Buffered writing -/

/-- A failed write: how many bytes got through, and the error. -/
structure WriteFault where
  written : ℕ
  error : String
  deriving DecidableEq, Repr

/-- A buffered writer on a file opened for appending: what the file holds and what is still in
process memory. -/
structure BufWriter where
  file : Bytes
  buf : Bytes
  deriving DecidableEq, Repr

namespace BufWriter

/-- `BufWriter::flush`. A failing flush leaves in the buffer what it did not write. -/
def flush (fault : Option WriteFault) (w : BufWriter) : Except String Unit × BufWriter :=
  match fault with
  | none   => (.ok (), ⟨w.file ++ w.buf, []⟩)
  | some f => (.error f.error, ⟨w.file ++ w.buf.take f.written, w.buf.drop f.written⟩)

/-- `write_all` on the file itself, past the buffer. -/
def writeThrough (data : Bytes) (fault : Option WriteFault) (w : BufWriter) :
    Except String Unit × BufWriter :=
  match fault with
  | none   => (.ok (), { w with file := w.file ++ data })
  | some f => (.error f.error, { w with file := w.file ++ data.take f.written })

/-- `BufWriter::write_all`. Data that does not fit next to the buffered bytes makes room by a
flush first; data that fills a whole buffer goes to the file directly. -/
def writeAll (capacity : ℕ) (data : Bytes) (flushFault writeFault : Option WriteFault)
    (w : BufWriter) : Except String Unit × BufWriter :=
  if data.length < capacity - w.buf.length then
    (.ok (), { w with buf := w.buf ++ data })
  else
    match if capacity - w.buf.length < data.length then w.flush flushFault else (.ok (), w) with
    | (.error e, w) => (.error e, w)
    | (.ok (), w) =>
      if capacity ≤ data.length then w.writeThrough data writeFault
      else (.ok (), { w with buf := w.buf ++ data })

/-- Everything handed to the writer so far, whether it has reached the file or not. -/
def contents (w : BufWriter) : Bytes := w.file ++ w.buf

variable {w w' : BufWriter} {fault flushFault writeFault : Option WriteFault}

lemma contents_of_flush {r : Except String Unit} (h : w.flush fault = (r, w')) :
    w'.contents = w.contents := by
  cases fault with
  | none =>
    cases h
    simp [contents]
  | some f =>
    cases h
    simp [contents, List.append_assoc]

lemma buf_of_flush_ok (h : w.flush fault = (.ok (), w')) : w'.buf = [] := by
  cases fault with
  | none =>
    cases h
    rfl
  | some f => cases h

lemma file_prefix_of_flush {r : Except String Unit} (h : w.flush fault = (r, w')) :
    w.file <+: w'.file := by
  cases fault with
  | none =>
    cases h
    exact List.prefix_append _ _
  | some f =>
    cases h
    exact List.prefix_append _ _

/-- `write_all` adds some of the data, after everything handed over before, and all of it if it
succeeds. -/
lemma contents_of_writeAll {capacity : ℕ} {data : Bytes} {r : Except String Unit}
    (h : w.writeAll capacity data flushFault writeFault = (r, w')) :
    ∃ n, w'.contents = w.contents ++ data.take n ∧ (r = .ok () → n = data.length) := by
  unfold writeAll at h
  split at h
  · cases h
    exact ⟨data.length, by simp [contents], fun _ => rfl⟩
  · rename_i hroom
    split at h
    · rename_i hfl
      cases h
      refine ⟨0, ?_, fun h => by cases h⟩
      rw [List.take_zero, List.append_nil]
      split at hfl
      · exact contents_of_flush hfl
      · cases hfl
    · rename_i w₁ hfl
      -- whether or not the buffer had to be flushed, nothing handed over is lost
      have hc : w₁.contents = w.contents := by
        split at hfl
        · exact contents_of_flush hfl
        · cases hfl
          rfl
      split at h
      · rename_i hcap
        -- a direct write that overtakes no buffered byte keeps the order
        have hbuf : w₁.buf = [] ∨ data = [] := by
          split at hfl
          · exact .inl (buf_of_flush_ok hfl)
          · cases hfl
            rw [← List.length_eq_zero_iff, ← List.length_eq_zero_iff (l := data)]
            omega
        rw [← hc]
        cases writeFault with
        | some f =>
          cases h
          refine ⟨f.written, ?_, fun h => by cases h⟩
          rcases hbuf with hbuf | hbuf <;> simp [contents, hbuf]
        | none =>
          cases h
          refine ⟨data.length, ?_, fun _ => rfl⟩
          rcases hbuf with hbuf | hbuf <;> simp [contents, hbuf]
      · cases h
        rw [← hc]
        exact ⟨data.length, by simp [contents], fun _ => rfl⟩

/-- A successful `write_all` adds exactly the data. -/
lemma contents_of_writeAll_ok {capacity : ℕ} {data : Bytes}
    (h : w.writeAll capacity data flushFault writeFault = (.ok (), w')) :
    w'.contents = w.contents ++ data := by
  obtain ⟨n, hc, hn⟩ := contents_of_writeAll h
  rw [hc, hn rfl, List.take_length]

lemma file_prefix_of_writeAll {capacity : ℕ} {data : Bytes} {r : Except String Unit}
    (h : w.writeAll capacity data flushFault writeFault = (r, w')) : w.file <+: w'.file := by
  unfold writeAll at h
  split at h
  · cases h
    exact List.prefix_rfl
  · split at h
    · rename_i w₁ hfl
      cases h
      split at hfl
      · exact file_prefix_of_flush hfl
      · cases hfl
    · rename_i w₁ hfl
      have hp : w.file <+: w₁.file := by
        split at hfl
        · exact file_prefix_of_flush hfl
        · cases hfl
          exact List.prefix_rfl
      split at h
      · cases writeFault with
        | none =>
          cases h
          exact hp.trans (List.prefix_append _ _)
        | some f =>
          cases h
          exact hp.trans (List.prefix_append _ _)
      · cases h
        exact hp

end BufWriter
