import SmarthomeIngest.Wal.Subscription.Rules

/-!
# What a reader returns of files that stand still

From an offset on `next` reads frame by frame, and what it returns are the records it meets there.
The invariant `ReadFrom` says where a subscription has got to, whatever bytes the files hold, as
long as nothing changes any more.
-/

namespace SmarthomeIngest

/-! ### Definitions -/

namespace Subscription

variable (bc : Bincode)

/-- A reader at the offset, or behind everything there is to read. -/
def ReaderIn (b : Bytes) (off : ℕ) (reader : Option ℕ) : Prop :=
  ∀ pos ∈ reader, pos = off ∨ b.length ≤ pos

/-- The subscription has read the files of `v` from `off` of `seg` on, frame by frame while it was
in that segment. -/
structure ReadFrom (v : WalView) (seg off : ℕ) (s : Subscription) : Prop where
  curReader : ReaderIn (v.segments.content s.curSegmentId) s.curByteOffset s.curReader
  reader : ∀ reader payload, s.pc = .readOne reader payload →
    ReaderIn (v.segments.content s.curSegmentId) s.curByteOffset reader
  position : seg < s.curSegmentId ∨ s.curSegmentId = seg ∧
    ∃ k ∈ (frames bc).boundaries ((v.segments.content seg).drop off), s.curByteOffset = off + k
  corrupt : s.pc = .corrupt ∨ s.pc = .skip → s.curReader = none ∧
    Frame.cut ((v.segments.content s.curSegmentId).drop s.curByteOffset) ≠ .short

end Subscription

/-! ### What is read -/

namespace Subscription

variable {bc : Bincode} {v : WalView} {s s' : Subscription} {entry : Option WalEntry} {seg off : ℕ}

lemma readerIn_none (b : Bytes) (off : ℕ) : ReaderIn b off none := nofun

/-- A reader that finds something is at the offset. -/
lemma ReaderIn.getD_eq {b : Bytes} {reader : Option ℕ} (hr : ReaderIn b off reader)
    (hcut : Frame.cut (b.drop (reader.getD off)) ≠ .short) : reader.getD off = off := by
  cases reader with
  | none => rfl
  | some pos =>
    rcases hr pos rfl with hpos | hpos
    · exact hpos
    · rw [Option.getD_some, List.drop_of_length_le hpos] at hcut
      exact absurd rfl hcut

lemma ReadFrom.new (v : WalView) (start : WalOffset) :
    ReadFrom bc v start.segmentId start.byteOffset (.new start) where
  curReader := readerIn_none _ _
  reader reader payload h := by cases h
  position := .inr ⟨rfl, 0, List.mem_cons_self, rfl⟩
  corrupt h := by rcases h with h | h <;> cases h

/-- A step that reads and moves nothing. -/
lemma ReadFrom.goto (hi : ReadFrom bc v seg off s) {pc : NextPc}
    (hread : ∀ reader payload, pc ≠ .readOne reader payload)
    (hcorrupt : pc = .corrupt ∨ pc = .skip → s.pc = .corrupt ∨ s.pc = .skip) :
    ReadFrom bc v seg off { s with pc := pc } where
  curReader := hi.curReader
  reader reader payload h := absurd h (hread reader payload)
  position := hi.position
  corrupt h := hi.corrupt (hcorrupt h)

lemma ReadFrom.startRead (hi : ReadFrom bc v seg off s) : ReadFrom bc v seg off s.startRead where
  curReader := readerIn_none _ _
  reader reader payload h := by
    cases h
    exact hi.curReader
  position := hi.position
  corrupt h := by rcases h with h | h <;> cases h

/-- Over the frame at the offset. -/
lemma ReadFrom.advance (hi : ReadFrom bc v seg off s) {value : Option WalEvent} {n : ℕ}
    (hnext : (frames bc).next ((v.segments.content s.curSegmentId).drop s.curByteOffset) =
      some (value, n)) {reader : Option ℕ}
    (hr : ReaderIn (v.segments.content s.curSegmentId) (s.curByteOffset + n) reader)
    (payload : Bytes) :
    ReadFrom bc v seg off { s with
      curByteOffset := s.curByteOffset + n, curReader := reader, payloadBuf := payload,
      pc := .ready } where
  curReader := hr
  reader reader payload h := by cases h
  position := by
    rcases hi.position with hlt | ⟨hseg, k, hk, hoff⟩
    · exact .inl hlt
    · rw [hseg, hoff, ← List.drop_drop] at hnext
      refine .inr ⟨hseg, k + n, (frames bc).add_mem_boundaries hk hnext, ?_⟩
      dsimp only
      rw [hoff, Nat.add_assoc]
  corrupt h := by rcases h with h | h <;> cases h

lemma ReadFrom.step (hi : ReadFrom bc v seg off s)
    (h : s.step bc v (.run {}) = some (s', entry)) :
    ReadFrom bc v seg off s' ∧ ∀ e ∈ entry, e.offset = s.position ∧ ∃ n, (frames bc).next
      ((v.segments.content s.curSegmentId).drop s.curByteOffset) = some (some e.event, n) := by
  cases NextRule.of_step h with
  | ready | ahead | reloadAhead | notified => exact ⟨hi.startRead, nofun⟩
  | @record _ reader _ _ _ event n hpc hread =>
    have hr := hi.reader _ _ hpc
    cases ReadRule.of_readOne hread with
    | record hnext =>
      have hpos := hr.getD_eq (cut_ne_short_of_next hnext)
      rw [hpos] at hnext ⊢
      refine ⟨hi.advance hnext (fun pos hpos => .inl ?_) _, ?_⟩
      · exact (Option.mem_some.mp hpos).symm
      · rintro e ⟨⟩
        exact ⟨rfl, n, hnext⟩
  | @corrupt _ reader _ _ _ _ hpc hread =>
    have hr := hi.reader _ _ hpc
    obtain ⟨rfl, hcut, -⟩ := (ReadRule.of_readOne hread).of_corrupt
    rw [hr.getD_eq hcut] at hcut
    exact ⟨⟨readerIn_none _ _, fun reader payload h => (by cases h), hi.position,
      fun _ => ⟨rfl, hcut⟩⟩, nofun⟩
  | nothing hpc hread hout =>
    refine ⟨⟨?_, fun reader payload h => (by cases h), hi.position, ?_⟩, nofun⟩
    · cases ReadRule.of_readOne hread with
      | record | undecodable | oversized => cases hout
      | eof =>
        intro pos hpos
        right
        rw [← Option.mem_some.mp hpos]
        dsimp only
        omega
      | notFound => exact readerIn_none _ _
    · rintro (h | h) <;> cases h
  | activeTail | unreadablePrefix | tooLong | register | atHead | closed | parks | ended =>
    refine ⟨hi.goto (fun _ _ h => by cases h) ?_, nofun⟩
    rintro (h | h) <;> cases h
  | poison hpc => exact ⟨hi.goto (fun _ _ h => by cases h) fun _ => .inl hpc, nofun⟩
  | @skip _ len hpc hlen hmax =>
    refine ⟨?_, nofun⟩
    obtain ⟨hreader, hframe⟩ := hi.corrupt (.inr hpc)
    cases hcut : Frame.cut ((v.segments.content s.curSegmentId).drop s.curByteOffset) with
    | short => exact absurd hcut hframe
    | oversized len' =>
      obtain ⟨hskip, hlim⟩ := readLenPrefix_of_oversized hcut
      rw [hlen] at hskip
      cases hskip
      exact absurd hmax (not_le.mpr hlim)
    | complete body =>
      rw [readLenPrefix_of_complete hcut] at hlen
      cases hlen
      have hadvance := hi.advance (frames_next_of_complete bc hcut) (readerIn_none _ _)
        s.payloadBuf
      rw [← hreader] at hadvance
      exact hadvance.startRead
  | nextSegment =>
    refine ⟨⟨readerIn_none _ _, fun reader payload h => ?_, .inl ?_, ?_⟩, nofun⟩
    · cases h
      exact readerIn_none _ _
    · rcases hi.position with hlt | ⟨rfl, -⟩
      · exact hlt.trans (Nat.lt_succ_self _)
      · exact Nat.lt_succ_self _
    · rintro (h | h) <;> cases h

end Subscription

end SmarthomeIngest
