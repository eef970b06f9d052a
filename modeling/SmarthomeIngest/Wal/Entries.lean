import SmarthomeIngest.Lib.Scanner.Pieces
import SmarthomeIngest.Wal.Log

/-!
# Which entries a log has

The entries of a log lie in the order of their offsets. An entry is read from every position on a
frame boundary at or in front of it, and it is there as soon as its bytes are in the file.
-/

namespace SmarthomeIngest

open Scanner (Piece)

variable {bc : Bincode} {segs segs' : Segments} {start pos : WalOffset} {e : WalEntry}

/-- The entry is one of a stretch of its segment that starts at `off`. -/
def EntryIn (bc : Bincode) (off : ℕ) (b : Bytes) (e : WalEntry) : Prop :=
  ∃ p ∈ (frames bc).scan off b, entryOf e.offset.segmentId p = some e

lemma entryOf_eq_some {id : ℕ} {p : Piece (Option WalEvent)} (h : entryOf id p = some e) :
    e.offset = ⟨id, p.offset⟩ ∧ e.offsetAfter = ⟨id, p.offset + p.width⟩ := by
  obtain ⟨event, -, rfl⟩ := Option.map_eq_some_iff.mp h
  exact ⟨rfl, rfl⟩

lemma mem_segmentEntries {id off : ℕ} {b : Bytes} :
    e ∈ segmentEntries bc id off b ↔ e.offset.segmentId = id ∧ EntryIn bc off b e := by
  rw [segmentEntries, List.mem_filterMap]
  constructor
  · rintro ⟨p, hp, hentry⟩
    obtain rfl : e.offset.segmentId = id := congrArg WalOffset.segmentId (entryOf_eq_some hentry).1
    exact ⟨rfl, p, hp, hentry⟩
  · rintro ⟨rfl, hin⟩
    exact hin

lemma mem_entriesFrom : e ∈ entriesFrom bc segs pos ↔ pos.segmentId ≤ e.offset.segmentId ∧
    EntryIn bc (startIn pos e.offset.segmentId)
      ((segs.content e.offset.segmentId).drop (startIn pos e.offset.segmentId)) e := by
  simp only [entriesFrom, List.mem_flatMap, mem_segmentEntries]
  constructor
  · rintro ⟨id, hid, rfl, hin⟩
    exact ⟨(Segments.mem_idsFrom.mp hid).1, hin⟩
  · rintro ⟨hle, hin⟩
    refine ⟨_, Segments.mem_idsFrom.mpr ⟨hle, ?_⟩, rfl, hin⟩
    -- a missing file has no entries
    by_contra hmem
    rw [Segments.content_of_notMem hmem, List.drop_nil] at hin
    obtain ⟨p, hp, -⟩ := hin
    simp at hp

/-- Entries stay when the files grow. -/
lemma mem_entriesFrom_of_prefix
    (hpre : segs.content e.offset.segmentId <+: segs'.content e.offset.segmentId)
    (h : e ∈ entriesFrom bc segs pos) : e ∈ entriesFrom bc segs' pos := by
  obtain ⟨hle, p, hp, hentry⟩ := mem_entriesFrom.mp h
  refine mem_entriesFrom.mpr ⟨hle, p, ?_, hentry⟩
  exact (((frames bc).mem_scan_of_isPrefix (hpre.drop _)).mp hp).1

/-- An entry of the grown files was there as soon as all its bytes were. -/
lemma mem_entriesFrom_of_offsetAfter_le
    (hpre : segs.content e.offset.segmentId <+: segs'.content e.offset.segmentId)
    (hoff : startIn pos e.offset.segmentId ≤ (segs.content e.offset.segmentId).length)
    (hlen : e.offsetAfter.byteOffset ≤ (segs.content e.offset.segmentId).length)
    (h : e ∈ entriesFrom bc segs' pos) : e ∈ entriesFrom bc segs pos := by
  obtain ⟨hle, p, hp, hentry⟩ := mem_entriesFrom.mp h
  refine mem_entriesFrom.mpr ⟨hle, p, ?_, hentry⟩
  rw [(entryOf_eq_some hentry).2] at hlen
  change p.offset + p.width ≤ _ at hlen
  refine ((frames bc).mem_scan_of_isPrefix (hpre.drop _)).mpr ⟨hp, ?_⟩
  rw [List.length_drop]
  show p.offset + p.width ≤ _
  omega

lemma pairwise_segmentEntries (id off : ℕ) (b : Bytes) :
    (segmentEntries bc id off b).Pairwise fun e e' => e.offset < e'.offset := by
  refine List.Pairwise.filterMap _ ?_ ((frames bc).pairwise_scan off b)
  intro p q hpq e he e' he'
  rw [(entryOf_eq_some he).1, (entryOf_eq_some he').1, WalOffset.lt_iff]
  exact .inr ⟨rfl, hpq⟩

/-- A log lists its entries in the order of their offsets. -/
lemma pairwise_entriesFrom (bc : Bincode) (segs : Segments) (pos : WalOffset) :
    (entriesFrom bc segs pos).Pairwise fun e e' => e.offset < e'.offset := by
  refine List.pairwise_flatMap.mpr ⟨fun id _ => pairwise_segmentEntries _ _ _, ?_⟩
  refine (Segments.pairwise_idsFrom pos.segmentId).imp fun hlt e he e' he' => ?_
  rw [WalOffset.lt_iff, (mem_segmentEntries.mp he).1, (mem_segmentEntries.mp he').1]
  exact .inl hlt

/-- From a frame boundary on the log has the entries of the segments that lie there. -/
lemma mem_entriesFrom_iff (hpos : OnBoundary bc segs pos) : e ∈ entriesFrom bc segs pos ↔
    pos ≤ e.offset ∧ EntryIn bc 0 (segs.content e.offset.segmentId) e := by
  have hscan : ∀ p, p ∈ (frames bc).scan (startIn pos e.offset.segmentId)
      ((segs.content e.offset.segmentId).drop (startIn pos e.offset.segmentId)) ↔
        p ∈ (frames bc).scan 0 (segs.content e.offset.segmentId) ∧
          startIn pos e.offset.segmentId ≤ p.offset := by
    intro p
    have hdrop : _ ↔ p ∈ (frames bc).scan 0 (segs.content e.offset.segmentId) ∧ _ :=
      (frames bc).mem_scan_drop (hpos.startIn e.offset.segmentId)
    rwa [Nat.zero_add] at hdrop
  rw [mem_entriesFrom, WalOffset.le_iff]
  constructor
  · rintro ⟨hle, p, hp, hentry⟩
    obtain ⟨hp, hoff⟩ := (hscan p).mp hp
    refine ⟨?_, p, hp, hentry⟩
    rcases hle.lt_or_eq with hlt | heq
    · exact .inl hlt
    · rw [← heq, startIn_self] at hoff
      rw [(entryOf_eq_some hentry).1] at heq ⊢
      exact .inr ⟨heq, hoff⟩
  · rintro ⟨hle, p, hp, hentry⟩
    refine ⟨hle.elim le_of_lt fun h => h.1.le, p, (hscan p).mpr ⟨hp, ?_⟩, hentry⟩
    rcases hle with hlt | ⟨heq, hoff⟩
    · rw [startIn_of_ne hlt.ne']
      exact Nat.zero_le _
    · rw [← heq, startIn_self]
      rwa [(entryOf_eq_some hentry).1] at hoff

/-- What is read in front of a frame boundary lies in front of it. -/
lemma lt_of_entriesFrom_eq {xs : List WalEntry} (hstart : OnBoundary bc segs start)
    (hpos : OnBoundary bc segs pos)
    (h : entriesFrom bc segs start = xs ++ entriesFrom bc segs pos) (he : e ∈ xs) :
    e.offset < pos := by
  by_contra hge
  have hmem : e ∈ entriesFrom bc segs start := by
    rw [h]
    exact List.mem_append_left _ he
  have hbehind : e ∈ entriesFrom bc segs pos :=
    (mem_entriesFrom_iff hpos).mpr ⟨not_lt.mp hge, ((mem_entriesFrom_iff hstart).mp hmem).2⟩
  have hsorted := pairwise_entriesFrom bc segs start
  rw [h, List.pairwise_append] at hsorted
  exact lt_irrefl _ (hsorted.2.2 e he e hbehind)

end SmarthomeIngest
