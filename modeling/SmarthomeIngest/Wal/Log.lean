import SmarthomeIngest.Wal.Codec
import SmarthomeIngest.Wal.Segment

/-!
# The log as a sequence of entries

What the segment files are for: read as one log, they hold a sequence of entries. `entriesFrom`
lists the valid records at and behind a position, segment after segment, each segment up to where
its scan stops. The lemmas below say how the sequence changes when the position moves over a frame
or to the next segment, and when bytes are appended to the last segment.
-/

namespace SmarthomeIngest

open Scanner (Piece)

variable (bc : Bincode)

/-- The entry a scanned frame stands for, if its payload deserializes. -/
def entryOf (segmentId : ℕ) (p : Piece (Option WalEvent)) : Option WalEntry :=
  p.value.map fun event => ⟨⟨segmentId, p.offset⟩, ⟨segmentId, p.offset + p.width⟩, event⟩

/-- The entries of a stretch of a segment that starts at `off`. -/
def segmentEntries (segmentId off : ℕ) (b : Bytes) : List WalEntry :=
  ((frames bc).scan off b).filterMap (entryOf segmentId)

/-- Where reading a segment begins when the log is read from `start`. -/
def startIn (start : WalOffset) (id : ℕ) : ℕ :=
  if id = start.segmentId then start.byteOffset else 0

/-- The entries of the log at and behind `start`. -/
def entriesFrom (segs : Segments) (start : WalOffset) : List WalEntry :=
  (segs.idsFrom start.segmentId).flatMap fun id =>
    segmentEntries bc id (startIn start id) ((segs.content id).drop (startIn start id))

/-- A string of complete frames that all deserialize. -/
def Clean (b : Bytes) : Prop :=
  (frames bc).Whole b ∧ ∀ p ∈ (frames bc).scan 0 b, p.value ≠ none

variable {bc} {segs segs' : Segments}

/-! ### Segments -/

lemma segmentEntries_of_none {b : Bytes} (h : (frames bc).next b = none) (id off : ℕ) :
    segmentEntries bc id off b = [] := by
  simp [segmentEntries, (frames bc).scan_of_none h]

lemma segmentEntries_of_record {b : Bytes} {event : WalEvent} {n : ℕ}
    (h : (frames bc).next b = some (some event, n)) (id off : ℕ) :
    segmentEntries bc id off b =
      ⟨⟨id, off⟩, ⟨id, off + n⟩, event⟩ :: segmentEntries bc id (off + n) (b.drop n) := by
  simp [segmentEntries, (frames bc).scan_of_some h, entryOf]

lemma segmentEntries_of_corrupt {b : Bytes} {n : ℕ} (h : (frames bc).next b = some (none, n))
    (id off : ℕ) : segmentEntries bc id off b = segmentEntries bc id (off + n) (b.drop n) := by
  rw [segmentEntries, (frames bc).scan_of_some h, List.filterMap_cons_none rfl, ← segmentEntries]

@[simp] lemma segmentEntries_nil (id off : ℕ) : segmentEntries bc id off [] = [] := by
  simp [segmentEntries]

/-! ### Moving the position -/

@[simp] lemma startIn_self (start : WalOffset) :
    startIn start start.segmentId = start.byteOffset := if_pos rfl

lemma startIn_of_ne {start : WalOffset} {id : ℕ} (h : id ≠ start.segmentId) :
    startIn start id = 0 := if_neg h

@[simp] lemma startIn_zero (seg id : ℕ) : startIn ⟨seg, 0⟩ id = 0 := by simp [startIn]

/-- The log from a position is the rest of that segment, then everything behind the segment. -/
lemma entriesFrom_eq (seg off : ℕ) :
    entriesFrom bc segs ⟨seg, off⟩ =
      segmentEntries bc seg off ((segs.content seg).drop off) ++
        entriesFrom bc segs ⟨seg + 1, 0⟩ := by
  have hrest : ((segs.idsFrom (seg + 1)).flatMap fun id =>
      segmentEntries bc id (startIn ⟨seg, off⟩ id)
        ((segs.content id).drop (startIn ⟨seg, off⟩ id))) =
      entriesFrom bc segs ⟨seg + 1, 0⟩ := by
    refine List.flatMap_congr fun id hid => ?_
    have hne : id ≠ seg := by
      have := (Segments.mem_idsFrom.mp hid).1
      omega
    have hstart : startIn ⟨seg, off⟩ id = 0 := startIn_of_ne hne
    rw [hstart, startIn_zero]
  by_cases hmem : seg ∈ segs
  · rw [entriesFrom, Segments.idsFrom_of_mem hmem, List.flatMap_cons, hrest]
    simp [startIn]
  · rw [entriesFrom, Segments.idsFrom_of_notMem hmem, hrest, Segments.content_of_notMem hmem]
    simp

lemma entriesFrom_of_record {seg off n : ℕ} {event : WalEvent}
    (h : (frames bc).next ((segs.content seg).drop off) = some (some event, n)) :
    entriesFrom bc segs ⟨seg, off⟩ =
      ⟨⟨seg, off⟩, ⟨seg, off + n⟩, event⟩ :: entriesFrom bc segs ⟨seg, off + n⟩ := by
  rw [entriesFrom_eq, segmentEntries_of_record h, List.drop_drop, List.cons_append,
    ← entriesFrom_eq]

lemma entriesFrom_of_corrupt {seg off n : ℕ}
    (h : (frames bc).next ((segs.content seg).drop off) = some (none, n)) :
    entriesFrom bc segs ⟨seg, off⟩ = entriesFrom bc segs ⟨seg, off + n⟩ := by
  rw [entriesFrom_eq, segmentEntries_of_corrupt h, List.drop_drop, ← entriesFrom_eq]

/-- With no frame left in its segment, a position is as good as the start of the next one. -/
lemma entriesFrom_of_none {seg off : ℕ}
    (h : (frames bc).next ((segs.content seg).drop off) = none) :
    entriesFrom bc segs ⟨seg, off⟩ = entriesFrom bc segs ⟨seg + 1, 0⟩ := by
  rw [entriesFrom_eq, segmentEntries_of_none h, List.nil_append]

lemma entriesFrom_past_end {start : WalOffset} (h : ∀ id ∈ segs, id < start.segmentId) :
    entriesFrom bc segs start = [] := by
  rw [entriesFrom, Segments.idsFrom_eq_nil h, List.flatMap_nil]

/-- Every entry read from a position lies at or behind it. -/
lemma le_of_mem_entriesFrom {start : WalOffset} {e : WalEntry}
    (h : e ∈ entriesFrom bc segs start) : start ≤ e.offset := by
  simp only [entriesFrom, segmentEntries, List.mem_flatMap, List.mem_filterMap, entryOf,
    Option.map_eq_some_iff] at h
  obtain ⟨id, hid, p, hp, event, -, rfl⟩ := h
  have hoff := (frames bc).le_offset_of_mem_scan hp
  rw [WalOffset.le_iff]
  rcases (Segments.mem_idsFrom.mp hid).1.lt_or_eq with hlt | rfl
  · exact .inl hlt
  · rw [startIn_self] at hoff
    exact .inr ⟨rfl, hoff⟩

/-- A position on a frame boundary of its segment. -/
def OnBoundary (bc : Bincode) (segs : Segments) (pos : WalOffset) : Prop :=
  pos.byteOffset ∈ (frames bc).boundaries (segs.content pos.segmentId)

lemma onBoundary_zero (seg : ℕ) : OnBoundary bc segs ⟨seg, 0⟩ := List.mem_cons_self

lemma OnBoundary.startIn {pos : WalOffset} (h : OnBoundary bc segs pos) (id : ℕ) :
    startIn pos id ∈ (frames bc).boundaries (segs.content id) := by
  by_cases hid : id = pos.segmentId
  · subst hid
    rw [startIn_self]
    exact h
  · rw [startIn_of_ne hid]
    exact List.mem_cons_self

/-- The first entry read from a position: where it lies, and what is read behind it. -/
structure FirstEntry (bc : Bincode) (segs : Segments) (pos : WalOffset) (e : WalEntry)
    (rest : List WalEntry) : Prop where
  le : pos.segmentId ≤ e.offset.segmentId
  mem : e.offset.segmentId ∈ segs
  after : e.offsetAfter.segmentId = e.offset.segmentId
  rest_eq : entriesFrom bc segs e.offsetAfter = rest
  boundary : OnBoundary bc segs pos → OnBoundary bc segs e.offsetAfter

lemma firstEntry_of_segment {seg off : ℕ} {e : WalEntry} {rest : List WalEntry}
    (h : entriesFrom bc segs ⟨seg, off⟩ = e :: rest)
    (hnext : entriesFrom bc segs ⟨seg + 1, 0⟩ = e :: rest →
      FirstEntry bc segs ⟨seg + 1, 0⟩ e rest) : FirstEntry bc segs ⟨seg, off⟩ e rest := by
  induction hb : (segs.content seg).drop off using (frames bc).scan_induction
    generalizing off with
  | none b hnone =>
    subst hb
    rw [entriesFrom_of_none hnone] at h
    obtain ⟨hle, hmem, hafter, hrest, hbound⟩ := hnext h
    exact ⟨(Nat.le_succ seg).trans hle, hmem, hafter, hrest, fun _ => hbound (onBoundary_zero _)⟩
  | some b value n hsome ih =>
    subst hb
    cases value with
    | none =>
      rw [entriesFrom_of_corrupt hsome] at h
      obtain ⟨hle, hmem, hafter, hrest, hbound⟩ := ih h (by rw [List.drop_drop])
      refine ⟨hle, hmem, hafter, hrest, ?_⟩
      intro hpos
      exact hbound ((frames bc).add_mem_boundaries hpos hsome)
    | some event =>
      rw [entriesFrom_of_record hsome, List.cons.injEq] at h
      obtain ⟨rfl, rfl⟩ := h
      refine ⟨le_rfl, ?_, rfl, rfl, fun hpos => (frames bc).add_mem_boundaries hpos hsome⟩
      by_contra hmem
      rw [Segments.content_of_notMem hmem, List.drop_nil, Scanner.next_nil] at hsome
      cases hsome

lemma firstEntry_of_cons {pos : WalOffset} {last : ℕ} {e : WalEntry} {rest : List WalEntry}
    (hlast : ∀ id ∈ segs, id ≤ last) (h : entriesFrom bc segs pos = e :: rest) :
    FirstEntry bc segs pos e rest := by
  obtain ⟨seg, off⟩ := pos
  -- on the segments ahead
  induction hk : last + 1 - seg generalizing seg off with
  | zero =>
    rw [entriesFrom_past_end fun id hid => ?_] at h
    · cases h
    · have := hlast id hid
      show id < seg
      omega
  | succ k ih => exact firstEntry_of_segment h fun h' => ih _ _ h' (by omega)

/-! ### Appending -/

/-- Bytes appended to the last segment add entries at the end: those behind where the scan of the
segment stopped. -/
lemma entriesFrom_append {start : WalOffset} {last : ℕ} {b : Bytes}
    (hmem : last ∈ segs) (hlast : ∀ id ∈ segs, id ≤ last) (hstart : start.segmentId ≤ last)
    (hoff : startIn start last ≤ (segs.content last).length) :
    entriesFrom bc (segs.write last (segs.content last ++ b)) start =
      entriesFrom bc segs start ++
        segmentEntries bc last
          (startIn start last + (frames bc).stop ((segs.content last).drop (startIn start last)))
          (((segs.content last).drop (startIn start last)).drop
            ((frames bc).stop ((segs.content last).drop (startIn start last))) ++ b) := by
  -- `last` closes the listing, and the segments before it are untouched
  obtain ⟨init, hsplit, hinit⟩ := Segments.idsFrom_last hmem hlast hstart
  rw [entriesFrom, Segments.idsFrom_write hmem, entriesFrom, hsplit, List.flatMap_append,
    List.flatMap_append, List.flatMap_singleton, List.flatMap_singleton,
    Segments.content_write_self, List.drop_append_of_le_length hoff, segmentEntries,
    (frames bc).scan_append, List.filterMap_append, ← segmentEntries, ← segmentEntries,
    List.append_assoc]
  congr 1
  exact List.flatMap_congr fun id hid => by rw [Segments.content_write_ne (hinit id hid)]

/-- The new entries, for every position on a frame boundary. -/
lemma entriesFrom_write_boundary {start : WalOffset} {last : ℕ} {b : Bytes}
    (hmem : last ∈ segs) (hlast : ∀ id ∈ segs, id ≤ last) (hstart : start.segmentId ≤ last)
    (hbound : startIn start last ∈ (frames bc).boundaries (segs.content last)) :
    entriesFrom bc (segs.write last (segs.content last ++ b)) start =
      entriesFrom bc segs start ++
        segmentEntries bc last ((frames bc).stop (segs.content last))
          ((segs.content last).drop ((frames bc).stop (segs.content last)) ++ b) := by
  rw [entriesFrom_append hmem hlast hstart ((frames bc).mem_boundaries.mp hbound).1,
    List.drop_drop, ← (frames bc).stop_of_mem_boundaries hbound]

/-- The log depends on the files only through the listing and the contents. -/
lemma entriesFrom_congr {start : WalOffset}
    (hids : segs'.idsFrom start.segmentId = segs.idsFrom start.segmentId)
    (hcontent : ∀ id, start.segmentId ≤ id → segs'.content id = segs.content id) :
    entriesFrom bc segs' start = entriesFrom bc segs start := by
  rw [entriesFrom, hids, entriesFrom]
  exact List.flatMap_congr fun id hid => by
    rw [hcontent id (Segments.mem_idsFrom.mp hid).1]

/-- Creating the next segment file empty adds nothing to the log. -/
lemma entriesFrom_create {start : WalOffset} {last : ℕ} (hstart : start.segmentId < last)
    (hnew : ∀ id ∈ segs, id < last) :
    entriesFrom bc (segs.create last) start = entriesFrom bc segs start := by
  have hids : (segs.create last).idsFrom start.segmentId =
      segs.idsFrom start.segmentId ++ [last] :=
    Segments.idsFrom_of_new hstart.le (fun id => Segments.mem_create) hnew
  have hempty : segs.content last = [] :=
    Segments.content_of_notMem fun h => absurd (hnew last h) (lt_irrefl _)
  rw [entriesFrom, hids, List.flatMap_append, List.flatMap_singleton, entriesFrom]
  simp [hempty]

/-! ### Growth -/

/-- How a log grows: bytes are appended to its last segment, or the next one is started. -/
inductive Grows (segs : Segments) (last : ℕ) : Segments → ℕ → Prop where
  | same : Grows segs last segs last
  | append (b : Bytes) : Grows segs last (segs.write last (segs.content last ++ b)) last
  | create : Grows segs last (segs.create (last + 1)) (last + 1)

/-- The segments of a log end with `last`. -/
def EndsWith (segs : Segments) (last : ℕ) : Prop := last ∈ segs ∧ ∀ id ∈ segs, id ≤ last

namespace Grows

variable {last last' : ℕ}

lemma endsWith (hg : Grows segs last segs' last') (h : EndsWith segs last) :
    EndsWith segs' last' := by
  cases hg with
  | same => exact h
  | append b =>
    refine ⟨Segments.mem_write.mpr (.inl rfl), fun id hid => ?_⟩
    exact (Segments.mem_write.mp hid).elim Eq.le (h.2 id)
  | create =>
    refine ⟨Segments.mem_create.mpr (.inl rfl), fun id hid => ?_⟩
    exact (Segments.mem_create.mp hid).elim Eq.le fun hid => (h.2 id hid).trans (Nat.le_succ _)

lemma le_last (hg : Grows segs last segs' last') : last ≤ last' := by
  cases hg with
  | same => exact le_rfl
  | append b => exact le_rfl
  | create => exact Nat.le_succ _

lemma mem (hg : Grows segs last segs' last') {id : ℕ} (h : id ∈ segs) : id ∈ segs' := by
  cases hg with
  | same => exact h
  | append b => exact Segments.mem_write.mpr (.inr h)
  | create => exact Segments.mem_create.mpr (.inr h)

lemma mem_or_lt (hg : Grows segs last segs' last') (h : EndsWith segs last) {id : ℕ}
    (hid : id ∈ segs') : id ∈ segs ∨ last < id := by
  cases hg with
  | same => exact .inl hid
  | append b => exact .inl ((Segments.mem_write.mp hid).elim (fun heq => heq ▸ h.1) fun h => h)
  | create =>
    refine (Segments.mem_create.mp hid).symm.imp_right ?_
    rintro rfl
    exact Nat.lt_succ_self _

lemma onBoundary (hg : Grows segs last segs' last') {pos : WalOffset}
    (h : OnBoundary bc segs pos) : OnBoundary bc segs' pos := by
  unfold OnBoundary at h ⊢
  cases hg with
  | same => exact h
  | append b =>
    by_cases hid : pos.segmentId = last
    · rw [hid] at h
      rw [hid, Segments.content_write_self]
      exact (frames bc).boundaries_append h b
    · rwa [Segments.content_write_ne hid]
  | create => rwa [Segments.content_create]

/-- The log gets the same new entries at its end, wherever it is read from. -/
lemma entries (bc : Bincode) (hg : Grows segs last segs' last') (h : EndsWith segs last) :
    ∃ new, ∀ pos, OnBoundary bc segs pos → pos.segmentId ≤ last →
      entriesFrom bc segs' pos = entriesFrom bc segs pos ++ new := by
  cases hg with
  | same => exact ⟨[], fun pos _ _ => (List.append_nil _).symm⟩
  | append b =>
    exact ⟨segmentEntries bc last ((frames bc).stop (segs.content last))
        ((segs.content last).drop ((frames bc).stop (segs.content last)) ++ b),
      fun pos hpos hle => entriesFrom_write_boundary h.1 h.2 hle (hpos.startIn last)⟩
  | create =>
    refine ⟨[], fun pos _ hle => ?_⟩
    rw [List.append_nil, entriesFrom_create (Nat.lt_succ_of_le hle)]
    intro id hid
    exact Nat.lt_succ_of_le (h.2 id hid)

end Grows

/-! ### Clean strings -/

lemma Clean.whole {b : Bytes} (h : Clean bc b) : (frames bc).Whole b := h.1

lemma clean_nil : Clean bc [] := ⟨(frames bc).whole_nil, by simp⟩

/-- The values found by a scan do not depend on the offset it starts counting at. -/
lemma values_scan (off : ℕ) (b : Bytes) :
    ((frames bc).scan off b).map Piece.value = ((frames bc).scan 0 b).map Piece.value := by
  induction b using (frames bc).scan_induction generalizing off with
  | none b h => simp [(frames bc).scan_of_none h]
  | some b a n h ih =>
    rw [(frames bc).scan_of_some h, (frames bc).scan_of_some h, List.map_cons, List.map_cons, ih,
      ih (0 + n)]

lemma clean_iff {b : Bytes} (off : ℕ) :
    Clean bc b ↔ (frames bc).Whole b ∧ none ∉ ((frames bc).scan off b).map Piece.value := by
  rw [values_scan]
  simp only [Clean, List.mem_map, not_exists, not_and]

lemma Clean.append {b c : Bytes} (hb : Clean bc b) (hc : Clean bc c) : Clean bc (b ++ c) := by
  rw [clean_iff 0] at hb ⊢
  rw [clean_iff (0 + b.length)] at hc
  rw [hb.1.scan_append, List.map_append, List.mem_append]
  exact ⟨hb.1.append hc.1, not_or.mpr ⟨hb.2, hc.2⟩⟩

/-- A clean string is empty or starts with a valid record, behind which it is clean again. -/
lemma Clean.cases {b : Bytes} (h : Clean bc b) :
    b = [] ∨ ∃ event n, (frames bc).next b = some (some event, n) ∧ Clean bc (b.drop n) := by
  cases hnext : (frames bc).next b with
  | none =>
    exact .inl (h.whole.eq_nil_of_scan ((frames bc).scan_of_none hnext 0))
  | some p =>
    obtain ⟨v, n⟩ := p
    rw [clean_iff 0, (frames bc).scan_of_some hnext, List.map_cons, List.mem_cons, not_or] at h
    obtain ⟨event, rfl⟩ : ∃ event, v = some event :=
      Option.ne_none_iff_exists'.mp (Ne.symm h.2.1)
    exact .inr ⟨event, n, rfl, (clean_iff (0 + n)).mpr ⟨h.1.drop hnext, h.2.2⟩⟩

/-- A clean string read from one of its frame boundaries. -/
lemma Clean.drop {b : Bytes} {k : ℕ} (h : Clean bc b) (hk : k ∈ (frames bc).boundaries b) :
    Clean bc (b.drop k) := by
  obtain ⟨hle, hwhole⟩ := (frames bc).mem_boundaries.mp hk
  have hstop := (frames bc).stop_of_mem_boundaries hk
  have hscan := hwhole.scan_append 0 (b.drop k)
  rw [List.take_append_drop, List.length_take, Nat.min_eq_left hle, Nat.zero_add] at hscan
  rw [clean_iff 0, hscan, List.map_append, List.mem_append, not_or] at h
  refine (clean_iff k).mpr ⟨?_, h.2.2⟩
  have hb := h.1
  rw [Scanner.Whole] at hb ⊢
  rw [List.length_drop]
  omega

/-- The frame of an event within the limit is clean, and its one record is the event. -/
lemma next_encodeInto (hbc : bc.RoundTrips) {event : WalEvent} {frame : Bytes}
    (h : encodeInto bc event = .ok frame)
    (hlimit : frame.length ≤ 4 + maxWalRecordPayloadBytes) :
    (frames bc).next frame = some (some event, frame.length) := by
  obtain ⟨body, hser, hlong, rfl⟩ := exists_of_encodeInto h
  have hlt : body.length < 256 ^ 4 := hlong.trans_eq (by norm_num)
  have hcut : Frame.cut (Bytes.ofNatLe 4 body.length ++ body) = .complete body := by
    refine Frame.cut_eq_complete.mpr ⟨?_, ?_, ?_, ?_⟩
    · rw [List.length_append, Bytes.length_ofNatLe] at hlimit
      exact Nat.le_of_add_le_add_left hlimit
    · rw [List.take_left' (Bytes.length_ofNatLe 4 _), Bytes.toNatLe_ofNatLe hlt]
    · simp
    · rw [List.drop_left' (Bytes.length_ofNatLe 4 _)]
  rw [frames_next_of_complete bc hcut, hbc _ _ hser]
  simp [Except.toOption]

lemma clean_encodeInto (hbc : bc.RoundTrips) {event : WalEvent} {frame : Bytes}
    (h : encodeInto bc event = .ok frame)
    (hlimit : frame.length ≤ 4 + maxWalRecordPayloadBytes) : Clean bc frame := by
  have hnext := next_encodeInto hbc h hlimit
  refine ⟨Scanner.whole_of_next hnext, ?_⟩
  simp [(frames bc).scan_of_some hnext]

end SmarthomeIngest
