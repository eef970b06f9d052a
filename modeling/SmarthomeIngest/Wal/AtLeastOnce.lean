import SmarthomeIngest.Lib.Transition
import SmarthomeIngest.Wal.Bincode
import SmarthomeIngest.Wal.Forwarder
import Mathlib.Data.List.TakeWhile

/-!
# At-least-once forwarding

The invariant of the forwarder ties the batch in memory, the history of the sink, the cursor and
the segment files together. It speaks of the directory as a crash leaves it, so opening that
directory again needs nothing else: the subscription starts where the uncommitted entries start.
-/

namespace SmarthomeIngest

open Transition

variable {bc : Bincode} {batchSize : ℕ}

/-! ### Directories with the same log -/

/-- From `base` on, the directory has the segments of the log. -/
structure Covers (dir log : Segments) (base : ℕ) : Prop where
  mem_log : ∀ id ∈ dir, id ∈ log
  mem_dir : ∀ id ∈ log, base ≤ id → id ∈ dir
  content : ∀ id ∈ dir, dir.content id = log.content id

namespace Covers

variable {dir log : Segments} {base base' id last : ℕ}

lemma refl (segs : Segments) (base : ℕ) : Covers segs segs base :=
  ⟨fun _ h => h, fun _ h _ => h, fun _ _ => rfl⟩

lemma mono (h : Covers dir log base) (hle : base ≤ base') : Covers dir log base' where
  mem_log := h.mem_log
  mem_dir id hid hbase := h.mem_dir id hid (hle.trans hbase)
  content := h.content

lemma content_eq (h : Covers dir log base) (hid : base ≤ id) :
    dir.content id = log.content id := by
  by_cases hmem : id ∈ dir
  · exact h.content id hmem
  · have hlog : id ∉ log := fun hlog => hmem (h.mem_dir id hlog hid)
    rw [Segments.content_of_notMem hmem, Segments.content_of_notMem hlog]

lemma entriesFrom_eq (h : Covers dir log base) {pos : WalOffset} (hpos : base ≤ pos.segmentId) :
    entriesFrom bc dir pos = entriesFrom bc log pos := by
  apply entriesFrom_congr
  · apply Segments.idsFrom_congr
    intro id hid
    exact ⟨h.mem_log id, fun hlog => h.mem_dir id hlog (hpos.trans hid)⟩
  · intro id hid
    exact h.content_eq (hpos.trans hid)

lemma onBoundary_iff (h : Covers dir log base) {pos : WalOffset} (hpos : base ≤ pos.segmentId) :
    OnBoundary bc dir pos ↔ OnBoundary bc log pos := by
  rw [OnBoundary, h.content_eq hpos, OnBoundary]

/-- A segment in front of `base` may go. -/
lemma remove (h : Covers dir log base) (hid : id < base) : Covers (dir.remove id) log base where
  mem_log id' hid' := h.mem_log id' (Segments.mem_remove.mp hid').2
  mem_dir id' hlog hbase :=
    Segments.mem_remove.mpr ⟨(hid.trans_le hbase).ne', h.mem_dir id' hlog hbase⟩
  content id' hid' := by
    obtain ⟨hne, hdir⟩ := Segments.mem_remove.mp hid'
    rw [Segments.content_remove hne, h.content id' hdir]

/-- The writer appends to the last segment. -/
lemma append (h : Covers dir log base) (hlast : base ≤ last) (b : Bytes) :
    Covers (dir.write last (dir.content last ++ b)) (log.write last (log.content last ++ b))
      base where
  mem_log id' hid' :=
    Segments.mem_write.mpr ((Segments.mem_write.mp hid').imp_right (h.mem_log id'))
  mem_dir id' hid' hbase := Segments.mem_write.mpr
    ((Segments.mem_write.mp hid').imp_right fun hlog => h.mem_dir id' hlog hbase)
  content id' hid' := by
    rw [h.content_eq hlast, Segments.content_write, Segments.content_write]
    split_ifs with heq
    · rfl
    · exact h.content id' ((Segments.mem_write.mp hid').resolve_left heq)

/-- The writer starts the next segment. -/
lemma create (h : Covers dir log base) (hnew : last ∉ log) :
    Covers (dir.create last) (log.create last) base where
  mem_log id' hid' :=
    Segments.mem_create.mpr ((Segments.mem_create.mp hid').imp_right (h.mem_log id'))
  mem_dir id' hid' hbase := Segments.mem_create.mpr
    ((Segments.mem_create.mp hid').imp_right fun hlog => h.mem_dir id' hlog hbase)
  content id' hid' := by
    rw [Segments.content_create, Segments.content_create]
    rcases Segments.mem_create.mp hid' with rfl | hdir
    · rw [Segments.content_of_notMem hnew,
        Segments.content_of_notMem fun h' => hnew (h.mem_log _ h')]
    · exact h.content id' hdir

end Covers

/-- Segment ids and file lengths are `u64` values. -/
def FitsU64 (segs : Segments) : Prop :=
  ∀ id ∈ segs, id < 2 ^ 64 ∧ (segs.content id).length < 2 ^ 64

/-! ### The invariant -/

namespace Forwarder

/-- The cursor is at `base`; or there is none, nothing has been deleted, and `base` is the start of
the first segment. -/
def CursorAt (s : Forwarder) (base : WalOffset) : Prop :=
  readCursor s.dir = .ok (some base) ∨
    readCursor s.dir = .ok none ∧ base.byteOffset = 0 ∧ base.segmentId ∈ s.log ∧
      ∀ id ∈ s.log, base.segmentId ≤ id

/-- A commit up to the position, of a batch that the sink has accepted. -/
def Committing (s : Forwarder) (upTo : WalOffset) : Prop :=
  s.batch = [] ∧ upTo = s.position ∧ upTo.segmentId ∈ s.log

/-- The cursor file is written. -/
def CommittedAt (s : Forwarder) (base upTo : WalOffset) : Prop :=
  base = upTo ∧ readCursor s.dir = .ok (some upTo) ∧ s.uncommitted = []

/-- What the points of the forwarder may rely on. -/
def AtPc (s : Forwarder) (base : WalOffset) : Prop :=
  match s.pc with
  | .select | .committed .. | .returned => s.uncommitted = []
  | .write highest _ => highest = s.position ∧ highest.segmentId ∈ s.log ∧ s.uncommitted = []
  | .createTmp upTo _ | .writeTmp upTo _ => s.Committing upTo
  | .rename upTo _ => s.Committing upTo ∧ s.dir.cursorTmp = some upTo.toBytes
  | .list upTo _ => s.Committing upTo ∧ s.CommittedAt base upTo
  | .remove upTo ids _ =>
    s.Committing upTo ∧ s.CommittedAt base upTo ∧ ∀ id ∈ ids, id < base.segmentId

/-- The invariant of forwarding the log from `start`, with the cursor at `base`. -/
structure Durable (bc : Bincode) (start base : WalOffset) (s : Forwarder) : Prop where
  fits : FitsU64 s.log
  covers : Covers s.dir.segments s.log base.segmentId
  below : ∃ id ∈ s.dir.segments, id ≤ base.segmentId
  start_le : start.segmentId ≤ base.segmentId
  base_le : base.segmentId ≤ s.position.segmentId
  position_le : ∃ last, EndsWith s.log last ∧ s.position.segmentId ≤ last
  onBoundary_start : OnBoundary bc s.log start
  onBoundary_base : OnBoundary bc s.log base
  onBoundary : OnBoundary bc s.log s.position
  cursorAt : s.CursorAt base
  entries : entriesFrom bc s.log start = s.accepted ++ s.batch ++ entriesFrom bc s.log s.position
  replay : entriesFrom bc s.log base = s.uncommitted ++ s.batch ++ entriesFrom bc s.log s.position
  suffix : s.uncommitted <:+ s.accepted
  batch_last : ∀ e ∈ s.batch.getLast?, e.offsetAfter = s.position ∧ s.position.segmentId ∈ s.log
  atPc : s.AtPc base

variable {start base : WalOffset} {s s' : Forwarder} {l : ForwarderLabel}

/-- A step that changes none of what the invariant speaks of, but for the point. -/
lemma Durable.goto (h : Durable bc start base s) (pc : ForwarderPc) (tmp : Option Bytes) (gc : ℕ)
    (hpc : AtPc { s with dir := { s.dir with cursorTmp := tmp }, lastGcSegmentId := gc, pc := pc }
      base) :
    Durable bc start base
      { s with dir := { s.dir with cursorTmp := tmp }, lastGcSegmentId := gc, pc := pc } where
  fits := h.fits
  covers := h.covers
  below := h.below
  start_le := h.start_le
  base_le := h.base_le
  position_le := h.position_le
  onBoundary_start := h.onBoundary_start
  onBoundary_base := h.onBoundary_base
  onBoundary := h.onBoundary
  cursorAt := h.cursorAt
  entries := h.entries
  replay := h.replay
  suffix := h.suffix
  batch_last := h.batch_last
  atPc := hpc

/-- A step of the writer. -/
lemma Durable.grow (h : Durable bc start base s) {last last' : ℕ} {dir' log' : Segments}
    (hends : EndsWith s.log last) (hg : Grows s.log last log' last')
    (hcovers : Covers dir' log' base.segmentId) (hfits : FitsU64 log')
    (hdir : ∀ id ∈ s.dir.segments, id ∈ dir') :
    Durable bc start base { s with dir := { s.dir with segments := dir' }, log := log' } := by
  obtain ⟨last₀, hends₀, hposition⟩ := h.position_le
  obtain rfl : last₀ = last := le_antisymm (hends.2 _ hends₀.1) (hends₀.2 _ hends.1)
  obtain ⟨new, hnew⟩ := hg.entries bc hends
  have hbase := h.base_le.trans hposition
  have hstart := h.start_le.trans hbase
  constructor
  case fits => exact hfits
  case covers => exact hcovers
  case below =>
    obtain ⟨id, hid, hle⟩ := h.below
    exact ⟨id, hdir id hid, hle⟩
  case start_le => exact h.start_le
  case base_le => exact h.base_le
  case position_le => exact ⟨last', hg.endsWith hends, hposition.trans hg.le_last⟩
  case onBoundary_start => exact hg.onBoundary h.onBoundary_start
  case onBoundary_base => exact hg.onBoundary h.onBoundary_base
  case onBoundary => exact hg.onBoundary h.onBoundary
  case cursorAt =>
    rcases h.cursorAt with hsome | ⟨hnone, hoff, hmem, hle⟩
    · exact .inl hsome
    · refine .inr ⟨hnone, hoff, hg.mem hmem, ?_⟩
      intro id hid
      rcases hg.mem_or_lt hends hid with hid | hlt
      · exact hle id hid
      · exact hbase.trans hlt.le
  case entries =>
    show entriesFrom bc log' start = s.accepted ++ s.batch ++ entriesFrom bc log' s.position
    rw [hnew start h.onBoundary_start hstart, hnew s.position h.onBoundary hposition, h.entries,
      List.append_assoc]
  case replay =>
    show entriesFrom bc log' base = s.uncommitted ++ s.batch ++ entriesFrom bc log' s.position
    rw [hnew base h.onBoundary_base hbase, hnew s.position h.onBoundary hposition, h.replay,
      List.append_assoc]
  case suffix => exact h.suffix
  case batch_last =>
    intro e he
    exact (h.batch_last e he).imp_right hg.mem
  case atPc =>
    have hpc := h.atPc
    have hcommit : ∀ upTo, s.Committing upTo →
        Committing { s with dir := { s.dir with segments := dir' }, log := log' } upTo :=
      fun upTo hc => ⟨hc.1, hc.2.1, hg.mem hc.2.2⟩
    unfold AtPc at hpc ⊢
    dsimp only
    split
    all_goals
      rename_i heq
      rw [heq] at hpc
    · exact hpc
    · exact hpc
    · exact hpc
    · exact ⟨hpc.1, hg.mem hpc.2.1, hpc.2.2⟩
    · exact hcommit _ hpc
    · exact hcommit _ hpc
    · exact ⟨hcommit _ hpc.1, hpc.2⟩
    · exact ⟨hcommit _ hpc.1, hpc.2⟩
    · exact ⟨hcommit _ hpc.1, hpc.2⟩

/-- `next` returns the first entry behind the position. -/
lemma Durable.next (h : Durable bc start base s) (hpc : s.uncommitted = []) {e : WalEntry}
    {rest : List WalEntry} (he : entriesFrom bc s.dir.segments s.position = e :: rest) :
    Durable bc start base
      { s with batch := s.batch ++ [e], position := e.offsetAfter, pc := .select } := by
  obtain ⟨last, hends, -⟩ := h.position_le
  rw [h.covers.entriesFrom_eq h.base_le] at he
  have hfirst := firstEntry_of_cons hends.2 he
  have hmem : e.offsetAfter.segmentId ∈ s.log := hfirst.after ▸ hfirst.mem
  constructor
  case fits => exact h.fits
  case covers => exact h.covers
  case below => exact h.below
  case start_le => exact h.start_le
  case base_le => exact h.base_le.trans (hfirst.le.trans_eq hfirst.after.symm)
  case position_le => exact ⟨last, hends, hends.2 _ hmem⟩
  case onBoundary_start => exact h.onBoundary_start
  case onBoundary_base => exact h.onBoundary_base
  case onBoundary => exact hfirst.boundary h.onBoundary
  case cursorAt => exact h.cursorAt
  case entries =>
    show entriesFrom bc s.log start = s.accepted ++ (s.batch ++ [e]) ++ _
    rw [h.entries, he, hfirst.rest_eq]
    simp
  case replay =>
    show entriesFrom bc s.log base = s.uncommitted ++ (s.batch ++ [e]) ++ _
    rw [h.replay, he, hfirst.rest_eq]
    simp
  case suffix => exact h.suffix
  case batch_last =>
    intro e' he'
    rw [List.getLast?_append_of_ne_nil _ (List.cons_ne_nil _ _), List.getLast?_singleton] at he'
    cases he'
    exact ⟨rfl, hmem⟩
  case atPc => exact hpc

/-- `flush` commits up to the end of the last entry of its batch. -/
lemma Durable.startFlush (h : Durable bc start base s) (hpc : s.pc = .select) (closing : Bool) :
    Durable bc start base (s.startFlush closing) := by
  have hselect := h.atPc
  simp only [AtPc, hpc] at hselect
  unfold Forwarder.startFlush
  cases hlast : s.batch.getLast? with
  | none => exact h
  | some e =>
    obtain ⟨hafter, hmem⟩ := h.batch_last e hlast
    exact h.goto (.write e.offsetAfter closing) s.dir.cursorTmp s.lastGcSegmentId
      ⟨hafter, hafter ▸ hmem, hselect⟩

/-- The sink accepts the batch. -/
lemma Durable.accept (h : Durable bc start base s) {highest : WalOffset} {closing : Bool}
    (hpc : s.pc = .write highest closing) :
    Durable bc start base
      { s with
        batch := [], accepted := s.accepted ++ s.batch, uncommitted := s.batch,
        pc := .createTmp highest closing } := by
  have hwrite := h.atPc
  simp only [AtPc, hpc] at hwrite
  obtain ⟨hposition, hmem, huncommitted⟩ := hwrite
  constructor
  case fits => exact h.fits
  case covers => exact h.covers
  case below => exact h.below
  case start_le => exact h.start_le
  case base_le => exact h.base_le
  case position_le => exact h.position_le
  case onBoundary_start => exact h.onBoundary_start
  case onBoundary_base => exact h.onBoundary_base
  case onBoundary => exact h.onBoundary
  case cursorAt => exact h.cursorAt
  case entries => simpa using h.entries
  case replay => simpa [huncommitted] using h.replay
  case suffix => exact List.suffix_append _ _
  case batch_last => exact nofun
  case atPc => exact ⟨rfl, hposition, hmem⟩

lemma fitsU64_position (h : Durable bc start base s) : s.position.FitsU64 := by
  obtain ⟨last, hends, hle⟩ := h.position_le
  refine ⟨hle.trans_lt (h.fits last hends.1).1, ?_⟩
  have hbound := ((frames bc).mem_boundaries.mp h.onBoundary).1
  by_cases hmem : s.position.segmentId ∈ s.log
  · exact hbound.trans_lt (h.fits _ hmem).2
  · rw [Segments.content_of_notMem hmem] at hbound
    exact hbound.trans_lt (by decide)

/-- The rename makes the position the cursor. -/
lemma Durable.rename (h : Durable bc start base s) {upTo : WalOffset} {closing : Bool}
    (hpc : s.pc = .rename upTo closing) :
    Durable bc start upTo
      { s with
        dir := { s.dir with cursor := s.dir.cursorTmp, cursorTmp := none }
        uncommitted := []
        pc := if s.runGc upTo then .list upTo closing else .committed upTo closing } := by
  have hrename := h.atPc
  simp only [AtPc, hpc] at hrename
  obtain ⟨⟨hbatch, rfl, hmem⟩, htmp⟩ := hrename
  have hcursor : readCursor { s.dir with cursor := s.dir.cursorTmp, cursorTmp := none } =
      .ok (some s.position) := readCursor_toBytes (fitsU64_position h) htmp
  constructor
  case fits => exact h.fits
  case covers => exact h.covers.mono h.base_le
  case below =>
    obtain ⟨id, hid, hle⟩ := h.below
    exact ⟨id, hid, hle.trans h.base_le⟩
  case start_le => exact h.start_le.trans h.base_le
  case base_le => exact le_rfl
  case position_le => exact h.position_le
  case onBoundary_start => exact h.onBoundary_start
  case onBoundary_base => exact h.onBoundary
  case onBoundary => exact h.onBoundary
  case cursorAt => exact .inl hcursor
  case entries => exact h.entries
  case replay => simp [hbatch]
  case suffix => exact List.nil_suffix
  case batch_last => exact h.batch_last
  case atPc =>
    unfold AtPc
    dsimp only
    split_ifs
    · exact ⟨⟨hbatch, rfl, hmem⟩, rfl, hcursor, rfl⟩
    · rfl

/-- A commit removes a segment in front of the cursor, or fails to. -/
lemma Durable.remove (h : Durable bc start base s) {upTo : WalOffset} {id : ℕ} {ids : List ℕ}
    {closing : Bool} (hpc : s.pc = .remove upTo (id :: ids) closing) (ok : Bool) :
    Durable bc start base
      { s with
        dir := { s.dir with segments := if ok then s.dir.segments.remove id else s.dir.segments }
        pc := .remove upTo ids closing } := by
  have hremove := h.atPc
  simp only [AtPc, hpc] at hremove
  obtain ⟨hcommit, hcursor, hids⟩ := hremove
  obtain ⟨hid, hrest⟩ := List.forall_mem_cons.mp hids
  have hbase : base.segmentId ∈ s.log := hcursor.1 ▸ hcommit.2.2
  have hdir := h.covers.mem_dir _ hbase le_rfl
  constructor
  case fits => exact h.fits
  case covers =>
    cases ok with
    | true => exact h.covers.remove hid
    | false => exact h.covers
  case below =>
    refine ⟨base.segmentId, ?_, le_rfl⟩
    cases ok with
    | true => exact Segments.mem_remove.mpr ⟨hid.ne', hdir⟩
    | false => exact hdir
  case start_le => exact h.start_le
  case base_le => exact h.base_le
  case position_le => exact h.position_le
  case onBoundary_start => exact h.onBoundary_start
  case onBoundary_base => exact h.onBoundary_base
  case onBoundary => exact h.onBoundary
  case cursorAt => exact .inl (hcursor.1 ▸ hcursor.2.1)
  case entries => exact h.entries
  case replay => exact h.replay
  case suffix => exact h.suffix
  case batch_last => exact h.batch_last
  case atPc => exact ⟨hcommit, hcursor, hrest⟩

lemma endsWith_of_lastSegment {last : ℕ} (h : s.lastSegment = some last) : EndsWith s.log last :=
  getLast?_listSegments h

lemma Durable.append (h : Durable bc start base s) {last : ℕ} {b : Bytes}
    (hlast : s.lastSegment = some last)
    (hlen : (s.log.content last).length + b.length < 2 ^ 64) :
    Durable bc start base { s with
      dir := { s.dir with
        segments := s.dir.segments.write last (s.dir.segments.content last ++ b) }
      log := s.log.write last (s.log.content last ++ b) } := by
  have hends := endsWith_of_lastSegment hlast
  obtain ⟨last₀, hends₀, hposition⟩ := h.position_le
  apply h.grow hends (.append b)
  · exact h.covers.append (h.base_le.trans (hposition.trans (hends.2 _ hends₀.1))) b
  · intro id hid
    rw [Segments.content_write]
    split_ifs with heq
    · exact ⟨heq ▸ (h.fits last hends.1).1, by rwa [List.length_append]⟩
    · exact h.fits id ((Segments.mem_write.mp hid).resolve_left heq)
  · exact fun id hid => Segments.mem_write.mpr (.inr hid)

lemma Durable.createSegment (h : Durable bc start base s) {last : ℕ}
    (hlast : s.lastSegment = some last) (hlt : last + 1 < 2 ^ 64) :
    Durable bc start base { s with
      dir := { s.dir with segments := s.dir.segments.create (last + 1) }
      log := s.log.create (last + 1) } := by
  have hends := endsWith_of_lastSegment hlast
  have hnew : last + 1 ∉ s.log := fun hid => absurd (hends.2 _ hid) (by omega)
  apply h.grow hends .create
  · exact h.covers.create hnew
  · intro id hid
    rw [Segments.content_create]
    rcases Segments.mem_create.mp hid with rfl | hid
    · rw [Segments.content_of_notMem hnew]
      exact ⟨hlt, by decide⟩
    · exact h.fits id hid
  · exact fun id hid => Segments.mem_create.mpr (.inr hid)

/-- Every step keeps the invariant; only the rename of a commit moves the cursor. -/
lemma Durable.step (h : Durable bc start base s) (hs : step bc batchSize s l = some s') :
    ∃ base', Durable bc start base' s' := by
  have hatPc := h.atPc
  unfold AtPc at hatPc
  cases ForwarderRule.of_step hs with
  | append hlast hlen => exact ⟨base, h.append hlast hlen⟩
  | createSegment hlast hlt => exact ⟨base, h.createSegment hlast hlt⟩
  | idle | refuse | createTmpFailed => exact ⟨base, h⟩
  | tick hpc => exact ⟨base, h.startFlush hpc false⟩
  | closed hpc => exact ⟨base, h.startFlush hpc true⟩
  | entry hpc hnext =>
    rw [hpc] at hatPc
    exact ⟨base, hpc ▸ h.next hatPc hnext⟩
  | entryFull hpc hnext =>
    rw [hpc] at hatPc
    have hd := h.next hatPc hnext
    rw [← hpc] at hd
    exact ⟨base, hd.startFlush hpc false⟩
  | closedEmpty hpc =>
    rw [hpc] at hatPc
    exact ⟨base, h.goto .returned s.dir.cursorTmp s.lastGcSegmentId hatPc⟩
  | accept hpc => exact ⟨base, h.accept hpc⟩
  | createTmp hpc =>
    rw [hpc] at hatPc
    exact ⟨base, h.goto (.writeTmp _ _) (some []) s.lastGcSegmentId hatPc⟩
  | writeTmp hpc =>
    rw [hpc] at hatPc
    exact ⟨base, h.goto (.writeTmp _ _) (some _) s.lastGcSegmentId hatPc⟩
  | writeTmpDone hpc =>
    rw [hpc] at hatPc
    exact ⟨base, h.goto (.rename _ _) (some _) s.lastGcSegmentId ⟨hatPc, rfl⟩⟩
  | writeTmpFailed hpc =>
    rw [hpc] at hatPc
    exact ⟨base, h.goto (.createTmp _ _) s.dir.cursorTmp s.lastGcSegmentId hatPc⟩
  | rename hpc => exact ⟨_, h.rename hpc⟩
  | renameFailed hpc | listFailed hpc =>
    rw [hpc] at hatPc
    exact ⟨base, h.goto (.createTmp _ _) s.dir.cursorTmp s.lastGcSegmentId hatPc.1⟩
  | list hpc =>
    rw [hpc] at hatPc
    obtain ⟨hcommitting, hcommitted⟩ := hatPc
    refine ⟨base, h.goto (.remove _ _ _) s.dir.cursorTmp s.lastGcSegmentId
      ⟨hcommitting, hcommitted, ?_⟩⟩
    intro id hid
    have hlt := List.mem_takeWhile_imp hid
    rw [hcommitted.1]
    exact of_decide_eq_true hlt
  | @remove _ _ _ _ ok hpc => exact ⟨base, h.remove hpc ok⟩
  | removed hpc =>
    rw [hpc] at hatPc
    exact ⟨base, h.goto (.committed _ _) s.dir.cursorTmp s.lastGcSegmentId hatPc.2.1.2.2⟩
  | @committed _ closing hpc =>
    rw [hpc] at hatPc
    refine ⟨base, h.goto (if closing then .returned else .select) s.dir.cursorTmp _ ?_⟩
    cases closing with
    | true => exact hatPc
    | false => exact hatPc

end Forwarder

/-! ### Opening the directory -/

namespace Recovered

variable {segs segs' : Segments} {active : WalOffset}

lemma content_length_le (h : Recovered bc segs segs' active) (id : ℕ) :
    (segs'.content id).length ≤ (segs.content id).length := by
  by_cases hid : id = active.segmentId
  · rw [hid, h.content_active]
    exact List.length_take_le' _ _
  · rw [h.content_ne id hid]

lemma fitsU64_create (h : Recovered bc segs segs' active) (hfits : FitsU64 segs) :
    FitsU64 (segs'.create active.segmentId) := by
  have hmem : ∀ id ∈ segs, id < 2 ^ 64 ∧ (segs'.content id).length < 2 ^ 64 :=
    fun id hid => ⟨(hfits id hid).1, (h.content_length_le id).trans_lt (hfits id hid).2⟩
  intro id hid
  rw [Segments.content_create]
  rcases Segments.mem_create.mp hid with rfl | hid
  · rcases h.active_mem with ⟨hnone, rfl⟩ | hactive
    · have hempty : 1 ∉ segs' := fun hid => hnone 1 ((h.mem_iff 1).mp hid)
      rw [Segments.content_of_notMem hempty]
      exact ⟨by decide, by decide⟩
    · exact hmem _ hactive
  · exact hmem id ((h.mem_iff id).mp hid)

end Recovered

namespace Forwarder

variable {start base : WalOffset} {s : Forwarder}

/-- The state after `Wal::open`. -/
lemma Durable.init {d : WalDir} {w : Wal} (hopen : Wal.open bc d = .ok w)
    (hcursor : ∀ off, readCursor d = .ok (some off) → OnBoundary bc d.segments off)
    (hfits : FitsU64 d.segments) :
    Durable bc w.subscription.position w.subscription.position (Forwarder.init w) := by
  obtain ⟨segs, active, start, hr, hstart, rfl⟩ := open_eq_ok hopen
  have hends := hr.endsWith_create
  have hbound : OnBoundary bc (segs.create active.segmentId) start := by
    rw [OnBoundary, Segments.content_create]
    exact hr.onBoundary (boundary_of_readStart hstart hcursor)
  have hle := le_of_readStart hr hstart
  have hfirst : d.segments.listSegments.head?.getD active.segmentId ∈
      segs.create active.segmentId := by
    cases hhead : d.segments.listSegments.head? with
    | none => exact hends.1
    | some id =>
      have hid := Segments.mem_listSegments.mp (List.mem_of_mem_head? hhead)
      exact Segments.mem_create.mpr (.inr ((hr.mem_iff id).mpr hid))
  constructor
  case fits => exact hr.fitsU64_create hfits
  case covers => exact Covers.refl _ _
  case below =>
    rcases readStart_eq_ok hstart with ⟨-, rfl⟩ | ⟨-, hfirst_le, -⟩
    · exact ⟨_, hfirst, le_rfl⟩
    · exact ⟨_, hfirst, hfirst_le⟩
  case start_le => exact le_rfl
  case base_le => exact le_rfl
  case position_le => exact ⟨_, hends, hle⟩
  case onBoundary_start => exact hbound
  case onBoundary_base => exact hbound
  case onBoundary => exact hbound
  case cursorAt =>
    rcases readStart_eq_ok hstart with ⟨hnone, rfl⟩ | ⟨hsome, -, -⟩
    · refine .inr ⟨hnone, rfl, hfirst, ?_⟩
      intro id hid
      rcases Segments.mem_create.mp hid with rfl | hid
      · exact hle
      · exact head?_listSegments_le ((hr.mem_iff id).mp hid) _
    · exact .inl hsome
  case entries => rfl
  case replay => rfl
  case suffix => exact List.suffix_rfl
  case batch_last => exact nofun
  case atPc => rfl

/-- The directory opens again, and the subscription starts at the cursor. -/
lemma Durable.reopen (h : Durable bc start base s) :
    ∃ w', Wal.open bc s.dir = .ok w' ∧ w'.subscription.position = base ∧
      entriesFrom bc w'.writer.segments base = entriesFrom bc s.log base := by
  obtain ⟨segs, active, hrec, hr⟩ := recoverActive_eq bc s.dir.segments
  obtain ⟨last, hends, hposition⟩ := h.position_le
  have hactive : base.segmentId ≤ active.segmentId := by
    have hbase := h.base_le.trans hposition
    exact hbase.trans (hr.le_active last (h.covers.mem_dir last hends.1 hbase))
  have hstart : readStart s.dir active.segmentId = .ok base := by
    unfold readStart
    rcases h.cursorAt with hsome | ⟨hnone, hoff, hmem, hle⟩
    · obtain ⟨id, hid, hbelow⟩ := h.below
      have hfirst := (head?_listSegments_le hid active.segmentId).trans hbelow
      simp only [hsome]
      rw [if_neg (by omega)]
    · have hfirst := head?_listSegments (h.covers.mem_dir _ hmem le_rfl)
        fun id hid => hle id (h.covers.mem_log id hid)
      simp only [hnone, hfirst, Option.getD_some, ← hoff]
  refine ⟨⟨.spawn segs active, .new base, s.dir.cursor, s.dir.cursorTmp⟩, ?_, rfl, ?_⟩
  · simp only [Wal.open, hrec, hstart]
  · calc entriesFrom bc (segs.create active.segmentId) base
        = entriesFrom bc segs base := by
          apply hr.entriesFrom_of_create
          · exact fun id => Segments.mem_create
          · exact Segments.content_create _
      _ = entriesFrom bc s.dir.segments base :=
          hr.entriesFrom_eq ((h.covers.onBoundary_iff le_rfl).mpr h.onBoundary_base)
      _ = entriesFrom bc s.log base := h.covers.entriesFrom_eq le_rfl

/-- After a crash in any state of any run, the directory opens again. The entries that the sink has
not accepted lie behind the cursor, every segment from the cursor on is there, and what is replayed
is the batch that was accepted and not committed, followed by everything unaccepted. -/
theorem replay_of_crash {d : WalDir} {w : Wal} (hopen : Wal.open bc d = .ok w)
    (hcursor : ∀ off, readCursor d = .ok (some off) → OnBoundary bc d.segments off)
    (hfits : FitsU64 d.segments)
    (h : Reachable (Forwarder.step bc batchSize) (Forwarder.init w) s) :
    ∃ w' unaccepted, Wal.open bc s.dir = .ok w' ∧
      entriesFrom bc s.log w.subscription.position = s.accepted ++ unaccepted ∧
      (∀ off, readCursor s.dir = .ok (some off) → ∀ e ∈ unaccepted, off ≤ e.offset) ∧
      (∀ id ∈ s.log, (∀ off, readCursor s.dir = .ok (some off) → off.segmentId ≤ id) →
        id ∈ s.dir.segments ∧ s.dir.segments.content id = s.log.content id) ∧
      (∀ e ∈ unaccepted, w'.subscription.position ≤ e.offset) ∧
      entriesFrom bc w'.writer.segments w'.subscription.position = s.uncommitted ++ unaccepted ∧
      s.uncommitted <:+ s.accepted := by
  obtain ⟨base, hd⟩ : ∃ base, Durable bc w.subscription.position base s :=
    h.invariant (P := fun t => ∃ base, Durable bc w.subscription.position base t)
      ⟨_, Durable.init hopen hcursor hfits⟩ fun t l t' ⟨_, ht⟩ _ hstep => ht.step hstep
  obtain ⟨w', hopen', hposition, hreplay⟩ := hd.reopen
  have hbehind : ∀ e ∈ s.batch ++ entriesFrom bc s.log s.position, base ≤ e.offset := by
    intro e he
    have hmem : e ∈ entriesFrom bc s.log base := by
      rw [hd.replay, List.append_assoc]
      exact List.mem_append_right _ he
    exact le_of_mem_entriesFrom hmem
  refine ⟨w', s.batch ++ entriesFrom bc s.log s.position, hopen', ?_, ?_, ?_, ?_, ?_, hd.suffix⟩
  · rw [hd.entries, List.append_assoc]
  · intro off hoff
    rcases hd.cursorAt with hsome | ⟨hnone, -⟩
    · rw [hsome] at hoff
      cases hoff
      exact hbehind
    · rw [hnone] at hoff
      cases hoff
  · intro id hid hle
    have hbase : base.segmentId ≤ id := by
      rcases hd.cursorAt with hsome | ⟨-, -, -, hfirst⟩
      · exact hle base hsome
      · exact hfirst id hid
    exact ⟨hd.covers.mem_dir id hid hbase, hd.covers.content_eq hbase⟩
  · rw [hposition]
    exact hbehind
  · rw [hposition, hreplay, hd.replay, List.append_assoc]

/-- Two segments with a record each. -/
def twoSegments : WalDir :=
  ⟨((∅ : Segments).write 1
      [25, 0, 0, 0, 1, 0, 0, 0, 0, 0, 0, 0, 97, 1, 0, 0, 0, 0, 0, 0, 0, 0, 0, 0, 0, 0, 0, 0, 0]).write 2
      [25, 0, 0, 0, 1, 0, 0, 0, 0, 0, 0, 0, 98, 1, 0, 0, 0, 0, 0, 0, 0, 0, 0, 0, 0, 0, 0, 0, 0],
    none, none⟩

/-- The first record is committed; the second one is accepted, and the crash comes while its cursor
is being written. -/
def halfWritten : List ForwarderLabel :=
  [.tick, .entry, .tick, .sink .retryable, .sink .ok, .createTmp false, .createTmp true,
    .writeTmpDone, .rename true, .list true, .done, .done,
    .entry, .closed, .sink .permanent, .sink .ok, .createTmp true, .writeTmp 3]

lemma fitsU64_twoSegments : FitsU64 twoSegments.segments := by
  intro id hid
  rcases Segments.mem_write.mp hid with rfl | hid
  · exact ⟨by decide, by decide⟩
  · rcases Segments.mem_write.mp hid with rfl | hid
    · exact ⟨by decide, by decide⟩
    · exact absurd hid (AList.notMem_empty id)

theorem replay_of_halfWritten :
    ∃ w s w' unaccepted, Wal.open Bincode.fixint twoSegments = .ok w ∧
      exec (Forwarder.step Bincode.fixint 8) (Forwarder.init w) halfWritten = some s ∧
      s.uncommitted = [⟨⟨2, 0⟩, ⟨2, 29⟩, ⟨"b", 1, ""⟩⟩] ∧
      Wal.open Bincode.fixint s.dir = .ok w' ∧
      entriesFrom Bincode.fixint w'.writer.segments w'.subscription.position =
        s.uncommitted ++ unaccepted := by
  obtain ⟨w, s, hopen, hexec, huncommitted⟩ : ∃ (w : Wal) (s : Forwarder),
      Wal.open Bincode.fixint twoSegments = .ok w ∧
      exec (Forwarder.step Bincode.fixint 8) (Forwarder.init w) halfWritten = some s ∧
      s.uncommitted = [⟨⟨2, 0⟩, ⟨2, 29⟩, ⟨"b", 1, ""⟩⟩] := ⟨_, _, rfl, rfl, rfl⟩
  obtain ⟨w', unaccepted, hopen', -, -, -, -, hreplay, -⟩ :=
    replay_of_crash hopen nofun fitsU64_twoSegments (Reachable.of_exec hexec)
  exact ⟨w, s, w', unaccepted, hopen, hexec, huncommitted, hopen', hreplay⟩

end Forwarder

end SmarthomeIngest
