import SmarthomeIngest.Wal.Open
import SmarthomeIngest.Wal.Writer.OnTheWay

/-!
# The first record

Where the first record of a writer goes is settled by its length. Until it is there, the files are
those the writer started with; then they show none of it, a part of it or all of it, and all of it
once the head is behind it.
-/

namespace SmarthomeIngest

open Transition

/-! ### Definitions -/

/-- Where the first record goes, of that length, of a writer that starts at `start`. -/
def firstPlace (segmentBytes : ℕ) (start : WalOffset) (len : ℕ) : WalOffset :=
  if 0 < start.byteOffset ∧ segmentBytes < start.byteOffset + len then ⟨start.segmentId + 1, 0⟩
  else start

namespace Writer

/-- Where the writer is before its first record. -/
def AtFirst (segmentBytes : ℕ) (start pos : WalOffset) : WriterPc → Prop
  | .rotateFlush _ frame | .rotatePublish _ frame | .rotateNotify _ frame | .rotateAck _ frame
  | .openNext _ frame =>
    pos = start ∧ firstPlace segmentBytes start frame.length = ⟨start.segmentId + 1, 0⟩
  | .writeAll _ frame => pos = firstPlace segmentBytes start frame.length
  | .dropNotify | .dropRx | .dropWriter | .exited => True
  | _ => pos = start

/-- The first record is where the writer was before it, and until then the head does not move. -/
structure First (segmentBytes : ℕ) (start : WalOffset) (s : Writer) : Prop where
  position : s.records = [] → AtFirst segmentBytes start s.position s.pc
  head : s.records = [] → s.head = start
  offset : ∀ r rest, s.records = r :: rest →
    r.offset = firstPlace segmentBytes start r.frame.length

/-- The records lie in segments up to the current one, and those below the head in their files. -/
def Published (s : Writer) : Prop :=
  ∀ r ∈ s.records, r.segmentId ≤ s.currentSegmentId ∧
    (r.offsetAfter ≤ s.head → r.In (s.segments.content r.segmentId))

/-- `r` is the first record, or may become it. -/
def Leads (r : Record) (s : Writer) : Prop :=
  (∃ rest, s.records = r :: rest) ∨ s.records = [] ∧ s.pc.Running

end Writer

/-- What the files show of the first record `r` of a writer that started on the files `base`. -/
structure WalView.Shows (base : Segments) (r : Record) (v : WalView) : Prop where
  older : ∀ id < r.segmentId, v.segments.content id = base.content id
  base_prefix : base.content r.segmentId <+: v.segments.content r.segmentId
  comparable : v.segments.content r.segmentId <+: base.content r.segmentId ++ r.frame ∨
    base.content r.segmentId ++ r.frame <+: v.segments.content r.segmentId
  reached : v.head.segmentId = r.segmentId → r.start ≤ v.head.byteOffset
  published : r.offsetAfter ≤ v.head →
    base.content r.segmentId ++ r.frame <+: v.segments.content r.segmentId

/-! ### Its place -/

variable {bc : Bincode} {segmentBytes : ℕ} {base : Segments} {start : WalOffset} {r : Record}

lemma firstPlace_of_full {len : ℕ}
    (h : 0 < start.byteOffset ∧ segmentBytes < start.byteOffset + len) :
    firstPlace segmentBytes start len = ⟨start.segmentId + 1, 0⟩ := if_pos h

lemma firstPlace_of_room {len : ℕ}
    (h : ¬ (0 < start.byteOffset ∧ segmentBytes < start.byteOffset + len)) :
    firstPlace segmentBytes start len = start := if_neg h

lemma le_firstPlace (segmentBytes : ℕ) (start : WalOffset) (len : ℕ) :
    start ≤ firstPlace segmentBytes start len := by
  unfold firstPlace
  split_ifs
  · exact WalOffset.le_iff.mpr (.inl (Nat.lt_succ_self _))
  · exact le_rfl

/-- The bytes that lie in front of the first record when the writer starts end at its place. -/
lemma length_of_firstPlace (hlast : ∀ id ∈ base, id ≤ start.segmentId)
    (hlen : (base.content start.segmentId).length = start.byteOffset)
    (hr : r.offset = firstPlace segmentBytes start r.frame.length) :
    (base.content r.segmentId).length = r.start := by
  unfold firstPlace at hr
  split_ifs at hr
  · obtain ⟨hseg, hstart⟩ : r.segmentId = start.segmentId + 1 ∧ r.start = 0 := by
      simpa [Record.offset] using hr
    have hnew : r.segmentId ∉ base := fun hmem => by
      have := hlast _ hmem
      omega
    rw [Segments.content_of_notMem hnew, hstart]
    rfl
  · rw [← hr] at hlen
    exact hlen

/-- The bytes in front of a record are those that it was appended to. -/
lemma Record.In.append_isPrefix {b c : Bytes} (h : r.In c) (hb : b <+: c)
    (hlen : b.length = r.start) : b ++ r.frame <+: c := by
  obtain ⟨before, hbefore, hpre⟩ := h
  have heq : before = b := (List.prefix_of_prefix_length_le ((List.prefix_append _ _).trans hpre) hb
    (hbefore.trans hlen.symm).le).eq_of_length (hbefore.trans hlen.symm)
  exact heq ▸ hpre

namespace Writer

variable {s s' : Writer} {l : WriterLabel}

lemma First.spawn : First segmentBytes start (.spawn base start) where
  position _ := rfl
  head _ := rfl
  offset r rest h := by simp [Writer.spawn] at h

/-- A step that writes nothing. -/
lemma First.goto (hf : First segmentBytes start s) (hrecords : s'.records = s.records)
    (hhead : s.records = [] → s'.head = start)
    (hpos : s.records = [] → AtFirst segmentBytes start s'.position s'.pc) :
    First segmentBytes start s' where
  position h := hpos (hrecords ▸ h)
  head h := hhead (hrecords ▸ h)
  offset r rest h := hf.offset r rest (hrecords ▸ h)

lemma First.step (hi : Inv bc segmentBytes base start s.pc s) (hf : First segmentBytes start s)
    (hl : s.Ascends l) (h : step bc segmentBytes s l = some s') : First segmentBytes start s' := by
  have hpos := hf.position
  cases WriterRule.of_step h with
  | send | dropSenders => exact hf.goto rfl hf.head hpos
  | deadlineFlush hpc | deadlineRecv hpc | periodicNotify hpc | periodicAck hpc | recv hpc
  | timeout hpc | disconnected hpc | encodeError hpc | rotateNotify hpc | rotateAck hpc
  | finalAck hpc =>
    rw [hpc] at hpos
    exact hf.goto rfl hf.head hpos
  | periodicPublish hpc | finalPublish hpc =>
    rw [hpc] at hpos
    exact hf.goto rfl hpos hpos
  | rotatePublish hpc =>
    rw [hpc] at hpos
    exact hf.goto rfl (fun hnil => (hpos hnil).1) hpos
  | periodicFlushError hpc hflush | periodicFlush hpc hflush | rotateFlush hpc hflush
  | finalFlushError hpc hflush | finalFlush hpc hflush =>
    rw [hpc] at hpos
    obtain ⟨b, -, rfl⟩ := SegmentWriter.flush_eq hflush
    exact hf.goto rfl hf.head hpos
  | encodeRotate hpc _ hfull =>
    rw [hpc] at hpos
    refine hf.goto rfl hf.head fun hnil => ⟨hpos hnil, ?_⟩
    obtain rfl : s.position = start := hpos hnil
    exact firstPlace_of_full hfull
  | encodeWrite hpc _ hroom =>
    rw [hpc] at hpos
    refine hf.goto rfl hf.head fun hnil => ?_
    obtain rfl : s.position = start := hpos hnil
    refine (firstPlace_of_room ?_).symm
    rcases hroom with hzero | hle
    · exact fun h => absurd hzero h.1.ne'
    · exact fun h => absurd hle (not_le.mpr h.2)
  | openNext hpc =>
    rw [hpc] at hpos
    refine hf.goto rfl hf.head fun hnil => ?_
    obtain ⟨hstart, hfirst⟩ := hpos hnil
    rw [AtFirst, hfirst, ← hstart]
    show WalOffset.mk ((s.currentSegmentId + 1) % 2 ^ 64) 0 = ⟨s.currentSegmentId + 1, 0⟩
    rw [Nat.mod_eq_of_lt hl]
  | rotateFlushError _ hflush =>
    obtain ⟨b, -, rfl⟩ := SegmentWriter.flush_eq hflush
    exact hf.goto rfl hf.head fun _ => trivial
  | writeError _ hwrite =>
    obtain ⟨b, -, rfl⟩ := SegmentWriter.writeAll_error_eq hwrite
    exact hf.goto rfl hf.head fun _ => trivial
  | openNextError | finalNotify | dropNotify | dropRx | dropWriter | dropWriterFlush =>
    exact hf.goto rfl hf.head fun _ => trivial
  | write hpc hwrite =>
    rw [hpc] at hpos hi
    have hlen := (hi.layout trivial).length_contents
    obtain ⟨b, -, rfl⟩ := SegmentWriter.writeAll_ok_eq hwrite
    refine ⟨fun h => by simp at h, fun h => by simp at h, fun r rest h => ?_⟩
    dsimp only [SegmentWriter.setBufWriter] at h
    cases hrec : s.records with
    | nil =>
      rw [hrec] at h
      cases h
      rw [Record.offset, hlen]
      exact hpos hrec
    | cons r' rest' =>
      rw [hrec] at h
      cases h
      exact hf.offset r rest' hrec

/-! ### What is below the head -/

/-- What is below the head is in the files. -/
lemma published_of_layout (hl : Layout base start segmentBytes s.toSegmentWriter s.head)
    (hr : r ∈ s.records) :
    r.segmentId ≤ s.currentSegmentId ∧
      (r.offsetAfter ≤ s.head → r.In (s.segments.content r.segmentId)) := by
  obtain ⟨hseg, before, hlen, hpre⟩ := hl.record r hr
  refine ⟨hseg, fun hle => ⟨before, hlen, ?_⟩⟩
  have hhead := WalOffset.le_iff.mp hl.head_le
  simp only [SegmentWriter.position] at hhead
  rcases WalOffset.le_iff.mp hle with hlt | ⟨heq, hoff⟩
  · -- nothing of an older segment is buffered
    have hne : r.segmentId ≠ s.currentSegmentId := by
      change r.segmentId < s.head.segmentId at hlt
      omega
    rwa [SegmentWriter.bytes, if_neg hne, List.append_nil] at hpre
  · have hvisible := hl.head_visible
    change r.segmentId = s.head.segmentId at heq
    change r.start + r.frame.length ≤ s.head.byteOffset at hoff
    rw [← heq] at hvisible
    refine List.prefix_of_prefix_length_le hpre (List.prefix_append _ _) ?_
    rw [List.length_append]
    omega

lemma published_spawn : Published (.spawn base start) := by
  intro r hr
  simp [Writer.spawn] at hr

lemma Published.step (hi : Inv bc segmentBytes base start s.pc s) (hp : Published s)
    (hl : s.Ascends l) (h : Writer.step bc segmentBytes s l = some s') : Published s' := by
  intro r hr
  by_cases hrun : s'.pc.Running
  · exact published_of_layout ((hi.step hl h).layout hrun) hr
  · obtain ⟨hrecords, hhead⟩ := of_not_running h hrun
    rw [hrecords] at hr
    rw [hhead]
    obtain ⟨hseg, hin⟩ := hp r hr
    exact ⟨hseg.trans (currentSegmentId_of_step hl h),
      fun hle => (hin hle).mono (content_of_step h _)⟩

/-! ### The files -/

/-- A record is added in the segment that the writer is in. -/
lemma currentSegmentId_of_records (h : Writer.step bc segmentBytes s l = some s')
    (hne : s'.records ≠ s.records) : s'.currentSegmentId = s.currentSegmentId := by
  cases WriterRule.of_step h with
  | periodicFlushError _ hflush | periodicFlush _ hflush | rotateFlushError _ hflush
  | rotateFlush _ hflush | finalFlushError _ hflush | finalFlush _ hflush =>
    exact absurd (SegmentWriter.records_of_flush hflush) hne
  | writeError _ hwrite =>
    obtain ⟨b, -, rfl⟩ := SegmentWriter.writeAll_error_eq hwrite
    exact absurd rfl hne
  | write _ hwrite =>
    obtain ⟨b, -, rfl⟩ := SegmentWriter.writeAll_ok_eq hwrite
    rfl
  | _ => exact absurd rfl hne

/-- The state before one from which `r` can be the first record. -/
lemma Leads.before (h : Writer.step bc segmentBytes s l = some s') (hr : Leads r s') :
    Leads r s := by
  by_cases hrun : s'.pc.Running
  · have hrun' := running_before_step h hrun
    cases hrec : s.records with
    | nil => exact .inr ⟨hrec, hrun'⟩
    | cons r' rest' =>
      obtain ⟨more, hmore⟩ := records_of_step h
      rw [hrec] at hmore
      rcases hr with ⟨rest, hrest⟩ | ⟨hnil, -⟩
      · rw [hrest] at hmore
        cases hmore
        exact .inl ⟨rest', hrec⟩
      · rw [hnil] at hmore
        cases hmore
  · rcases hr with ⟨rest, hrest⟩ | ⟨-, hrun'⟩
    · exact .inl ⟨rest, (of_not_running h hrun).1 ▸ hrest⟩
    · exact absurd hrun' hrun

/-- A file is what the writer found, as long as there is no record. -/
lemma content_of_no_records (hl : Layout base start segmentBytes s.toSegmentWriter s.head)
    (hnil : s.records = []) (id : ℕ) : s.segments.content id = base.content id := by
  have hadded := hl.added
  rw [hnil, List.flatMap_nil, List.append_eq_nil_iff] at hadded
  obtain ⟨rest, hrest⟩ := hl.base_prefix id
  by_cases hmem : id ∈ s.segments
  · have hdrop := List.flatMap_eq_nil_iff.mp hadded.1 id (Segments.mem_listSegments.mpr hmem)
    rw [← hrest, List.drop_left] at hdrop
    rw [← hrest, hdrop, List.append_nil]
  · rw [Segments.content_of_notMem hmem] at hrest ⊢
    exact (List.append_eq_nil_iff.mp hrest).1.symm

/-- What is known of the files once the first record is written, whatever fails. -/
structure FirstWritten (base : Segments) (r : Record) (s : Writer) : Prop where
  segment_le : r.segmentId ≤ s.currentSegmentId
  older : ∀ id < r.segmentId, s.segments.content id = base.content id
  ahead : ∃ b, base.content r.segmentId ++ r.frame <+: b ∧ s.onTheWay.content r.segmentId <+: b

lemma FirstWritten.step (hi : Inv bc segmentBytes base start s.pc s) (hl : s.Ascends l)
    (h : Writer.step bc segmentBytes s l = some s')
    (hlen : (base.content r.segmentId).length = r.start)
    (hw : s.records ≠ [] → FirstWritten base r s) {rest : List Record}
    (hr : s'.records = r :: rest) :
    FirstWritten base r s' := by
  by_cases hrun : s'.pc.Running
  · have hlayout := (hi.step hl h).layout hrun
    obtain ⟨hseg, hin⟩ := hlayout.record r (hr ▸ List.mem_cons_self)
    refine ⟨hseg, fun id hid => ?_, _, ?_, List.prefix_rfl⟩
    · by_cases hnil : s.records = []
      · have hcur := currentSegmentId_of_records h (by simp [hnil, hr])
        rw [content_of_lt h (hid.trans_le (hseg.trans_eq hcur))]
        exact content_of_no_records (hi.layout (running_before_step h hrun)) hnil id
      · have hold := hw hnil
        rw [content_of_lt h (hid.trans_le hold.segment_le), hold.older id hid]
    · refine (hin.append_isPrefix ?_ hlen).trans (s'.bytes_prefix_onTheWay _)
      exact (hlayout.base_prefix _).trans (List.prefix_append _ _)
  · have hold := hw ((of_not_running h hrun).1 ▸ hr ▸ List.cons_ne_nil _ _)
    obtain ⟨b, hb, hway⟩ := hold.ahead
    refine ⟨hold.segment_le.trans (currentSegmentId_of_step hl h), fun id hid => ?_, b, hb,
      (onTheWay_of_step h hrun _).trans hway⟩
    rw [content_of_lt h (hid.trans_le hold.segment_le), hold.older id hid]

/-- In a run whose rotations go up, the first record goes where it has to. -/
lemma first_of_reach (hlast : ∀ id ∈ base, id ≤ start.segmentId)
    (hlen : (base.content start.segmentId).length = start.byteOffset)
    (h : Reach (Writer.step bc segmentBytes) Ascends (.spawn base start) s) :
    Inv bc segmentBytes base start s.pc s ∧ First segmentBytes start s ∧ Published s := by
  refine h.invariant (P := fun s => Inv bc segmentBytes base start s.pc s ∧
    First segmentBytes start s ∧ Published s) ⟨.spawn hlast hlen, .spawn, published_spawn⟩ ?_
  rintro t a t' ⟨hi, hf, hp⟩ hl hstep
  exact ⟨hi.step hl hstep, hf.step hi hl hstep, hp.step hi hl hstep⟩

/-- Whatever fails, the files have the first record, or a part of it, once it is written. -/
lemma firstWritten_of_reach (hlast : ∀ id ∈ base, id ≤ start.segmentId)
    (hlen : (base.content start.segmentId).length = start.byteOffset)
    (hrlen : (base.content r.segmentId).length = r.start)
    (h : Reach (Writer.step bc segmentBytes) Ascends (.spawn base start) s) {rest : List Record}
    (hrest : s.records = r :: rest) : FirstWritten base r s := by
  suffices hs : Leads r s → s.records ≠ [] → FirstWritten base r s from
    hs (.inl ⟨rest, hrest⟩) (hrest ▸ List.cons_ne_nil _ _)
  refine (h.invariant (P := fun s => Inv bc segmentBytes base start s.pc s ∧
    (Leads r s → s.records ≠ [] → FirstWritten base r s))
    ⟨.spawn hlast hlen, fun _ h => absurd rfl h⟩ ?_).2
  rintro t a t' ⟨ht, hw⟩ hl hstep
  refine ⟨ht.step hl hstep, fun hleads hne => ?_⟩
  obtain ⟨rest', hrest'⟩ := hleads.resolve_right fun h => hne h.1
  exact FirstWritten.step ht hl hstep hrlen (hw (hleads.before hstep)) hrest'

/-- In every state from which `r` can be the first record, or in which it is, the files show of it
what `Shows` says. -/
lemma shows_of_reach (hlast : ∀ id ∈ base, id ≤ start.segmentId)
    (hlen : (base.content start.segmentId).length = start.byteOffset)
    (hr : r.offset = firstPlace segmentBytes start r.frame.length) (hframe : r.frame ≠ [])
    (h : Reach (Writer.step bc segmentBytes) Ascends (.spawn base start) s) (hleads : Leads r s) :
    s.view.Shows base r := by
  have hrlen := length_of_firstPlace hlast hlen hr
  obtain ⟨hi, hf, hp⟩ := first_of_reach hlast hlen h
  have hspawn : Inv bc segmentBytes base start .loopTop (.spawn base start) := .spawn hlast hlen
  have hext := hspawn.extends_reachable h
  have hbase : ∀ id, base.content id <+: s.segments.content id := fun id => by
    have := hext.files id
    rwa [Writer.spawn, Segments.content_create] at this
  have hhead : start ≤ s.head := hext.head
  have hreached : s.head.segmentId = r.segmentId → r.start ≤ s.head.byteOffset := by
    intro hseg
    unfold firstPlace at hr
    split_ifs at hr
    · have hstart : r.start = 0 := congrArg WalOffset.byteOffset hr
      exact hstart ▸ Nat.zero_le _
    · rw [← hr] at hhead
      rcases WalOffset.le_iff.mp hhead with hlt | ⟨-, hle⟩
      · exact absurd hseg hlt.ne'
      · exact hle
  rcases hleads with ⟨rest, hrest⟩ | ⟨hnil, hrun⟩
  · have hwritten := firstWritten_of_reach hlast hlen hrlen h hrest
    obtain ⟨b, hb, hway⟩ := hwritten.ahead
    refine ⟨hwritten.older, hbase _, ?_, hreached, fun hle => ?_⟩
    · exact List.prefix_or_prefix_of_prefix ((s.content_prefix_onTheWay _).trans hway) hb
    · exact ((hp r (hrest ▸ List.mem_cons_self)).2 hle).append_isPrefix (hbase _) hrlen
  · have hsame := content_of_no_records (hi.layout hrun) hnil
    refine ⟨fun id _ => hsame id, hbase _, .inl ?_, hreached, fun hle => ?_⟩
    · show s.segments.content _ <+: _
      rw [hsame]
      exact List.prefix_append _ _
    · -- the head is still where the writer started
      change r.offsetAfter ≤ s.head at hle
      rw [hf.head hnil] at hle
      have hplace := hr ▸ le_firstPlace segmentBytes start r.frame.length
      have hlt : r.offset < r.offsetAfter := WalOffset.lt_iff.mpr
        (.inr ⟨rfl, Nat.lt_add_of_pos_right (List.length_pos_iff.mpr hframe)⟩)
      exact absurd (hlt.trans_le hle) (not_lt.mpr hplace)

end Writer

end SmarthomeIngest
