import SmarthomeIngest.Wal.Live

/-!
# Reading a file that grows

Calls of `read_one` on a segment file of which more and more becomes visible, once with the reader
handed back from call to call and once with the file opened afresh. A reader that has met the end of
the file inside a frame has swallowed the part it saw, and the two runs drift apart; they agree
exactly if no call finds the file ending inside the frame at its offset.
-/

namespace SmarthomeIngest

open Scanner (Piece)

variable (bc : Bincode)

/-! ### Definitions -/

/-- By how much a call of `read_one` lets the offset advance. -/
def ReadOutcome.consumed : ReadOutcome → ℕ
  | .record _ n => n
  | _           => 0

/-- The segment files while `v` bytes of `b` are visible. -/
def visible (segs : Segments) (id : ℕ) (b : Bytes) (v : ℕ) : Segments :=
  segs.write id (b.take v)

/-- The outcomes with the offsets they were found at, one call for each visible length; reader and
scratch buffer are handed back. -/
def tailReads (segs : Segments) (id : ℕ) (b : Bytes) :
    List ℕ → ℕ → Option ℕ → Bytes → List (ℕ × ReadOutcome)
  | [], _, _, _                    => []
  | v :: vs, off, reader, payload =>
    match readOne bc (visible segs id b v) id off reader payload {} with
    | (outcome, reader, payload) =>
      (off, outcome) :: tailReads segs id b vs (off + outcome.consumed) reader payload

/-- The same calls, each of which opens the file and seeks to the offset. -/
def freshReads (segs : Segments) (id : ℕ) (b : Bytes) :
    List ℕ → ℕ → Bytes → List (ℕ × ReadOutcome)
  | [], _, _              => []
  | v :: vs, off, payload =>
    match readOne bc (visible segs id b v) id off none payload {} with
    | (outcome, _, payload) =>
      (off, outcome) :: freshReads segs id b vs (off + outcome.consumed) payload

/-- The frame a call yields. -/
def yieldedFrame : ℕ × ReadOutcome → Option (Piece (Option WalEvent))
  | (off, .record event n) => some ⟨off, n, some event⟩
  | _                      => none

/-- No call finds the visible part of `b` ending inside the frame at its offset. -/
def NeverTorn (b : Bytes) : List ℕ → ℕ → Prop
  | [], _       => True
  | v :: vs, off =>
    match (frames bc).next ((b.take v).drop off) with
    | some (_, n) => NeverTorn b vs (off + n)
    | none        => v ≤ off ∧ NeverTorn b vs off

/-- Where the frames that were visible lead from an offset. -/
def tailOffset (b : Bytes) : List ℕ → ℕ → ℕ
  | [], off      => off
  | v :: vs, off =>
    match (frames bc).next ((b.take v).drop off) with
    | some (_, n) => tailOffset b vs (off + n)
    | none        => tailOffset b vs off

variable {bc} {segs : Segments} {id : ℕ} {b : Bytes} {v off pos n : ℕ}

/-! ### What is visible of a frame -/

@[simp] lemma content_visible (segs : Segments) (id : ℕ) (b : Bytes) (v : ℕ) :
    (visible segs id b v).content id = b.take v := Segments.content_write_self _ _

lemma Clean.cut_ne_oversized {c : Bytes} (hc : Clean bc c) (len : ℕ) :
    Frame.cut c ≠ .oversized len := by
  rcases hc.cases with rfl | ⟨event, n, hnext, -⟩
  · exact fun h => by cases h
  · obtain ⟨body, hcut, -⟩ := exists_of_frames_next hnext
    rw [hcut]
    exact fun h => by cases h

/-- At a frame boundary of a clean string, a call finds the whole next record, or too few bytes. -/
lemma visible_cases (hb : Clean bc b) (hoff : off ∈ (frames bc).boundaries b) (v : ℕ) :
    (∃ event n, (frames bc).next ((b.take v).drop off) = some (some event, n) ∧
      (frames bc).next (b.drop off) = some (some event, n) ∧ off + n ≤ v) ∨
    (frames bc).next ((b.take v).drop off) = none ∧
      Frame.cut ((b.take v).drop off) = .short := by
  have hclean := hb.drop hoff
  rw [List.drop_take]
  cases hnext : (frames bc).next ((b.drop off).take (v - off)) with
  | none => exact .inr ⟨rfl, Frame.cut_take_eq_short hclean.cut_ne_oversized hnext⟩
  | some q =>
    obtain ⟨value, n⟩ := q
    have hle := (frames bc).next_le hnext
    have hpos := (frames bc).next_pos hnext
    have hfull := (frames bc).next_append hnext ((b.drop off).drop (v - off))
    rw [List.take_append_drop] at hfull
    rcases hclean.cases with hnil | ⟨event, n', hrecord, -⟩
    · rw [hnil, Scanner.next_nil] at hfull
      cases hfull
    · rw [hrecord] at hfull
      cases hfull
      rw [List.length_take] at hle
      exact .inl ⟨event, n, rfl, hrecord, by omega⟩

/-! ### Calls of `read_one` -/

lemma openReader_visible (off : ℕ) (reader : Option ℕ) :
    openReader (visible segs id b v) id off {} reader = .ok (reader.getD off) := by
  have hmem : id ∈ visible segs id b v := Segments.mem_write.mpr (.inl rfl)
  cases reader with
  | some pos => rfl
  | none =>
    simp only [openReader, hmem, not_true_eq_false, if_false, Option.getD_none]
    split_ifs with hpos
    · rfl
    · rw [Nat.eq_zero_of_not_pos hpos]

/-- Too few bytes: an end of file, and the reader has swallowed what there was. -/
lemma readOne_visible_of_short (bc : Bincode) (segs : Segments) (id : ℕ) {reader : Option ℕ}
    (hpos : reader.getD off = pos) (p : Bytes) (h : Frame.cut ((b.take v).drop pos) = .short) :
    ∃ p', readOne bc (visible segs id b v) id off reader p {} =
      (.eof, some (pos + ((b.take v).length - pos)), p') := by
  obtain ⟨p', hdec⟩ := decodeInto_of_short bc h p
  refine ⟨p', ?_⟩
  simp only [readOne, openReader_visible, hpos, content_visible, sourceAt_noFaults, hdec,
    List.length_drop, List.length_nil, Nat.sub_zero]

lemma readOne_visible_of_record (bc : Bincode) (segs : Segments) (id : ℕ) {reader : Option ℕ}
    (hpos : reader.getD off = pos) (p : Bytes) {event : WalEvent}
    (h : (frames bc).next ((b.take v).drop pos) = some (some event, n)) :
    ∃ p', readOne bc (visible segs id b v) id off reader p {} =
      (.record event n, some (pos + n), p') := by
  have hat : ReaderAt pos (some pos) := readerAt_some pos
  have hrecord : (frames bc).next (((visible segs id b v).content id).drop pos) =
      some (some event, n) := by rwa [content_visible]
  obtain ⟨p', hread⟩ := readOne_of_record bc hat p hrecord
  refine ⟨p', ?_⟩
  rw [← hread]
  simp only [readOne, openReader_visible, hpos, Option.getD_some]

/-- What a call that finds an end of file or a record has done to its reader. -/
lemma reader_of_readOne {reader reader' : Option ℕ} (hpos : reader.getD off = pos) {p p' : Bytes}
    {outcome : ReadOutcome}
    (h : readOne bc (visible segs id b v) id off reader p {} = (outcome, reader', p')) :
    (outcome = .eof → reader' = some (pos + ((b.take v).length - pos))) ∧
    ∀ event n, outcome = .record event n →
      reader' = some (pos + n) ∧ pos + n ≤ (b.take v).length := by
  have hrule := ReadRule.of_readOne h
  rw [content_visible, hpos] at hrule
  cases hrule with
  | record hnext =>
    refine ⟨fun h => (by cases h), fun event n h => ?_⟩
    have hle := (frames bc).next_le hnext
    have hpos := (frames bc).next_pos hnext
    rw [List.length_drop] at hle
    cases h
    exact ⟨rfl, by omega⟩
  | eof => exact ⟨fun _ => rfl, fun event n h => by cases h⟩
  | undecodable | oversized | notFound =>
    exact ⟨fun h => (by cases h), fun event n h => by cases h⟩

/-! ### Offsets -/

lemma tailOffset_append (vs ws : List ℕ) (off : ℕ) :
    tailOffset bc b (vs ++ ws) off = tailOffset bc b ws (tailOffset bc b vs off) := by
  induction vs generalizing off with
  | nil => rfl
  | cons v vs ih =>
    simp only [List.cons_append, tailOffset]
    split
    · exact ih _
    · exact ih _

lemma tailOffset_mem (hb : Clean bc b) (vs : List ℕ) (hoff : off ∈ (frames bc).boundaries b) :
    tailOffset bc b vs off ∈ (frames bc).boundaries b := by
  induction vs generalizing off with
  | nil => exact hoff
  | cons v vs ih =>
    rw [tailOffset]
    rcases visible_cases hb hoff v with ⟨event, n, hnext, hfull, -⟩ | ⟨hnext, -⟩
    · rw [hnext]
      exact ih ((frames bc).add_mem_boundaries hoff hfull)
    · rw [hnext]
      exact ih hoff

/-- As many calls on the whole string as it has frames reach its end. -/
lemma tailOffset_replicate (hb : Clean bc b) (hoff : off ∈ (frames bc).boundaries b) {n : ℕ}
    (hn : ((frames bc).scan off (b.drop off)).length ≤ n) :
    tailOffset bc b (List.replicate n b.length) off = b.length := by
  induction n generalizing off with
  | zero =>
    have hnil := List.eq_nil_of_length_eq_zero (Nat.le_zero.mp hn)
    have hempty := (hb.drop hoff).whole.eq_nil_of_scan hnil
    exact le_antisymm ((frames bc).mem_boundaries.mp hoff).1 (List.drop_eq_nil_iff.mp hempty)
  | succ n ih =>
    rw [List.replicate_succ, tailOffset, List.take_length]
    rcases (hb.drop hoff).cases with hnil | ⟨event, k, hnext, -⟩
    · rw [hnil, Scanner.next_nil]
      refine ih hoff ?_
      rw [hnil, Scanner.scan_nil]
      exact Nat.zero_le n
    · rw [hnext]
      refine ih ((frames bc).add_mem_boundaries hoff hnext) ?_
      rw [(frames bc).scan_of_some hnext, List.length_cons, List.drop_drop] at hn
      exact Nat.le_of_succ_le_succ hn

/-- The frames ahead of a boundary are some of the frames of the string. -/
lemma length_scan_drop_le (hoff : off ∈ (frames bc).boundaries b) :
    ((frames bc).scan off (b.drop off)).length ≤ ((frames bc).scan 0 b).length := by
  obtain ⟨hle, hwhole⟩ := (frames bc).mem_boundaries.mp hoff
  have hscan := hwhole.scan_append 0 (b.drop off)
  rw [List.take_append_drop, List.length_take, Nat.min_eq_left hle, Nat.zero_add] at hscan
  rw [hscan, List.length_append]
  exact Nat.le_add_left _ _

/-! ### The two runs -/

/-- The fresh calls yield what lies between the first offset and the last one. -/
lemma scan_freshReads (segs : Segments) (id : ℕ) (hb : Clean bc b) (vs : List ℕ)
    (hoff : off ∈ (frames bc).boundaries b) (p : Bytes) :
    (frames bc).scan off (b.drop off) =
      (freshReads bc segs id b vs off p).filterMap yieldedFrame ++
        (frames bc).scan (tailOffset bc b vs off) (b.drop (tailOffset bc b vs off)) := by
  induction vs generalizing off p with
  | nil => rfl
  | cons v vs ih =>
    rw [freshReads, tailOffset]
    rcases visible_cases hb hoff v with ⟨event, n, hnext, hfull, -⟩ | ⟨hnext, hcut⟩
    · obtain ⟨p', hread⟩ := readOne_visible_of_record bc segs id Option.getD_none p hnext
      have hyield : yieldedFrame (off, .record event n) = some ⟨off, n, some event⟩ := rfl
      rw [hread, hnext]
      dsimp only [ReadOutcome.consumed]
      rw [List.filterMap_cons_some hyield, List.cons_append,
        ← ih ((frames bc).add_mem_boundaries hoff hfull), (frames bc).scan_of_some hfull,
        List.drop_drop]
    · obtain ⟨p', hread⟩ := readOne_visible_of_short bc segs id Option.getD_none p hcut
      rw [hread, hnext]
      dsimp only [ReadOutcome.consumed]
      rw [List.filterMap_cons_none rfl]
      exact ih hoff p'

/-- A reader behind the offset never catches up: if the runs agree, the last frame is not read. -/
lemma tailOffset_lt_of_behind (hb : Clean bc b) {vs : List ℕ} (hvs : vs.Pairwise (· ≤ ·))
    (hoff : off ∈ (frames bc).boundaries b) (hlt : off < pos) (hpos : pos ≤ b.length)
    (hle : ∀ v ∈ vs, pos ≤ v ∧ v ≤ b.length) {p q : Bytes}
    (h : tailReads bc segs id b vs off (some pos) p = freshReads bc segs id b vs off q) :
    tailOffset bc b vs off < b.length := by
  induction vs generalizing off pos p q with
  | nil => exact hlt.trans_le hpos
  | cons v vs ih =>
    obtain ⟨⟨hv, hvb⟩, hrest⟩ := List.forall_mem_cons.mp hle
    obtain ⟨hfirst, hsorted⟩ := List.pairwise_cons.mp hvs
    have hlen : (b.take v).length = v := by rw [List.length_take, Nat.min_eq_left hvb]
    rw [tailReads, freshReads] at h
    rw [tailOffset]
    obtain ⟨outcome, reader', p', hread⟩ : ∃ outcome reader' p',
        readOne bc (visible segs id b v) id off (some pos) p {} = (outcome, reader', p') :=
      ⟨_, _, _, rfl⟩
    obtain ⟨heof, hrecord⟩ := reader_of_readOne rfl hread
    rw [hread] at h
    rcases visible_cases hb hoff v with ⟨event, n, hnext, hfull, -⟩ | ⟨hnext, hcut⟩
    · obtain ⟨q', hfresh⟩ :=
        readOne_visible_of_record bc segs id Option.getD_none q hnext
      rw [hfresh] at h
      obtain ⟨hhead, htail⟩ := List.cons.inj h
      obtain rfl : outcome = .record event n := congrArg Prod.snd hhead
      obtain ⟨rfl, hend⟩ := hrecord event n rfl
      rw [hnext]
      rw [hlen] at hend
      exact ih hsorted ((frames bc).add_mem_boundaries hoff hfull) (Nat.add_lt_add_right hlt n)
        (hend.trans hvb) (fun w hw => ⟨hend.trans (hfirst w hw), (hrest w hw).2⟩) htail
    · obtain ⟨q', hfresh⟩ :=
        readOne_visible_of_short bc segs id Option.getD_none q hcut
      rw [hfresh] at h
      obtain ⟨hhead, htail⟩ := List.cons.inj h
      obtain rfl : outcome = .eof := congrArg Prod.snd hhead
      obtain rfl := heof rfl
      rw [hnext]
      rw [hlen, Option.getD_some, Nat.add_sub_of_le hv] at htail
      exact ih hsorted hoff (hlt.trans_le hv) hvb
        (fun w hw => ⟨hfirst w hw, (hrest w hw).2⟩) htail

/-- The runs agree if no call finds a torn frame. -/
lemma tailReads_eq_of_neverTorn (segs : Segments) (id : ℕ) (hb : Clean bc b) {vs : List ℕ}
    (hoff : off ∈ (frames bc).boundaries b) {reader : Option ℕ} (hr : ReaderAt off reader)
    (h : NeverTorn bc b vs off) (p q : Bytes) :
    tailReads bc segs id b vs off reader p = freshReads bc segs id b vs off q := by
  induction vs generalizing off reader p q with
  | nil => rfl
  | cons v vs ih =>
    have hreader : reader.getD off = off := by
      cases reader with
      | none => rfl
      | some pos => exact hr pos rfl
    rw [NeverTorn] at h
    rw [tailReads, freshReads]
    rcases visible_cases hb hoff v with ⟨event, n, hnext, hfull, -⟩ | ⟨hnext, hcut⟩
    · obtain ⟨p', htail⟩ :=
        readOne_visible_of_record bc segs id hreader p hnext
      obtain ⟨q', hfresh⟩ :=
        readOne_visible_of_record bc segs id Option.getD_none q hnext
      rw [hnext] at h
      rw [htail, hfresh]
      exact congrArg _ (ih ((frames bc).add_mem_boundaries hoff hfull) (readerAt_some _) h p' q')
    · obtain ⟨p', htail⟩ :=
        readOne_visible_of_short bc segs id hreader p hcut
      obtain ⟨q', hfresh⟩ :=
        readOne_visible_of_short bc segs id Option.getD_none q hcut
      rw [hnext] at h
      rw [htail, hfresh]
      refine congrArg _ (ih hoff ?_ h.2 p' q')
      have hlen : (b.take v).length ≤ off := (List.length_take_le v b).trans h.1
      rw [Nat.sub_eq_zero_of_le hlen]
      exact readerAt_some _

/-- If the runs agree up to the end of the string, no call has found a torn frame. -/
lemma neverTorn_of_tailReads_eq (hb : Clean bc b) {vs ws : List ℕ}
    (hvs : (vs ++ ws).Pairwise (· ≤ ·)) (hle : ∀ v ∈ vs ++ ws, v ≤ b.length)
    (hoff : off ∈ (frames bc).boundaries b) {reader : Option ℕ} (hr : ReaderAt off reader)
    {p q : Bytes} (hend : tailOffset bc b (vs ++ ws) off = b.length)
    (h : tailReads bc segs id b (vs ++ ws) off reader p =
      freshReads bc segs id b (vs ++ ws) off q) : NeverTorn bc b vs off := by
  induction vs generalizing off reader p q with
  | nil => trivial
  | cons v vs ih =>
    have hreader : reader.getD off = off := by
      cases reader with
      | none => rfl
      | some pos => exact hr pos rfl
    obtain ⟨hv, hrest⟩ := List.forall_mem_cons.mp hle
    obtain ⟨hfirst, hsorted⟩ := List.pairwise_cons.mp hvs
    rw [List.cons_append, tailReads, freshReads] at h
    rw [List.cons_append, tailOffset] at hend
    rw [NeverTorn]
    rcases visible_cases hb hoff v with ⟨event, n, hnext, hfull, -⟩ | ⟨hnext, hcut⟩
    · obtain ⟨p', htail⟩ :=
        readOne_visible_of_record bc segs id hreader p hnext
      obtain ⟨q', hfresh⟩ :=
        readOne_visible_of_record bc segs id Option.getD_none q hnext
      rw [htail, hfresh] at h
      rw [hnext] at hend ⊢
      exact ih hsorted hrest ((frames bc).add_mem_boundaries hoff hfull) (readerAt_some _) hend
        (List.cons.inj h).2
    · obtain ⟨p', htail⟩ :=
        readOne_visible_of_short bc segs id hreader p hcut
      obtain ⟨q', hfresh⟩ :=
        readOne_visible_of_short bc segs id Option.getD_none q hcut
      have hlen : (b.take v).length = v := by rw [List.length_take, Nat.min_eq_left hv]
      rw [htail, hfresh, hlen] at h
      rw [hnext] at hend ⊢
      obtain ⟨-, htl⟩ := List.cons.inj h
      have hnot : v ≤ off := by
        by_contra hlt
        have hlt := not_le.mp hlt
        rw [Nat.add_sub_of_le hlt.le] at htl
        have hbehind : tailOffset bc b (vs ++ ws) off < b.length :=
          tailOffset_lt_of_behind hb hsorted hoff hlt hv
            (fun w hw => ⟨hfirst w hw, hrest w hw⟩) htl
        exact absurd hend hbehind.ne
      rw [Nat.sub_eq_zero_of_le hnot] at htl
      exact ⟨hnot, ih hsorted hrest hoff (readerAt_some off) hend htl⟩

/-- Calls on the whole string never find a torn frame. -/
lemma neverTorn_replicate (hb : Clean bc b) (hoff : off ∈ (frames bc).boundaries b) (n : ℕ) :
    NeverTorn bc b (List.replicate n b.length) off := by
  induction n generalizing off with
  | zero => trivial
  | succ n ih =>
    rw [List.replicate_succ, NeverTorn, List.take_length]
    rcases (hb.drop hoff).cases with hnil | ⟨event, k, hnext, -⟩
    · rw [hnil, Scanner.next_nil]
      exact ⟨List.drop_eq_nil_iff.mp hnil, ih hoff⟩
    · rw [hnext]
      exact ih ((frames bc).add_mem_boundaries hoff hnext)

lemma NeverTorn.append {vs ws : List ℕ} (h : NeverTorn bc b vs off)
    (h' : NeverTorn bc b ws (tailOffset bc b vs off)) : NeverTorn bc b (vs ++ ws) off := by
  induction vs generalizing off with
  | nil => exact h'
  | cons v vs ih =>
    rw [List.cons_append]
    rw [NeverTorn] at h ⊢
    rw [tailOffset] at h'
    cases hnext : (frames bc).next ((b.take v).drop off) with
    | none =>
      rw [hnext] at h h'
      exact ⟨h.1, ih h.2 h'⟩
    | some q =>
      rw [hnext] at h h'
      exact ih h h'

/-- What a call yields has an event. -/
lemma value_of_yieldedFrame {r : ℕ × ReadOutcome} {p : Piece (Option WalEvent)}
    (h : yieldedFrame r = some p) : p.value ≠ none := by
  unfold yieldedFrame at h
  split at h
  · cases h
    exact Option.some_ne_none _
  · cases h

/-- A string of whole frames that becomes visible step by step, and then is read to its end:
handing back the reader gives what opening the file for every call does, and all frames of the
string, exactly if all frames deserialize and no call finds the file ending inside the frame at its
offset. -/
theorem tailReads_iff (hb : (frames bc).Whole b) {vs : List ℕ} (hvs : vs.Pairwise (· ≤ ·))
    (hle : ∀ v ∈ vs, v ≤ b.length) {n : ℕ} (hn : ((frames bc).scan 0 b).length ≤ n)
    (segs : Segments) (id : ℕ) (p : Bytes) :
    (tailReads bc segs id b (vs ++ List.replicate n b.length) 0 none p =
        freshReads bc segs id b (vs ++ List.replicate n b.length) 0 p ∧
      (tailReads bc segs id b (vs ++ List.replicate n b.length) 0 none p).filterMap
        yieldedFrame = (frames bc).scan 0 b) ↔
    (∀ p ∈ (frames bc).scan 0 b, p.value ≠ none) ∧ NeverTorn bc b vs 0 := by
  have hzero : 0 ∈ (frames bc).boundaries b := List.mem_cons_self
  constructor
  · rintro ⟨heq, hall⟩
    have hvalues : ∀ p ∈ (frames bc).scan 0 b, p.value ≠ none := by
      intro p hp
      rw [← hall] at hp
      obtain ⟨r, -, hr⟩ := List.mem_filterMap.mp hp
      exact value_of_yieldedFrame hr
    have hclean : Clean bc b := ⟨hb, hvalues⟩
    have hoff := tailOffset_mem hclean vs hzero
    have hend : tailOffset bc b (vs ++ List.replicate n b.length) 0 = b.length := by
      rw [tailOffset_append]
      exact tailOffset_replicate hclean hoff ((length_scan_drop_le hoff).trans hn)
    have hsorted : (vs ++ List.replicate n b.length).Pairwise (· ≤ ·) := by
      rw [List.pairwise_append]
      refine ⟨hvs, List.pairwise_replicate.mpr (.inr le_rfl), fun v hv w hw => ?_⟩
      rw [List.eq_of_mem_replicate hw]
      exact hle v hv
    have hbound : ∀ v ∈ vs ++ List.replicate n b.length, v ≤ b.length := by
      intro v hv
      rcases List.mem_append.mp hv with hv | hv
      · exact hle v hv
      · exact (List.eq_of_mem_replicate hv).le
    exact ⟨hvalues,
      neverTorn_of_tailReads_eq hclean hsorted hbound hzero (readerAt_none _) hend heq⟩
  · rintro ⟨hvalues, hnever⟩
    have hclean : Clean bc b := ⟨hb, hvalues⟩
    have hoff := tailOffset_mem hclean vs hzero
    have heq := tailReads_eq_of_neverTorn segs id hclean hzero (readerAt_none _)
      (hnever.append (neverTorn_replicate hclean hoff n)) p p
    have hsplit := scan_freshReads segs id hclean (vs ++ List.replicate n b.length) hzero p
    rw [tailOffset_append,
      tailOffset_replicate hclean hoff ((length_scan_drop_le hoff).trans hn), List.drop_length,
      Scanner.scan_nil, List.append_nil, List.drop_zero] at hsplit
    rw [heq]
    exact ⟨rfl, hsplit.symm⟩

/-- The first call sees all of a frame or nothing of it. -/
theorem tailReads_of_wholeFrame :
    (tailReads Bincode.fixint ∅ 1 Live.oneFrame [0, 29, 29] 0 none []).filterMap yieldedFrame =
      [⟨0, 29, some ⟨"a", 1, ""⟩⟩] := by
  have hwhole : (frames Bincode.fixint).Whole Live.oneFrame := rfl
  have hnever : NeverTorn Bincode.fixint Live.oneFrame [0, 29] 0 := ⟨le_rfl, trivial⟩
  have hlen : ∀ v ∈ [0, 29], v ≤ Live.oneFrame.length := by decide
  exact ((tailReads_iff hwhole (by decide) hlen (n := 1) le_rfl ∅ 1 []).mpr
    ⟨by decide, hnever⟩).2

/-- The first call sees 27 of the 29 bytes of a frame. The reader it leaves behind finds two bytes
left to read, and the file read to its end from then on. -/
theorem not_tailReads_of_tornFrame :
    (frames Bincode.fixint).Whole Live.oneFrame ∧
    (∀ p ∈ (frames Bincode.fixint).scan 0 Live.oneFrame, p.value ≠ none) ∧
    tailReads Bincode.fixint ∅ 1 Live.oneFrame [27, 29, 29] 0 none [] =
      [(0, .eof), (0, .eof), (0, .eof)] ∧
    freshReads Bincode.fixint ∅ 1 Live.oneFrame [27, 29, 29] 0 [] =
      [(0, .eof), (0, .record ⟨"a", 1, ""⟩ 29), (29, .eof)] ∧
    (tailReads Bincode.fixint ∅ 1 Live.oneFrame [27, 29, 29] 0 none []).filterMap yieldedFrame ≠
      (frames Bincode.fixint).scan 0 Live.oneFrame := by
  refine ⟨rfl, by decide, rfl, rfl, ?_⟩
  intro h
  cases h

end SmarthomeIngest
