import SmarthomeIngest.Lib.Decimal
import SmarthomeIngest.Wal.Segment

/-!
# Names of segment files

`list_segments` takes the ids of the segments from the names in the directory. The number in a name
is read by the parser of `u64`, which lets a plus sign stand in front of the digits, so that a name
of the right length may have an id without being the name of the segment.
-/

namespace SmarthomeIngest

/-! ### Definitions -/

/-- `format!("{id:020}.log")`. -/
def segmentFilename (id : ℕ) : String := String.ofList (Text.zeroPad 20 id) ++ ".log"

/-- `parse::<u64>`: digits, behind a plus sign or not, for a number in range. -/
def parseU64 (s : String) : Option ℕ :=
  let digits := match s.toList with
    | '+' :: cs => cs
    | cs        => cs
  (Text.readNat digits).filter (· < 2 ^ 64)

/-- `strip_suffix`. -/
def stripSuffix (suffix s : String) : Option String :=
  (s.toList.dropSuffix? suffix.toList).map String.ofList

def parseSegmentId (name : String) : Option ℕ :=
  if name.utf8ByteSize ≠ 24 then none
  else (stripSuffix ".log" name).bind parseU64

/-- The id in the name of a directory entry, which need not be UTF-8. -/
def entryId (name : Bytes) : Option ℕ := (Bytes.ofUtf8 name).bind parseSegmentId

/-- `list_segments`, on the names in the order of `read_dir`. -/
def listSegments (names : List Bytes) : List ℕ :=
  (names.filterMap entryId).insertionSort (· ≤ ·)

/-- A plus sign and 19 digits in front of the suffix. -/
def PlusName (name : String) : Prop :=
  ∃ digits, name.toList = '+' :: digits ++ ".log".toList ∧ digits.length = 19 ∧
    Text.AllDigits digits

/-- The listing has the ids of the segment files in the directory, each once and in order. -/
structure ListedExactly (names : List Bytes) : Prop where
  increasing : (listSegments names).Pairwise (· < ·)
  mem_iff : ∀ id, id ∈ listSegments names ↔
    id < 2 ^ 64 ∧ Bytes.utf8 (segmentFilename id) ∈ names

/-! ### One name -/

lemma toList_segmentFilename (id : ℕ) :
    (segmentFilename id).toList = Text.zeroPad 20 id ++ ".log".toList := by
  rw [segmentFilename, String.toList_append, String.toList_ofList]

lemma segmentFilename_eq_iff {name : String} {id : ℕ} :
    name = segmentFilename id ↔ name.toList = Text.zeroPad 20 id ++ ".log".toList := by
  rw [← toList_segmentFilename, String.toList_inj]

lemma parseU64_eq_some {s : String} {n : ℕ} :
    parseU64 s = some n ↔ n < 2 ^ 64 ∧
      (Text.readNat s.toList = some n ∨
        ∃ digits, s.toList = '+' :: digits ∧ Text.readNat digits = some n) := by
  have hplus : ∀ cs m, Text.readNat ('+' :: cs) ≠ some m := by
    intro cs m h
    have hdigit := (Text.readNat_eq_some.mp h).2.1 '+' List.mem_cons_self
    exact absurd hdigit (by decide)
  unfold parseU64
  split
  · next cs heq =>
    rw [heq, Option.filter_eq_some_iff, decide_eq_true_eq, and_comm]
    refine and_congr_right fun _ => ⟨fun h => .inr ⟨cs, rfl, h⟩, ?_⟩
    rintro (h | ⟨digits, ⟨⟩, h⟩)
    · exact absurd h (hplus cs n)
    · exact h
  · next cs hne =>
    rw [Option.filter_eq_some_iff, decide_eq_true_eq, and_comm]
    refine and_congr_right fun _ => ⟨.inl, ?_⟩
    rintro (h | ⟨digits, heq, -⟩)
    · exact h
    · exact absurd heq (hne digits)

lemma stripSuffix_eq_some {suffix s base : String} :
    stripSuffix suffix s = some base ↔ s = base ++ suffix := by
  rw [stripSuffix, Option.map_eq_some_iff]
  constructor
  · rintro ⟨cs, hcs, rfl⟩
    obtain ⟨suffix', heq, hsuffix⟩ := List.dropSuffix?_eq_some_iff.mp hcs
    rw [beq_iff_eq.mp hsuffix] at heq
    rw [← String.toList_inj, heq, String.toList_append, String.toList_ofList]
  · rintro rfl
    refine ⟨base.toList, List.dropSuffix?_eq_some_iff.mpr ⟨suffix.toList, ?_, beq_self_eq_true _⟩,
      String.ofList_toList⟩
    exact String.toList_append

lemma utf8ByteSize_of_suffix {name : String} {cs : List Char}
    (h : name.toList = cs ++ ".log".toList) :
    name.utf8ByteSize = (cs.map Char.utf8Size).sum + 4 := by
  rw [Text.utf8ByteSize_eq, h, List.map_append, List.sum_append]
  rfl

lemma utf8Size_of_readNat {cs : List Char} {n : ℕ} (h : Text.readNat cs = some n) :
    (cs.map Char.utf8Size).sum = cs.length :=
  Text.utf8ByteSize_of_digits (Text.readNat_eq_some.mp h).2.1

/-- Behind a plus sign there is one digit less. -/
lemma utf8Size_plus {digits : List Char} {n : ℕ} (h : Text.readNat digits = some n) :
    (('+' :: digits).map Char.utf8Size).sum = digits.length + 1 := by
  rw [List.map_cons, List.sum_cons, utf8Size_of_readNat h, add_comm]
  rfl

lemma parseSegmentId_of_suffix {base : String} {n : ℕ}
    (h : (base.toList.map Char.utf8Size).sum = 20) (hparse : parseU64 base = some n) :
    parseSegmentId (base ++ ".log") = some n := by
  have hsize := @utf8ByteSize_of_suffix (base ++ ".log") base.toList String.toList_append
  rw [h] at hsize
  rw [parseSegmentId, if_neg (not_not.mpr hsize), stripSuffix_eq_some.mpr rfl, Option.bind_some,
    hparse]

/-- The names that have an id. -/
lemma parseSegmentId_eq_some {name : String} {id : ℕ} :
    parseSegmentId name = some id ↔ id < 2 ^ 64 ∧
      (name = segmentFilename id ∨ ∃ digits, name.toList = '+' :: digits ++ ".log".toList ∧
        digits.length = 19 ∧ Text.readNat digits = some id) := by
  constructor
  · intro h
    unfold parseSegmentId at h
    split_ifs at h with hlen
    obtain ⟨base, hbase, hparse⟩ := Option.bind_eq_some_iff.mp h
    obtain rfl := stripSuffix_eq_some.mp hbase
    have hsize := @utf8ByteSize_of_suffix (base ++ ".log") base.toList String.toList_append
    obtain ⟨hlt, hread | ⟨digits, hplus, hread⟩⟩ := parseU64_eq_some.mp hparse
    · rw [utf8Size_of_readNat hread] at hsize
      have hlength : base.toList.length = 20 := by omega
      refine ⟨hlt, .inl ?_⟩
      rw [segmentFilename_eq_iff, String.toList_append, ← hlength, Text.zeroPad_of_readNat hread]
    · rw [hplus, utf8Size_plus hread] at hsize
      refine ⟨hlt, .inr ⟨digits, ?_, by omega, hread⟩⟩
      rw [String.toList_append, hplus]
  · rintro ⟨hlt, rfl | ⟨digits, hname, hlength, hread⟩⟩
    · have hread : Text.readNat (Text.zeroPad 20 id) = some id := Text.readNat_zeroPad
      refine parseSegmentId_of_suffix ?_ (parseU64_eq_some.mpr ⟨hlt, .inl ?_⟩)
      · rw [String.toList_ofList, utf8Size_of_readNat hread]
        exact Text.length_zeroPad (by decide) (hlt.trans (by decide))
      · rw [String.toList_ofList, hread]
    · have hbase : name = String.ofList ('+' :: digits) ++ ".log" := by
        rw [← String.toList_inj, hname, String.toList_append,
          @String.toList_ofList ('+' :: digits)]
      rw [hbase]
      refine parseSegmentId_of_suffix ?_ (parseU64_eq_some.mpr ⟨hlt, .inr ⟨digits, ?_, hread⟩⟩)
      · rw [String.toList_ofList, utf8Size_plus hread, hlength]
      · rw [String.toList_ofList]

lemma not_plusName_segmentFilename (id : ℕ) : ¬ PlusName (segmentFilename id) := by
  rintro ⟨digits, hname, -, -⟩
  rw [toList_segmentFilename] at hname
  have hdigit := Text.allDigits_zeroPad 20 id
  cases hpad : Text.zeroPad 20 id with
  | nil =>
    rw [hpad] at hname
    cases hname
  | cons c cs =>
    rw [hpad] at hname hdigit
    obtain ⟨rfl, -⟩ := List.cons.inj hname
    exact absurd (hdigit '+' List.mem_cons_self) (by decide)

/-- A name with a plus sign has an id. -/
lemma PlusName.exists_id {name : String} (h : PlusName name) :
    ∃ id, parseSegmentId name = some id := by
  obtain ⟨digits, hname, hlength, hdigits⟩ := h
  have hne : digits ≠ [] := fun hnil => by rw [hnil] at hlength; cases hlength
  have hlt := Text.ofDigitChars_lt hdigits
  rw [hlength] at hlt
  refine ⟨_, parseSegmentId_eq_some.mpr ⟨hlt.trans (by decide), .inr ⟨digits, hname, hlength, ?_⟩⟩⟩
  exact Text.readNat_eq_some.mpr ⟨hne, hdigits, rfl⟩

/-- Without a plus sign only the name of the segment has its id. -/
lemma parseSegmentId_iff {name : String} :
    (∀ id, id < 2 ^ 64 → (parseSegmentId name = some id ↔ name = segmentFilename id)) ↔
      ¬ PlusName name := by
  constructor
  · intro h hplus
    obtain ⟨id, hid⟩ := hplus.exists_id
    have hname := (h id (parseSegmentId_eq_some.mp hid).1).mp hid
    exact not_plusName_segmentFilename id (hname ▸ hplus)
  · intro hplus id hlt
    rw [parseSegmentId_eq_some]
    constructor
    · rintro ⟨-, hname | ⟨digits, hname, hlength, hread⟩⟩
      · exact hname
      · exact absurd ⟨digits, hname, hlength, (Text.readNat_eq_some.mp hread).2.1⟩ hplus
    · exact fun hname => ⟨hlt, .inl hname⟩

/-! ### The directory -/

lemma mem_listSegments {names : List Bytes} {id : ℕ} :
    id ∈ listSegments names ↔ ∃ name ∈ names, entryId name = some id := by
  rw [listSegments, List.mem_insertionSort, List.mem_filterMap]

lemma entryId_utf8 (name : String) : entryId (Bytes.utf8 name) = parseSegmentId name := by
  rw [entryId, Bytes.ofUtf8_utf8, Option.bind_some]

/-- An entry with an id is the segment file, or has a plus sign in its name. -/
lemma of_entryId {name : Bytes} {id : ℕ} (h : entryId name = some id) :
    id < 2 ^ 64 ∧ (name = Bytes.utf8 (segmentFilename id) ∨
      ∃ s, Bytes.ofUtf8 name = some s ∧ PlusName s) := by
  obtain ⟨s, hs, hid⟩ := Option.bind_eq_some_iff.mp h
  obtain ⟨hlt, rfl | ⟨digits, hname, hlength, hread⟩⟩ := parseSegmentId_eq_some.mp hid
  · exact ⟨hlt, .inl (Bytes.utf8_of_ofUtf8 hs).symm⟩
  · exact ⟨hlt, .inr ⟨s, hs, digits, hname, hlength, (Text.readNat_eq_some.mp hread).2.1⟩⟩

lemma entryId_segmentFilename {id : ℕ} (h : id < 2 ^ 64) :
    entryId (Bytes.utf8 (segmentFilename id)) = some id := by
  rw [entryId_utf8]
  exact parseSegmentId_eq_some.mpr ⟨h, .inl rfl⟩

/-- The entries have no id in common. -/
def DifferentIds (name name' : Bytes) : Prop :=
  ∀ id, entryId name = some id → entryId name' ≠ some id

instance : Std.Symm DifferentIds where
  symm _ _ h id hid hid' := h id hid' hid

lemma pairwise_listSegments_iff {names : List Bytes} :
    (listSegments names).Pairwise (· < ·) ↔ names.Pairwise DifferentIds := by
  have hperm : (listSegments names).Perm (names.filterMap entryId) := List.perm_insertionSort _ _
  have hle : (listSegments names).Pairwise (· ≤ ·) := List.pairwise_insertionSort _ _
  have hincreasing : (listSegments names).Pairwise (· < ·) ↔ (names.filterMap entryId).Nodup := by
    rw [← hperm.nodup_iff]
    exact ⟨fun h => h.imp ne_of_lt, fun h => (hle.and h).imp fun h => lt_of_le_of_ne h.1 h.2⟩
  rw [hincreasing, List.Nodup, List.pairwise_filterMap]
  refine List.Pairwise.iff fun name name' => ⟨fun h id hid hid' => ?_, fun h id hid id' hid' => ?_⟩
  · exact h id hid id hid' rfl
  · rintro rfl
    exact h id hid hid'

/-- A name has the id of a segment only if it is the name of the segment, but for the names with a
plus sign; and a directory is listed exactly if and only if it has no such name. -/
theorem listedExactly_iff (fileName : String) {names : List Bytes} (hnodup : names.Nodup) :
    ((∀ id, id < 2 ^ 64 → (parseSegmentId fileName = some id ↔ fileName = segmentFilename id)) ↔
        ¬ PlusName fileName) ∧
      (ListedExactly names ↔
        ∀ name ∈ names, ∀ s, Bytes.ofUtf8 name = some s → ¬ PlusName s) := by
  refine ⟨parseSegmentId_iff, ?_, fun h => ?_⟩
  · rintro ⟨hincreasing, hmem⟩ name hname s hs hplus
    obtain ⟨id, hid⟩ := hplus.exists_id
    have hentry : entryId name = some id := by
      rw [entryId, hs, Option.bind_some, hid]
    obtain ⟨hlt, hcanonical⟩ := (hmem id).mp (mem_listSegments.mpr ⟨name, hname, hentry⟩)
    -- the segment file is in the directory too, under another name
    have hne : name ≠ Bytes.utf8 (segmentFilename id) := by
      rintro rfl
      rw [Bytes.ofUtf8_utf8, Option.some_inj] at hs
      exact not_plusName_segmentFilename id (hs ▸ hplus)
    have hdifferent := (pairwise_listSegments_iff.mp hincreasing).forall hname hcanonical hne
    exact hdifferent id hentry (entryId_segmentFilename hlt)
  · have hentry : ∀ name ∈ names, ∀ id, entryId name = some id →
        id < 2 ^ 64 ∧ name = Bytes.utf8 (segmentFilename id) := by
      intro name hname id hid
      obtain ⟨hlt, hfile | ⟨s, hs, hplus⟩⟩ := of_entryId hid
      · exact ⟨hlt, hfile⟩
      · exact absurd hplus (h name hname s hs)
    refine ⟨pairwise_listSegments_iff.mpr ?_, fun id => ?_⟩
    · refine hnodup.imp_of_mem fun hname hname' hne id hid hid' => hne ?_
      rw [(hentry _ hname id hid).2, (hentry _ hname' id hid').2]
    · rw [mem_listSegments]
      constructor
      · rintro ⟨name, hname, hid⟩
        obtain ⟨hlt, rfl⟩ := hentry name hname id hid
        exact ⟨hlt, hname⟩
      · rintro ⟨hlt, hname⟩
        exact ⟨_, hname, entryId_segmentFilename hlt⟩

theorem listedExactly_of_twoSegments :
    ListedExactly [Bytes.utf8 "00000000000000000002.log", Bytes.utf8 "not_a_segment.log",
      Bytes.utf8 "00000000000000000001.log"] := by
  refine (listedExactly_iff "00000000000000000001.log" (by decide +kernel)).2.mpr fun name hname s hs => ?_
  rw [← Bytes.utf8_of_ofUtf8 hs] at hname
  rintro ⟨digits, heq, -, -⟩
  have hhead : s.toList.head? = some '+' := by
    rw [heq]
    rfl
  have hnone : ∀ t ∈ ["00000000000000000002.log", "not_a_segment.log", "00000000000000000001.log"],
      t.toList.head? ≠ some '+' := by decide +kernel
  obtain ⟨t, ht, htext⟩ : ∃ t ∈ ["00000000000000000002.log", "not_a_segment.log",
      "00000000000000000001.log"], Bytes.utf8 t = Bytes.utf8 s := List.mem_map.mp hname
  have hsame : t = s := by
    have hread := congrArg Bytes.ofUtf8 htext
    rwa [Bytes.ofUtf8_utf8, Bytes.ofUtf8_utf8, Option.some_inj] at hread
  exact hnone t ht (hsame ▸ hhead)

/-- The file is listed as segment 42, whether or not there is one. -/
theorem not_listedExactly_of_plusName :
    parseSegmentId "+0000000000000000042.log" = some 42 ∧
      segmentFilename 42 = "00000000000000000042.log" ∧
      listSegments [Bytes.utf8 "+0000000000000000042.log"] = [42] ∧
      ¬ ListedExactly [Bytes.utf8 "+0000000000000000042.log"] ∧
      listSegments [Bytes.utf8 "+0000000000000000042.log",
        Bytes.utf8 "00000000000000000042.log"] = [42, 42] := by
  have hlist : listSegments [Bytes.utf8 "+0000000000000000042.log"] = [42] := by decide +kernel
  refine ⟨by decide +kernel, by decide +kernel, hlist, fun h => ?_, by decide +kernel⟩
  have hmem := ((h.mem_iff 42).mp (hlist ▸ List.mem_cons_self)).2
  exact absurd hmem (by decide +kernel)

/-- On a directory that is listed exactly the listing is that of the segments. -/
theorem listSegments_eq {names : List Bytes} (h : ListedExactly names) {segs : Segments}
    (hsegs : ∀ id, id ∈ segs ↔ id < 2 ^ 64 ∧ Bytes.utf8 (segmentFilename id) ∈ names) :
    listSegments names = segs.listSegments :=
  h.increasing.eq_of_mem_iff Segments.pairwise_listSegments fun id => by
    rw [h.mem_iff, Segments.mem_listSegments, hsegs]

end SmarthomeIngest
