import SmarthomeIngest.Sink.LineReader

/-!
# Written lines are read back

The reader follows the writer piece by piece: an escaped text, a field value, a tag, a line. The one
thing it stumbles over is a newline in a tag value, which is written as it is.
-/

namespace SmarthomeIngest

variable {F : Type}

/-- What is assumed of the text of a finite float: it is made of digits, signs and dots, and is read
back. -/
structure F64.DisplayReads [F64 F] (readF64 : String → Option F) : Prop where
  chars : ∀ x : F, F64.isFinite x = true →
    ∀ c ∈ (F64.display x).toList, c.isDigit = true ∨ c = '-' ∨ c = '.'
  reads : ∀ x : F, F64.isFinite x = true → readF64 (F64.display x) = some x

/-- What makes a point printable, but for its tag values. -/
structure Point.Printable [F64 F] (p : Point F) : Prop where
  measurement : ∀ c ∈ p.measurement.toList, c ≠ '=' ∧ c ≠ '\n'
  tags : ∀ t ∈ p.tags, '\n' ∉ t.1.toList
  fields : ∀ f ∈ p.fields, '\n' ∉ f.1.toList ∧ f.2.Finite

namespace LineReader

variable {readF64 : String → Option F} {r r' : LineReader F} {rs : List (Point F)} {p : Point F}

/-! ### Running over texts -/

lemma run_append (r : LineReader F) (s t : String) :
    run readF64 r (s ++ t) = (run readF64 r s).bind fun r => run readF64 r t := by
  simp only [run, String.toList_append, List.foldlM_append]
  rfl

lemma run_append_of_some (h : run readF64 r s = some r') (t : String) :
    run readF64 r (s ++ t) = run readF64 r' t := by
  rw [run_append, h, Option.bind_some]

lemma run_append_of_none (h : run readF64 r s = none) (t : String) :
    run readF64 r (s ++ t) = none := by
  rw [run_append, h, Option.bind_none]

lemma foldlM_singleton (c : Char) (r : LineReader F) :
    [c].foldlM (step readF64) r = step readF64 r c := by simp

lemma run_char {s : String} {c : Char} (hs : s.toList = [c]) (r : LineReader F) :
    run readF64 r s = step readF64 r c := by
  rw [run, hs, foldlM_singleton]

/-- Where every character of a text is read as itself, the text is. -/
lemma foldlM_flatMap {m : List Char → LineReader F} {f : Char → List Char} {cs : List Char}
    (h : ∀ c ∈ cs, ∀ acc, (f c).foldlM (step readF64) (m acc) = some (m (acc ++ [c])))
    (acc : List Char) :
    (cs.flatMap f).foldlM (step readF64) (m acc) = some (m (acc ++ cs)) := by
  induction cs generalizing acc with
  | nil => simp
  | cons c cs ih =>
    obtain ⟨hc, hcs⟩ := List.forall_mem_cons.mp h
    rw [List.flatMap_cons, List.foldlM_append, hc acc]
    show (cs.flatMap f).foldlM _ _ = _
    rw [ih hcs, List.append_assoc, List.singleton_append]

/-- An escaped text arrives as it was. -/
lemma foldlM_escape {special : List Char} {part : LinePart} {cs : List Char}
    (h : ∀ c ∈ cs, c ∈ special ∨ c ∉ ['\\', ',', '=', ' ', '\n']) (acc : List Char) :
    (cs.flatMap (Text.escapeChar special)).foldlM (step readF64) ⟨rs, p, .text part acc false⟩ =
      some ⟨rs, p, .text part (acc ++ cs) false⟩ := by
  refine foldlM_flatMap (m := fun acc => ⟨rs, p, .text part acc false⟩) ?_ acc
  intro c hc acc
  unfold Text.escapeChar
  by_cases hspecial : c ∈ special
  · rw [if_pos hspecial]
    rfl
  · have hother := (h c hc).resolve_left hspecial
    rw [List.mem_cons, not_or] at hother
    rw [if_neg hspecial, foldlM_singleton, step]
    simp only [if_neg hother.1, if_neg hother.2]

/-- The characters a key or a tag value is escaped for are all it cannot hold, but for newlines. -/
lemma mem_special_or {c : Char} (h : c ≠ '\n') :
    c ∈ [' ', '=', ',', '\\'] ∨ c ∉ ['\\', ',', '=', ' ', '\n'] := by
  by_cases hspecial : c ∈ [' ', '=', ',', '\\']
  · exact .inl hspecial
  · right
    simp only [List.mem_cons, List.not_mem_nil, or_false, not_or] at hspecial ⊢
    exact ⟨hspecial.2.2.2, hspecial.2.2.1, hspecial.2.1, hspecial.1, h⟩

lemma run_escTagKey {part : LinePart} {s : String} (h : '\n' ∉ s.toList) :
    run readF64 ⟨rs, p, .text part [] false⟩ (escTagKey s) =
      some ⟨rs, p, .text part s.toList false⟩ := by
  rw [run, escTagKey_eq, Text.toList_escape]
  exact foldlM_escape (fun c hc => mem_special_or fun heq => h (heq ▸ hc)) []

lemma run_escMeasurement {s : String} (h : ∀ c ∈ s.toList, c ≠ '=' ∧ c ≠ '\n') :
    run readF64 (start rs) (escMeasurement s) =
      some ⟨rs, .new "", .text .measurement s.toList false⟩ := by
  rw [run, escMeasurement_eq, Text.toList_escape]
  refine foldlM_escape (fun c hc => ?_) []
  by_cases hspecial : c ∈ [' ', ',', '\\']
  · exact .inl hspecial
  · right
    simp only [List.mem_cons, List.not_mem_nil, or_false, not_or] at hspecial ⊢
    exact ⟨hspecial.2.2, hspecial.2.1, (h c hc).1, hspecial.1, (h c hc).2⟩

/-- A newline in a tag value ends the record in the wrong place. -/
lemma run_tagValue_newline {key s : String} (h : '\n' ∈ s.toList) :
    run readF64 ⟨rs, p, .text (.tagValue key) [] false⟩ (escTagValue s) = none := by
  obtain ⟨before, after, hs, hbefore⟩ := List.eq_append_cons_of_mem h
  rw [run, escTagValue, escTagKey_eq, Text.toList_escape, hs, List.flatMap_append,
    List.foldlM_append,
    foldlM_escape (fun c hc => mem_special_or fun heq => hbefore (heq ▸ hc)) []]
  rfl

/-- A quoted text arrives as it was, newlines included. -/
lemma run_quoted {key : String} (s : String) :
    run readF64 ⟨rs, p, .quoted key [] false⟩ (escStringField s) =
      some ⟨rs, p, .quoted key s.toList false⟩ := by
  rw [run, escStringField_eq, Text.toList_escape]
  refine foldlM_flatMap (m := fun acc => ⟨rs, p, .quoted key acc false⟩) ?_ []
  intro c _ acc
  unfold Text.escapeChar
  by_cases hspecial : c ∈ ['"', '\\']
  · rw [if_pos hspecial]
    simp only [List.mem_cons, List.not_mem_nil, or_false] at hspecial
    rcases hspecial with rfl | rfl <;> rfl
  · rw [if_neg hspecial, foldlM_singleton, step]
    simp only [List.mem_cons, List.not_mem_nil, or_false, not_or] at hspecial
    simp only [if_neg hspecial.1, if_neg hspecial.2]

lemma run_bare {key s : String} (h : ∀ c ∈ s.toList, c ∉ ['"', ',', ' ', '\n']) :
    run readF64 ⟨rs, p, .bare key []⟩ s = some ⟨rs, p, .bare key s.toList⟩ := by
  have hchar : ∀ c ∈ s.toList, ∀ acc, [c].foldlM (step readF64) ⟨rs, p, .bare key acc⟩ =
      some ⟨rs, p, .bare key (acc ++ [c])⟩ := by
    intro c hc acc
    have hother := h c hc
    rw [List.mem_cons, not_or] at hother
    rw [foldlM_singleton, step]
    simp only [hother.1, hother.2, and_false, if_false]
  have hbare := foldlM_flatMap (m := fun acc => ⟨rs, p, .bare key acc⟩) hchar []
  rwa [List.flatMap_singleton'] at hbare

/-! ### Field values -/

lemma readI64_toInt (i : Int64) : readI64 (toString i.toInt).toList = some i := by
  rw [readI64, Text.readInt_toString, Option.bind_some, if_pos ⟨Int64.le_toInt i, Int64.toInt_lt i⟩,
    Int64.ofInt_toInt]

lemma readU64_toNat (n : UInt64) : readU64 (toString (n.toNat : ℤ)).toList = some n := by
  rw [readU64, Text.toList_toString_ofNat, Text.readNat_toDigits, Option.bind_some,
    if_pos (UInt64.toNat_lt n), UInt64.ofNat_toNat]

/-- The last character of a number with its kind. -/
lemma readBare_of_getLast? {cs : List Char} {c : Char} (h : cs.getLast? = some c) (hc : c ≠ 'e') :
    readBare readF64 cs =
      if cs.getLast? = some 'i' then (readI64 cs.dropLast).map .int
      else if cs.getLast? = some 'u' then (readU64 cs.dropLast).map .uint
      else (readF64 (String.ofList cs)).map .float := by
  have htrue : cs ≠ "true".toList := by
    rintro rfl
    exact hc (Option.some.inj h).symm
  have hfalse : cs ≠ "false".toList := by
    rintro rfl
    exact hc (Option.some.inj h).symm
  rw [readBare, if_neg htrue, if_neg hfalse]

variable [F64 F]

/-- Field values are read back, quoted ones apart. -/
lemma readBare_formatFieldValue (hd : F64.DisplayReads readF64) {v : FieldValue F} (hv : v.Finite)
    (hstr : ∀ s, v ≠ .str s) : readBare readF64 (formatFieldValue v).toList = some v := by
  cases v with
  | float x =>
    have hchars := hd.chars x hv
    have hnot : ∀ c ∈ ['e', 'i', 'u'], c ∉ (F64.display x).toList := by
      intro c hc hmem
      have hx := hchars c hmem
      simp only [List.mem_cons, List.not_mem_nil, or_false] at hc
      rcases hc with rfl | rfl | rfl
      all_goals revert hx; decide
    have hlast : ∀ c ∈ ['e', 'i', 'u'], (F64.display x).toList.getLast? ≠ some c :=
      fun c hc h => hnot c hc (List.mem_of_getLast? h)
    have htrue : (F64.display x).toList ≠ "true".toList := fun h => hlast 'e' (by decide) (h ▸ rfl)
    have hfalse : (F64.display x).toList ≠ "false".toList :=
      fun h => hlast 'e' (by decide) (h ▸ rfl)
    rw [formatFieldValue, readBare, if_neg htrue, if_neg hfalse, if_neg (hlast 'i' (by decide)),
      if_neg (hlast 'u' (by decide)), String.ofList_toList, hd.reads x hv, Option.map_some]
  | int i =>
    have htext : (formatFieldValue (.int i : FieldValue F)).toList =
        (toString i.toInt).toList ++ ['i'] := by
      rw [formatFieldValue, String.toList_append]
      rfl
    rw [htext, readBare_of_getLast? (c := 'i') (by simp) (by decide), if_pos (by simp),
      List.dropLast_concat, readI64_toInt, Option.map_some]
  | uint n =>
    have htext : (formatFieldValue (.uint n : FieldValue F)).toList =
        (toString (n.toNat : ℤ)).toList ++ ['u'] := by
      rw [formatFieldValue, String.toList_append]
      rfl
    rw [htext, readBare_of_getLast? (c := 'u') (by simp) (by decide), if_neg (by simp),
      if_pos (by simp), List.dropLast_concat, readU64_toNat, Option.map_some]
  | bool b =>
    cases b with
    | true => exact if_pos rfl
    | false =>
      have hne : "false".toList ≠ "true".toList := by decide
      exact (if_neg hne).trans (if_pos rfl)
  | str s => exact absurd rfl (hstr s)

/-- The characters of a value that is not quoted end no value and open no quote. -/
lemma bare_of_mem_formatFieldValue (hd : F64.DisplayReads readF64) {v : FieldValue F}
    (hv : v.Finite) (hstr : ∀ s, v ≠ .str s) :
    ∀ c ∈ (formatFieldValue v).toList, c ∉ ['"', ',', ' ', '\n'] := by
  have hnumber : ∀ c : Char, c.isDigit = true ∨ c = '-' ∨ c = '.' ∨ c = 'i' ∨ c = 'u' →
      c ∉ ['"', ',', ' ', '\n'] := by
    intro c hc hmem
    simp only [List.mem_cons, List.not_mem_nil, or_false] at hmem
    rcases hmem with rfl | rfl | rfl | rfl
    all_goals revert hc; decide
  intro c hc
  cases v with
  | float x =>
    apply hnumber
    rcases hd.chars x hv c hc with h | h | h
    · exact .inl h
    · exact .inr (.inl h)
    · exact .inr (.inr (.inl h))
  | int i =>
    apply hnumber
    rw [formatFieldValue, String.toList_append, List.mem_append] at hc
    rcases hc with hc | hc
    · exact (Text.isDigit_or_minus hc).imp_right .inl
    · exact .inr (.inr (.inr (.inl (List.mem_singleton.mp hc))))
  | uint n =>
    apply hnumber
    rw [formatFieldValue, String.toList_append, List.mem_append] at hc
    rcases hc with hc | hc
    · exact (Text.isDigit_or_minus hc).imp_right .inl
    · exact .inr (.inr (.inr (.inr (List.mem_singleton.mp hc))))
  | bool b =>
    have htrue : "true".toList = ['t', 'r', 'u', 'e'] := by decide
    have hfalse : "false".toList = ['f', 'a', 'l', 's', 'e'] := by decide
    have hletter : c ∈ ['t', 'r', 'u', 'e'] ++ ['f', 'a', 'l', 's', 'e'] := by
      rw [← htrue, ← hfalse, List.mem_append]
      cases b with
      | true => exact .inl hc
      | false => exact .inr hc
    simp only [List.mem_append, List.mem_cons, List.not_mem_nil, or_false] at hletter
    rcases hletter with (rfl | rfl | rfl | rfl) | (rfl | rfl | rfl | rfl | rfl)
    all_goals decide
  | str s => exact absurd rfl (hstr s)

/-- The reader has read the value of a field, up to what follows it. -/
structure Closed (readF64 : String → Option F) (r : LineReader F) (rs : List (Point F))
    (p : Point F) : Prop where
  records : r.records = rs
  finish : r.finish readF64 = some p
  step : ∀ c ∈ [',', ' ', '\n'], step readF64 r c = endField rs p c

lemma closed_of_formatFieldValue (hd : F64.DisplayReads readF64) (rs : List (Point F))
    (p : Point F) (key : String) {v : FieldValue F} (hv : v.Finite) :
    ∃ r, run readF64 ⟨rs, p, .bare key []⟩ (formatFieldValue v) = some r ∧
      Closed readF64 r rs (p.field key v) := by
  by_cases hstr : ∃ s, v = .str s
  · obtain ⟨s, rfl⟩ := hstr
    refine ⟨⟨rs, p.field key (.str s), .fieldEnd⟩, ?_, rfl, rfl, fun _ _ => rfl⟩
    have hopen : run readF64 ⟨rs, p, .bare key []⟩ "\"" = some ⟨rs, p, .quoted key [] false⟩ := by
      rw [run_char (c := '"') rfl]
      rfl
    have htext := (run_append_of_some hopen (escStringField s)).trans (run_quoted s)
    rw [formatFieldValue, run_append_of_some htext, run_char rfl]
    show some (LineReader.mk rs (p.field key (.str (String.ofList s.toList))) .fieldEnd) = _
    rw [String.ofList_toList]
  · have hne : ∀ s, v ≠ .str s := fun s h => hstr ⟨s, h⟩
    have hfinish : finish readF64 ⟨rs, p, .bare key (formatFieldValue v).toList⟩ =
        some (p.field key v) := by
      unfold LineReader.finish
      dsimp only
      rw [readBare_formatFieldValue hd hv hne, Option.map_some]
    refine ⟨_, run_bare (bare_of_mem_formatFieldValue hd hv hne), rfl, hfinish, ?_⟩
    intro c hc
    have hquote : c ≠ '"' := by
      rintro rfl
      revert hc
      decide
    rw [LineReader.step]
    dsimp only
    rw [if_neg fun h => hquote h.2, if_pos hc, hfinish, Option.bind_some]

/-! ### Tags -/

/-- The reader has read the measurement or the value of a tag, up to what follows it. -/
structure InTags (readF64 : String → Option F) (r : LineReader F) (rs : List (Point F))
    (p : Point F) : Prop where
  comma : step readF64 r ',' = some ⟨rs, p, .text .tagKey [] false⟩
  space : step readF64 r ' ' = some ⟨rs, p, .text .fieldKey [] false⟩

variable {r₀ : LineReader F} {out : String}

section Tags

omit [F64 F]

lemma inTags_measurement (s : String) :
    InTags readF64 ⟨rs, .new "", .text .measurement s.toList false⟩ rs (.new s) := by
  have hpoint :
      ({ Point.new "" with measurement := String.ofList s.toList } : Point F) = .new s := by
    rw [String.ofList_toList]
    rfl
  constructor
  · rw [← hpoint]
    rfl
  · rw [← hpoint]
    rfl

lemma inTags_tagValue (key s : String) :
    InTags readF64 ⟨rs, p, .text (.tagValue key) s.toList false⟩ rs (p.tag key s) := by
  constructor
  · show some (LineReader.mk rs (p.tag key (String.ofList s.toList)) _) = _
    rw [String.ofList_toList]
  · show some (LineReader.mk rs (p.tag key (String.ofList s.toList)) _) = _
    rw [String.ofList_toList]

/-- Up to the value of a tag. -/
lemma run_writeTag_key (h : run readF64 r₀ out = some r) (hr : InTags readF64 r rs p)
    {key : String} (hkey : '\n' ∉ key.toList) :
    run readF64 r₀ (out ++ "," ++ escTagKey key ++ "=") =
      some ⟨rs, p, .text (.tagValue key) [] false⟩ := by
  have hcomma : run readF64 r₀ (out ++ ",") = some ⟨rs, p, .text .tagKey [] false⟩ := by
    rw [run_append_of_some h, run_char (c := ',') rfl, hr.comma]
  have hname : run readF64 r₀ (out ++ "," ++ escTagKey key) =
      some ⟨rs, p, .text .tagKey key.toList false⟩ := by
    rw [run_append_of_some hcomma, run_escTagKey hkey]
  rw [run_append_of_some hname, run_char rfl]
  show some (LineReader.mk rs p (.text (.tagValue (String.ofList key.toList)) [] false)) = _
  rw [String.ofList_toList]

lemma run_writeTag (h : run readF64 r₀ out = some r) (hr : InTags readF64 r rs p)
    {tag : String × String} (hkey : '\n' ∉ tag.1.toList) (hvalue : '\n' ∉ tag.2.toList) :
    ∃ r', run readF64 r₀ (Point.writeTag out tag) = some r' ∧
      InTags readF64 r' rs (p.tag tag.1 tag.2) := by
  refine ⟨_, ?_, inTags_tagValue tag.1 tag.2⟩
  rw [Point.writeTag, run_append_of_some (run_writeTag_key h hr hkey), escTagValue,
    run_escTagKey hvalue]

lemma run_writeTag_newline (h : run readF64 r₀ out = some r) (hr : InTags readF64 r rs p)
    {tag : String × String} (hkey : '\n' ∉ tag.1.toList) (hvalue : '\n' ∈ tag.2.toList) :
    run readF64 r₀ (Point.writeTag out tag) = none := by
  rw [Point.writeTag, run_append_of_some (run_writeTag_key h hr hkey), run_tagValue_newline hvalue]

lemma run_writeTag_of_none (h : run readF64 r₀ out = none) (tag : String × String) :
    run readF64 r₀ (Point.writeTag out tag) = none := by
  rw [Point.writeTag]
  exact run_append_of_none (run_append_of_none (run_append_of_none
    (run_append_of_none h _) _) _) _

lemma run_writeTags {tags : List (String × String)} (h : run readF64 r₀ out = some r)
    (hr : InTags readF64 r rs p) (hkeys : ∀ tag ∈ tags, '\n' ∉ tag.1.toList)
    (hvalues : ∀ tag ∈ tags, '\n' ∉ tag.2.toList) :
    ∃ r', run readF64 r₀ (tags.foldl Point.writeTag out) = some r' ∧
      InTags readF64 r' rs { p with tags := p.tags ++ tags } := by
  induction tags generalizing out r p with
  | nil =>
    rw [List.append_nil]
    exact ⟨r, h, hr⟩
  | cons tag tags ih =>
    obtain ⟨hkey, hkeys⟩ := List.forall_mem_cons.mp hkeys
    obtain ⟨hvalue, hvalues⟩ := List.forall_mem_cons.mp hvalues
    obtain ⟨r', h', hr'⟩ := run_writeTag h hr hkey hvalue
    obtain ⟨r'', h'', hr''⟩ := ih h' hr' hkeys hvalues
    refine ⟨r'', h'', ?_⟩
    rw [Point.tag, List.append_assoc, List.singleton_append] at hr''
    exact hr''

/-- What could not be read stays unreadable, whatever is written behind it. -/
lemma run_foldl_of_none {α : Type} {write : String → α → String}
    (hwrite : ∀ out x, run readF64 r₀ out = none → run readF64 r₀ (write out x) = none)
    (xs : List α) (h : run readF64 r₀ out = none) :
    run readF64 r₀ (xs.foldl write out) = none := by
  induction xs generalizing out with
  | nil => exact h
  | cons x xs ih => exact ih (hwrite out x h)

lemma run_writeTags_newline {tags : List (String × String)} (h : run readF64 r₀ out = some r)
    (hr : InTags readF64 r rs p) (hkeys : ∀ tag ∈ tags, '\n' ∉ tag.1.toList)
    (hvalues : ∃ tag ∈ tags, '\n' ∈ tag.2.toList) :
    run readF64 r₀ (tags.foldl Point.writeTag out) = none := by
  induction tags generalizing out r p with
  | nil =>
    obtain ⟨_, hmem, _⟩ := hvalues
    cases hmem
  | cons tag tags ih =>
    obtain ⟨hkey, hkeys⟩ := List.forall_mem_cons.mp hkeys
    by_cases hvalue : '\n' ∈ tag.2.toList
    · exact run_foldl_of_none (fun _ tag h => run_writeTag_of_none h tag) tags
        (run_writeTag_newline h hr hkey hvalue)
    · obtain ⟨r', h', hr'⟩ := run_writeTag h hr hkey hvalue
      apply ih h' hr' hkeys
      obtain ⟨tag', hmem, hnewline⟩ := hvalues
      rcases List.mem_cons.mp hmem with rfl | hmem
      · exact absurd hnewline hvalue
      · exact ⟨tag', hmem, hnewline⟩

end Tags

/-! ### Fields -/

lemma run_writeField (hd : F64.DisplayReads readF64)
    (h : run readF64 r₀ out = some ⟨rs, p, .text .fieldKey [] false⟩)
    {field : String × FieldValue F} (hkey : '\n' ∉ field.1.toList) (hvalue : field.2.Finite) :
    ∃ r, run readF64 r₀ (Point.writeField out field) = some r ∧
      Closed readF64 r rs (p.field field.1 field.2) := by
  obtain ⟨r, hrun, hclosed⟩ := closed_of_formatFieldValue hd rs p field.1 hvalue
  have hname : run readF64 r₀ (out ++ escFieldKey field.1) =
      some ⟨rs, p, .text .fieldKey field.1.toList false⟩ := by
    rw [run_append_of_some h, escFieldKey, run_escTagKey hkey]
  have heq : run readF64 r₀ (out ++ escFieldKey field.1 ++ "=") =
      some ⟨rs, p, .bare field.1 []⟩ := by
    rw [run_append_of_some hname, run_char rfl]
    show some (LineReader.mk rs p (.bare (String.ofList field.1.toList) [])) = _
    rw [String.ofList_toList]
  refine ⟨r, ?_, hclosed⟩
  rw [Point.writeField, run_append_of_some heq, hrun]

/-- The fields behind the first. -/
lemma run_otherFields (hd : F64.DisplayReads readF64) {fields : List (String × FieldValue F)}
    (h : run readF64 r₀ out = some r) (hr : Closed readF64 r rs p)
    (hfields : ∀ f ∈ fields, '\n' ∉ f.1.toList ∧ f.2.Finite) :
    ∃ r', run readF64 r₀ (fields.foldl (fun out field => Point.writeField (out ++ ",") field) out) =
        some r' ∧
      Closed readF64 r' rs { p with fields := p.fields ++ fields } := by
  induction fields generalizing out r p with
  | nil =>
    rw [List.append_nil]
    exact ⟨r, h, hr⟩
  | cons field fields ih =>
    obtain ⟨hfield, hfields⟩ := List.forall_mem_cons.mp hfields
    have hcomma : run readF64 r₀ (out ++ ",") = some ⟨rs, p, .text .fieldKey [] false⟩ := by
      rw [run_append_of_some h, run_char (c := ',') rfl, hr.step ',' (by simp)]
      rfl
    obtain ⟨r', h', hr'⟩ := run_writeField hd hcomma hfield.1 hfield.2
    obtain ⟨r'', h'', hr''⟩ := ih h' hr' hfields
    refine ⟨r'', h'', ?_⟩
    rw [Point.field, List.append_assoc, List.singleton_append] at hr''
    exact hr''

lemma run_writeFields (hd : F64.DisplayReads readF64) {fields : List (String × FieldValue F)}
    (h : run readF64 r₀ out = some ⟨rs, p, .text .fieldKey [] false⟩)
    (hfields : ∀ f ∈ fields, '\n' ∉ f.1.toList ∧ f.2.Finite) (hne : fields ≠ []) :
    ∃ r, run readF64 r₀ (Point.writeFields out fields) = some r ∧
      Closed readF64 r rs { p with fields := p.fields ++ fields } := by
  cases fields with
  | nil => exact absurd rfl hne
  | cons field fields =>
    obtain ⟨hfield, hfields⟩ := List.forall_mem_cons.mp hfields
    obtain ⟨r, h', hr⟩ := run_writeField hd h hfield.1 hfield.2
    obtain ⟨r', h'', hr'⟩ := run_otherFields hd h' hr hfields
    refine ⟨r', h'', ?_⟩
    rw [Point.field, List.append_assoc, List.singleton_append] at hr'
    exact hr'

/-! ### Lines -/

/-- The reader has read a record, up to the newline or the end of the body behind it. -/
structure AtEnd (readF64 : String → Option F) (r : LineReader F) (rs : List (Point F))
    (p : Point F) : Prop where
  records : r.records = rs
  finish : r.finish readF64 = some p
  newline : step readF64 r '\n' = some (start (rs ++ [p]))

omit [F64 F] in
lemma Closed.atEnd (h : Closed readF64 r rs p) : AtEnd readF64 r rs p :=
  ⟨h.records, h.finish, h.step '\n' (by simp)⟩

omit [F64 F] in
/-- Digits and a sign pass as a timestamp. -/
lemma run_timestamp {s : String} (h : '\n' ∉ s.toList) :
    run readF64 ⟨rs, p, .timestamp []⟩ s = some ⟨rs, p, .timestamp s.toList⟩ := by
  have hchar : ∀ c ∈ s.toList, ∀ acc, [c].foldlM (step readF64) ⟨rs, p, .timestamp acc⟩ =
      some ⟨rs, p, .timestamp (acc ++ [c])⟩ := by
    intro c hc acc
    rw [foldlM_singleton, step]
    exact if_neg fun heq : c = '\n' => h (heq ▸ hc)
  have hall := foldlM_flatMap (m := fun acc => ⟨rs, p, .timestamp acc⟩) hchar []
  rwa [List.flatMap_singleton'] at hall

omit [F64 F] in
lemma newline_not_mem_toString (i : ℤ) : '\n' ∉ (toString i).toList := by
  intro h
  rcases Text.isDigit_or_minus h with h | h
  · revert h
    decide
  · revert h
    decide

variable (readF64 rs p) in
omit [F64 F] in
lemma atEnd_timestamp (ts : Int64) :
    AtEnd readF64 ⟨rs, p, .timestamp (toString ts.toInt).toList⟩ rs (p.timestamp ts) := by
  have hfinish : finish readF64 ⟨rs, p, .timestamp (toString ts.toInt).toList⟩ =
      some (p.timestamp ts) := by
    unfold LineReader.finish
    dsimp only
    rw [readI64_toInt, Option.map_some]
  refine ⟨rfl, hfinish, ?_⟩
  rw [step]
  dsimp only
  rw [if_pos rfl, hfinish, Option.map_some]

variable (readF64 rs) in
lemma run_measurement (hp : p.Printable) :
    ∃ r, run readF64 (start rs) (escMeasurement p.measurement) = some r ∧
      InTags readF64 r rs (.new p.measurement) :=
  ⟨_, run_escMeasurement hp.measurement, inTags_measurement _⟩

/-- The line of a point, but for its timestamp. -/
def untimed (p : Point F) : String :=
  Point.writeFields (p.tags.foldl Point.writeTag (escMeasurement p.measurement) ++ " ") p.fields

lemma writeLineProtocol_of_none (h : p.timestampMs = none) :
    p.writeLineProtocol "" = untimed p := by
  rw [Point.writeLineProtocol, h, String.empty_append, untimed]

lemma writeLineProtocol_of_some {ts : Int64} (h : p.timestampMs = some ts) :
    p.writeLineProtocol "" = untimed p ++ " " ++ toString ts.toInt := by
  rw [Point.writeLineProtocol, h, String.empty_append, untimed]

lemma run_untimed (hd : F64.DisplayReads readF64) (rs : List (Point F)) (hp : p.Printable)
    (hne : p.fields ≠ [])
    (hvalues : ∀ tag ∈ p.tags, '\n' ∉ tag.2.toList) :
    ∃ r, run readF64 (start rs) (untimed p) = some r ∧
      Closed readF64 r rs { p with timestampMs := none } := by
  obtain ⟨r, h, hr⟩ := run_measurement readF64 rs hp
  obtain ⟨r, h, hr⟩ := run_writeTags h hr hp.tags hvalues
  have hspace := (run_append_of_some h " ").trans ((run_char (c := ' ') rfl r).trans hr.space)
  exact run_writeFields hd hspace hp.fields hne

/-- A line is read back. -/
lemma run_writeLineProtocol (hd : F64.DisplayReads readF64) (rs : List (Point F))
    (hp : p.Printable) (hne : p.fields ≠ []) (hvalues : ∀ tag ∈ p.tags, '\n' ∉ tag.2.toList) :
    ∃ r, run readF64 (start rs) (p.writeLineProtocol "") = some r ∧ AtEnd readF64 r rs p := by
  obtain ⟨r, h, hr⟩ := run_untimed hd rs hp hne hvalues
  cases hts : p.timestampMs with
  | none =>
    rw [writeLineProtocol_of_none hts]
    refine ⟨r, h, ?_⟩
    rw [← hts] at hr
    exact hr.atEnd
  | some ts =>
    have hspace : run readF64 (start rs) (untimed p ++ " ") =
        some ⟨rs, { p with timestampMs := none }, .timestamp []⟩ := by
      rw [run_append_of_some h, run_char (c := ' ') rfl, hr.step ' ' (by simp)]
      rfl
    rw [writeLineProtocol_of_some hts, run_append_of_some hspace,
      run_timestamp (newline_not_mem_toString _)]
    refine ⟨_, rfl, ?_⟩
    have htimed := atEnd_timestamp readF64 rs { p with timestampMs := none } ts
    rw [Point.timestamp, ← hts] at htimed
    exact htimed

lemma run_writeField_of_none (h : run readF64 r₀ out = none) (field : String × FieldValue F) :
    run readF64 r₀ (Point.writeField out field) = none := by
  rw [Point.writeField]
  exact run_append_of_none (run_append_of_none (run_append_of_none h _) _) _

lemma run_writeFields_of_none (h : run readF64 r₀ out = none)
    (fields : List (String × FieldValue F)) :
    run readF64 r₀ (Point.writeFields out fields) = none := by
  cases fields with
  | nil => exact h
  | cons field fields =>
    have hother : ∀ out (field : String × FieldValue F), run readF64 r₀ out = none →
        run readF64 r₀ (Point.writeField (out ++ ",") field) = none :=
      fun out field h => run_writeField_of_none (run_append_of_none h _) field
    exact run_foldl_of_none hother fields (run_writeField_of_none h field)

/-- A line with a newline in a tag value is not. -/
lemma run_writeLineProtocol_newline (hp : p.Printable)
    (hvalues : ∃ tag ∈ p.tags, '\n' ∈ tag.2.toList) :
    run readF64 (start rs) (p.writeLineProtocol "") = none := by
  obtain ⟨r, h, hr⟩ := run_measurement readF64 rs hp
  have huntimed : run readF64 (start rs) (untimed p) = none :=
    run_writeFields_of_none (run_append_of_none (run_writeTags_newline h hr hp.tags hvalues) _) _
  cases hts : p.timestampMs with
  | none => rw [writeLineProtocol_of_none hts, huntimed]
  | some ts =>
    rw [writeLineProtocol_of_some hts]
    exact run_append_of_none (run_append_of_none huntimed _) _

end LineReader

end SmarthomeIngest
