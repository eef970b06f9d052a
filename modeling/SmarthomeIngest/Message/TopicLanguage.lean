import SmarthomeIngest.Message.Topic

/-!
# The language of topic patterns

Which texts `TopicPattern::new` accepts, and which topics the pattern then matches, said about the
segments as lists. A segment without `#` faces one segment of the topic.
-/

namespace SmarthomeIngest

/-! ### Definitions -/

/-- The segment that a part of a pattern stands for. -/
def Segment.ofPart (part : String) : Segment :=
  if part = "+" then .one else if part = "#" then .multi else .lit part

/-- A segment of a pattern against one of a topic. -/
def Segment.Faces : Segment → String → Prop
  | .lit s, part => part = s
  | .one, part => part ≠ ""
  | .multi, _ => False

namespace TopicPattern

/-- The parts of a pattern or a topic. -/
def parts (raw : String) : List String := Text.split '/' (trimTopic raw)

/-- No part is empty, and `#` is a part only in last position. -/
def WellFormed (parts : List String) : Prop :=
  (∀ part ∈ parts, part ≠ "") ∧ ∀ i, parts[i]? = some "#" → i + 1 = parts.length

/-- The segments match the parts of a topic: all of them, or, with a `#` behind them, those that
lie in front. -/
def Covers (segments : List Segment) (parts : List String) : Prop :=
  Segment.multi ∉ segments ∧ List.Forall₂ Segment.Faces segments parts ∨
    ∃ front, segments = front ++ [.multi] ∧
      ∃ levels, levels <+: parts ∧ List.Forall₂ Segment.Faces front levels

/-! ### Which patterns are accepted -/

lemma wellFormed_cons {seg : String} {rest : List String} :
    WellFormed (seg :: rest) ↔ seg ≠ "" ∧ (seg = "#" → rest = []) ∧ WellFormed rest := by
  constructor
  · rintro ⟨hne, hlast⟩
    refine ⟨hne seg List.mem_cons_self, fun hseg => ?_, fun part hpart => ?_, fun i hi => ?_⟩
    · have := hlast 0 (by rw [hseg]; rfl)
      rw [List.length_cons] at this
      exact List.length_eq_zero_iff.mp (by omega)
    · exact hne part (List.mem_cons_of_mem _ hpart)
    · have := hlast (i + 1) hi
      rw [List.length_cons] at this
      omega
  · rintro ⟨hseg, hlast, hne, hrest⟩
    refine ⟨List.forall_mem_cons.mpr ⟨hseg, hne⟩, fun i hi => ?_⟩
    cases i with
    | zero =>
      have hsharp : seg = "#" := by simpa using hi
      rw [hlast hsharp]
      rfl
    | succ i => rw [List.length_cons, hrest i hi]

lemma parseSegments_cons {raw seg : String} {rest : List String} (hempty : seg ≠ "")
    (hsharp : ¬ (seg = "#" ∧ rest ≠ [])) :
    parseSegments raw (seg :: rest) =
      (parseSegments raw rest).map fun segments => Segment.ofPart seg :: segments := by
  rw [parseSegments, if_neg hempty, if_neg hsharp]
  rfl

lemma parseSegments_eq_ok {raw : String} {parts : List String} {segments : List Segment} :
    parseSegments raw parts = .ok segments ↔
      WellFormed parts ∧ segments = parts.map Segment.ofPart := by
  induction parts generalizing segments with
  | nil =>
    constructor
    · rintro ⟨⟩
      exact ⟨⟨nofun, nofun⟩, rfl⟩
    · rintro ⟨-, rfl⟩
      rfl
  | cons seg rest ih =>
    rw [wellFormed_cons]
    by_cases hempty : seg = ""
    · rw [parseSegments, if_pos hempty]
      exact ⟨nofun, fun h => absurd hempty h.1.1⟩
    by_cases hsharp : seg = "#" ∧ rest ≠ []
    · rw [parseSegments, if_neg hempty, if_pos hsharp]
      exact ⟨nofun, fun h => absurd (h.1.2.1 hsharp.1) hsharp.2⟩
    · rw [parseSegments_cons hempty hsharp]
      have hlast : seg = "#" → rest = [] := fun hseg => by
        by_contra hrest
        exact hsharp ⟨hseg, hrest⟩
      constructor
      · intro h
        cases hparse : parseSegments raw rest with
        | error e =>
          rw [hparse] at h
          cases h
        | ok tail =>
          rw [hparse] at h
          obtain ⟨hwell, rfl⟩ := ih.mp hparse
          cases h
          exact ⟨⟨hempty, hlast, hwell⟩, rfl⟩
      · rintro ⟨⟨-, -, hwell⟩, rfl⟩
        rw [ih.mpr ⟨hwell, rfl⟩]
        rfl

lemma parts_ne_nil (raw : String) : parts raw ≠ [] := by
  intro h
  exact List.splitOn_ne_nil _ _ (List.map_eq_nil_iff.mp h)

/-- The pattern without characters has one part, which is empty. -/
lemma parts_of_empty {raw : String} (h : trimTopic raw = "") : parts raw = [""] := by
  rw [parts, h]
  rfl

/-- An accepted pattern has the segments of its parts. -/
lemma segments_of_new {raw : String} {p : TopicPattern} (h : new raw = .ok p) :
    WellFormed (parts raw) ∧ p.segments = (parts raw).map Segment.ofPart := by
  unfold new at h
  dsimp only at h
  by_cases hempty : trimTopic raw = ""
  · rw [if_pos hempty] at h
    cases h
  rw [if_neg hempty] at h
  cases hparse : parseSegments (trimTopic raw) (Text.split '/' (trimTopic raw)) with
  | error e =>
    rw [hparse] at h
    cases h
  | ok segments =>
    rw [hparse] at h
    cases h
    exact parseSegments_eq_ok.mp hparse

lemma new_of_wellFormed {raw : String} (h : WellFormed (parts raw)) : ∃ p, new raw = .ok p := by
  have hempty : trimTopic raw ≠ "" := by
    intro hempty
    rw [parts_of_empty hempty] at h
    exact h.1 "" List.mem_cons_self rfl
  have hparse : parseSegments (trimTopic raw) (parts raw) = .ok _ :=
    parseSegments_eq_ok.mpr ⟨h, rfl⟩
  unfold parts at hparse
  unfold new
  dsimp only
  rw [if_neg hempty, hparse]
  exact ⟨_, rfl⟩

/-! ### Which topics are matched -/

/-- The segments of a well-formed pattern: `#` stands last. -/
def SharpLast (segments : List Segment) : Prop :=
  ∀ front rest, segments = front ++ .multi :: rest → rest = []

lemma sharpLast_of_wellFormed {parts : List String} (h : WellFormed parts) :
    SharpLast (parts.map Segment.ofPart) := by
  intro front rest heq
  obtain ⟨front', tail, hparts, rfl, htail⟩ := List.map_eq_append_iff.mp heq
  obtain ⟨part, rest', rfl, hpart, rfl⟩ := List.map_eq_cons_iff.mp htail
  have hsharp : part = "#" := by
    unfold Segment.ofPart at hpart
    split_ifs at hpart with h₁ h₂
    exact h₂
  have hlast := h.2 front'.length (by rw [hparts, hsharp]; simp)
  rw [hparts] at hlast
  simp only [List.length_append, List.length_cons] at hlast
  rw [List.length_eq_zero_iff.mp (show rest'.length = 0 by omega)]
  rfl

lemma SharpLast.tail {seg : Segment} {segments : List Segment} (h : SharpLast (seg :: segments)) :
    SharpLast segments := by
  rintro front rest rfl
  exact h (seg :: front) rest rfl

/-- A segment in front of the others takes one part. -/
lemma covers_cons {seg : Segment} (hseg : seg ≠ .multi) {segments : List Segment} {part : String}
    {rest : List String} :
    Covers (seg :: segments) (part :: rest) ↔ seg.Faces part ∧ Covers segments rest := by
  constructor
  · rintro (⟨hmulti, hfaces⟩ | ⟨front, heq, levels, hlevels, hfaces⟩)
    · obtain ⟨hface, hrest⟩ := List.forall₂_cons.mp hfaces
      exact ⟨hface, .inl ⟨fun h => hmulti (List.mem_cons_of_mem _ h), hrest⟩⟩
    · cases front with
      | nil =>
        cases heq
        exact absurd rfl hseg
      | cons seg' front =>
        cases heq
        cases hfaces with
        | cons hface hrest =>
          obtain ⟨rfl, hprefix⟩ := List.cons_prefix_cons.mp hlevels
          exact ⟨hface, .inr ⟨front, rfl, _, hprefix, hrest⟩⟩
  · rintro ⟨hface, ⟨hmulti, hfaces⟩ | ⟨front, rfl, levels, hlevels, hfaces⟩⟩
    · refine .inl ⟨fun h => ?_, .cons hface hfaces⟩
      rcases List.mem_cons.mp h with heq | h
      · exact hseg heq.symm
      · exact hmulti h
    · exact .inr ⟨seg :: front, rfl, part :: levels, List.cons_prefix_cons.mpr ⟨rfl, hlevels⟩,
        .cons hface hfaces⟩

lemma not_covers_nil {seg : Segment} (hseg : seg ≠ .multi) {segments : List Segment} :
    ¬ Covers (seg :: segments) [] := by
  rintro (⟨-, hfaces⟩ | ⟨front, heq, levels, hlevels, hfaces⟩)
  · cases hfaces
  · obtain rfl := List.prefix_nil.mp hlevels
    cases hfaces
    cases heq
    exact hseg rfl

/-- The loop of `matches` decides the relation. -/
lemma matchSegments_iff {segments : List Segment} (h : SharpLast segments) (parts : List String) :
    matchSegments segments parts = true ↔ Covers segments parts := by
  induction segments generalizing parts with
  | nil =>
    cases parts with
    | nil => exact ⟨fun _ => .inl ⟨nofun, .nil⟩, fun _ => rfl⟩
    | cons part rest =>
      refine ⟨nofun, ?_⟩
      rintro (⟨-, hfaces⟩ | ⟨front, heq, -⟩)
      · cases hfaces
      · simp at heq
  | cons seg segments ih =>
    cases seg with
    | multi =>
      obtain rfl := h [] segments rfl
      exact ⟨fun _ => .inr ⟨[], rfl, [], List.nil_prefix, .nil⟩, fun _ => rfl⟩
    | one =>
      have hone : Segment.one ≠ .multi := by simp
      cases parts with
      | nil => exact ⟨nofun, fun hcovers => absurd hcovers (not_covers_nil hone)⟩
      | cons part rest =>
        rw [matchSegments, Bool.and_eq_true, ih h.tail, covers_cons hone, bne_iff_ne]
        rfl
    | lit s =>
      have hlit : Segment.lit s ≠ .multi := by simp
      cases parts with
      | nil => exact ⟨nofun, fun hcovers => absurd hcovers (not_covers_nil hlit)⟩
      | cons part rest =>
        rw [matchSegments, Bool.and_eq_true, ih h.tail, covers_cons hlit, beq_iff_eq]
        rfl

lemma matches_iff {raw : String} {p : TopicPattern} (h : new raw = .ok p) (topic : String) :
    p.matches topic = true ↔ Covers p.segments (parts topic) := by
  obtain ⟨hwell, hsegments⟩ := segments_of_new h
  rw [TopicPattern.matches, matchSegments_iff (hsegments ▸ sharpLast_of_wellFormed hwell)]
  rfl

/-- A pattern is accepted if and only if its parts are well formed, and then it matches the topics
whose parts its segments cover. -/
theorem language (raw : String) :
    ((∃ p, new raw = .ok p) ↔ WellFormed (parts raw)) ∧
      ∀ p, new raw = .ok p → p.segments = (parts raw).map Segment.ofPart ∧
        ∀ topic, p.matches topic = true ↔ Covers p.segments (parts topic) := by
  refine ⟨⟨?_, new_of_wellFormed⟩, fun p h => ⟨(segments_of_new h).2, matches_iff h⟩⟩
  rintro ⟨p, h⟩
  exact (segments_of_new h).1

/-- `#` also takes no level at all. -/
theorem language_of_homeFilter :
    new " smarthome/+/# " = .ok ⟨[.lit "smarthome", .one, .multi], some 1⟩ ∧
      Covers [.lit "smarthome", .one, .multi] (parts "/smarthome/dev-1") := by
  have hnew : new " smarthome/+/# " = .ok ⟨[.lit "smarthome", .one, .multi], some 1⟩ := rfl
  refine ⟨hnew, ?_⟩
  exact (((language " smarthome/+/# ").2 _ hnew).2 "/smarthome/dev-1").mp (by decide +kernel)

end TopicPattern

end SmarthomeIngest
