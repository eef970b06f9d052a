import SmarthomeIngest.Lib.HashMap
import SmarthomeIngest.Message.Router
import SmarthomeIngest.Message.TopicLanguage

/-!
# The order of the routes

`build_router` adds the routes in the order in which a hash map happens to be iterated, and the
router takes the first route that matches. The order does not show if and only if the patterns of
the two routes have no topic in common, which can be read off their segments.
-/

namespace SmarthomeIngest

/-! ### Patterns with a topic in common -/

namespace Segment

/-- Some part of a topic faces both. -/
def meets : Segment → Segment → Bool
  | .lit s, .lit t => s = t
  | .multi, _ | _, .multi => false
  | _, _ => true

/-- The literals of accepted patterns. -/
def Plain : Segment → Prop
  | .lit s => s ≠ "" ∧ '/' ∉ s.toList
  | _ => True

end Segment

/-- A part that the text of a topic can have. -/
def PlainPart (part : String) : Prop := part ≠ "" ∧ '/' ∉ part.toList

namespace TopicPattern

/-- Segment by segment, up to the first `#`. -/
def overlaps : List Segment → List Segment → Bool
  | .multi :: _, _ => true
  | _, .multi :: _ => true
  | [], [] => true
  | a :: p, b :: q => a.meets b && overlaps p q
  | _, _ => false

/-- The text of a topic with the given parts. The slashes around them are trimmed, and protect what
is between them. -/
def topicOf (parts : List String) : String :=
  String.ofList (['/'] ++ (Text.join '/' parts).toList ++ ['/'])

lemma trim_topicOf (parts : List String) : Text.trim (topicOf parts) = topicOf parts := by
  apply Text.trimMatches_eq_self
  · intro c hc
    rw [topicOf, String.toList_ofList] at hc
    cases hc
    decide
  · intro c hc
    rw [topicOf, String.toList_ofList,
      List.getLast?_append_of_ne_nil _ (List.cons_ne_nil _ _)] at hc
    cases hc
    decide

lemma parts_topicOf {levels : List String} (hne : levels ≠ [])
    (hplain : ∀ part ∈ levels, PlainPart part) : parts (topicOf levels) = levels := by
  have hends : ∀ part ∈ levels.map String.toList, part ≠ [] ∧ '/' ∉ part := by
    refine List.forall_mem_map.mpr fun part hpart => ⟨fun hnil => ?_, (hplain part hpart).2⟩
    exact (hplain part hpart).1 (String.toList_eq_nil_iff.mp hnil)
  obtain ⟨hhead, hlast⟩ := Text.ends_of_intercalate hends
  have hslash : ∀ c ∈ ['/'], (c == '/') = true := by simp
  have htrim : trimTopic (topicOf levels) = Text.join '/' levels := by
    rw [trimTopic, trim_topicOf, topicOf, Text.trimMatches_surround hslash hslash]
    apply Text.trimMatches_eq_self
    · intro c hc
      rw [Text.join, String.toList_ofList] at hc
      simpa using hhead c hc
    · intro c hc
      rw [Text.join, String.toList_ofList] at hc
      simpa using hlast c hc
  rw [parts, htrim, Text.split_join hne fun part hpart => (hplain part hpart).2]

/-! ### Reading the overlap off the segments -/

lemma meets_of_faces {a b : Segment} {part : String} (ha : a.Faces part) (hb : b.Faces part) :
    a.meets b = true := by
  cases a with
  | multi => exact absurd ha id
  | one =>
    cases b with
    | multi => exact absurd hb id
    | one | lit => rfl
  | lit s =>
    cases b with
    | multi => exact absurd hb id
    | one => rfl
    | lit t =>
      have heq : s = t := ha.symm.trans hb
      simpa [Segment.meets] using heq

/-- A segment other than `#` has a part that faces it. -/
lemma exists_faces {a : Segment} (hplain : a.Plain) (hmulti : a ≠ .multi) :
    ∃ part, PlainPart part ∧ a.Faces part := by
  cases a with
  | multi => exact absurd rfl hmulti
  | one => exact ⟨"x", by simp [PlainPart], by simp [Segment.Faces]⟩
  | lit s => exact ⟨s, hplain, rfl⟩

lemma exists_faces_both {a b : Segment} (ha : a.Plain) (hb : b.Plain) (h : a.meets b = true) :
    ∃ part, PlainPart part ∧ a.Faces part ∧ b.Faces part := by
  cases a with
  | multi => cases h
  | one =>
    cases b with
    | multi => cases h
    | one => exact ⟨"x", by simp [PlainPart], by simp [Segment.Faces], by simp [Segment.Faces]⟩
    | lit t => exact ⟨t, hb, hb.1, rfl⟩
  | lit s =>
    cases b with
    | multi => cases h
    | one => exact ⟨s, ha, rfl, ha.1⟩
    | lit t =>
      have heq : s = t := by simpa [Segment.meets] using h
      exact ⟨s, ha, rfl, heq⟩

lemma covers_nil {parts : List String} : Covers [] parts ↔ parts = [] := by
  constructor
  · rintro (⟨-, hfaces⟩ | ⟨front, heq, -⟩)
    · exact List.forall₂_nil_left_iff.mp hfaces
    · simp at heq
  · rintro rfl
    exact .inl ⟨List.not_mem_nil, .nil⟩

lemma covers_multi (parts : List String) : Covers [.multi] parts :=
  .inr ⟨[], rfl, [], List.nil_prefix, .nil⟩

lemma overlaps_cons {a b : Segment} (ha : a ≠ .multi) (hb : b ≠ .multi) (p q : List Segment) :
    overlaps (a :: p) (b :: q) = (a.meets b && overlaps p q) := by
  rw [overlaps]
  · exact ha
  · exact hb

/-- Patterns that match the same parts overlap. -/
lemma overlaps_of_covers {p q : List Segment} {parts : List String} (hp : Covers p parts)
    (hq : Covers q parts) : overlaps p q = true := by
  induction p generalizing q parts with
  | nil =>
    obtain rfl := covers_nil.mp hp
    cases q with
    | nil => rfl
    | cons b q =>
      by_cases hb : b = .multi
      · rw [hb]
        rfl
      · exact absurd hq (not_covers_nil hb)
  | cons a p ih =>
    by_cases ha : a = .multi
    · rw [ha, overlaps]
    cases q with
    | nil =>
      obtain rfl := covers_nil.mp hq
      exact absurd hp (not_covers_nil ha)
    | cons b q =>
      by_cases hb : b = .multi
      · rw [hb]
        cases a <;> rfl
      cases parts with
      | nil => exact absurd hp (not_covers_nil ha)
      | cons part rest =>
        obtain ⟨hface, hp⟩ := (covers_cons ha).mp hp
        obtain ⟨hface', hq⟩ := (covers_cons hb).mp hq
        rw [overlaps_cons ha hb, meets_of_faces hface hface', ih hp hq]
        rfl

lemma exists_covers {q : List Segment} (hq : ∀ seg ∈ q, seg.Plain) (hsharp : SharpLast q) :
    ∃ parts, (q ≠ [] → parts ≠ []) ∧ (∀ part ∈ parts, PlainPart part) ∧ Covers q parts := by
  induction q with
  | nil => exact ⟨[], fun hne => absurd rfl hne, by simp, covers_nil.mpr rfl⟩
  | cons b q ih =>
    obtain ⟨hb, hq⟩ := List.forall_mem_cons.mp hq
    by_cases hmulti : b = .multi
    · subst hmulti
      obtain rfl := hsharp [] q rfl
      exact ⟨["x"], by simp, by simp [PlainPart], covers_multi _⟩
    · obtain ⟨part, hpart, hface⟩ := exists_faces hb hmulti
      obtain ⟨parts, -, hparts, hcovers⟩ := ih hq hsharp.tail
      exact ⟨part :: parts, by simp, List.forall_mem_cons.mpr ⟨hpart, hparts⟩,
        (covers_cons hmulti).mpr ⟨hface, hcovers⟩⟩

/-- Patterns that overlap match the parts of some topic. -/
lemma exists_covers_both {p q : List Segment} (hp : ∀ seg ∈ p, seg.Plain) (hps : SharpLast p)
    (hq : ∀ seg ∈ q, seg.Plain) (hqs : SharpLast q) (h : overlaps p q = true) :
    ∃ parts, (p ≠ [] → q ≠ [] → parts ≠ []) ∧ (∀ part ∈ parts, PlainPart part) ∧
      Covers p parts ∧ Covers q parts := by
  induction p generalizing q with
  | nil =>
    refine ⟨[], fun hne => absurd rfl hne, by simp, covers_nil.mpr rfl, ?_⟩
    cases q with
    | nil => exact covers_nil.mpr rfl
    | cons b q =>
      cases b with
      | multi =>
        obtain rfl := hqs [] q rfl
        exact covers_multi []
      | one | lit => cases h
  | cons a p ih =>
    by_cases ha : a = .multi
    · subst ha
      obtain rfl := hps [] p rfl
      obtain ⟨parts, hne, hplain, hcovers⟩ := exists_covers hq hqs
      exact ⟨parts, fun _ => hne, hplain, covers_multi parts, hcovers⟩
    cases q with
    | nil =>
      cases a with
      | multi => exact absurd rfl ha
      | one | lit => cases h
    | cons b q =>
      by_cases hb : b = .multi
      · subst hb
        obtain rfl := hqs [] q rfl
        obtain ⟨parts, hne, hplain, hcovers⟩ := exists_covers hp hps
        exact ⟨parts, fun hne' _ => hne hne', hplain, hcovers, covers_multi parts⟩
      obtain ⟨hap, hp⟩ := List.forall_mem_cons.mp hp
      obtain ⟨hbp, hq⟩ := List.forall_mem_cons.mp hq
      rw [overlaps_cons ha hb, Bool.and_eq_true] at h
      obtain ⟨part, hpart, hface, hface'⟩ := exists_faces_both hap hbp h.1
      obtain ⟨parts, -, hparts, hcovers, hcovers'⟩ := ih hp hps.tail hq hqs.tail h.2
      exact ⟨part :: parts, by simp, List.forall_mem_cons.mpr ⟨hpart, hparts⟩,
        (covers_cons ha).mpr ⟨hface, hcovers⟩, (covers_cons hb).mpr ⟨hface', hcovers'⟩⟩

lemma plain_of_new {raw : String} {p : TopicPattern} (h : new raw = .ok p) :
    ∀ seg ∈ p.segments, seg.Plain := by
  obtain ⟨hwell, hsegments⟩ := segments_of_new h
  rw [hsegments]
  refine List.forall_mem_map.mpr fun part hpart => ?_
  unfold Segment.ofPart
  split_ifs
  · trivial
  · trivial
  · exact ⟨hwell.1 part hpart, Text.notMem_of_mem_split hpart⟩

lemma segments_ne_nil {raw : String} {p : TopicPattern} (h : new raw = .ok p) :
    p.segments ≠ [] := by
  rw [(segments_of_new h).2]
  exact fun hnil => parts_ne_nil raw (List.map_eq_nil_iff.mp hnil)

/-- Two accepted patterns overlap if and only if some topic matches both. -/
theorem overlaps_iff {s t : String} {p q : TopicPattern} (hp : new s = .ok p) (hq : new t = .ok q) :
    overlaps p.segments q.segments = true ↔
      ∃ topic, p.matches topic = true ∧ q.matches topic = true := by
  constructor
  · intro h
    obtain ⟨hwp, hps⟩ := segments_of_new hp
    obtain ⟨hwq, hqs⟩ := segments_of_new hq
    obtain ⟨levels, hne, hplain, hcovers, hcovers'⟩ :=
      exists_covers_both (plain_of_new hp) (hps ▸ sharpLast_of_wellFormed hwp) (plain_of_new hq)
        (hqs ▸ sharpLast_of_wellFormed hwq) h
    have hlevels := parts_topicOf (hne (segments_ne_nil hp) (segments_ne_nil hq)) hplain
    refine ⟨topicOf levels, (matches_iff hp _).mpr ?_, (matches_iff hq _).mpr ?_⟩
    · rwa [hlevels]
    · rwa [hlevels]
  · rintro ⟨topic, hmp, hmq⟩
    exact overlaps_of_covers ((matches_iff hp topic).mp hmp) ((matches_iff hq topic).mp hmq)

end TopicPattern

/-! ### What the routers find -/

section Routes

variable {F : Type} [F64 F]

/-- The map has a route of this type with this pattern. -/
def HasRoute (topicRoutes : HashMap String String) (messageType : MessageType)
    (p : TopicPattern) : Prop :=
  ∃ key raw, topicRoutes.lookup key = some raw ∧ messageTypeOfKey key = some messageType ∧
    TopicPattern.new raw = .ok p

lemma messageTypeOfKey_eq_some {key : String} {messageType : MessageType} :
    messageTypeOfKey key = some messageType ↔
      key = "SENSOR" ∧ messageType = .sensor ∨ key = "STATUS" ∧ messageType = .status := by
  unfold messageTypeOfKey
  split
  · simp [eq_comm]
  · simp [eq_comm]
  · rename_i hsensor hstatus
    constructor
    · intro h
      cases h
    · rintro (⟨rfl, -⟩ | ⟨rfl, -⟩)
      · exact absurd rfl hsensor
      · exact absurd rfl hstatus

/-- The loop of `build_router` fails at a route whose pattern is not accepted, and nowhere else. -/
lemma buildRoutes_isOk {entries : List (String × String)} :
    (∃ routes : List (Route F), buildRoutes entries = .ok routes) ↔
      ∀ entry ∈ entries,
        messageTypeOfKey entry.1 ≠ none → ∃ p, TopicPattern.new entry.2 = .ok p := by
  induction entries with
  | nil => exact ⟨fun _ => by simp, fun _ => ⟨[], rfl⟩⟩
  | cons entry rest ih =>
    obtain ⟨key, raw⟩ := entry
    rw [List.forall_mem_cons, ← ih, buildRoutes]
    cases htype : messageTypeOfKey key with
    | none => simp
    | some messageType =>
      constructor
      · rintro ⟨routes, h⟩
        obtain ⟨route, hroute, h⟩ := exists_of_bind_eq_ok h
        obtain ⟨routes, hroutes, -⟩ := exists_of_bind_eq_ok h
        obtain ⟨p, hp, -⟩ := exists_of_map_eq_ok hroute
        exact ⟨fun _ => ⟨p, hp⟩, routes, hroutes⟩
      · rintro ⟨hp, routes, hroutes⟩
        obtain ⟨p, hp⟩ := hp (by simp)
        refine ⟨⟨messageType, p, messageType.schema⟩ :: routes, ?_⟩
        simp only [Route.new, hp, hroutes]
        rfl

lemma mem_buildRoutes {entries : List (String × String)} {routes : List (Route F)}
    (h : buildRoutes entries = .ok routes) {messageType : MessageType} {p : TopicPattern} :
    (∃ route ∈ routes, route.messageType = messageType ∧ route.pattern = p) ↔
      ∃ key raw, (key, raw) ∈ entries ∧ messageTypeOfKey key = some messageType ∧
        TopicPattern.new raw = .ok p := by
  induction entries generalizing routes with
  | nil =>
    cases h
    simp
  | cons entry rest ih =>
    obtain ⟨key, raw⟩ := entry
    rw [buildRoutes] at h
    cases htype : messageTypeOfKey key with
    | none =>
      rw [htype] at h
      rw [ih h]
      constructor
      · rintro ⟨key', raw', hmem, h'⟩
        exact ⟨key', raw', List.mem_cons_of_mem _ hmem, h'⟩
      · rintro ⟨key', raw', hmem, htype', hp⟩
        rcases List.mem_cons.mp hmem with heq | hmem
        · cases heq
          rw [htype] at htype'
          cases htype'
        · exact ⟨key', raw', hmem, htype', hp⟩
    | some messageType' =>
      rw [htype] at h
      obtain ⟨route, hroute, h⟩ := exists_of_bind_eq_ok h
      obtain ⟨routes, hroutes, h⟩ := exists_of_bind_eq_ok h
      obtain ⟨p', hp', rfl⟩ := exists_of_map_eq_ok hroute
      cases h
      rw [List.exists_mem_cons_iff, ih hroutes]
      constructor
      · rintro (⟨rfl, rfl⟩ | ⟨key', raw', hmem, h'⟩)
        · exact ⟨key, raw, List.mem_cons_self, htype, hp'⟩
        · exact ⟨key', raw', List.mem_cons_of_mem _ hmem, h'⟩
      · rintro ⟨key', raw', hmem, htype', hp⟩
        rcases List.mem_cons.mp hmem with heq | hmem
        · cases heq
          rw [htype] at htype'
          rw [hp'] at hp
          cases htype'
          cases hp
          exact .inl ⟨rfl, rfl⟩
        · exact .inr ⟨key', raw', hmem, htype', hp⟩

variable {topicRoutes : HashMap String String} {order : List String} {r : Router F}

lemma exists_route_iff (horder : topicRoutes.IterOrder order)
    (hr : buildRouter (topicRoutes.iter order) = .ok r) {messageType : MessageType}
    {p : TopicPattern} :
    (∃ route ∈ r.routes, route.messageType = messageType ∧ route.pattern = p) ↔
      HasRoute topicRoutes messageType p := by
  obtain ⟨routes, hroutes, rfl⟩ := exists_of_map_eq_ok hr
  rw [mem_buildRoutes hroutes]
  simp only [HashMap.mem_iter horder]
  rfl

/-- The type found for a topic is that of a route which matches. -/
lemma hasRoute_of_found (horder : topicRoutes.IterOrder order)
    (hr : buildRouter (topicRoutes.iter order) = .ok r) {topic : String}
    {messageType : MessageType} (h : r.messageTypeForTopic topic = some messageType) :
    ∃ p, HasRoute topicRoutes messageType p ∧ p.matches topic = true := by
  obtain ⟨route, hfind, rfl⟩ := Option.map_eq_some_iff.mp h
  have hmatch := List.find?_some (p := fun route : Route F => route.matches topic) hfind
  exact ⟨route.pattern,
    (exists_route_iff horder hr).mp ⟨route, List.mem_of_find?_eq_some hfind, rfl, rfl⟩, hmatch⟩

/-- A type is found if some route matches. -/
lemma found_of_hasRoute (horder : topicRoutes.IterOrder order)
    (hr : buildRouter (topicRoutes.iter order) = .ok r) {topic : String}
    {messageType : MessageType} {p : TopicPattern} (h : HasRoute topicRoutes messageType p)
    (hmatch : p.matches topic = true) : r.messageTypeForTopic topic ≠ none := by
  obtain ⟨route, hmem, -, rfl⟩ := (exists_route_iff horder hr).mpr h
  intro hnone
  have hfind : r.findRoute topic = none := Option.map_eq_none_iff.mp hnone
  exact List.find?_eq_none.mp hfind route hmem hmatch

/-- The map is accepted in every order, or in none. -/
lemma accepts_of_accepts (horder : topicRoutes.IterOrder order)
    (hr : buildRouter (topicRoutes.iter order) = .ok r) {order' : List String}
    (horder' : topicRoutes.IterOrder order') :
    ∃ r' : Router F, buildRouter (topicRoutes.iter order') = .ok r' := by
  obtain ⟨routes, hroutes, rfl⟩ := exists_of_map_eq_ok hr
  have hvalid := buildRoutes_isOk.mp ⟨routes, hroutes⟩
  obtain ⟨routes', hroutes'⟩ : ∃ routes' : List (Route F),
      buildRoutes (topicRoutes.iter order') = .ok routes' := by
    refine buildRoutes_isOk.mpr fun entry hentry => hvalid entry ?_
    exact (HashMap.mem_iter horder).mpr ((HashMap.mem_iter horder').mp hentry)
  exact ⟨⟨routes', true⟩, by rw [buildRouter, hroutes']; rfl⟩

/-- Iterated from the key of a route on, that route is the first one. -/
lemma found_first {key : String}
    (hr : buildRouter (topicRoutes.iter (key :: order)) = .ok r) {raw topic : String}
    (hlookup : topicRoutes.lookup key = some raw) {messageType : MessageType}
    (htype : messageTypeOfKey key = some messageType) {p : TopicPattern}
    (hp : TopicPattern.new raw = .ok p) (hmatch : p.matches topic = true) :
    r.messageTypeForTopic topic = some messageType := by
  obtain ⟨routes, hroutes, rfl⟩ := exists_of_map_eq_ok hr
  rw [HashMap.iter_cons hlookup, buildRoutes, htype] at hroutes
  obtain ⟨route, hroute, hroutes⟩ := exists_of_bind_eq_ok hroutes
  obtain ⟨rest, -, hroutes⟩ := exists_of_bind_eq_ok hroutes
  obtain ⟨p', hp', rfl⟩ := exists_of_map_eq_ok hroute
  rw [hp] at hp'
  cases hp'
  cases hroutes
  unfold Router.messageTypeForTopic Router.findRoute
  rw [List.find?_cons_of_pos (by exact hmatch)]
  rfl

end Routes

/-! ### The law -/

/-- In whatever orders the map is iterated, the routers give every topic the same message type. -/
def OrderIndependent (F : Type) [F64 F] (topicRoutes : HashMap String String) : Prop :=
  ∀ (order order' : List String) (r r' : Router F),
    topicRoutes.IterOrder order → topicRoutes.IterOrder order' →
    buildRouter (topicRoutes.iter order) = .ok r →
    buildRouter (topicRoutes.iter order') = .ok r' →
    ∀ topic, r.messageTypeForTopic topic = r'.messageTypeForTopic topic

/-- There are not both routes, or their patterns do not overlap. -/
def RoutesDisjoint (topicRoutes : HashMap String String) : Prop :=
  ∀ s t p q, topicRoutes.lookup "SENSOR" = some s → topicRoutes.lookup "STATUS" = some t →
    TopicPattern.new s = .ok p → TopicPattern.new t = .ok q →
    TopicPattern.overlaps p.segments q.segments = false

variable {F : Type} [F64 F] {topicRoutes : HashMap String String}

/-- Routes of different types that match one topic overlap. -/
lemma RoutesDisjoint.eq_of_matches (h : RoutesDisjoint topicRoutes) {a b : MessageType}
    {p q : TopicPattern} (hp : HasRoute topicRoutes a p) (hq : HasRoute topicRoutes b q)
    {topic : String} (hmp : p.matches topic = true) (hmq : q.matches topic = true) : a = b := by
  obtain ⟨key, raw, hlookup, htype, hnew⟩ := hp
  obtain ⟨key', raw', hlookup', htype', hnew'⟩ := hq
  have hclash : ∀ s t p q, topicRoutes.lookup "SENSOR" = some s →
      topicRoutes.lookup "STATUS" = some t → TopicPattern.new s = .ok p →
      TopicPattern.new t = .ok q → p.matches topic = true → q.matches topic = true → False := by
    intro s t p q hs ht hp hq hmp hmq
    have hoverlap := (TopicPattern.overlaps_iff hp hq).mpr ⟨topic, hmp, hmq⟩
    rw [h s t p q hs ht hp hq] at hoverlap
    cases hoverlap
  rcases messageTypeOfKey_eq_some.mp htype with ⟨rfl, rfl⟩ | ⟨rfl, rfl⟩
  · rcases messageTypeOfKey_eq_some.mp htype' with ⟨rfl, rfl⟩ | ⟨rfl, rfl⟩
    · rfl
    · exact (hclash raw raw' p q hlookup hlookup' hnew hnew' hmp hmq).elim
  · rcases messageTypeOfKey_eq_some.mp htype' with ⟨rfl, rfl⟩ | ⟨rfl, rfl⟩
    · exact (hclash raw' raw q p hlookup' hlookup hnew' hnew hmq hmp).elim
    · rfl

/-- For a map that `build_router` accepts, the order of iteration does not matter if and only if the
patterns of its routes do not overlap. -/
theorem orderIndependent_iff {order : List String} {r : Router F}
    (horder : topicRoutes.IterOrder order) (hr : buildRouter (topicRoutes.iter order) = .ok r) :
    OrderIndependent F topicRoutes ↔ RoutesDisjoint topicRoutes := by
  constructor
  · intro h s t p q hs ht hp hq
    by_contra hoverlap
    obtain ⟨topic, hmp, hmq⟩ :=
      (TopicPattern.overlaps_iff hp hq).mp (Bool.not_eq_false _ ▸ hoverlap)
    -- the two orders that start with either route
    obtain ⟨rest, hsensor⟩ := HashMap.exists_iterOrder (Finmap.mem_of_lookup_eq_some hs)
    obtain ⟨rest', hstatus⟩ := HashMap.exists_iterOrder (Finmap.mem_of_lookup_eq_some ht)
    obtain ⟨r₁, hr₁⟩ := accepts_of_accepts horder hr hsensor
    obtain ⟨r₂, hr₂⟩ := accepts_of_accepts horder hr hstatus
    have heq := h _ _ r₁ r₂ hsensor hstatus hr₁ hr₂ topic
    rw [found_first hr₁ hs rfl hp hmp, found_first hr₂ ht rfl hq hmq] at heq
    cases heq
  · intro h order₁ order₂ r₁ r₂ horder₁ horder₂ hr₁ hr₂ topic
    cases hfound₁ : r₁.messageTypeForTopic topic with
    | none =>
      cases hfound₂ : r₂.messageTypeForTopic topic with
      | none => rfl
      | some b =>
        obtain ⟨q, hq, hmq⟩ := hasRoute_of_found horder₂ hr₂ hfound₂
        exact absurd hfound₁ (found_of_hasRoute horder₁ hr₁ hq hmq)
    | some a =>
      obtain ⟨p, hp, hmp⟩ := hasRoute_of_found horder₁ hr₁ hfound₁
      cases hfound₂ : r₂.messageTypeForTopic topic with
      | none => exact absurd hfound₂ (found_of_hasRoute horder₂ hr₂ hp hmp)
      | some b =>
        obtain ⟨q, hq, hmq⟩ := hasRoute_of_found horder₂ hr₂ hfound₂
        rw [h.eq_of_matches hp hq hmp hmq]

/-- The topics of the documentation. -/
def usualTopics : HashMap String String :=
  [⟨"SENSOR", "smarthome/+/sensor"⟩, ⟨"STATUS", "smarthome/+/status"⟩,
    ⟨"DLQ", "smarthome/_dlq/ingest"⟩].toFinmap

theorem orderIndependent_of_usualTopics :
    ∃ r, buildRouter (F := ℤ) (usualTopics.iter ["DLQ", "STATUS", "SENSOR"]) = .ok r ∧
      OrderIndependent ℤ usualTopics := by
  have horder : usualTopics.IterOrder ["DLQ", "STATUS", "SENSOR"] := by decide +kernel
  refine ⟨⟨[statusRoute,
    ⟨.sensor, ⟨[.lit "smarthome", .one, .lit "sensor"], some 1⟩, sensorSchema⟩], true⟩, rfl, ?_⟩
  refine (orderIndependent_iff horder rfl).mpr ?_
  intro s t p q hs ht hp hq
  cases hs
  cases ht
  cases hp
  cases hq
  decide +kernel

/-- Every message of the devices goes to the sensors, and their status messages also to the status
route. -/
def nestedTopics : HashMap String String :=
  [⟨"SENSOR", "smarthome/#"⟩, ⟨"STATUS", "smarthome/+/status"⟩].toFinmap

theorem not_orderIndependent_of_nestedTopics :
    ∃ r r', nestedTopics.IterOrder ["SENSOR", "STATUS"] ∧
      nestedTopics.IterOrder ["STATUS", "SENSOR"] ∧
      buildRouter (F := ℤ) (nestedTopics.iter ["SENSOR", "STATUS"]) = .ok r ∧
      buildRouter (F := ℤ) (nestedTopics.iter ["STATUS", "SENSOR"]) = .ok r' ∧
      r.messageTypeForTopic "smarthome/dev-1/status" = some .sensor ∧
      r'.messageTypeForTopic "smarthome/dev-1/status" = some .status ∧
      ¬ OrderIndependent ℤ nestedTopics := by
  have horder : nestedTopics.IterOrder ["SENSOR", "STATUS"] := by decide +kernel
  have horder' : nestedTopics.IterOrder ["STATUS", "SENSOR"] := by decide +kernel
  obtain ⟨r, r', hr, hr', hfirst, hfirst'⟩ : ∃ r r' : Router ℤ,
      buildRouter (nestedTopics.iter ["SENSOR", "STATUS"]) = .ok r ∧
      buildRouter (nestedTopics.iter ["STATUS", "SENSOR"]) = .ok r' ∧
      r.messageTypeForTopic "smarthome/dev-1/status" = some .sensor ∧
      r'.messageTypeForTopic "smarthome/dev-1/status" = some .status :=
    ⟨⟨[⟨.sensor, ⟨[.lit "smarthome", .multi], some 1⟩, sensorSchema⟩, statusRoute], true⟩,
      ⟨[statusRoute, ⟨.sensor, ⟨[.lit "smarthome", .multi], some 1⟩, sensorSchema⟩], true⟩,
      rfl, rfl, by decide +kernel, by decide +kernel⟩
  refine ⟨r, r', horder, horder', hr, hr', hfirst, hfirst', fun h => ?_⟩
  have heq := h _ _ r r' horder horder' hr hr' "smarthome/dev-1/status"
  rw [hfirst, hfirst'] at heq
  cases heq

end SmarthomeIngest
