import SmarthomeIngest.Message.Router
import SmarthomeIngest.Message.TopicLanguage

/-!
# The device id of a topic

The device id is taken from a place that was computed from the pattern, while `matches` walks over
the topic with a cursor of its own. As long as no segment is `#` each segment takes one part, so
that the cursor is at the place of the segment.
-/

namespace SmarthomeIngest

namespace TopicPattern

/-! ### Definitions -/

/-- The loop of `matches` with its cursor `ti`, and the places of the parts that it has taken, each
with the segment that took it. -/
def matchLoop (tParts : List String) (ti : ℕ) (taken : List (Segment × ℕ)) :
    List Segment → Bool × List (Segment × ℕ)
  | [] => (ti == tParts.length, taken)
  | .multi :: rest => (rest.isEmpty, taken)
  | .one :: segments =>
    match tParts[ti]? with
    | none => (false, taken)
    | some part =>
      if part = "" then (false, taken)
      else matchLoop tParts (ti + 1) (taken ++ [(.one, ti)]) segments
  | .lit s :: segments =>
    match tParts[ti]? with
    | none => (false, taken)
    | some part =>
      if part ≠ s then (false, taken)
      else matchLoop tParts (ti + 1) (taken ++ [(.lit s, ti)]) segments

/-- The part of the topic that the loop gives to the first `+`. -/
def assignedToPlus (p : TopicPattern) (topic : String) : Option String :=
  ((matchLoop (parts topic) 0 [] p.segments).2.find? (·.1 = .one)).bind fun (_, ti) =>
    (parts topic)[ti]?

/-- `part` is the part of the topic at the place of the first `+`. -/
def AtFirstPlus (p : TopicPattern) (topic part : String) : Prop :=
  ∃ front rest before after, p.segments = front ++ .one :: rest ∧ Segment.one ∉ front ∧
    parts topic = before ++ part :: after ∧ before.length = front.length

/-! ### The loop -/

variable {tParts : List String} {ti : ℕ} {taken : List (Segment × ℕ)} {segments : List Segment}

/-- The loop goes on behind a segment that takes a part. -/
lemma matchLoop_cons {seg : Segment} (hseg : seg ≠ .multi)
    (h : (matchLoop tParts ti taken (seg :: segments)).1 = true) :
    (∃ part, tParts[ti]? = some part ∧ seg.Faces part) ∧
      matchLoop tParts ti taken (seg :: segments) =
        matchLoop tParts (ti + 1) (taken ++ [(seg, ti)]) segments := by
  cases hpart : tParts[ti]? with
  | none => cases seg <;> simp_all [matchLoop]
  | some part =>
    cases seg with
    | multi => exact absurd rfl hseg
    | one =>
      rw [matchLoop, hpart] at h ⊢
      dsimp only at h ⊢
      split_ifs at h ⊢ with hempty
      exact ⟨⟨part, rfl, hempty⟩, rfl⟩
    | lit s =>
      rw [matchLoop, hpart] at h ⊢
      dsimp only at h ⊢
      split_ifs at h ⊢ with hne
      exact ⟨⟨part, rfl, not_not.mp hne⟩, rfl⟩

/-- With its cursor the loop decides what it decides on the parts that are left. -/
lemma fst_matchLoop (hti : ti ≤ tParts.length) :
    (matchLoop tParts ti taken segments).1 = matchSegments segments (tParts.drop ti) := by
  induction segments generalizing ti taken with
  | nil =>
    rw [matchLoop, matchSegments, Bool.eq_iff_iff, beq_iff_eq, List.isEmpty_iff,
      List.drop_eq_nil_iff]
    omega
  | cons seg segments ih =>
    cases hpart : tParts[ti]? with
    | none =>
      have hnil : tParts.drop ti = [] := List.drop_eq_nil_of_le (List.getElem?_eq_none_iff.mp hpart)
      rw [hnil]
      cases seg <;> simp [matchLoop, matchSegments, hpart]
    | some part =>
      obtain ⟨hlt, hget⟩ := List.getElem?_eq_some_iff.mp hpart
      have hdrop : tParts.drop ti = part :: tParts.drop (ti + 1) := by
        rw [← hget, List.cons_getElem_drop_succ]
      rw [hdrop]
      cases seg with
      | multi => rfl
      | one =>
        rw [matchLoop, hpart, matchSegments]
        dsimp only
        split_ifs with hempty
        · simp [hempty]
        · rw [ih hlt, bne_iff_ne.mpr hempty, Bool.true_and]
      | lit s =>
        rw [matchLoop, hpart, matchSegments]
        dsimp only
        split_ifs with hne
        · rw [beq_eq_false_iff_ne.mpr hne, Bool.false_and]
        · rw [ih hlt, beq_iff_eq.mpr (not_not.mp hne), Bool.true_and]

lemma matches_eq_matchLoop (p : TopicPattern) (topic : String) :
    p.matches topic = (matchLoop (parts topic) 0 [] p.segments).1 :=
  (fst_matchLoop (Nat.zero_le _)).symm

/-- Up to the first `#` the segments take the parts in order, and each of them one. -/
lemma of_matchLoop {front rest : List Segment} (hfront : Segment.multi ∉ front)
    (h : (matchLoop tParts ti taken (front ++ rest)).1 = true) :
    matchLoop tParts ti taken (front ++ rest) =
        matchLoop tParts (ti + front.length) (taken ++ front.zipIdx ti) rest ∧
      ∀ i seg, front[i]? = some seg → ∃ part, tParts[ti + i]? = some part ∧ seg.Faces part := by
  induction front generalizing ti taken with
  | nil => exact ⟨by simp, by simp⟩
  | cons seg front ih =>
    rw [List.mem_cons, not_or] at hfront
    obtain ⟨hseg, hfront⟩ := hfront
    rw [List.cons_append] at h ⊢
    obtain ⟨hface, hstep⟩ := matchLoop_cons (Ne.symm hseg) h
    rw [hstep] at h ⊢
    obtain ⟨hloop, hfaces⟩ := ih hfront h
    refine ⟨?_, fun i s hs => ?_⟩
    · rw [hloop, List.length_cons, List.zipIdx_cons, List.append_assoc, Nat.add_assoc,
        Nat.add_comm 1]
      rfl
    · cases i with
      | zero =>
        cases hs
        exact hface
      | succ i =>
        rw [← Nat.add_assoc, Nat.add_right_comm]
        exact hfaces i s hs

/-- What has been taken stays taken. -/
lemma prefix_matchLoop : taken <+: (matchLoop tParts ti taken segments).2 := by
  induction segments generalizing ti taken with
  | nil => exact List.prefix_rfl
  | cons seg segments ih =>
    cases seg with
    | multi => exact List.prefix_rfl
    | one | lit =>
      unfold matchLoop
      split
      · exact List.prefix_rfl
      · split_ifs
        · exact List.prefix_rfl
        · exact (List.prefix_append _ _).trans ih

/-! ### The device of a topic -/

lemma findIdx?_one {front rest : List Segment} (h : Segment.one ∉ front) :
    (front ++ .one :: rest).findIdx? (· = .one) = some front.length := by
  have hfront : front.findIdx? (· = .one) = none := by
    refine List.findIdx?_eq_none_iff.mpr fun seg hseg => ?_
    exact decide_eq_false fun heq => h (heq ▸ hseg)
  rw [List.findIdx?_append, hfront]
  simp [List.findIdx?_cons]

/-- The position of the first `+` is that of the device id. -/
lemma deviceIdIndex_of_new {raw : String} {p : TopicPattern} (h : new raw = .ok p)
    {front rest : List Segment} (hsegments : p.segments = front ++ .one :: rest)
    (hfront : Segment.one ∉ front) : p.deviceIdIndex = some front.length := by
  unfold new at h
  dsimp only at h
  by_cases hempty : trimTopic raw = ""
  · rw [if_pos hempty] at h
    cases h
  rw [if_neg hempty] at h
  obtain ⟨segments, -, rfl⟩ := exists_of_map_eq_ok h
  dsimp only at hsegments ⊢
  rw [hsegments, findIdx?_one hfront]

/-- What is taken for the device id of a topic is the part at the place of the first `+`. -/
lemma atFirstPlus_iff {raw : String} {p : TopicPattern} (h : new raw = .ok p)
    (hplus : .one ∈ p.segments) {topic part : String} :
    p.AtFirstPlus topic part ↔ p.deviceIdFromTopic topic = some part := by
  obtain ⟨front, rest, hsegments, hfront⟩ := List.eq_append_cons_of_mem hplus
  have hindex : p.deviceIdFromTopic topic = (parts topic)[front.length]? := by
    rw [deviceIdFromTopic, deviceIdIndex_of_new h hsegments hfront]
    rfl
  rw [hindex]
  constructor
  · rintro ⟨front', rest', before, after, hsegments', hfront', hparts, hlen⟩
    have heq : front'.length = front.length := by
      have hsome : (front' ++ .one :: rest').findIdx? (· = .one) = some front'.length :=
        findIdx?_one hfront'
      rw [← hsegments', hsegments, findIdx?_one hfront] at hsome
      exact (Option.some.inj hsome).symm
    rw [hparts, ← heq, ← hlen]
    simp
  · intro hsome
    obtain ⟨hlt, hget⟩ := List.getElem?_eq_some_iff.mp hsome
    refine ⟨front, rest, (parts topic).take front.length, (parts topic).drop (front.length + 1),
      hsegments, hfront, ?_, List.length_take_of_le hlt.le⟩
    rw [← hget, List.cons_getElem_drop_succ, List.take_append_drop]

/-- In an accepted pattern no segment in front of another one is `#`. -/
lemma multi_notMem_front {raw : String} {p : TopicPattern} (h : new raw = .ok p)
    {front rest : List Segment} {seg : Segment} (hsegments : p.segments = front ++ seg :: rest) :
    Segment.multi ∉ front := by
  obtain ⟨hwell, hmap⟩ := segments_of_new h
  have hlast := sharpLast_of_wellFormed hwell
  rw [← hmap, hsegments] at hlast
  intro hmem
  obtain ⟨before, after, rfl⟩ := List.append_of_mem hmem
  have hnil := hlast before (after ++ seg :: rest) (by simp)
  exact List.append_ne_nil_of_right_ne_nil _ (List.cons_ne_nil _ _) hnil

/-- What the loop gives to the first `+` is the part at its place. -/
lemma assignedToPlus_of_matches {p : TopicPattern} {topic : String}
    (hmatch : p.matches topic = true) {front rest : List Segment}
    (hsegments : p.segments = front ++ .one :: rest) (hone : Segment.one ∉ front)
    (hmulti : Segment.multi ∉ front) :
    ∃ part, part ≠ "" ∧ (parts topic)[front.length]? = some part ∧
      p.assignedToPlus topic = some part := by
  rw [matches_eq_matchLoop, hsegments, List.append_cons] at hmatch
  have hmulti' : Segment.multi ∉ front ++ [.one] := by simpa using hmulti
  obtain ⟨hloop, hfaces⟩ := of_matchLoop hmulti' hmatch
  obtain ⟨part, hpart, hne⟩ := hfaces front.length .one (by simp)
  rw [Nat.zero_add] at hpart
  refine ⟨part, hne, hpart, ?_⟩
  obtain ⟨more, hmore⟩ := @prefix_matchLoop (parts topic)
    (0 + (front ++ [Segment.one]).length) ([] ++ (front ++ [Segment.one]).zipIdx) rest
  have hnone : front.zipIdx.find? (·.1 = .one) = none := by
    refine List.find?_eq_none.mpr fun entry hentry heq => hone ?_
    rw [← of_decide_eq_true heq]
    exact List.fst_mem_of_mem_zipIdx hentry
  rw [assignedToPlus, hsegments, List.append_cons, hloop, ← hmore, List.nil_append,
    List.zipIdx_append, List.find?_append, List.find?_append, hnone, Option.none_or]
  simpa using hpart

/-- A pattern without `+` has the device id in its second segment by convention. -/
lemma deviceIdIndex_of_smarthome {raw : String} {p : TopicPattern} (h : new raw = .ok p)
    (hone : Segment.one ∉ p.segments) {s : String}
    (hfirst : p.segments[0]? = some (.lit "smarthome")) (hsecond : p.segments[1]? = some (.lit s)) :
    p.deviceIdIndex = some 1 := by
  have hmap := (segments_of_new h).2
  unfold new at h
  dsimp only at h
  by_cases hempty : trimTopic raw = ""
  · rw [if_pos hempty] at h
    cases h
  rw [if_neg hempty] at h
  obtain ⟨segments, -, rfl⟩ := exists_of_map_eq_ok h
  dsimp only at hone hfirst hsecond hmap ⊢
  have hnone : segments.findIdx? (· = .one) = none :=
    List.findIdx?_eq_none_iff.mpr fun seg hseg => decide_eq_false fun heq => hone (heq ▸ hseg)
  have hlen : 2 ≤ (parts raw).length := by
    obtain ⟨hlt, -⟩ := List.getElem?_eq_some_iff.mp hsecond
    rw [hmap, List.length_map] at hlt
    exact hlt
  have hhead : (parts raw).head? = some "smarthome" := by
    rw [hmap, List.getElem?_map, Option.map_eq_some_iff] at hfirst
    obtain ⟨part, hpart, hlit⟩ := hfirst
    unfold Segment.ofPart at hlit
    split_ifs at hlit
    cases hlit
    rw [List.head?_eq_getElem?, hpart]
  rw [hnone]
  exact if_pos ⟨hlen, hhead⟩

/-- The device id of a topic that the pattern matches is the part that `matches` gave to the first
`+`; for a pattern without `+` it is the second segment behind `smarthome`. -/
theorem deviceIdFromTopic_of_matches {raw : String} {p : TopicPattern} (h : new raw = .ok p)
    {topic : String} (hmatch : p.matches topic = true) :
    (.one ∈ p.segments → ∃ part, part ≠ "" ∧ p.assignedToPlus topic = some part ∧
        p.deviceIdFromTopic topic = some part) ∧
      (.one ∉ p.segments → ∀ s, p.segments[0]? = some (.lit "smarthome") →
        p.segments[1]? = some (.lit s) → p.deviceIdFromTopic topic = some s) := by
  constructor
  · intro hplus
    obtain ⟨front, rest, hsegments, hone⟩ := List.eq_append_cons_of_mem hplus
    obtain ⟨part, hne, hpart, hassigned⟩ :=
      assignedToPlus_of_matches hmatch hsegments hone (multi_notMem_front h hsegments)
    refine ⟨part, hne, hassigned, ?_⟩
    rw [deviceIdFromTopic, deviceIdIndex_of_new h hsegments hone, Option.bind_some]
    exact hpart
  · intro hone s hfirst hsecond
    obtain ⟨rest, hsegments⟩ : ∃ rest, p.segments = [.lit "smarthome", .lit s] ++ rest := by
      cases hsegments : p.segments with
      | nil => rw [hsegments] at hfirst; cases hfirst
      | cons seg segments =>
        rw [hsegments] at hfirst hsecond
        cases segments with
        | nil => cases hsecond
        | cons seg' rest =>
          cases hfirst
          cases hsecond
          exact ⟨rest, rfl⟩
    rw [matches_eq_matchLoop, hsegments] at hmatch
    obtain ⟨-, hfaces⟩ := of_matchLoop (by simp) hmatch
    obtain ⟨part, hpart, hface⟩ := hfaces 1 (.lit s) rfl
    cases hface
    rw [deviceIdFromTopic, deviceIdIndex_of_smarthome h hone hfirst hsecond, Option.bind_some]
    exact hpart

/-- The first of two `+`, and a device that is named in the pattern. -/
theorem deviceIdFromTopic_of_home :
    (∃ part, part ≠ "" ∧
      assignedToPlus ⟨[.lit "home", .one, .one, .multi], some 1⟩ "/home/dev-1/status" = some part ∧
      deviceIdFromTopic ⟨[.lit "home", .one, .one, .multi], some 1⟩ "/home/dev-1/status" =
        some part) ∧
      deviceIdFromTopic ⟨[.lit "smarthome", .lit "dev-2", .multi], some 1⟩ "smarthome/dev-2" =
        some "dev-2" := by
  have hplus : new "home/+/+/#" = .ok ⟨[.lit "home", .one, .one, .multi], some 1⟩ := rfl
  have hnamed : new "smarthome/dev-2/#" = .ok ⟨[.lit "smarthome", .lit "dev-2", .multi], some 1⟩ :=
    rfl
  constructor
  · exact (deviceIdFromTopic_of_matches hplus (by decide +kernel)).1 (by decide)
  · exact (deviceIdFromTopic_of_matches hnamed (by decide +kernel)).2 (by decide) "dev-2" rfl rfl

end TopicPattern

end SmarthomeIngest
