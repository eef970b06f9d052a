import SmarthomeIngest.Lib.Transition

/-!
# Outputs, and steps that change nothing

A system that gives out values on its steps, and a deterministic machine that says which values come
next. The system refines the machine if each of its steps is a move of the machine or leaves its
state alone. Two runs of the system then give out the same values, as far as both have come. With a
rank that the steps falling short of a move lower, the next value comes whatever the environment
answers.
-/

namespace Transition

variable {α σ ι O : Type*}

/-- The system with the values given out so far. -/
def record (step : σ → ι → Option (σ × Option O)) (s : σ × List O) (a : ι) :
    Option (σ × List O) :=
  (step s.1 a).map fun (s', o) => (s', s.2 ++ o.toList)

/-- With labels out of `U` the next value that the system gives out is `o`, after finitely many
steps. -/
inductive Returns (step : σ → ι → Option (σ × Option O)) (U : ι → Prop) (o : O) : σ → Prop
  | intro {s : σ} (henabled : ∀ a, U a → (step s a).isSome)
      (hsilent : ∀ a s', U a → step s a = some (s', none) → Returns step U o s')
      (hvalue : ∀ a s' o', U a → step s a = some (s', some o') → o' = o) : Returns step U o s

/-- The machine gives out a list of values on its way from one state to another. -/
inductive Emits (next : α → Option (Option O × α)) : α → List O → α → Prop
  | refl (a : α) : Emits next a [] a
  | step {a b c : α} {o : Option O} {os : List O} (h : next a = some (o, b))
      (hrest : Emits next b os c) : Emits next a (o.toList ++ os) c

namespace Emits

variable {next : α → Option (Option O × α)} {a b c : α} {os os' : List O}

/-- The machine is deterministic: of two ways one goes on where the other has stopped. -/
theorem comparable (h : Emits next a os b) (h' : Emits next a os' c) :
    (∃ rest, os' = os ++ rest ∧ Emits next b rest c) ∨
      ∃ rest, os = os' ++ rest ∧ Emits next c rest b := by
  induction h generalizing os' with
  | refl => exact .inl ⟨os', rfl, h'⟩
  | @step a b d o os hnext hrest ih =>
    cases h' with
    | refl => exact .inr ⟨_, rfl, .step hnext hrest⟩
    | step hnext' hrest' =>
      rw [hnext] at hnext'
      cases hnext'
      rcases ih hrest' with ⟨rest, rfl, hemits⟩ | ⟨rest, rfl, hemits⟩
      · exact .inl ⟨rest, (List.append_assoc _ _ _).symm, hemits⟩
      · exact .inr ⟨rest, (List.append_assoc _ _ _).symm, hemits⟩

end Emits

/-- Under the invariant `I` every step of the system is a move of the machine, or leaves the state
of the machine as it is; with labels out of `U` the system gets to the move. -/
structure Refines (step : σ → ι → Option (σ × Option O)) (next : α → Option (Option O × α))
    (abs : σ → α) (I : σ → Prop) (U : ι → Prop) (rank : σ → ℕ) : Prop where
  keeps : ∀ {s a s' o}, I s → step s a = some (s', o) → I s'
  moves : ∀ {s a s' o}, I s → step s a = some (s', o) →
    o = none ∧ abs s' = abs s ∨ next (abs s) = some (o, abs s')
  progress : ∀ {s a}, I s → U a → (next (abs s)).isSome → ∃ s' o, step s a = some (s', o) ∧
    (o = none ∧ abs s' = abs s ∧ rank s' < rank s ∨ next (abs s) = some (o, abs s'))

namespace Refines

variable {step : σ → ι → Option (σ × Option O)} {next : α → Option (Option O × α)} {abs : σ → α}
  {I : σ → Prop} {U : ι → Prop} {rank : σ → ℕ} {s s' : σ} {os os' : List O}

/-- A run of the system gives out what the machine does. -/
theorem emits_of_exec (hr : Refines step next abs I U rank) (hs : I s) {as : List ι}
    (h : exec (record step) (s, os) as = some (s', os')) :
    I s' ∧ ∃ new, os' = os ++ new ∧ Emits next (abs s) new (abs s') := by
  induction as generalizing s os with
  | nil =>
    cases h
    exact ⟨hs, [], (List.append_nil _).symm, .refl _⟩
  | cons a as ih =>
    obtain ⟨⟨t, us⟩, ht, h⟩ := Option.bind_eq_some_iff.mp h
    obtain ⟨⟨t, o⟩, hstep, heq⟩ := Option.map_eq_some_iff.mp ht
    cases heq
    obtain ⟨hs', new, rfl, hemits⟩ := ih (hr.keeps hs hstep) h
    refine ⟨hs', o.toList ++ new, List.append_assoc _ _ _, ?_⟩
    rcases hr.moves hs hstep with ⟨rfl, habs⟩ | hnext
    · rw [habs] at hemits
      exact hemits
    · exact .step hnext hemits

/-- The next value of the machine is the next one of the system. -/
theorem returns_of_emits (hr : Refines step next abs I U rank) (hs : I s) {o : O} {b : α}
    (h : Emits next (abs s) (o :: os) b) : Returns step U o s := by
  generalize ha : abs s = a at h
  generalize hos : o :: os = values at h
  induction h generalizing s with
  | refl => cases hos
  | @step a c d o' os' hnext hrest ih =>
    subst ha
    -- on the steps before the move
    induction hk : rank s using Nat.strong_induction_on generalizing s with
    | _ k ihk =>
      subst hk
      have hprogress := fun a (ha : U a) => hr.progress hs ha (Option.isSome_of_eq_some hnext)
      refine .intro (fun a ha => ?_) (fun a t ha ht => ?_) fun a t o'' ha ht => ?_
      · obtain ⟨t, o'', ht, -⟩ := hprogress a ha
        exact Option.isSome_of_eq_some ht
      · obtain ⟨t', o'', ht', hcases⟩ := hprogress a ha
        rw [ht] at ht'
        cases ht'
        rcases hcases with ⟨-, habs, hlt⟩ | hmove
        · rw [← habs] at hnext
          exact ihk _ hlt (hr.keeps hs ht) hnext rfl
        · rw [hnext] at hmove
          cases hmove
          exact ih (hr.keeps hs ht) rfl hos
      · rcases hr.moves hs ht with ⟨hnone, -⟩ | hmove
        · cases hnone
        · rw [hnext] at hmove
          cases hmove
          exact (List.cons.inj hos).1.symm

/-- What the machine gives out a run with the labels of `U` gives out as well. -/
theorem exists_exec_of_emits (hr : Refines step next abs I U rank) (hs : I s) {a₀ : ι} (ha₀ : U a₀)
    {b : α} {new : List O} (h : Emits next (abs s) new b) (os : List O) :
    ∃ as s', (∀ a ∈ as, U a) ∧ exec (record step) (s, os) as = some (s', os ++ new) := by
  generalize ha : abs s = a at h
  induction h generalizing s os with
  | refl => exact ⟨[], s, nofun, by rw [List.append_nil]; rfl⟩
  | @step a c d o new hnext hrest ih =>
    subst ha
    induction hk : rank s using Nat.strong_induction_on generalizing s with
    | _ k ihk =>
      subst hk
      obtain ⟨t, o', ht, hcases⟩ := hr.progress hs ha₀ (Option.isSome_of_eq_some hnext)
      have hrecord : record step (s, os) a₀ = some (t, os ++ o'.toList) := by
        rw [record, ht]
        rfl
      rcases hcases with ⟨rfl, habs, hlt⟩ | hmove
      · rw [← habs] at hnext
        obtain ⟨as, s', has, hexec⟩ := ihk _ hlt (hr.keeps hs ht) hnext rfl
        refine ⟨a₀ :: as, s', List.forall_mem_cons.mpr ⟨ha₀, has⟩, ?_⟩
        rw [exec, hrecord]
        simpa using hexec
      · rw [hnext] at hmove
        cases hmove
        obtain ⟨as, s', has, hexec⟩ := ih (hr.keeps hs ht) (os ++ o.toList) rfl
        refine ⟨a₀ :: as, s', List.forall_mem_cons.mpr ⟨ha₀, has⟩, ?_⟩
        rw [exec, hrecord, Option.bind_some, hexec, List.append_assoc]

/-- Of two runs the one that is behind gives out next what the other gave out. -/
theorem agree (hr : Refines step next abs I U rank) (hs : I s) {as bs : List ι} {t : σ}
    (h : exec (record step) (s, []) as = some (s', os))
    (h' : exec (record step) (s, []) bs = some (t, os')) :
    os' <+: os ∨ ∃ o rest, os' = os ++ o :: rest ∧ Returns step U o s' := by
  obtain ⟨hs', _, rfl, hemits⟩ := hr.emits_of_exec hs h
  obtain ⟨-, _, rfl, hemits'⟩ := hr.emits_of_exec hs h'
  rcases hemits.comparable hemits' with ⟨rest, rfl, hrest⟩ | ⟨rest, rfl, -⟩
  · cases rest with
    | nil =>
      rw [List.append_nil]
      exact .inl List.prefix_rfl
    | cons o rest => exact .inr ⟨o, rest, rfl, hr.returns_of_emits hs' hrest⟩
  · exact .inl (List.prefix_append _ _)

end Refines

end Transition
