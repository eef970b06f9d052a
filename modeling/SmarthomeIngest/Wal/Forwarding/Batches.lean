import SmarthomeIngest.Wal.Forwarding

/-!
# The batches of the forwarder

What a step does to the batch and to the entries that the sink has accepted: a batch is never larger
than it is configured to be, and while it is offered to the sink nothing changes it.
-/

namespace SmarthomeIngest

open Transition

namespace Forwarding

variable {bc : Bincode} {segmentBytes batchSize : ℕ} {s s' : Forwarding} {l : ForwardingLabel}

@[simp] lemma accepted_startFlush (s : Forwarding) (closing : Bool) :
    (s.startFlush closing).accepted = s.accepted := by
  unfold startFlush
  split <;> rfl

@[simp] lemma accepted_received (s : Forwarding) (e : WalEntry) :
    (s.received batchSize e).accepted = s.accepted := by
  unfold received
  dsimp only
  split <;> simp

@[simp] lemma accepted_closed (s : Forwarding) : s.closed.accepted = s.accepted := by
  unfold closed
  split <;> simp

@[simp] lemma accepted_afterNext (s : Forwarding) (live : Live) :
    (s.afterNext batchSize live).accepted = s.accepted := by
  unfold afterNext
  split <;> simp [setLive]

/-- Only the sink accepts anything. -/
lemma accepted_of_step (hl : l ≠ .sink .ok) (h : step bc segmentBytes batchSize s l = some s') :
    s'.accepted = s.accepted := by
  cases ForwardingRule.of_step h with
  | writer => rfl
  | next => simp
  | tick => simp
  | tickDrop => simp
  | accept => exact absurd rfl hl
  | refuse => rfl
  | commit =>
    unfold afterCommit
    split
    rfl

/-- While the sink has the batch only the writer moves. -/
lemma write_of_step {upTo : WalOffset} {closing : Bool} (hl : ∀ result, l ≠ .sink result)
    (hpc : s.pc = .write upTo closing) (h : step bc segmentBytes batchSize s l = some s') :
    s'.pc = .write upTo closing ∧ s'.batch = s.batch := by
  cases ForwardingRule.of_step h with
  | writer => exact ⟨hpc, rfl⟩
  | accept => exact absurd rfl (hl _)
  | refuse => exact absurd rfl (hl _)
  | next hselect | tick hselect | tickDrop hselect | commit hselect =>
    rw [hpc] at hselect
    cases hselect

/-- The batch while it is filled, while the sink has it, and afterwards. -/
def BatchFits (batchSize : ℕ) (s : Forwarding) : Prop :=
  match s.pc with
  | .select => s.batch = [] ∨ s.batch.length < batchSize
  | .write _ _ => s.batch ≠ [] ∧ s.batch.length ≤ max 1 batchSize
  | .commit _ _ | .returned => s.batch = []

namespace BatchFits

lemma length_le (h : s.BatchFits batchSize) : s.batch.length ≤ max 1 batchSize := by
  unfold BatchFits at h
  split at h
  · rcases h with hnil | hlt
    · simp [hnil]
    · omega
  · exact h.2
  · simp [h]
  · simp [h]

lemma startFlush (hpc : s.pc = .select) (hlen : s.batch.length ≤ max 1 batchSize) (closing : Bool) :
    (s.startFlush closing).BatchFits batchSize := by
  cases hlast : s.batch.getLast? with
  | none => simp_all [Forwarding.startFlush, BatchFits]
  | some entry =>
    have hne : s.batch ≠ [] := by
      intro hnil
      simp [hnil] at hlast
    simp only [Forwarding.startFlush, hlast, BatchFits]
    exact ⟨hne, hlen⟩

lemma received (h : s.BatchFits batchSize) (hpc : s.pc = .select) (e : WalEntry) :
    (s.received batchSize e).BatchFits batchSize := by
  unfold Forwarding.received
  dsimp only
  split_ifs with hfull
  · refine startFlush (s := { s with batch := s.batch ++ [e] }) hpc ?_ false
    have hselect : s.batch = [] ∨ s.batch.length < batchSize := by simpa [BatchFits, hpc] using h
    simp only [List.length_append, List.length_singleton]
    rcases hselect with hnil | hlt
    · simp [hnil]
    · omega
  · simp [BatchFits, hpc]
    simpa using hfull

lemma closed (h : s.BatchFits batchSize) (hpc : s.pc = .select) : s.closed.BatchFits batchSize := by
  unfold Forwarding.closed
  split_ifs with hnil
  · simp [BatchFits, hnil]
  · exact startFlush hpc h.length_le true

lemma afterNext (h : s.BatchFits batchSize) (hpc : s.pc = .select) (live : Live) :
    (s.afterNext batchSize live).BatchFits batchSize := by
  have hlive : (s.setLive live).BatchFits batchSize := h
  unfold Forwarding.afterNext
  split
  · exact hlive.received hpc _
  · exact hlive.closed hpc
  · exact hlive

lemma step (h : s.BatchFits batchSize)
    (hstep : Forwarding.step bc segmentBytes batchSize s l = some s') :
    s'.BatchFits batchSize := by
  cases ForwardingRule.of_step hstep with
  | writer => exact h
  | next hpc => exact h.afterNext hpc _
  | tick hpc => exact startFlush hpc h.length_le false
  | @tickDrop sub entry hpc hsub =>
    exact startFlush (s := { s with subscription := sub }) hpc h.length_le false
  | accept => simp [BatchFits]
  | refuse => exact h
  | @commit upTo closing faults hpc =>
    have hnil : s.batch = [] := by simpa [BatchFits, hpc] using h
    unfold afterCommit
    split
    cases closing <;> split <;> simp [BatchFits, hnil]

end BatchFits

end Forwarding

end SmarthomeIngest
