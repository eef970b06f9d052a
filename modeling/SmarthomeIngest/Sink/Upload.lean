import SmarthomeIngest.Sink.Write
import SmarthomeIngest.Wal.Forwarding.Batches
import SmarthomeIngest.Wal.Lifetime
import Mathlib.Data.List.Chain

/-!
# Uploading the log

The forwarder with `InfluxSink` as its sink: each post and the answer to it is a step, and a crash may
come between any two of them. Seen without its posts the system is `Lifetime`. The bodies that the
server has taken are the entries that the sink has accepted, batch by batch.
-/

namespace SmarthomeIngest

open Transition

/-! ### The system -/

/-- A post with the answer to it, and the pause in front of it. -/
structure Post where
  body : String
  pauseMs : ℕ
  answer : SendResult
  deriving DecidableEq

/-- The running process with its posts, and the state of its retries. `earlier` is history: the posts
of the processes before it. -/
structure Upload where
  lifetime : Lifetime
  retry : RetryState
  posts : List Post
  earlier : List Post

inductive UploadLabel where
  | lifetime (l : LifetimeLabel)
  | answer (r : SendResult)

namespace Upload

variable (displayStatus : ℕ → String) (bc : Bincode)
  (segmentBytes batchSize flushIntervalMs : ℕ)

def init (w : Wal) : Upload := ⟨.init w, .start flushIntervalMs, [], []⟩

/-- `build_body` of the batch. -/
def body (s : Upload) : String := buildBody (s.lifetime.node.batch.map WalEntry.event)

/-- The post that is made next, with the answer to it. -/
def post (s : Upload) (r : SendResult) : Post := ⟨s.body, s.retry.pauseMs, r⟩

/-- The posts whose bodies the server has taken. -/
def taken (s : Upload) : List Post := (s.earlier ++ s.posts).filter (·.answer.Success)

/-- One step of `write`, with the answer to its post. An empty batch is not sent. -/
def onAnswer (s : Upload) (r : SendResult) : Option Upload :=
  let answer := s.retry.loop.onAnswer displayStatus r
  let sink (result : SinkResult) :=
    s.lifetime.step bc segmentBytes batchSize (.node (.sink result))
  if s.lifetime.node.batch = [] then
    (sink .ok).map fun lifetime => { s with lifetime := lifetime, retry := .start flushIntervalMs }
  else
    match answer with
    | .again _ => some
      { s with retry := s.retry.after flushIntervalMs answer, posts := s.posts ++ [s.post r] }
    | .done result => (sink (sinkResult result)).map fun lifetime =>
      { s with
        lifetime := lifetime
        retry := s.retry.after flushIntervalMs answer
        posts := s.posts ++ [s.post r] }

def step (s : Upload) : UploadLabel → Option Upload
  | .answer r =>
    match s.lifetime.node.pc with
    | .write _ _ => s.onAnswer displayStatus bc segmentBytes batchSize flushIntervalMs r
    | _ => none
  | .lifetime (.node (.sink _)) => none
  | .lifetime (.node l) => (s.lifetime.step bc segmentBytes batchSize (.node l)).map fun lifetime =>
    { s with lifetime := lifetime }
  | .lifetime (.crash written) =>
    (s.lifetime.step bc segmentBytes batchSize (.crash written)).map fun lifetime =>
      { lifetime, retry := .start flushIntervalMs, posts := [], earlier := s.earlier ++ s.posts }

def Orderly (s : Upload) : UploadLabel → Prop
  | .lifetime l => s.lifetime.Orderly bc segmentBytes l
  | .answer _ => True

instance decidableOrderly (s : Upload) : DecidablePred (s.Orderly bc segmentBytes)
  | .lifetime l => inferInstanceAs (Decidable (s.lifetime.Orderly bc segmentBytes l))
  | .answer _ => .isTrue trivial

/-! ### Inversion -/

/-- The state behind a batch that the sink accepts. -/
def accept (s : Upload) (upTo : WalOffset) (closing : Bool) : Lifetime :=
  { s.lifetime with
    node := { s.lifetime.node with
      batch := []
      accepted := s.lifetime.node.accepted ++ s.lifetime.node.batch
      uncommitted := s.lifetime.node.batch
      pc := .commit upTo closing } }

/-- The steps from `s`, with their labels and their results. -/
inductive UploadRule (s : Upload) : UploadLabel → Upload → Prop
  | node {l : ForwardingLabel} {node : Forwarding} (hl : ∀ result, l ≠ .sink result)
      (hnode : s.lifetime.node.step bc segmentBytes batchSize l = some node) :
      UploadRule s (.lifetime (.node l)) { s with lifetime := { s.lifetime with node := node } }
  | crash {written : Bytes} {lifetime : Lifetime}
      (hcrash : s.lifetime.step bc segmentBytes batchSize (.crash written) = some lifetime) :
      UploadRule s (.lifetime (.crash written))
        ⟨lifetime, .start flushIntervalMs, [], s.earlier ++ s.posts⟩
  | nothing {upTo : WalOffset} {closing : Bool} {r : SendResult}
      (hpc : s.lifetime.node.pc = .write upTo closing) (hbatch : s.lifetime.node.batch = []) :
      UploadRule s (.answer r)
        { s with lifetime := s.accept upTo closing, retry := .start flushIntervalMs }
  | accepted {upTo : WalOffset} {closing : Bool} {r : SendResult}
      (hpc : s.lifetime.node.pc = .write upTo closing) (hbatch : s.lifetime.node.batch ≠ [])
      (hr : r.Success) :
      UploadRule s (.answer r)
        ⟨s.accept upTo closing, .start flushIntervalMs, s.posts ++ [s.post r], s.earlier⟩
  | failed {upTo : WalOffset} {closing : Bool} {r : SendResult}
      (hpc : s.lifetime.node.pc = .write upTo closing) (hbatch : s.lifetime.node.batch ≠ [])
      (hr : ¬ r.Success) :
      UploadRule s (.answer r)
        { s with
          retry := s.retry.after flushIntervalMs (s.retry.loop.onAnswer displayStatus r)
          posts := s.posts ++ [s.post r] }

variable {displayStatus bc segmentBytes batchSize flushIntervalMs} {s s' : Upload}
  {l : UploadLabel} {upTo : WalOffset} {closing : Bool}

lemma sink_ok (hpc : s.lifetime.node.pc = .write upTo closing) :
    s.lifetime.step bc segmentBytes batchSize (.node (.sink .ok)) = some (s.accept upTo closing) := by
  simp [Lifetime.step, Forwarding.step, hpc, accept]

lemma sink_error (hpc : s.lifetime.node.pc = .write upTo closing) (e : SinkError) :
    s.lifetime.step bc segmentBytes batchSize (.node (.sink (sinkResult (.error e)))) =
      some s.lifetime := by
  cases e <;> simp [Lifetime.step, Forwarding.step, hpc, sinkResult]

/-- Every step is by one of the rules. -/
theorem UploadRule.of_step
    (h : step displayStatus bc segmentBytes batchSize flushIntervalMs s l = some s') :
    UploadRule displayStatus bc segmentBytes batchSize flushIntervalMs s l s' := by
  unfold step at h
  split at h
  · rename_i r
    split at h
    · rename_i upTo closing hpc
      unfold onAnswer at h
      by_cases hbatch : s.lifetime.node.batch = []
      · simp only [hbatch, ↓reduceIte, sink_ok hpc, Option.map_some, Option.some.injEq] at h
        exact h ▸ .nothing hpc hbatch
      · by_cases hr : r.Success
        · simp only [hbatch, ↓reduceIte, WriteLoop.onAnswer_of_success _ _ hr, sinkResult, sink_ok hpc,
            Option.map_some, Option.some.injEq] at h
          exact h ▸ .accepted hpc hbatch hr
        · have hfailed : UploadRule displayStatus bc segmentBytes batchSize flushIntervalMs s
              (.answer r) _ := .failed hpc hbatch hr
          rcases s.retry.loop.onAnswer_of_not_success displayStatus hr with ⟨-, err, heq⟩ | ⟨e, heq⟩
          · simp only [hbatch, ↓reduceIte, heq, Option.some.injEq] at h
            rw [heq] at hfailed
            exact h ▸ hfailed
          · simp only [hbatch, ↓reduceIte, heq, sink_error hpc, Option.map_some,
              Option.some.injEq] at h
            rw [heq] at hfailed
            exact h ▸ hfailed
    · cases h
  · cases h
  · rename_i l hl
    obtain ⟨lifetime, hlifetime, rfl⟩ := Option.map_eq_some_iff.mp h
    obtain ⟨node, hnode, rfl⟩ := Option.map_eq_some_iff.mp hlifetime
    exact .node (fun result heq => hl result heq) hnode
  · obtain ⟨lifetime, hlifetime, rfl⟩ := Option.map_eq_some_iff.mp h
    exact .crash hlifetime

/-! ### What has been taken -/

/-- Without its posts a step is one of `Lifetime`, or none. -/
lemma lifetime_of_step
    (h : step displayStatus bc segmentBytes batchSize flushIntervalMs s l = some s') :
    s'.lifetime = s.lifetime ∨ ∃ l', (l = .lifetime l' ∨ l' = .node (.sink .ok)) ∧
      s.lifetime.step bc segmentBytes batchSize l' = some s'.lifetime := by
  cases UploadRule.of_step h with
  | @node l node _ hnode =>
    refine .inr ⟨.node l, .inl rfl, ?_⟩
    simp [Lifetime.step, hnode]
  | @crash written _ hcrash => exact .inr ⟨.crash written, .inl rfl, hcrash⟩
  | nothing hpc | accepted hpc => exact .inr ⟨_, .inr rfl, sink_ok hpc⟩
  | failed => exact .inl rfl

/-- The bodies that the server has taken are those of `batches`, which are what the sink has
accepted. -/
structure Carries (batchSize : ℕ) (s : Upload) (batches : List (List WalEntry)) : Prop where
  bodies : s.taken.map Post.body = batches.map fun b => buildBody (b.map WalEntry.event)
  flatten : batches.flatten = s.lifetime.accepted ++ s.lifetime.node.accepted
  fits : ∀ b ∈ batches, b ≠ [] ∧ b.length ≤ max 1 batchSize

lemma taken_concat (posts earlier : List Post) (p : Post) :
    (earlier ++ (posts ++ [p])).filter (·.answer.Success) =
      (earlier ++ posts).filter (·.answer.Success) ++ if p.answer.Success then [p] else [] := by
  simp [List.filter_append, List.filter_singleton]

/-- One more batch. -/
lemma Carries.accept {batches : List (List WalEntry)} (h : s.Carries batchSize batches)
    (hfits : s.lifetime.node.batch ≠ [] ∧ s.lifetime.node.batch.length ≤ max 1 batchSize)
    {r : SendResult} (hr : r.Success) (upTo : WalOffset) (closing : Bool) (retry : RetryState) :
    Carries batchSize ⟨s.accept upTo closing, retry, s.posts ++ [s.post r], s.earlier⟩
      (batches ++ [s.lifetime.node.batch]) where
  bodies := by
    have hsuccess : (s.post r).answer.Success := hr
    rw [taken, taken_concat, if_pos hsuccess, List.map_append, List.map_append]
    exact congrArg (· ++ _) h.bodies
  flatten := by
    simp [List.flatten_append, h.flatten, Upload.accept]
  fits := by
    intro b hb
    rcases List.mem_append.mp hb with hb | hb
    · exact h.fits b hb
    · rw [List.mem_singleton.mp hb]
      exact hfits

lemma batchFits_of_step (h : s.lifetime.node.BatchFits batchSize)
    (hstep : step displayStatus bc segmentBytes batchSize flushIntervalMs s l = some s') :
    s'.lifetime.node.BatchFits batchSize := by
  cases UploadRule.of_step hstep with
  | node _ hnode => exact h.step hnode
  | crash hcrash =>
    obtain ⟨-, w, -, rfl⟩ := Lifetime.of_crash hcrash
    exact .inl rfl
  | nothing | accepted => simp [Forwarding.BatchFits, Upload.accept]
  | failed => exact h

lemma Carries.step {batches : List (List WalEntry)} (h : s.Carries batchSize batches)
    (hfits : s.lifetime.node.BatchFits batchSize)
    (hstep : step displayStatus bc segmentBytes batchSize flushIntervalMs s l = some s') :
    ∃ batches, s'.Carries batchSize batches := by
  cases UploadRule.of_step hstep with
  | node hl hnode =>
    refine ⟨batches, h.bodies, ?_, h.fits⟩
    rw [Forwarding.accepted_of_step (hl _) hnode]
    exact h.flatten
  | crash hcrash =>
    obtain ⟨-, w, -, rfl⟩ := Lifetime.of_crash hcrash
    refine ⟨batches, ?_, ?_, h.fits⟩
    · simpa [taken] using h.bodies
    · simpa [Forwarding.init] using h.flatten
  | nothing hpc hbatch => simp [Forwarding.BatchFits, hpc, hbatch] at hfits
  | accepted hpc _ hr =>
    have hwrite : s.lifetime.node.batch ≠ [] ∧ s.lifetime.node.batch.length ≤ max 1 batchSize := by
      simpa only [Forwarding.BatchFits, hpc] using hfits
    exact ⟨_, h.accept hwrite hr _ _ _⟩
  | @failed _ _ r _ _ hr =>
    have hfailed : ¬ (s.post r).answer.Success := hr
    refine ⟨batches, ?_, h.flatten, h.fits⟩
    rw [taken, taken_concat, if_neg hfailed, List.append_nil]
    exact h.bodies

lemma exists_carries {w : Wal}
    (h : Reach (step displayStatus bc segmentBytes batchSize flushIntervalMs)
      (Orderly bc segmentBytes) (init flushIntervalMs w) s) :
    ∃ batches, s.Carries batchSize batches := by
  have hinv : (∃ batches, s.Carries batchSize batches) ∧
      s.lifetime.node.BatchFits batchSize := by
    induction h with
    | refl => exact ⟨⟨[], rfl, rfl, nofun⟩, .inl rfl⟩
    | tail _ _ hstep ih =>
      obtain ⟨⟨batches, hbatches⟩, hfits⟩ := ih
      exact ⟨hbatches.step hfits hstep, batchFits_of_step hfits hstep⟩
  exact hinv.1

/-- Every acknowledged entry is in one of the batches or has still to be sent. -/
lemma Carries.covered {batches : List (List WalEntry)} (h : s.Carries batchSize batches)
    (hbc : bc.RoundTrips) {d : WalDir} {w : Wal}
    (halive : Alive bc segmentBytes batchSize s.lifetime d w) :
    ∀ e ∈ s.lifetime.acked ++ s.lifetime.node.writer.ackedEntries,
      (∃ b ∈ batches, e ∈ b) ∨ e ∈ s.lifetime.node.pending bc := by
  intro e he
  have hcovered := halive.covered hbc e he
  rw [List.mem_append, List.mem_append] at hcovered
  rw [← List.mem_flatten, h.flatten, List.mem_append]
  refine hcovered.imp_left fun htaken => ?_
  exact htaken.imp_left (halive.history.accepted e)

end Upload

end SmarthomeIngest
