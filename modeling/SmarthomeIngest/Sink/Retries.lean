import SmarthomeIngest.Sink.Upload

/-!
# Retries of a batch

What the posts of one process look like: a batch that is not taken is posted again unchanged, after a
pause that is neither empty nor long, and while the failures are transient the pauses are those of
the `schedule`.
-/

namespace SmarthomeIngest

open Transition

/-- `q` is a retry of `p`. -/
def Post.Retries (p q : Post) : Prop :=
  q.body = p.body ∧ 1 ≤ q.pauseMs ∧ q.pauseMs ≤ retryBackoffCapMs

/-- Retries all have the same body. -/
lemma body_eq_of_isChain {failed : List Post} {q : Post}
    (h : (failed ++ [q]).IsChain fun p p' => ¬ p.answer.Success → p.Retries p')
    (hfailed : ∀ p ∈ failed, ¬ p.answer.Success) : ∀ p ∈ failed, p.body = q.body := by
  induction failed with
  | nil => simp
  | cons p failed ih =>
    rw [List.forall_mem_cons] at hfailed ⊢
    rw [List.cons_append, List.isChain_cons] at h
    have hrest := ih h.2 hfailed.2
    refine ⟨?_, hrest⟩
    cases failed with
    | nil => exact (h.1 q rfl hfailed.1).1.symm
    | cons p' failed =>
      calc p.body = p'.body := (h.1 p' rfl hfailed.1).1.symm
        _ = q.body := hrest p' List.mem_cons_self

/-- `failed` are the posts of one batch so far, all of them failed transiently. -/
structure Failures (posts failed : List Post) : Prop where
  suffix : ∃ older, posts = older ++ failed ∧ ∀ p ∈ older.getLast?, p.answer.Success
  transient : ∀ p ∈ failed, p.answer.Transient

namespace Failures

variable {posts failed : List Post} {p : Post}

lemma nil (h : ∀ p ∈ posts.getLast?, p.answer.Success) : Failures posts [] :=
  ⟨⟨posts, by simp, h⟩, by simp⟩

/-- The last post is one of the failures, or it is a success and there are none. -/
lemma of_concat (h : Failures (posts ++ [p]) failed) :
    (failed = [] ∧ p.answer.Success) ∨
      ∃ failed', failed = failed' ++ [p] ∧ Failures posts failed' ∧ p.answer.Transient := by
  obtain ⟨⟨older, hposts, holder⟩, htransient⟩ := h
  cases failed using List.reverseRecOn with
  | nil =>
    left
    refine ⟨rfl, holder p ?_⟩
    rw [List.append_nil] at hposts
    simp [← hposts]
  | append_singleton failed' q =>
    right
    rw [← List.append_assoc] at hposts
    obtain ⟨hinit, hlast⟩ := List.append_inj' hposts rfl
    obtain rfl : p = q := List.singleton_inj.mp hlast
    refine ⟨failed', rfl, ⟨⟨older, hinit, holder⟩, ?_⟩, htransient p (by simp)⟩
    intro q hq
    exact htransient q (List.mem_append_left _ hq)

end Failures

namespace Upload

variable {displayStatus : ℕ → String} {bc : Bincode}
  {segmentBytes batchSize flushIntervalMs : ℕ} {s s' : Upload} {l : UploadLabel}

/-- The posts of the running process, and the state of the retries behind them. -/
structure Retrying (flushIntervalMs : ℕ) (s : Upload) : Prop where
  bounded : s.retry.Bounded
  chain : s.posts.IsChain fun p q => ¬ p.answer.Success → p.Retries q
  next : ∀ p ∈ s.posts.getLast?, ¬ p.answer.Success →
    (∃ upTo closing, s.lifetime.node.pc = .write upTo closing) ∧ ∀ r, p.Retries (s.post r)
  paused : ∀ older q newer failed, s.posts = older ++ q :: newer → Failures older failed →
    q.pauseMs = schedule flushIntervalMs failed.length
  scheduled : ∀ failed, Failures s.posts failed →
    s.retry.Scheduled flushIntervalMs failed.length

namespace Retrying

/-- Without posts everything is at its start. -/
lemma of_nil (hretry : s.retry = .start flushIntervalMs) (hposts : s.posts = []) :
    s.Retrying flushIntervalMs where
  bounded := hretry ▸ RetryState.bounded_start flushIntervalMs
  chain := hposts ▸ .nil
  next := by simp [hposts]
  paused := by simp [hposts]
  scheduled := by
    intro failed hfailed
    obtain ⟨⟨older, heq, -⟩, -⟩ := hfailed
    rw [hposts] at heq
    have hnil : failed = [] := (List.append_eq_nil_iff.mp heq.symm).2
    rw [hretry, hnil]
    exact RetryState.scheduled_start flushIntervalMs

/-- One more post is a retry of the last one, or the first post of a batch. -/
lemma concat (h : s.Retrying flushIntervalMs) (r : SendResult) :
    ((s.posts ++ [s.post r]).IsChain fun p q => ¬ p.answer.Success → p.Retries q) ∧
    ∀ older q newer failed, s.posts ++ [s.post r] = older ++ q :: newer → Failures older failed →
      q.pauseMs = schedule flushIntervalMs failed.length := by
  constructor
  · refine h.chain.append (.singleton _) ?_
    intro p hp q hq hfailed
    simp only [List.head?_cons, Option.mem_some_iff] at hq
    exact hq ▸ (h.next p hp hfailed).2 r
  · intro older q newer failed heq hfailed
    cases newer using List.reverseRecOn with
    | nil =>
      obtain ⟨rfl, hlast⟩ := List.append_inj' heq rfl
      cases hlast
      exact (h.scheduled failed hfailed).pauseMs
    | append_singleton newer p =>
      rw [← List.cons_append, ← List.append_assoc] at heq
      obtain ⟨hposts, -⟩ := List.append_inj' heq rfl
      exact h.paused older q newer failed hposts hfailed

lemma step (h : s.Retrying flushIntervalMs) (hfits : s.lifetime.node.BatchFits batchSize)
    (hstep : step displayStatus bc segmentBytes batchSize flushIntervalMs s l = some s') :
    s'.Retrying flushIntervalMs := by
  cases UploadRule.of_step hstep with
  | node hl hnode =>
    refine ⟨h.bounded, h.chain, ?_, h.paused, h.scheduled⟩
    intro p hp hfailed
    obtain ⟨⟨upTo, closing, hpc⟩, hretries⟩ := h.next p hp hfailed
    obtain ⟨hpc', hbatch⟩ := Forwarding.write_of_step hl hpc hnode
    refine ⟨⟨upTo, closing, hpc'⟩, ?_⟩
    simpa [post, body, Post.Retries, hbatch] using hretries
  | crash => exact of_nil rfl rfl
  | nothing hpc hbatch => simp [Forwarding.BatchFits, hpc, hbatch] at hfits
  | @accepted upTo closing r hpc hbatch hr =>
    obtain ⟨hchain, hpaused⟩ := h.concat r
    refine ⟨RetryState.bounded_start flushIntervalMs, hchain, ?_, hpaused, ?_⟩
    · intro p hp hfailed
      simp only [List.getLast?_concat, Option.mem_some_iff] at hp
      rw [← hp] at hfailed
      exact absurd hr hfailed
    · intro failed hfailed
      rcases hfailed.of_concat with ⟨rfl, -⟩ | ⟨failed', -, -, htransient⟩
      · exact RetryState.scheduled_start flushIntervalMs
      · exact absurd htransient (SendResult.not_transient_of_success hr)
  | @failed upTo closing r hpc hbatch hr =>
    obtain ⟨hchain, hpaused⟩ := h.concat r
    obtain ⟨hbounded, hone, hcap⟩ := h.bounded.after displayStatus flushIntervalMs hr
    refine ⟨hbounded, hchain, ?_, hpaused, ?_⟩
    · intro p hp _
      simp only [List.getLast?_concat, Option.mem_some_iff] at hp
      rw [← hp]
      exact ⟨⟨upTo, closing, hpc⟩, fun _ => ⟨rfl, hone, hcap⟩⟩
    · intro failed hfailed
      rcases hfailed.of_concat with ⟨-, hsuccess⟩ | ⟨failed', rfl, hfailed', htransient⟩
      · exact absurd hsuccess hr
      · rw [List.length_append]
        exact (h.scheduled failed' hfailed').after displayStatus flushIntervalMs htransient

end Retrying

/-- In every run, the posts of a process come in this way: a post that has failed is followed by one
with the same body, after a pause of at least a millisecond and at most five seconds; and a post
behind `n` failures of its batch, all of them transient, comes after the pause `schedule n`. -/
theorem retries_of_reach {w : Wal}
    (h : Reachable (step displayStatus bc segmentBytes batchSize flushIntervalMs)
      (init flushIntervalMs w) s) :
    (s.posts.IsChain fun p q => ¬ p.answer.Success → p.Retries q) ∧
    ∀ older failed q newer, s.posts = older ++ failed ++ q :: newer →
      (∀ p ∈ older.getLast?, p.answer.Success) → (∀ p ∈ failed, p.answer.Transient) →
      q.pauseMs = schedule flushIntervalMs failed.length ∧ ∀ p ∈ failed, p.body = q.body := by
  have hretrying : s.Retrying flushIntervalMs := by
    have hinv : s.Retrying flushIntervalMs ∧ s.lifetime.node.BatchFits batchSize := by
      induction h with
      | refl => exact ⟨.of_nil rfl rfl, .inl rfl⟩
      | tail _ _ hstep ih => exact ⟨ih.1.step ih.2 hstep, batchFits_of_step ih.2 hstep⟩
    exact hinv.1
  refine ⟨hretrying.chain, ?_⟩
  intro older failed q newer hposts holder htransient
  refine ⟨hretrying.paused _ q newer failed hposts ⟨⟨older, rfl, holder⟩, htransient⟩, ?_⟩
  have hchain := hretrying.chain
  rw [hposts, List.append_assoc, ← List.singleton_append, ← List.append_assoc failed] at hchain
  apply body_eq_of_isChain hchain.right_of_append.left_of_append
  intro p hp hsuccess
  exact SendResult.not_transient_of_success hsuccess (htransient p hp)

/-- One record, and four failures before Influx takes it. -/
def fourFailures : List UploadLabel :=
  ([.next, .next, .tick].map (.lifetime ∘ .node)) ++
  [.answer (.response 503), .answer (.requestError "timeout"), .answer (.response 429),
    .answer (.response 500), .answer (.response 204)]

theorem retries_of_fourFailures :
    ∃ w s, Wal.open Bincode.fixint Live.oneFrameDir = .ok w ∧
      exec (step Nat.repr Bincode.fixint 1024 8 5) (init 5 w) fourFailures = some s ∧
      s.posts.map Post.pauseMs = [0, 1000, 2000, 5, 1000] ∧
      (s.posts.IsChain fun p q => ¬ p.answer.Success → p.Retries q) ∧
      ∀ q ∈ s.posts.getLast?, q.pauseMs = schedule 5 4 := by
  obtain ⟨w, s, hopen, hexec, hposts⟩ : ∃ (w : Wal) (s : Upload),
      Wal.open Bincode.fixint Live.oneFrameDir = .ok w ∧
      exec (step Nat.repr Bincode.fixint 1024 8 5) (init 5 w) fourFailures = some s ∧
      s.posts = [⟨"", 0, .response 503⟩, ⟨"", 1000, .requestError "timeout"⟩,
        ⟨"", 2000, .response 429⟩, ⟨"", 5, .response 500⟩, ⟨"", 1000, .response 204⟩] :=
    ⟨_, _, rfl, rfl, rfl⟩
  obtain ⟨hchain, hpaused⟩ := retries_of_reach (.of_exec hexec)
  refine ⟨w, s, hopen, hexec, by rw [hposts]; rfl, hchain, ?_⟩
  intro q hq
  rw [hposts] at hq
  exact (hpaused [] (s.posts.take 4) q [] (by rw [hposts]; cases hq; rfl) nofun
    (by rw [hposts]; decide)).1.trans (by rw [hposts]; rfl)

end Upload

end SmarthomeIngest
