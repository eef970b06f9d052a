import SmarthomeIngest.Sink.Influx
import SmarthomeIngest.Wal.Forwarder

/-!
# Writing to Influx

`InfluxSink::write` is a loop over its attempts. Between two of them it is a `WriteLoop`, and
`onAnswer` says what it does with the answer to a post. `RetryState` is that loop with the backoff
that `flush` keeps between two calls of `write`. The pauses before the posts of a batch have a closed
form, the `schedule`.
-/

namespace SmarthomeIngest

/-! ### Answers -/

/-- What a post comes back with. -/
inductive SendResult where
  | requestError (e : String)
  | response (status : ℕ)
  deriving DecidableEq

inductive SinkError where
  | retryable (e : String)
  | permanent (e : String)
  deriving DecidableEq

def isSuccess (status : ℕ) : Bool := decide (200 ≤ status ∧ status < 300)

def isClientError (status : ℕ) : Bool := decide (400 ≤ status ∧ status < 500)

/-- A client error is permanent, unless it is 408 or 429. -/
def isPermanentStatus (status : ℕ) : Bool := isClientError status && status != 408 && status != 429

namespace SendResult

/-- The server has taken the body. -/
def Success : SendResult → Prop
  | .requestError _  => False
  | .response status => isSuccess status = true

/-- A retry may help. -/
def Transient : SendResult → Prop
  | .requestError _  => True
  | .response status => isSuccess status = false ∧ isPermanentStatus status = false

instance : ∀ r : SendResult, Decidable r.Success
  | .requestError _  => .isFalse id
  | .response status => inferInstanceAs (Decidable (isSuccess status = true))

instance : ∀ r : SendResult, Decidable r.Transient
  | .requestError _ => .isTrue trivial
  | .response _     => inferInstanceAs (Decidable (_ ∧ _))

lemma not_transient_of_success {r : SendResult} (h : r.Success) : ¬ r.Transient := by
  intro htransient
  cases r with
  | requestError e => exact h
  | response status =>
    have hstatus : isSuccess status = true := h
    simp [Transient, hstatus] at htransient

end SendResult

/-! ### The loop of `write` -/

/-- The loop of `write` in front of an attempt. -/
structure WriteLoop where
  attempt : ℕ
  lastErr : String
  deriving DecidableEq

/-- What comes after an answer: the next attempt, or the return. -/
inductive AfterAnswer where
  | again (loop : WriteLoop)
  | done (result : Except SinkError Unit)

namespace WriteLoop

def start : WriteLoop := ⟨0, "no write attempts made"⟩

/-- The sleep in front of the attempt. -/
def sleepMs (loop : WriteLoop) : ℕ := if loop.attempt = 0 then 0 else 1000 * 2 ^ (loop.attempt - 1)

/-- `continue`, or the end of the loop. -/
def fail (loop : WriteLoop) (err : String) : AfterAnswer :=
  if loop.attempt + 1 < 3 then .again ⟨loop.attempt + 1, err⟩ else .done (.error (.retryable err))

variable (displayStatus : ℕ → String)

def httpWriteError (status : ℕ) : String := "Influx write failed: status=" ++ displayStatus status

def onAnswer (loop : WriteLoop) : SendResult → AfterAnswer
  | .requestError e => loop.fail ("Influx write request failed: " ++ e)
  | .response status =>
    if !isSuccess status then
      if isPermanentStatus status then .done (.error (.permanent (httpWriteError displayStatus status)))
      else loop.fail (httpWriteError displayStatus status)
    else .done (.ok ())

end WriteLoop

/-- What the forwarder makes of a result. -/
def sinkResult : Except SinkError Unit → SinkResult
  | .ok ()                 => .ok
  | .error (.retryable _)  => .retryable
  | .error (.permanent _)  => .permanent

namespace WriteLoop

variable (displayStatus : ℕ → String) (loop : WriteLoop) {r : SendResult}

lemma onAnswer_of_success (h : r.Success) : loop.onAnswer displayStatus r = .done (.ok ()) := by
  cases r with
  | requestError e => exact absurd h id
  | response status =>
    have hstatus : isSuccess status = true := h
    simp [onAnswer, hstatus]

lemma onAnswer_of_transient (h : r.Transient) :
    ∃ err, loop.onAnswer displayStatus r = loop.fail err := by
  cases r with
  | requestError e => exact ⟨_, rfl⟩
  | response status =>
    obtain ⟨hstatus, hpermanent⟩ : isSuccess status = false ∧ isPermanentStatus status = false := h
    simp [onAnswer, hstatus, hpermanent]

/-- An answer that is not a success is followed by another attempt, or by the return of an error. -/
lemma onAnswer_of_not_success (h : ¬ r.Success) :
    (loop.attempt < 2 ∧ ∃ err, loop.onAnswer displayStatus r = .again ⟨loop.attempt + 1, err⟩) ∨
      ∃ e, loop.onAnswer displayStatus r = .done (.error e) := by
  by_cases htransient : r.Transient
  · obtain ⟨err, heq⟩ := loop.onAnswer_of_transient displayStatus htransient
    rw [heq, fail]
    split_ifs with hlt
    · exact .inl ⟨by omega, err, rfl⟩
    · exact .inr ⟨_, rfl⟩
  · cases r with
    | requestError e => exact absurd trivial htransient
    | response status =>
      have hstatus : isSuccess status = false := Bool.eq_false_iff.mpr h
      have hpermanent : isPermanentStatus status = true := by
        by_contra hnot
        exact htransient ⟨hstatus, Bool.eq_false_iff.mpr hnot⟩
      right
      simp [onAnswer, hstatus, hpermanent]

end WriteLoop

/-! ### The pauses of `flush` -/

def retryBackoffCapMs : ℕ := 5000

def retryBackoffStartCapMs : ℕ := 1000

def initialBackoffMs (flushIntervalMs : ℕ) : ℕ := max 1 (min flushIntervalMs retryBackoffStartCapMs)

def nextBackoffMs (backoffMs : ℕ) : ℕ := min (backoffMs * 2) retryBackoffCapMs

/-- The pause before a post that comes after `n` failed ones, all of them transient: a second and two
seconds between the attempts of a call, and the backoff of `flush` between two calls. -/
def schedule (flushIntervalMs n : ℕ) : ℕ :=
  match n % 3 with
  | 0 => if n = 0 then 0 else min (initialBackoffMs flushIntervalMs * 2 ^ (n / 3 - 1)) retryBackoffCapMs
  | 1 => 1000
  | _ => 2000

/-- The state of the two loops around a post: that of `write`, the backoff of `flush`, and the pause
in front of the post. -/
structure RetryState where
  loop : WriteLoop
  backoffMs : ℕ
  pauseMs : ℕ
  deriving DecidableEq

namespace RetryState

/-- In front of the first post of a batch. -/
def start (flushIntervalMs : ℕ) : RetryState := ⟨.start, initialBackoffMs flushIntervalMs, 0⟩

/-- After an answer: `write` goes on, or has returned. -/
def after (s : RetryState) (flushIntervalMs : ℕ) : AfterAnswer → RetryState
  | .again loop      => ⟨loop, s.backoffMs, loop.sleepMs⟩
  | .done (.ok ())   => start flushIntervalMs
  | .done (.error _) => ⟨.start, nextBackoffMs s.backoffMs, s.backoffMs⟩

variable (displayStatus : ℕ → String) (flushIntervalMs : ℕ) {n : ℕ} {s : RetryState}
  {r : SendResult}

/-- What holds in front of every post. -/
structure Bounded (s : RetryState) : Prop where
  attempt : s.loop.attempt < 3
  one_le : 1 ≤ s.backoffMs
  le_cap : s.backoffMs ≤ retryBackoffCapMs

lemma initialBackoffMs_mem :
    1 ≤ initialBackoffMs flushIntervalMs ∧ initialBackoffMs flushIntervalMs ≤ retryBackoffCapMs := by
  simp [initialBackoffMs, retryBackoffStartCapMs, retryBackoffCapMs]

lemma bounded_start : (start flushIntervalMs).Bounded where
  attempt := Nat.zero_lt_succ 2
  one_le := (initialBackoffMs_mem flushIntervalMs).1
  le_cap := (initialBackoffMs_mem flushIntervalMs).2

/-- A failed post is followed by a pause, but not by a long one. -/
lemma Bounded.after (hs : s.Bounded) (h : ¬ r.Success) :
    let s' := s.after flushIntervalMs (s.loop.onAnswer displayStatus r)
    s'.Bounded ∧ 1 ≤ s'.pauseMs ∧ s'.pauseMs ≤ retryBackoffCapMs := by
  rcases s.loop.onAnswer_of_not_success displayStatus h with
    ⟨hlt, err, heq⟩ | ⟨e, heq⟩
  · rw [heq]
    refine ⟨⟨Nat.succ_lt_succ hlt, hs.one_le, hs.le_cap⟩, ?_⟩
    have hcases : s.loop.attempt = 0 ∨ s.loop.attempt = 1 := by omega
    rcases hcases with h | h <;>
      simp [RetryState.after, WriteLoop.sleepMs, retryBackoffCapMs, h]
  · rw [heq]
    refine ⟨⟨Nat.zero_lt_succ 2, ?_, Nat.min_le_right _ _⟩, hs.one_le, hs.le_cap⟩
    have := hs.one_le
    simp [RetryState.after, nextBackoffMs, retryBackoffCapMs]
    omega

/-- The state in front of a post that comes after `n` failed ones, all of them transient. -/
structure Scheduled (flushIntervalMs n : ℕ) (s : RetryState) : Prop where
  attempt : s.loop.attempt = n % 3
  backoffMs : s.backoffMs = min (initialBackoffMs flushIntervalMs * 2 ^ (n / 3)) retryBackoffCapMs
  pauseMs : s.pauseMs = schedule flushIntervalMs n

lemma scheduled_start : Scheduled flushIntervalMs 0 (start flushIntervalMs) where
  attempt := rfl
  backoffMs := by
    have hle := (initialBackoffMs_mem flushIntervalMs).2
    simp [start, hle]
  pauseMs := rfl

/-- The backoff doubles up to its cap. -/
lemma nextBackoffMs_min (a k : ℕ) :
    nextBackoffMs (min (a * 2 ^ k) retryBackoffCapMs) = min (a * 2 ^ (k + 1)) retryBackoffCapMs := by
  rw [nextBackoffMs, Nat.pow_succ, ← Nat.mul_assoc]
  simp only [retryBackoffCapMs]
  omega

lemma Scheduled.after (hs : Scheduled flushIntervalMs n s) (h : r.Transient) :
    Scheduled flushIntervalMs (n + 1)
      (s.after flushIntervalMs (s.loop.onAnswer displayStatus r)) := by
  obtain ⟨err, heq⟩ := s.loop.onAnswer_of_transient displayStatus h
  have hattempt := hs.attempt
  rw [heq, WriteLoop.fail]
  split_ifs with hlt
  · -- the next attempt of the same call
    have hdiv : (n + 1) / 3 = n / 3 := by omega
    refine ⟨?_, ?_, ?_⟩
    · show s.loop.attempt + 1 = _
      omega
    · rw [hdiv]
      exact hs.backoffMs
    · have hcases : n % 3 = 0 ∨ n % 3 = 1 := by omega
      rcases hcases with hmod | hmod
      · have hnext : (n + 1) % 3 = 1 := by omega
        simp [RetryState.after, WriteLoop.sleepMs, schedule, hattempt, hmod, hnext]
      · have hnext : (n + 1) % 3 = 2 := by omega
        simp [RetryState.after, WriteLoop.sleepMs, schedule, hattempt, hmod, hnext]
  · -- the call returns, and `flush` makes another one
    have hdiv : (n + 1) / 3 = n / 3 + 1 := by omega
    have hnext : (n + 1) % 3 = 0 := by omega
    refine ⟨hnext.symm, ?_, ?_⟩
    · rw [hdiv, ← nextBackoffMs_min, ← hs.backoffMs]
      rfl
    · simp [RetryState.after, schedule, hnext, hdiv, hs.backoffMs]

end RetryState

end SmarthomeIngest
