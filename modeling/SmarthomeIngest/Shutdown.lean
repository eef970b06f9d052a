import SmarthomeIngest.Lib.Bytes
import SmarthomeIngest.Lib.Transition
import Mathlib.Data.List.Basic

/-!
# Source, workers and shutdown

`main` with its workers and the source task as one system; the steps of the parties and the signal
come in any order. A worker that has seen the signal stops at the first empty queue, while the
source may still be dispatching: what is dispatched to it from then on is lost. The invariant of
the system holds in the runs where this does not happen.
-/

namespace SmarthomeIngest

open Transition

/-! ### The system -/

structure IngestJob where
  topic : String
  payload : Bytes
  deriving DecidableEq

/-- The points of a worker: `recv_worker_job` reads the shutdown flag, then looks into the queue or
waits; behind the loop the receiver is dropped. -/
inductive WorkerPc where
  | borrow
  | tryRecv
  | select
  | run (job : IngestJob)
  | stopped
  | exited
  deriving DecidableEq

/-- A worker and its queue. The last two fields are history: the jobs that `try_send` has put into
the queue, and those that have been run through the pipeline. -/
structure Worker where
  queue : List IngestJob
  pc : WorkerPc
  accepted : List IngestJob
  processed : List IngestJob
  deriving DecidableEq

inductive WorkerLabel where
  | borrow
  | changed
  | recv
  | tryRecv
  | finish
  | dropReceiver
  deriving DecidableEq

namespace Worker

def init : Worker := ⟨[], .borrow, [], []⟩

/-- One step of the worker loop. `senders` says whether a sender of its queue is left. -/
def step (shutdown senders : Bool) (w : Worker) (l : WorkerLabel) : Option Worker :=
  match w.pc, l with
  | .borrow, .borrow => some { w with pc := if shutdown then .tryRecv else .select }
  | .select, .changed => if shutdown then some { w with pc := .borrow } else none
  | .select, .recv =>
    match w.queue with
    | job :: rest => some { w with queue := rest, pc := .run job }
    | []          => if senders then none else some { w with pc := .stopped }
  | .tryRecv, .tryRecv =>
    match w.queue with
    | job :: rest => some { w with queue := rest, pc := .run job }
    | []          => some { w with pc := .stopped }
  | .run job, .finish => some { w with pc := .borrow, processed := w.processed ++ [job] }
  | .stopped, .dropReceiver => some { w with queue := [], pc := .exited }
  | _, _ => none

/-- The loop is over. -/
def Stopped (w : Worker) : Prop := w.pc = .stopped ∨ w.pc = .exited

instance (w : Worker) : Decidable w.Stopped := inferInstanceAs (Decidable (_ ∨ _))

end Worker

inductive TrySendError where
  | full
  | closed
  deriving DecidableEq

/-- `try_send` on the queue of a worker. -/
def Worker.trySend (cap : ℕ) (w : Worker) (job : IngestJob) : Except TrySendError Worker :=
  if w.pc = .exited then .error .closed
  else if cap ≤ w.queue.length then .error .full
  else .ok { w with queue := w.queue ++ [job], accepted := w.accepted ++ [job] }

/-- The points of `main` from the `select!` on. -/
inductive MainPc where
  | select
  | joinSource
  | dropSenders
  | joinWorkers
  | joined
  deriving DecidableEq

/-- The service. `dropped` is history: the jobs that were not dispatched. -/
structure Service where
  workers : List Worker
  next : ℕ
  sourceRunning : Bool
  shutdown : Bool
  main : MainPc
  dropped : List (IngestJob × TrySendError)

inductive ServiceLabel where
  | dispatch (job : IngestJob)
  | sourceEnds
  | worker (id : ℕ) (l : WorkerLabel)
  | signal
  | main
  deriving DecidableEq

namespace Service

/-- The state when `main` enters its `select!`. -/
def init (workerTotal : ℕ) : Service where
  workers := List.replicate workerTotal .init
  next := 0
  sourceRunning := true
  shutdown := false
  main := .select
  dropped := []

/-- `main` and the dispatcher of the source hold the senders. -/
def senders (s : Service) : Bool :=
  s.sourceRunning || (s.main != .joinWorkers && s.main != .joined)

/-- The worker the next job goes to. -/
def target (s : Service) : ℕ := s.next % s.workers.length

variable (cap : ℕ)

/-- One step of a party, or the signal. -/
def step (s : Service) : ServiceLabel → Option Service
  | .dispatch job =>
    if s.sourceRunning then
      match s.workers[s.target]? with
      | none => none
      | some w =>
        -- `fetch_add` on an `AtomicUsize`
        let next := (s.next + 1) % 2 ^ 64
        match w.trySend cap job with
        | .ok w    => some { s with workers := s.workers.set s.target w, next := next }
        | .error e => some { s with next := next, dropped := s.dropped ++ [(job, e)] }
    else none
  | .sourceEnds => if s.sourceRunning then some { s with sourceRunning := false } else none
  | .worker id l =>
    match s.workers[id]? with
    | none => none
    | some w =>
      (w.step s.shutdown s.senders l).map fun w => { s with workers := s.workers.set id w }
  | .signal =>
    if s.main = .select then some { s with shutdown := true, main := .joinSource } else none
  | .main =>
    match s.main with
    | .select =>
      if s.sourceRunning then none else some { s with shutdown := true, main := .dropSenders }
    | .joinSource => if s.sourceRunning then none else some { s with main := .dropSenders }
    | .dropSenders => some { s with main := .joinWorkers }
    | .joinWorkers =>
      if ∀ w ∈ s.workers, w.pc = .exited then some { s with main := .joined } else none
    | .joined => none

/-- Once `main` has joined the workers every accepted job has been run, once and in order, and no
dispatch has failed but for a full queue. -/
def NothingLost (s : Service) : Prop :=
  (∀ d ∈ s.dropped, d.2 = .full) ∧
    (s.main = .joined → ∀ w ∈ s.workers, w.processed = w.accepted)

/-- No job is dispatched to a worker that has stopped. -/
def ToRunning (s : Service) : ServiceLabel → Prop
  | .dispatch _ => ∀ w ∈ s.workers[s.target]?, ¬ w.Stopped
  | _ => True

instance : ∀ (s : Service) (l : ServiceLabel), Decidable (s.ToRunning l)
  | s, .dispatch _ => inferInstanceAs (Decidable (∀ w ∈ s.workers[s.target]?, ¬ w.Stopped))
  | _, .sourceEnds | _, .worker _ _ | _, .signal | _, .main => .isTrue trivial

end Service

/-! ### One worker -/

namespace Worker

variable {shutdown senders : Bool} {cap : ℕ} {w w' : Worker} {l : WorkerLabel} {job : IngestJob}

/-- The job in hand. -/
def inHand (w : Worker) : List IngestJob :=
  match w.pc with
  | .run job => [job]
  | _ => []

/-- Every accepted job is done, in hand or in the queue, and a stopped worker has none of the last
two. -/
structure Accounted (w : Worker) : Prop where
  accepted : w.accepted = w.processed ++ w.inHand ++ w.queue
  queue : w.Stopped → w.queue = []

lemma accounted_init : Accounted .init := ⟨rfl, fun _ => rfl⟩

/-- What a step of a worker does. -/
inductive WorkerRule (shutdown senders : Bool) (w : Worker) : WorkerLabel → Worker → Prop
  | borrow (hpc : w.pc = .borrow) :
      WorkerRule shutdown senders w .borrow
        { w with pc := if shutdown then .tryRecv else .select }
  | changed (hpc : w.pc = .select) (hshutdown : shutdown = true) :
      WorkerRule shutdown senders w .changed { w with pc := .borrow }
  | recv {job : IngestJob} {rest : List IngestJob} (hpc : w.pc = .select)
      (hqueue : w.queue = job :: rest) :
      WorkerRule shutdown senders w .recv { w with queue := rest, pc := .run job }
  | closed (hpc : w.pc = .select) (hqueue : w.queue = []) (hsenders : senders = false) :
      WorkerRule shutdown senders w .recv { w with pc := .stopped }
  | tryRecv {job : IngestJob} {rest : List IngestJob} (hpc : w.pc = .tryRecv)
      (hqueue : w.queue = job :: rest) :
      WorkerRule shutdown senders w .tryRecv { w with queue := rest, pc := .run job }
  | drained (hpc : w.pc = .tryRecv) (hqueue : w.queue = []) :
      WorkerRule shutdown senders w .tryRecv { w with pc := .stopped }
  | finish {job : IngestJob} (hpc : w.pc = .run job) :
      WorkerRule shutdown senders w .finish
        { w with pc := .borrow, processed := w.processed ++ [job] }
  | dropReceiver (hpc : w.pc = .stopped) :
      WorkerRule shutdown senders w .dropReceiver { w with queue := [], pc := .exited }

/-- Every step of a worker is by one of the rules. -/
theorem WorkerRule.of_step (hs : w.step shutdown senders l = some w') :
    WorkerRule shutdown senders w l w' := by
  unfold Worker.step at hs
  split at hs
  · rename_i hpc
    cases hs
    exact .borrow hpc
  · rename_i hpc
    split_ifs at hs with hshutdown
    cases hs
    exact .changed hpc hshutdown
  · rename_i hpc
    split at hs
    · rename_i hqueue
      cases hs
      exact .recv hpc hqueue
    · rename_i hqueue
      split_ifs at hs with hsenders
      cases hs
      exact .closed hpc hqueue (Bool.eq_false_iff.mpr hsenders)
  · rename_i hpc
    split at hs
    · rename_i hqueue
      cases hs
      exact .tryRecv hpc hqueue
    · rename_i hqueue
      cases hs
      exact .drained hpc hqueue
  · rename_i hpc
    cases hs
    exact .finish hpc
  · rename_i hpc
    cases hs
    exact .dropReceiver hpc
  · cases hs

/-- Taking a job from the queue leaves the account as it is. -/
lemma Accounted.take {rest : List IngestJob} (h : w.Accounted) (hhand : w.inHand = [])
    (hqueue : w.queue = job :: rest) :
    Accounted { w with queue := rest, pc := .run job } := by
  refine ⟨?_, fun hstop => by simp [Stopped] at hstop⟩
  have haccepted := h.accepted
  rw [hhand, hqueue] at haccepted
  simpa [inHand] using haccepted

/-- So does stopping with an empty queue. -/
lemma Accounted.stop (h : w.Accounted) (hhand : w.inHand = []) (hqueue : w.queue = []) :
    Accounted { w with pc := .stopped } := by
  refine ⟨?_, fun _ => hqueue⟩
  have haccepted := h.accepted
  rw [hhand] at haccepted
  exact haccepted

lemma Accounted.step (h : w.Accounted) (hs : w.step shutdown senders l = some w') :
    w'.Accounted := by
  have haccepted := h.accepted
  cases WorkerRule.of_step hs with
  | borrow hpc =>
    rw [inHand, hpc] at haccepted
    cases shutdown with
    | true => exact ⟨haccepted, fun hstop => by simp [Stopped] at hstop⟩
    | false => exact ⟨haccepted, fun hstop => by simp [Stopped] at hstop⟩
  | changed hpc _ =>
    rw [inHand, hpc] at haccepted
    exact ⟨haccepted, fun hstop => by simp [Stopped] at hstop⟩
  | recv hpc hqueue => exact h.take (by rw [inHand, hpc]) hqueue
  | closed hpc hqueue _ => exact h.stop (by rw [inHand, hpc]) hqueue
  | tryRecv hpc hqueue => exact h.take (by rw [inHand, hpc]) hqueue
  | drained hpc hqueue => exact h.stop (by rw [inHand, hpc]) hqueue
  | finish hpc =>
    refine ⟨?_, fun hstop => by simp [Stopped] at hstop⟩
    rw [inHand, hpc] at haccepted
    simpa [inHand] using haccepted
  | dropReceiver hpc =>
    rw [inHand, hpc, h.queue (.inl hpc)] at haccepted
    exact ⟨haccepted, fun _ => rfl⟩

lemma Accounted.trySend (h : w.Accounted) (hrun : ¬ w.Stopped)
    (hs : w.trySend cap job = .ok w') : w'.Accounted := by
  unfold Worker.trySend at hs
  split_ifs at hs
  cases hs
  refine ⟨?_, fun hstop => absurd hstop hrun⟩
  show w.accepted ++ [job] = w.processed ++ w.inHand ++ (w.queue ++ [job])
  rw [h.accepted, List.append_assoc]

/-- The queue of a worker that runs is not closed. -/
lemma full_of_trySend {e : TrySendError} (hrun : ¬ w.Stopped) (hs : w.trySend cap job = .error e) :
    e = .full := by
  unfold Worker.trySend at hs
  split_ifs at hs with hexit
  · exact absurd (.inr hexit) hrun
  · cases hs
    rfl

lemma Accounted.processed_eq (h : w.Accounted) (hexit : w.pc = .exited) :
    w.processed = w.accepted := by
  rw [h.accepted, h.queue (.inr hexit), inHand, hexit]
  simp

end Worker

/-! ### The whole service -/

namespace Service

variable {cap : ℕ} {s s' : Service} {l : ServiceLabel}

structure Accounted (s : Service) : Prop where
  workers : ∀ w ∈ s.workers, w.Accounted
  dropped : ∀ d ∈ s.dropped, d.2 = .full
  joined : s.main = .joined → ∀ w ∈ s.workers, w.pc = .exited

lemma accounted_init (workerTotal : ℕ) : (init workerTotal).Accounted where
  workers w hw := by
    rw [List.eq_of_mem_replicate hw]
    exact Worker.accounted_init
  dropped := nofun
  joined := nofun

/-- A worker that has exited makes no step. -/
lemma pc_ne_exited_of_step {shutdown senders : Bool} {w w' : Worker} {l : WorkerLabel}
    (h : w.step shutdown senders l = some w') : w.pc ≠ .exited := by
  intro hexit
  simp [Worker.step, hexit] at h

lemma Accounted.step (h : s.Accounted) (hG : s.ToRunning l) (hs : s.step cap l = some s') :
    s'.Accounted := by
  cases l with
  | dispatch job =>
    simp only [Service.step] at hs
    split at hs
    · split at hs
      · cases hs
      · rename_i w hw
        have hrun : ¬ w.Stopped := hG w hw
        have hmem : w ∈ s.workers := List.mem_of_getElem? hw
        split at hs
        · rename_i w' hsend
          cases hs
          refine ⟨fun w'' hw'' => ?_, h.dropped, fun hjoined w'' hw'' => ?_⟩
          · rcases List.mem_or_eq_of_mem_set hw'' with hold | rfl
            · exact h.workers w'' hold
            · exact (h.workers w hmem).trySend hrun hsend
          · exact absurd (.inr (h.joined hjoined w hmem)) hrun
        · rename_i e hsend
          cases hs
          refine ⟨h.workers, fun d hd => ?_, h.joined⟩
          rcases List.mem_append.mp hd with hold | hnew
          · exact h.dropped d hold
          · rw [List.mem_singleton.mp hnew]
            exact Worker.full_of_trySend hrun hsend
    · cases hs
  | sourceEnds =>
    simp only [Service.step] at hs
    split_ifs at hs
    cases hs
    exact ⟨h.workers, h.dropped, h.joined⟩
  | worker id l =>
    simp only [Service.step] at hs
    split at hs
    · cases hs
    · rename_i w hw
      have hmem : w ∈ s.workers := List.mem_of_getElem? hw
      obtain ⟨w', hstep, rfl⟩ := Option.map_eq_some_iff.mp hs
      refine ⟨fun w'' hw'' => ?_, h.dropped, fun hjoined => ?_⟩
      · rcases List.mem_or_eq_of_mem_set hw'' with hold | rfl
        · exact h.workers w'' hold
        · exact (h.workers w hmem).step hstep
      · exact absurd (h.joined hjoined w hmem) (pc_ne_exited_of_step hstep)
  | signal =>
    simp only [Service.step] at hs
    split_ifs at hs
    cases hs
    exact ⟨h.workers, h.dropped, nofun⟩
  | main =>
    simp only [Service.step] at hs
    split at hs
    · split_ifs at hs
      cases hs
      exact ⟨h.workers, h.dropped, nofun⟩
    · split_ifs at hs
      cases hs
      exact ⟨h.workers, h.dropped, nofun⟩
    · cases hs
      exact ⟨h.workers, h.dropped, nofun⟩
    · split_ifs at hs with hall
      cases hs
      exact ⟨h.workers, h.dropped, fun _ => hall⟩
    · cases hs

/-- Runs in which no job is dispatched to a stopped worker lose nothing. -/
theorem nothingLost_of_reach {workerTotal : ℕ}
    (h : Reach (Service.step cap) ToRunning (init workerTotal) s) : s.NothingLost := by
  have ha : s.Accounted :=
    h.invariant (accounted_init workerTotal) fun t l t' ht hG hstep => ht.step hG hstep
  refine ⟨ha.dropped, ?_⟩
  intro hjoined w hw
  exact (ha.workers w hw).processed_eq (ha.joined hjoined w hw)

/-- Two workers run a job each, the second one after the signal. -/
def cleanShutdown : List ServiceLabel :=
  [.worker 0 .borrow, .dispatch ⟨"smarthome/dev-1/status", [123, 125]⟩, .worker 0 .recv,
    .dispatch ⟨"smarthome/dev-2/status", [123, 125]⟩, .signal, .sourceEnds,
    .worker 0 .finish, .worker 0 .borrow, .worker 0 .tryRecv, .worker 0 .dropReceiver,
    .worker 1 .borrow, .worker 1 .tryRecv, .worker 1 .finish, .worker 1 .borrow,
    .worker 1 .tryRecv, .worker 1 .dropReceiver, .main, .main, .main]

theorem nothingLost_of_cleanShutdown :
    ∃ s, exec (Service.step 4) (init 2) cleanShutdown = some s ∧ s.main = .joined ∧
      s.workers.map Worker.accepted =
        [[⟨"smarthome/dev-1/status", [123, 125]⟩], [⟨"smarthome/dev-2/status", [123, 125]⟩]] ∧
      s.NothingLost := by
  obtain ⟨s, hexec, hjoined, haccepted⟩ : ∃ s : Service,
      exec (Service.step 4) (init 2) cleanShutdown = some s ∧ s.main = .joined ∧
      s.workers.map Worker.accepted =
        [[⟨"smarthome/dev-1/status", [123, 125]⟩], [⟨"smarthome/dev-2/status", [123, 125]⟩]] :=
    ⟨_, rfl, rfl, rfl⟩
  have hguard : Always (Service.step 4) ToRunning (init 2) cleanShutdown := by decide
  exact ⟨s, hexec, hjoined, haccepted, nothingLost_of_reach (Reach.of_exec hguard hexec)⟩

/-- Both workers see the signal and an empty queue before the source does. One of the jobs that the
source still dispatches is lost with the queue, the other one finds the queue closed. -/
def lateDispatch : List ServiceLabel :=
  [.signal, .worker 0 .borrow, .worker 0 .tryRecv,
    .dispatch ⟨"smarthome/dev-1/status", [123, 125]⟩, .worker 0 .dropReceiver,
    .worker 1 .borrow, .worker 1 .tryRecv, .worker 1 .dropReceiver,
    .dispatch ⟨"smarthome/dev-2/status", [123, 125]⟩, .sourceEnds, .main, .main, .main]

theorem not_nothingLost_of_lateDispatch :
    ∃ s, exec (Service.step 4) (init 2) lateDispatch = some s ∧ s.main = .joined ∧
      (∃ w ∈ s.workers, w.accepted = [⟨"smarthome/dev-1/status", [123, 125]⟩] ∧
        w.processed = []) ∧
      s.dropped = [(⟨"smarthome/dev-2/status", [123, 125]⟩, .closed)] ∧ ¬ s.NothingLost := by
  obtain ⟨s, w, hexec, hjoined, hw, haccepted, hprocessed, hdropped⟩ :
      ∃ (s : Service) (w : Worker),
        exec (Service.step 4) (init 2) lateDispatch = some s ∧ s.main = .joined ∧
        s.workers[0]? = some w ∧ w.accepted = [⟨"smarthome/dev-1/status", [123, 125]⟩] ∧
        w.processed = [] ∧
        s.dropped = [(⟨"smarthome/dev-2/status", [123, 125]⟩, .closed)] :=
    ⟨_, _, rfl, rfl, rfl, rfl, rfl, rfl⟩
  have hmem : w ∈ s.workers := List.mem_of_getElem? hw
  refine ⟨s, hexec, hjoined, ⟨w, hmem, haccepted, hprocessed⟩, hdropped, fun hlost => ?_⟩
  have hall := hlost.2 hjoined w hmem
  rw [haccepted, hprocessed] at hall
  cases hall

end Service

end SmarthomeIngest
