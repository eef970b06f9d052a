import SmarthomeIngest.Dispatch
import SmarthomeIngest.Pipeline.RecordSize
import SmarthomeIngest.Sink.Upload

/-!
# The whole service

From a dispatched job to a body that Influx has taken: the source, the workers with their pipelines,
the log and the upload of the log as one system, over all the processes that have run on a directory.
A worker runs its pipeline up to the append, and goes on when the writer has answered. What is known
of the parts carries over, because every step of the whole is a step of one or two of them.
-/

namespace SmarthomeIngest

open Transition

variable {F : Type}

/-! ### The system -/

/-- What the service is started with, and what it calls outside. `out.nowMs` and `out.appendDurable`
are not used: the clock and the log are part of the system. -/
structure IngestionConfig (F : Type) where
  out : Outside F
  router : Router F
  enforceTopicDeviceMatch : Bool
  dlqTopic : String
  workerTotal : ℕ
  perWorkerCap : ℕ
  bc : Bincode
  segmentBytes : ℕ
  batchSize : ℕ
  flushIntervalMs : ℕ
  displayStatus : ℕ → String

/-- A run of the pipeline that waits for the ack of its append. -/
structure WaitingRun where
  worker : ℕ
  job : IngestJob
  nowMs : Int64
  ack : ℕ

/-- A run of the pipeline that is over. -/
structure FinishedRun (F : Type) where
  worker : ℕ
  job : IngestJob
  nowMs : Int64
  state : PipelineState F

/-- The running process. The last two fields are history: the runs that are over, those of the
processes before in `earlier`. -/
structure Ingestion (F : Type) where
  service : Service
  upload : Upload
  waiting : List WaitingRun
  finished : List (FinishedRun F)
  earlier : List (FinishedRun F)

/-- How `try_send` of an append ends. -/
inductive TrySend where
  | sent (ack : ℕ)
  | full
  | closed

inductive IngestionLabel where
  | service (l : ServiceLabel)
  | pipeline (worker : ℕ) (nowMs : Int64) (trySend : TrySend)
  | answered (worker : ℕ)
  | upload (l : UploadLabel)

/-- The jobs that a label dispatches. -/
def IngestionLabel.jobs : IngestionLabel → List IngestJob
  | .service l => l.jobs
  | _          => []

/-- What `append_durable` makes of the answer of the writer. -/
def AckResult.toAppend : AckResult → Except AppendDurableError Unit
  | .ok         => .ok ()
  | .err reason => .error (.durability reason)
  | .dropped    => .error (.durability "wal writer exited before durability ack")

namespace IngestionConfig

variable [F64 F] (cfg : IngestionConfig F)

/-- A run of the pipeline on a job, at a time, with the answer that its append gets. -/
def run (job : IngestJob) (nowMs : Int64) (answer : WalEvent → Except AppendDurableError Unit) :
    PipelineState F :=
  (mainPipeline { cfg.out with nowMs := nowMs, appendDurable := answer } cfg.router
    cfg.enforceTopicDeviceMatch cfg.dlqTopic).run (.new job.topic job.payload)

/-- The event that the run appends, if it gets that far. -/
def eventOf (job : IngestJob) (nowMs : Int64) : Option WalEvent :=
  (cfg.run job nowMs fun _ => .ok ()).appended.head?.map Prod.fst

/-- The message that the job is. -/
def accept (job : IngestJob) : Except String (HandledMessage F) :=
  SmarthomeIngest.accept cfg.out cfg.router cfg.enforceTopicDeviceMatch job.topic job.payload

variable {cfg} {job : IngestJob} {nowMs : Int64} {event : WalEvent}
  {topicRoutes : List (String × String)}

/-- How a run ends: a rejected message is published and not appended, and an accepted one is published
exactly if its append fails. -/
lemma run_spec (hrouter : buildRouter topicRoutes = .ok cfg.router) (job : IngestJob)
    (nowMs : Int64) (answer : WalEvent → Except AppendDurableError Unit) :
    let state := cfg.run job nowMs answer
    match cfg.accept job with
    | .error reason =>
      state.appended = [] ∧
        state.published = [⟨cfg.dlqTopic, job.topic, payloadText job.payload, reason⟩]
    | .ok msg =>
      let event : WalEvent := ⟨job.topic, nowMs, msg.encode⟩
      state.appended = [(event, answer event)] ∧
        state.published = match answer event with
          | .ok ()     => []
          | .error err =>
            [⟨cfg.dlqTopic, job.topic, payloadText job.payload, err.dlqReason⟩] := by
  have hrun := (run_of_accept { cfg.out with nowMs := nowMs, appendDurable := answer } hrouter
    cfg.enforceTopicDeviceMatch cfg.dlqTopic job.topic job.payload).2
  rw [show SmarthomeIngest.accept { cfg.out with nowMs := nowMs, appendDurable := answer }
    cfg.router cfg.enforceTopicDeviceMatch job.topic job.payload = cfg.accept job from rfl] at hrun
  cases hjob : cfg.accept job with
  | error reason =>
    rw [hjob] at hrun
    exact ⟨hrun.1, hrun.2.2⟩
  | ok msg =>
    rw [hjob] at hrun
    obtain ⟨happended, hpublished⟩ := hrun
    refine ⟨happended, ?_⟩
    dsimp only [walEvent] at hpublished ⊢
    cases hanswer : answer ⟨job.topic, nowMs, msg.encode⟩ with
    | ok _ =>
      rw [hanswer] at hpublished
      exact hpublished.2
    | error err =>
      rw [hanswer] at hpublished
      exact hpublished.2

/-- The event of a job is that of its message. -/
lemma eventOf_eq_some_iff (hrouter : buildRouter topicRoutes = .ok cfg.router) :
    cfg.eventOf job nowMs = some event ↔
      ∃ msg, cfg.accept job = .ok msg ∧ event = ⟨job.topic, nowMs, msg.encode⟩ := by
  have hrun := run_spec hrouter job nowMs fun _ => .ok ()
  rw [eventOf]
  cases hjob : cfg.accept job with
  | error reason =>
    rw [hjob] at hrun
    simp [hrun.1]
  | ok msg =>
    rw [hjob] at hrun
    simp [hrun.1, eq_comm]

/-- What the service relies on: a router that `main` has built, and what is known of the libraries
that it calls. -/
structure Lawful (cfg : IngestionConfig F) : Prop where
  router : ∃ topicRoutes, buildRouter topicRoutes = .ok cfg.router
  roundTrips : cfg.bc.RoundTrips
  fixedWidth : cfg.bc.FixedWidth
  decodesWithin : DecodesWithin cfg.out.fromStr
  displayWithin : F64.DisplayWithin F 400

end IngestionConfig

/-- A send, seen from the whole. -/
def sendLabel (req : WriteRequest) : UploadLabel := .lifetime (.node (.writer (.send req)))

namespace Ingestion

def init (cfg : IngestionConfig F) (w : Wal) : Ingestion F where
  service := .init cfg.workerTotal
  upload := .init cfg.flushIntervalMs w
  waiting := []
  finished := []
  earlier := []

/-- The writer of the running process. -/
def writer (s : Ingestion F) : Writer := s.upload.lifetime.node.writer

/-- The entries that have been acknowledged, by all processes. -/
def ackedEntries (s : Ingestion F) : List WalEntry :=
  s.upload.lifetime.acked ++ s.writer.ackedEntries

/-- The job of a worker that runs its pipeline and does not wait for the log. -/
def jobOf (s : Ingestion F) (worker : ℕ) : Option IngestJob :=
  match s.service.workers[worker]?.map Worker.pc with
  | some (.run job) => if ∀ run ∈ s.waiting, run.worker ≠ worker then some job else none
  | _ => none

lemma of_jobOf {s : Ingestion F} {worker : ℕ} {job : IngestJob} (h : s.jobOf worker = some job) :
    (∃ v, s.service.workers[worker]? = some v ∧ v.pc = .run job) ∧
      ∀ run ∈ s.waiting, run.worker ≠ worker := by
  unfold jobOf at h
  split at h
  · rename_i hpc
    split_ifs at h with hwaiting
    cases h
    obtain ⟨v, hv, hrun⟩ := Option.map_eq_some_iff.mp hpc
    exact ⟨⟨v, hv, hrun⟩, hwaiting⟩
  · cases h

/-- The run of a worker is over. -/
def finish (cap : ℕ) (s : Ingestion F) (run : FinishedRun F) : Option (Ingestion F) :=
  (s.service.step cap (.worker run.worker .finish)).map fun service =>
    { s with service := service, finished := s.finished ++ [run] }

variable [F64 F] (cfg : IngestionConfig F)

def uploadStep (s : Ingestion F) (l : UploadLabel) : Option Upload :=
  s.upload.step cfg.displayStatus cfg.bc cfg.segmentBytes cfg.batchSize cfg.flushIntervalMs l

/-- A worker runs its pipeline, to its end or to the append. -/
def pipeline (s : Ingestion F) (worker : ℕ) (job : IngestJob) (nowMs : Int64) (trySend : TrySend) :
    Option (Ingestion F) :=
  let ended (answer : WalEvent → Except AppendDurableError Unit) :=
    s.finish cfg.perWorkerCap ⟨worker, job, nowMs, cfg.run job nowMs answer⟩
  match cfg.eventOf job nowMs, trySend with
  | none, _ => ended fun _ => .ok ()
  | some _, .full => ended fun event => .error (.full event)
  | some _, .closed =>
    if s.writer.receiverAlive then none else ended fun event => .error (.closed event)
  | some event, .sent ack =>
    (s.uploadStep cfg (sendLabel ⟨event, some ack⟩)).map fun upload =>
      { s with
        upload := upload
        waiting := s.waiting ++ [⟨worker, job, nowMs, ack⟩] }

def step (s : Ingestion F) : IngestionLabel → Option (Ingestion F)
  -- a worker that runs its pipeline goes on by `pipeline` and `answered`
  | .service (.worker _ .finish) => none
  | .service l => (s.service.step cfg.perWorkerCap l).map fun service => { s with service := service }
  | .pipeline worker nowMs trySend =>
    (s.jobOf worker).bind fun job => s.pipeline cfg worker job nowMs trySend
  | .answered worker =>
    (s.waiting.find? fun run => run.worker = worker).bind fun run =>
      (s.writer.acks.lookup run.ack).bind fun result =>
        finish cfg.perWorkerCap { s with waiting := s.waiting.filter fun run => run.worker ≠ worker }
          ⟨worker, run.job, run.nowMs, cfg.run run.job run.nowMs fun _ => result.toAppend⟩
  | .upload (.lifetime (.node (.writer (.send _)))) => none
  -- the last handles of the log go when `main` has joined the workers
  | .upload (.lifetime (.node (.writer .dropSenders))) =>
    if s.service.main = .joined then
      (s.uploadStep cfg (.lifetime (.node (.writer .dropSenders)))).map fun upload =>
        { s with upload := upload }
    else none
  | .upload (.lifetime (.crash written)) =>
    (s.uploadStep cfg (.lifetime (.crash written))).map fun upload =>
      { s with
        service := .init cfg.workerTotal
        upload := upload
        waiting := []
        finished := []
        earlier := s.earlier ++ s.finished }
  | .upload l => (s.uploadStep cfg l).map fun upload => { s with upload := upload }

/-- The upload is orderly, and topics are no longer than MQTT allows. -/
def Orderly (s : Ingestion F) : IngestionLabel → Prop
  | .upload l => s.upload.Orderly cfg.bc cfg.segmentBytes l
  | .service (.dispatch job) => job.topic.utf8ByteSize ≤ 65535
  | _ => True

instance decidableOrderly (s : Ingestion F) : DecidablePred (s.Orderly cfg)
  | .upload l => inferInstanceAs (Decidable (s.upload.Orderly cfg.bc cfg.segmentBytes l))
  | .service (.dispatch job) => inferInstanceAs (Decidable (job.topic.utf8ByteSize ≤ 65535))
  | .service .sourceEnds | .service (.worker _ _) | .service .signal | .service .main
  | .pipeline _ _ _ | .answered _ => .isTrue trivial

/-! ### Inversion -/

/-- The steps from `s`, with their labels and their results. A run that ends without an ack has not
been stored. -/
inductive IngestionRule (s : Ingestion F) : IngestionLabel → Ingestion F → Prop
  | service {l : ServiceLabel} {service : Service} (hl : ∀ worker, l ≠ .worker worker .finish)
      (hservice : s.service.step cfg.perWorkerCap l = some service) :
      IngestionRule s (.service l) { s with service := service }
  | ended {worker : ℕ} {job : IngestJob} {nowMs : Int64} {trySend : TrySend} {service : Service}
      {answer : WalEvent → Except AppendDurableError Unit} (hjob : s.jobOf worker = some job)
      (hanswer : ∀ event ∈ cfg.eventOf job nowMs, answer event ≠ .ok ())
      (hservice : s.service.step cfg.perWorkerCap (.worker worker .finish) = some service) :
      IngestionRule s (.pipeline worker nowMs trySend) { s with
        service := service
        finished := s.finished ++ [⟨worker, job, nowMs, cfg.run job nowMs answer⟩] }
  | send {worker : ℕ} {job : IngestJob} {nowMs : Int64} {ack : ℕ} {event : WalEvent}
      {upload : Upload} (hjob : s.jobOf worker = some job)
      (hevent : cfg.eventOf job nowMs = some event)
      (hupload : s.uploadStep cfg (sendLabel ⟨event, some ack⟩) = some upload) :
      IngestionRule s (.pipeline worker nowMs (.sent ack)) { s with
        upload := upload
        waiting := s.waiting ++ [⟨worker, job, nowMs, ack⟩] }
  | answered {run : WaitingRun} {result : AckResult} {service : Service} (hrun : run ∈ s.waiting)
      (hresult : (run.ack, result) ∈ s.writer.acks)
      (hservice : s.service.step cfg.perWorkerCap (.worker run.worker .finish) = some service) :
      IngestionRule s (.answered run.worker) { s with
        service := service
        waiting := s.waiting.filter fun other => other.worker ≠ run.worker
        finished := s.finished ++ [⟨run.worker, run.job, run.nowMs,
          cfg.run run.job run.nowMs fun _ => result.toAppend⟩] }
  | upload {l : UploadLabel} {upload : Upload} (hsend : ∀ req, l ≠ sendLabel req)
      (hcrash : ∀ written, l ≠ .lifetime (.crash written))
      (hupload : s.uploadStep cfg l = some upload) :
      IngestionRule s (.upload l) { s with upload := upload }
  | crash {written : Bytes} {upload : Upload}
      (hupload : s.uploadStep cfg (.lifetime (.crash written)) = some upload) :
      IngestionRule s (.upload (.lifetime (.crash written))) { s with
        service := .init cfg.workerTotal
        upload := upload
        waiting := []
        finished := []
        earlier := s.earlier ++ s.finished }

variable {cfg} {s s' : Ingestion F} {l : IngestionLabel}

lemma IngestionRule.of_pipeline {worker : ℕ} {job : IngestJob} {nowMs : Int64} {trySend : TrySend}
    (hjob : s.jobOf worker = some job)
    (h : s.pipeline cfg worker job nowMs trySend = some s') :
    IngestionRule cfg s (.pipeline worker nowMs trySend) s' := by
  unfold pipeline at h
  cases hevent : cfg.eventOf job nowMs with
  | none =>
    simp only [hevent] at h
    obtain ⟨service, hservice, rfl⟩ := Option.map_eq_some_iff.mp h
    exact .ended hjob (by simp [hevent]) hservice
  | some event =>
    cases trySend with
    | sent ack =>
      simp only [hevent] at h
      obtain ⟨upload, hupload, rfl⟩ := Option.map_eq_some_iff.mp h
      exact .send hjob hevent hupload
    | full =>
      simp only [hevent] at h
      obtain ⟨service, hservice, rfl⟩ := Option.map_eq_some_iff.mp h
      exact .ended hjob (by simp) hservice
    | closed =>
      simp only [hevent] at h
      split_ifs at h
      obtain ⟨service, hservice, rfl⟩ := Option.map_eq_some_iff.mp h
      exact .ended hjob (by simp) hservice

/-- Every step is by one of the rules. -/
theorem IngestionRule.of_step (h : s.step cfg l = some s') : IngestionRule cfg s l s' := by
  unfold step at h
  split at h
  · cases h
  · rename_i l hl
    obtain ⟨service, hservice, rfl⟩ := Option.map_eq_some_iff.mp h
    exact .service hl hservice
  · obtain ⟨job, hjob, h⟩ := Option.bind_eq_some_iff.mp h
    exact .of_pipeline hjob h
  · obtain ⟨run, hfind, h⟩ := Option.bind_eq_some_iff.mp h
    obtain ⟨result, hresult, h⟩ := Option.bind_eq_some_iff.mp h
    obtain ⟨service, hservice, rfl⟩ := Option.map_eq_some_iff.mp h
    obtain rfl : run.worker = _ := by simpa using List.find?_some hfind
    have hmem : (run.ack, result) ∈ s.writer.acks := by
      obtain ⟨before, after, hacks, -⟩ := List.lookup_eq_some_iff.mp hresult
      simp [hacks]
    exact .answered (List.mem_of_find?_eq_some hfind) hmem hservice
  · cases h
  · split_ifs at h
    obtain ⟨upload, hupload, rfl⟩ := Option.map_eq_some_iff.mp h
    exact .upload (by simp [sendLabel]) (by simp) hupload
  · obtain ⟨upload, hupload, rfl⟩ := Option.map_eq_some_iff.mp h
    exact .crash hupload
  · rename_i l hsend hdrop hcrash
    obtain ⟨upload, hupload, rfl⟩ := Option.map_eq_some_iff.mp h
    exact .upload hsend hcrash hupload

end Ingestion

end SmarthomeIngest
