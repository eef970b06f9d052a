import SmarthomeIngest.Ingestion
import SmarthomeIngest.Wal.Provenance

/-!
# Where the posts come from

Whatever the workers, the log and the upload do beside each other, and over crashes: what Influx takes
are lines of messages that were accepted, from jobs that were dispatched.
-/

namespace SmarthomeIngest

open Transition

variable {F : Type}

/-! ### A new directory -/

lemma Segments.content_create_empty (id last : ℕ) : ((∅ : Segments).create last).content id = [] := by
  rw [Segments.content_create, Segments.content_of_notMem (AList.notMem_empty id)]

/-- A new directory has nothing in it. -/
lemma Opened.of_empty {bc : Bincode} {w : Wal} (hopen : Wal.open bc ⟨∅, none, none⟩ = .ok w) :
    Opened bc ⟨∅, none, none⟩ w ∧
      entriesFrom bc w.writer.segments w.subscription.position = [] := by
  have hfits : FitsU64 (∅ : Segments) := fun id hid => absurd hid (AList.notMem_empty id)
  cases hopen
  have hcontent (id : ℕ) : (Writer.spawn ∅ ⟨1, 0⟩).segments.content id = [] :=
    Segments.content_create_empty id 1
  refine ⟨⟨rfl, fun id => ?_, nofun, hfits⟩, ?_⟩
  · show Clean bc ((Writer.spawn ∅ ⟨1, 0⟩).segments.content id)
    rw [hcontent]
    exact clean_nil
  · refine List.flatMap_eq_nil_iff.mpr fun id _ => ?_
    show segmentEntries bc id _ (((Writer.spawn ∅ ⟨1, 0⟩).segments.content id).drop _) = []
    rw [hcontent, List.drop_nil, segmentEntries_nil]

/-! ### A send of a worker -/

/-- A send of an event within the limit is orderly. -/
lemma Lifetime.orderly_send {bc : Bincode} {segmentBytes batchSize : ℕ} {s : Lifetime} {d : WalDir}
    {w : Wal} (hbc : bc.RoundTrips) (hs : Alive bc segmentBytes batchSize s d w)
    {req : WriteRequest} (hlimit : Live.WithinLimit bc req) :
    s.Orderly bc segmentBytes (.node (.writer (.send req))) := by
  refine ⟨⟨hlimit, trivial⟩, fun t ht => ?_⟩
  obtain ⟨f, hsim⟩ := hs.simulated hbc
  obtain ⟨base, hd⟩ := hsim.durable
  cases Writer.WriterRule.of_step ht with
  | send =>
    show (s.node.writer.segments.content s.node.writer.currentSegmentId).length < 2 ^ 64
    rw [← hsim.mirrors.content_current hd]
    exact (hd.fits _ hsim.mirrors.whole.endsWith.1).2

namespace IngestionConfig

variable [F64 F] {cfg : IngestionConfig F} {job : IngestJob} {nowMs : Int64} {event : WalEvent}

/-- The events of the workers are within the limit. -/
lemma Lawful.withinLimit (hcfg : cfg.Lawful) (htopic : job.topic.utf8ByteSize ≤ 65535)
    (hevent : cfg.eventOf job nowMs = some event) (ack : Option ℕ) :
    Live.WithinLimit cfg.bc ⟨event, ack⟩ := by
  obtain ⟨_, hrouter⟩ := hcfg.router
  obtain ⟨msg, haccept, rfl⟩ := (IngestionConfig.eventOf_eq_some_iff hrouter).mp hevent
  intro frame hframe
  obtain ⟨body, hbody, -, rfl⟩ := exists_of_encodeInto hframe
  have hlen : body.length ≤ maxWalRecordPayloadBytes :=
    @length_serialize_le F _ { cfg.out with nowMs := nowMs } hcfg.decodesWithin hcfg.displayWithin _
      hcfg.fixedWidth _ _ _ htopic _ _ haccept _ hbody
  rw [List.length_append, Bytes.length_ofNatLe]
  exact Nat.add_le_add_left hlen 4

end IngestionConfig

/-! ### The upload -/

/-- What a label sends. -/
def UploadLabel.sends : UploadLabel → List WriteRequest
  | .lifetime l => l.sends
  | .answer _   => []

lemma UploadLabel.sends_eq_nil {l : UploadLabel} (h : ∀ req, l ≠ sendLabel req) : l.sends = [] := by
  cases l with
  | answer r => rfl
  | lifetime l =>
    cases l with
    | crash written => rfl
    | node l =>
      cases l with
      | writer l =>
        cases l with
        | send req => exact absurd rfl (h req)
        | _ => rfl
      | _ => rfl

/-- Posts change nothing about where the events come from. -/
lemma Upload.made_of_step {displayStatus : ℕ → String} {bc : Bincode}
    {segmentBytes batchSize flushIntervalMs : ℕ} {s s' : Upload} {l : UploadLabel}
    {P : WalEvent → Prop} (hbc : bc.RoundTrips)
    (hs : s.lifetime.Made bc segmentBytes batchSize P) (hl : s.Orderly bc segmentBytes l)
    (hsends : ∀ req ∈ l.sends, P req.event)
    (h : s.step displayStatus bc segmentBytes batchSize flushIntervalMs l = some s') :
    s'.lifetime.Made bc segmentBytes batchSize P := by
  rcases lifetime_of_step h with heq | ⟨l', rfl | rfl, hlifetime⟩
  · exact heq ▸ hs
  · exact hs.step hbc hl hsends hlifetime
  · exact hs.step (l := .node (.sink .ok)) hbc trivial nofun hlifetime

namespace Ingestion

variable [F64 F] {cfg : IngestionConfig F} {w : Wal} {jobs : List IngestJob} {service : Service}
  {upload : Upload}

/-- One of the jobs makes the event. -/
def Makes (cfg : IngestionConfig F) (jobs : List IngestJob) (event : WalEvent) : Prop :=
  ∃ job ∈ jobs, ∃ nowMs, cfg.eventOf job nowMs = some event

/-- What the workers have was dispatched, and what the log has was made from it. The workers know of
the jobs of this process only. -/
structure Sourced (cfg : IngestionConfig F) (w : Wal) (jobs : List IngestJob) (service : Service)
    (upload : Upload) : Prop where
  dealt : ∃ current, current ⊆ jobs ∧
    service.Dealt cfg.perWorkerCap cfg.workerTotal current
  topics : ∀ job ∈ jobs, job.topic.utf8ByteSize ≤ 65535
  reach : Reach (Upload.step cfg.displayStatus cfg.bc cfg.segmentBytes cfg.batchSize
      cfg.flushIntervalMs) (Upload.Orderly cfg.bc cfg.segmentBytes)
    (.init cfg.flushIntervalMs w) upload
  made : upload.lifetime.Made cfg.bc cfg.segmentBytes cfg.batchSize (Makes cfg jobs)

lemma sourced_init (hopen : Wal.open cfg.bc ⟨∅, none, none⟩ = .ok w) :
    Sourced cfg w [] (init cfg w).service (init cfg w).upload where
  dealt := ⟨[], List.nil_subset _, Service.dealt_init _ _⟩
  topics := nofun
  reach := .refl
  made := by
    obtain ⟨hopened, hentries⟩ := Opened.of_empty hopen
    refine ⟨⟨_, w, ⟨hopened, .refl, .init w⟩, ?_⟩, ?_, nofun⟩
    · rw [hentries]
      exact nofun
    · obtain ⟨_, _, _, -, -, rfl⟩ := open_eq_ok hopen
      exact nofun

namespace Sourced

lemma service_step (h : Sourced cfg w jobs service upload) {l : ServiceLabel} {service' : Service}
    (htopics : ∀ job ∈ l.jobs, job.topic.utf8ByteSize ≤ 65535)
    (hs : service.step cfg.perWorkerCap l = some service') :
    Sourced cfg w (jobs ++ l.jobs) service' upload where
  dealt := by
    obtain ⟨current, hsub, hdealt⟩ := h.dealt
    refine ⟨current ++ l.jobs, ?_, hdealt.step hs⟩
    exact List.append_subset.mpr ⟨List.Subset.trans hsub (List.subset_append_left _ _),
      List.subset_append_right _ _⟩
  topics := List.forall_mem_append.mpr ⟨h.topics, htopics⟩
  reach := h.reach
  made := by
    refine h.made.mono ?_
    rintro event ⟨job, hjob, hevent⟩
    exact ⟨job, List.mem_append_left _ hjob, hevent⟩

lemma upload_step (hbc : cfg.bc.RoundTrips) (h : Sourced cfg w jobs service upload)
    {l : UploadLabel} {upload' : Upload} (hl : upload.Orderly cfg.bc cfg.segmentBytes l)
    (hsends : ∀ req ∈ l.sends, Makes cfg jobs req.event)
    (hs : upload.step cfg.displayStatus cfg.bc cfg.segmentBytes cfg.batchSize cfg.flushIntervalMs l =
      some upload') : Sourced cfg w jobs service upload' where
  dealt := h.dealt
  topics := h.topics
  reach := h.reach.tail hl hs
  made := Upload.made_of_step hbc h.made hl hsends hs

/-- A new process has no jobs. -/
lemma restart (h : Sourced cfg w jobs service upload) :
    Sourced cfg w jobs (.init cfg.workerTotal) upload where
  dealt := ⟨[], List.nil_subset _, Service.dealt_init _ _⟩
  topics := h.topics
  reach := h.reach
  made := h.made

/-- A worker sends the event of its job. -/
lemma send (hcfg : cfg.Lawful) (h : Sourced cfg w jobs service upload) {worker : ℕ} {v : Worker}
    {job : IngestJob} {nowMs : Int64} {event : WalEvent} {ack : ℕ} {upload' : Upload}
    (hv : service.workers[worker]? = some v) (hpc : v.pc = .run job)
    (hevent : cfg.eventOf job nowMs = some event)
    (hs : upload.step cfg.displayStatus cfg.bc cfg.segmentBytes cfg.batchSize cfg.flushIntervalMs
      (sendLabel ⟨event, some ack⟩) = some upload') : Sourced cfg w jobs service upload' := by
  obtain ⟨current, hsub, hdealt⟩ := h.dealt
  have hjob : job ∈ jobs := hsub (hdealt.mem_of_run hv hpc)
  obtain ⟨d, v', halive, -⟩ := h.made.alive
  refine h.upload_step hcfg.roundTrips ?_ ?_ hs
  · exact Lifetime.orderly_send hcfg.roundTrips halive
      (hcfg.withinLimit (h.topics job hjob) hevent _)
  · exact List.forall_mem_singleton.mpr ⟨job, hjob, nowMs, hevent⟩

variable {s s' : Ingestion F} {l : IngestionLabel}

lemma step (hcfg : cfg.Lawful) (h : Sourced cfg w jobs s.service s.upload) (hl : s.Orderly cfg l)
    (hs : s.step cfg l = some s') : Sourced cfg w (jobs ++ l.jobs) s'.service s'.upload := by
  have hnil : Sourced cfg w (jobs ++ []) s.service s.upload := (List.append_nil jobs).symm ▸ h
  cases IngestionRule.of_step hs with
  | @service l service _ hservice =>
    refine h.service_step ?_ hservice
    cases l with
    | dispatch job => exact List.forall_mem_singleton.mpr hl
    | _ => exact nofun
  | ended _ _ hservice | answered _ _ hservice => exact h.service_step (List.forall_mem_nil _) hservice
  | send hjob hevent hupload =>
    obtain ⟨⟨v, hv, hpc⟩, -⟩ := of_jobOf hjob
    exact hnil.send hcfg hv hpc hevent hupload
  | @upload l upload hsend _ hupload =>
    refine hnil.upload_step hcfg.roundTrips hl ?_ hupload
    rw [UploadLabel.sends_eq_nil hsend]
    exact List.forall_mem_nil _
  | crash hupload => exact
    (hnil.upload_step (l := .lifetime (.crash _)) hcfg.roundTrips hl (List.forall_mem_nil _)
      hupload).restart

lemma exec (hcfg : cfg.Lawful) {ls : List IngestionLabel}
    (h : Sourced cfg w jobs s.service s.upload)
    (hl : Always (Ingestion.step cfg) (Orderly cfg) s ls)
    (hexec : exec (Ingestion.step cfg) s ls = some s') :
    Sourced cfg w (jobs ++ ls.flatMap IngestionLabel.jobs) s'.service s'.upload := by
  induction ls generalizing s jobs with
  | nil =>
    cases hexec
    simpa using h
  | cons l ls ih =>
    obtain ⟨t, ht, hrest⟩ := Option.bind_eq_some_iff.mp hexec
    rw [List.flatMap_cons, ← List.append_assoc]
    exact ih (h.step hcfg hl.1 ht) (hl.2 t ht) hrest

end Sourced

/-! ### Messages -/

/-- A list made of what stands for the elements of another. -/
lemma exists_map_eq {α β γ : Type} {f : α → γ} {g : β → γ} {P : β → Prop} {xs : List α}
    (h : ∀ x ∈ xs, ∃ y, P y ∧ g y = f x) : ∃ ys : List β, ys.map g = xs.map f ∧ ∀ y ∈ ys, P y := by
  induction xs with
  | nil => exact ⟨[], rfl, nofun⟩
  | cons x xs ih =>
    obtain ⟨⟨y, hy, heq⟩, hrest⟩ := List.forall_mem_cons.mp h
    obtain ⟨ys, hys, hall⟩ := ih hrest
    exact ⟨y :: ys, by rw [List.map_cons, List.map_cons, heq, hys],
      List.forall_mem_cons.mpr ⟨hy, hall⟩⟩

/-- The message was accepted from one of the jobs. -/
def Accepted (cfg : IngestionConfig F) (jobs : List IngestJob) (msg : HandledMessage F) : Prop :=
  ∃ job ∈ jobs, cfg.accept job = .ok msg

/-- A batch of events that the jobs have made is one of messages. -/
lemma exists_messages (hcfg : cfg.Lawful) {batch : List WalEntry}
    (h : ∀ e ∈ batch, Makes cfg jobs e.event) :
    ∃ msgs : List (HandledMessage F), (∀ msg ∈ msgs, Accepted cfg jobs msg) ∧
      msgs.length = batch.length ∧ bodyOf msgs = buildBody (batch.map WalEntry.event) := by
  obtain ⟨_, hrouter⟩ := hcfg.router
  have hmessage : ∀ e ∈ batch, ∃ msg, Accepted cfg jobs msg ∧ msg.encode = e.event.payload := by
    intro e he
    obtain ⟨job, hjob, nowMs, hevent⟩ := h e he
    obtain ⟨msg, haccept, heq⟩ := (IngestionConfig.eventOf_eq_some_iff hrouter).mp hevent
    exact ⟨msg, ⟨job, hjob, haccept⟩, by rw [heq]⟩
  obtain ⟨msgs, hmap, hall⟩ := exists_map_eq hmessage
  refine ⟨msgs, hall, ?_, ?_⟩
  · simpa using congrArg List.length hmap
  · rw [buildBody_eq, List.map_map, bodyOf, hmap]
    rfl

/-- In every orderly run, over crashes as well, every body that Influx has taken is that of a batch of
messages, not empty and not too large, and each message is what a dispatched job was accepted as. If no
tag value in it has a newline, the body is read as the points of these messages, in order. -/
theorem messages_of_exec (hcfg : cfg.Lawful) {readF64 : String → Option F}
    (hd : F64.DisplayReads readF64) (hopen : Wal.open cfg.bc ⟨∅, none, none⟩ = .ok w)
    {s : Ingestion F} {ls : List IngestionLabel}
    (hl : Always (Ingestion.step cfg) (Orderly cfg) (init cfg w) ls)
    (hexec : exec (Ingestion.step cfg) (init cfg w) ls = some s) :
    ∃ batches : List (List (HandledMessage F)),
      s.upload.taken.map Post.body = batches.map bodyOf ∧
      ∀ msgs ∈ batches, msgs ≠ [] ∧ msgs.length ≤ max 1 cfg.batchSize ∧
        (∀ msg ∈ msgs, ∃ job ∈ ls.flatMap IngestionLabel.jobs, cfg.accept job = .ok msg) ∧
        ((∀ msg ∈ msgs, msg.Tagged) →
          LineReader.read readF64 (bodyOf msgs) = some (msgs.map HandledMessage.toPoint)) := by
  have hs : Sourced cfg w (ls.flatMap IngestionLabel.jobs) s.service s.upload :=
    (sourced_init hopen).exec hcfg hl hexec
  obtain ⟨batches, hbatches⟩ := Upload.exists_carries hs.reach
  have hlog := hs.made.forall_log hcfg.roundTrips
  rw [← hbatches.flatten, List.forall_mem_append] at hlog
  have hmessages : ∀ batch ∈ batches, ∃ msgs : List (HandledMessage F),
      ((∀ msg ∈ msgs, Accepted cfg (ls.flatMap IngestionLabel.jobs) msg) ∧ msgs ≠ [] ∧
        msgs.length ≤ max 1 cfg.batchSize) ∧
      bodyOf msgs = buildBody (batch.map WalEntry.event) := by
    intro batch hbatch
    obtain ⟨msgs, hall, hlength, hbody⟩ := exists_messages hcfg fun e he =>
      hlog.1 e (List.mem_flatten_of_mem hbatch he)
    obtain ⟨hne, hle⟩ := hbatches.fits batch hbatch
    refine ⟨msgs, ⟨hall, ?_, hlength ▸ hle⟩, hbody⟩
    rintro rfl
    exact hne (List.length_eq_zero_iff.mp hlength.symm)
  obtain ⟨lists, hmap, hall⟩ := exists_map_eq hmessages
  refine ⟨lists, hbatches.bodies.trans hmap.symm, fun msgs hmsgs => ?_⟩
  obtain ⟨haccepted, hne, hle⟩ := hall msgs hmsgs
  refine ⟨hne, hle, haccepted, fun htagged => ?_⟩
  refine LineReader.read_of_hasRead (hasRead_bodyOf hd (fun msg hmsg => ?_) htagged)
  obtain ⟨job, -, haccept⟩ := haccepted msg hmsg
  exact (of_accept hcfg.decodesWithin haccept).1

def statusConfig : IngestionConfig ℤ where
  out := statusOutside
  router := statusRouter
  enforceTopicDeviceMatch := true
  dlqTopic := "dlq"
  workerTotal := 2
  perWorkerCap := 4
  bc := Bincode.fixint
  segmentBytes := 1024
  batchSize := 8
  flushIntervalMs := 5
  displayStatus := Nat.repr

lemma lawful_statusConfig : statusConfig.Lawful where
  router := ⟨[("STATUS", "smarthome/+/status")], rfl⟩
  roundTrips := Bincode.fixint_roundTrips
  fixedWidth := Bincode.fixint_fixedWidth
  decodesWithin := statusOutside_decodesWithin
  displayWithin := displayWithin_int

def statusJob : IngestJob := ⟨"smarthome/dev-1/status", Bytes.utf8 statusText⟩

def nodeLabels (ls : List ForwardingLabel) : List IngestionLabel :=
  ls.map fun l => .upload (.lifetime (.node l))

/-- The status message and one that is no JSON. The first one is posted, and the process crashes before
its commit; the next process posts it again, finds the queue of the log full for another one, and
shuts down. -/
def resentStatus : List IngestionLabel :=
  [.service (.dispatch statusJob), .service (.dispatch ⟨"smarthome/dev-1/status", [123]⟩),
    .service (.worker 0 .borrow), .service (.worker 0 .recv), .service (.worker 1 .borrow),
    .service (.worker 1 .recv), .pipeline 0 9 (.sent 7), .pipeline 1 9 .full] ++
  nodeLabels [.writer (.deadline false), .writer .recv, .writer .step, .writer (.write none none),
    .writer (.deadline true), .writer (.flush none), .writer .step, .writer .step, .writer .step,
    .next, .next, .tick] ++
  [.answered 0, .upload (.answer (.response 503)), .upload (.answer (.response 204)),
    .upload (.lifetime (.crash [])), .service (.dispatch statusJob), .service (.worker 0 .borrow),
    .service (.worker 0 .recv), .pipeline 0 10 .full, .service .sourceEnds, .service .main,
    .service .main, .service (.worker 0 .borrow), .service (.worker 0 .tryRecv),
    .service (.worker 0 .dropReceiver), .service (.worker 1 .borrow),
    .service (.worker 1 .tryRecv), .service (.worker 1 .dropReceiver), .service .main] ++
  nodeLabels [.writer .dropSenders, .writer (.deadline false), .writer .disconnected,
    .writer (.flush none), .writer .step, .writer .step, .writer .step, .writer .step, .next, .next,
    .next, .next, .next, .next, .next, .next] ++
  [.upload (.answer (.response 200)), .upload (.lifetime (.node (.commit {})))]

lemma exec_resentStatus (hopen : Wal.open Bincode.fixint ⟨∅, none, none⟩ = .ok w) :
    ∃ s, Always (Ingestion.step statusConfig) (Orderly statusConfig) (init statusConfig w)
        resentStatus ∧
      exec (Ingestion.step statusConfig) (init statusConfig w) resentStatus = some s ∧
      s.upload.taken.map Post.body = [statusLine, statusLine] ∧
      s.upload.lifetime.node.pc = .returned ∧
      (s.earlier ++ s.finished).map (fun run => (run.nowMs, run.state.published.map (·.reason))) =
        [(9, ["payload not valid JSON"]), (9, []), (10, ["wal queue full"])] := by
  have hrun : (exec (fun s l => if Orderly statusConfig s l then s.step statusConfig l else none)
      (init statusConfig w) resentStatus).map (fun s => (s.upload.taken.map Post.body,
        s.upload.lifetime.node.pc,
        (s.earlier ++ s.finished).map fun run => (run.nowMs, run.state.published.map (·.reason)))) =
      some ([statusLine, statusLine], .returned,
        [(9, ["payload not valid JSON"]), (9, []), (10, ["wal queue full"])]) := by
    cases hopen
    decide +kernel
  obtain ⟨s, hs, heq⟩ := Option.map_eq_some_iff.mp hrun
  obtain ⟨hl, hexec⟩ := of_exec_guarded hs
  simp only [Prod.mk.injEq] at heq
  exact ⟨s, hl, hexec, heq⟩

theorem messages_of_resentStatus :
    ∃ w s, Wal.open Bincode.fixint ⟨∅, none, none⟩ = .ok w ∧
      exec (Ingestion.step statusConfig) (init statusConfig w) resentStatus = some s ∧
      s.upload.taken.map Post.body = [statusLine, statusLine] ∧
      ∃ batches : List (List (HandledMessage ℤ)),
        s.upload.taken.map Post.body = batches.map bodyOf ∧
        ∀ msgs ∈ batches, msgs ≠ [] ∧ ∀ msg ∈ msgs,
          ∃ job ∈ resentStatus.flatMap IngestionLabel.jobs, statusConfig.accept job = .ok msg := by
  obtain ⟨w, hopen⟩ : ∃ w, Wal.open Bincode.fixint ⟨∅, none, none⟩ = .ok w := ⟨_, rfl⟩
  obtain ⟨s, hl, hexec, hbodies, -, -⟩ := exec_resentStatus hopen
  obtain ⟨batches, hbatches, hall⟩ :=
    messages_of_exec lawful_statusConfig displayReads_int hopen hl hexec
  refine ⟨w, s, hopen, hexec, hbodies, batches, hbatches, fun msgs hmsgs => ?_⟩
  obtain ⟨hne, -, haccepted, -⟩ := hall msgs hmsgs
  exact ⟨hne, haccepted⟩

end Ingestion

end SmarthomeIngest
