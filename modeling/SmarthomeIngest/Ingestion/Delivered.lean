import SmarthomeIngest.Ingestion.Sourced

/-!
# What becomes of a job

Every run of the pipeline that is over, in this process or in one before it, has one end: its message
was published once to the dead letter queue, or its line is with Influx or on its way there.
-/

namespace SmarthomeIngest

open Transition

variable {F : Type}

/-! ### What stays -/

section Stays

variable {bc : Bincode} {segmentBytes batchSize : ℕ}

lemma Forwarding.ackedEntries_of_step {s s' : Forwarding} {l : ForwardingLabel}
    (h : step bc segmentBytes batchSize s l = some s') :
    ∀ e ∈ s.writer.ackedEntries, e ∈ s'.writer.ackedEntries := by
  cases ForwardingRule.of_step h with
  | writer hw => exact Writer.ackedEntries_of_step hw
  | next _ hlive =>
    rw [writer_afterNext, (Live.of_next hlive).1]
    exact fun e he => he
  | tick | tickDrop =>
    rw [writer_startFlush]
    exact fun e he => he
  | accept | refuse => exact fun e he => he
  | commit =>
    unfold afterCommit
    split
    exact fun e he => he

namespace Lifetime

variable {s s' : Lifetime}

lemma acked_of_step {l : LifetimeLabel} (h : s.step bc segmentBytes batchSize l = some s') :
    ∀ e ∈ s.acked ++ s.node.writer.ackedEntries, e ∈ s'.acked ++ s'.node.writer.ackedEntries := by
  cases l with
  | node l =>
    obtain ⟨node, hnode, rfl⟩ := Option.map_eq_some_iff.mp h
    intro e he
    exact List.mem_append.mpr
      ((List.mem_append.mp he).imp_right (Forwarding.ackedEntries_of_step hnode e))
  | crash written =>
    obtain ⟨-, w, -, rfl⟩ := of_crash h
    exact fun e he => List.mem_append_left _ he

end Lifetime

namespace Upload

variable {displayStatus : ℕ → String} {flushIntervalMs : ℕ} {s s' : Upload} {l : UploadLabel}

lemma acked_of_step
    (h : s.step displayStatus bc segmentBytes batchSize flushIntervalMs l = some s') :
    ∀ e ∈ s.lifetime.acked ++ s.lifetime.node.writer.ackedEntries,
      e ∈ s'.lifetime.acked ++ s'.lifetime.node.writer.ackedEntries := by
  rcases lifetime_of_step h with heq | ⟨l', -, hlifetime⟩
  · exact heq ▸ fun e he => he
  · exact Lifetime.acked_of_step hlifetime

/-- Until a crash the writer is the same. -/
lemma sent_of_step (hcrash : ∀ written, l ≠ .lifetime (.crash written))
    (h : s.step displayStatus bc segmentBytes batchSize flushIntervalMs l = some s') :
    s'.lifetime.node.writer.sent = s.lifetime.node.writer.sent ++ l.sends := by
  cases UploadRule.of_step h with
  | node _ hnode => exact Forwarding.sent_of_step hnode
  | crash => exact absurd rfl (hcrash _)
  | nothing | accepted | failed => exact (List.append_nil _).symm

end Upload

end Stays

/-! ### Workers -/

namespace Service

variable {cap n : ℕ} {s s' : Service} {l : ServiceLabel} {jobs : List IngestJob}

lemma map_getElem?_set {α : Type} {f : Worker → α} {ws : List Worker} {i : ℕ} {w : Worker}
    (hw : ws[i]? = some w) (w' : Worker) (hf : f w' = f w) (id : ℕ) :
    (ws.set i w')[id]?.map f = ws[id]?.map f := by
  by_cases hid : i = id
  · subst hid
    rw [List.getElem?_set_self (List.getElem?_eq_some_iff.mp hw).1, hw, Option.map_some,
      Option.map_some, hf]
  · rw [List.getElem?_set_ne hid]

lemma processed_init {id : ℕ} {w : Worker} (hw : (init n).workers[id]? = some w) :
    w.processed = [] := by
  rw [List.eq_of_mem_replicate (List.mem_of_getElem? hw)]
  rfl

/-- Only `finish` adds to what has been run. -/
lemma processed_of_step (hs : s.step cap l = some s')
    (hmain : s.main = .joined → ∀ w ∈ s.workers, w.pc = .exited)
    (hl : ∀ id, l ≠ .worker id .finish) (id : ℕ) :
    s'.workers[id]?.map Worker.processed = s.workers[id]?.map Worker.processed := by
  cases ServiceRule.of_step hmain hs with
  | queued hw hsend =>
    obtain ⟨-, -, hw'⟩ := Worker.of_trySend hsend
    exact map_getElem?_set hw _ (by rw [hw']) id
  | dropped | control => rfl
  | @worker _ _ _ w' hw hstep =>
    refine map_getElem?_set hw w' ?_ id
    cases Worker.WorkerRule.of_step hstep with
    | finish => exact absurd rfl (hl _)
    | _ => rfl

/-- Only `finish` ends the run of a worker. -/
lemma run_of_step (hs : s.step cap l = some s')
    (hmain : s.main = .joined → ∀ w ∈ s.workers, w.pc = .exited)
    (hl : ∀ id, l ≠ .worker id .finish) {id : ℕ} {job : IngestJob}
    (hrun : s.workers[id]?.map Worker.pc = some (.run job)) :
    s'.workers[id]?.map Worker.pc = some (.run job) := by
  cases ServiceRule.of_step hmain hs with
  | queued hw hsend =>
    obtain ⟨-, -, hw'⟩ := Worker.of_trySend hsend
    rw [← hrun]
    exact map_getElem?_set hw _ (by rw [hw']) id
  | dropped | control => exact hrun
  | @worker i l w w' hw hstep =>
    by_cases hid : i = id
    · subst hid
      rw [hw, Option.map_some, Option.some.injEq] at hrun
      cases l with
      | finish => exact absurd rfl (hl i)
      | _ => simp [Worker.step, hrun] at hstep
    · rwa [List.getElem?_set_ne hid]

/-- The end of a run. -/
lemma of_finish {id : ℕ} {job : IngestJob}
    (hrun : s.workers[id]?.map Worker.pc = some (.run job))
    (hs : s.step cap (.worker id .finish) = some s') :
    ∃ w, s.workers[id]? = some w ∧ s'.workers =
      s.workers.set id { w with pc := .borrow, processed := w.processed ++ [job] } := by
  obtain ⟨w, hw, hpc⟩ := Option.map_eq_some_iff.mp hrun
  refine ⟨w, hw, ?_⟩
  simp only [Service.step, hw, Worker.step, hpc, Option.map_some, Option.some.injEq] at hs
  exact hs ▸ rfl

end Service

/-! ### The invariant -/

namespace Ingestion

variable [F64 F] {cfg : IngestionConfig F} {s s' : Ingestion F} {l : IngestionLabel} {w : Wal}
  {jobs : List IngestJob}

/-- The append of the run was answered truthfully: `Ok` stands for an acknowledged entry. -/
def Truthful (cfg : IngestionConfig F) (acked : List WalEntry) (run : FinishedRun F) : Prop :=
  ∃ answer, run.state = cfg.run run.job run.nowMs answer ∧
    ∀ event ∈ cfg.eventOf run.job run.nowMs, answer event = .ok () →
      ∃ e ∈ acked, e.event = event

lemma Truthful.mono {acked acked' : List WalEntry} {run : FinishedRun F}
    (h : Truthful cfg acked run) (hsub : ∀ e ∈ acked, e ∈ acked') : Truthful cfg acked' run := by
  obtain ⟨answer, hstate, hok⟩ := h
  refine ⟨answer, hstate, fun event hevent hanswer => ?_⟩
  obtain ⟨e, he, heq⟩ := hok event hevent hanswer
  exact ⟨e, hsub e he, heq⟩

/-- The worker of a waiting run is in it, and its event has been sent with its ack. -/
structure Waits (cfg : IngestionConfig F) (s : Ingestion F) (run : WaitingRun) : Prop where
  worker : s.service.workers[run.worker]?.map Worker.pc = some (.run run.job)
  sent : ∃ event, cfg.eventOf run.job run.nowMs = some event ∧
    ⟨event, some run.ack⟩ ∈ s.writer.sent

/-- The jobs of the finished runs of a worker. -/
def jobsOf (finished : List (FinishedRun F)) (worker : ℕ) : List IngestJob :=
  (finished.filter fun run => run.worker = worker).map FinishedRun.job

omit [F64 F] in
lemma jobsOf_concat (finished : List (FinishedRun F)) (run : FinishedRun F) (worker : ℕ) :
    jobsOf (finished ++ [run]) worker =
      jobsOf finished worker ++ if run.worker = worker then [run.job] else [] := by
  rw [jobsOf, List.filter_append, List.map_append]
  by_cases h : run.worker = worker
  · simp [jobsOf, h]
  · simp [jobsOf, h]

/-- The runs of this process and of those before it are accounted for. -/
structure Settled (cfg : IngestionConfig F) (s : Ingestion F) : Prop where
  waiting : ∀ run ∈ s.waiting, Waits cfg s run
  finished : ∀ run ∈ s.earlier ++ s.finished, Truthful cfg s.ackedEntries run
  processed : ∀ id (v : Worker), s.service.workers[id]? = some v →
    v.processed = jobsOf s.finished id

lemma settled_init (cfg : IngestionConfig F) (w : Wal) : Settled cfg (init cfg w) where
  waiting := List.forall_mem_nil _
  finished := List.forall_mem_nil _
  processed _ _ := Service.processed_init

namespace Settled

/-- The workers go on, but for the end of a run. -/
lemma service_step (h : Settled cfg s) {l : ServiceLabel} {service : Service}
    (hmain : s.service.main = .joined → ∀ v ∈ s.service.workers, v.pc = .exited)
    (hl : ∀ worker, l ≠ .worker worker .finish)
    (hs : s.service.step cfg.perWorkerCap l = some service) :
    Settled cfg { s with service := service } where
  waiting run hrun :=
    ⟨Service.run_of_step hs hmain hl (h.waiting run hrun).worker, (h.waiting run hrun).sent⟩
  finished := h.finished
  processed id v hv := by
    have hmap := Service.processed_of_step hs hmain hl id
    rw [show service.workers[id]? = some v from hv, Option.map_some] at hmap
    obtain ⟨v', hv', heq⟩ := Option.map_eq_some_iff.mp hmap.symm
    exact heq ▸ h.processed id v' hv'

/-- The run of a worker ends. -/
lemma finish (h : Settled cfg s) (run : FinishedRun F) {waiting : List WaitingRun}
    {service : Service}
    (hrun : s.service.workers[run.worker]?.map Worker.pc = some (.run run.job))
    (htruthful : Truthful cfg s.ackedEntries run)
    (hwaiting : ∀ other ∈ waiting, other ∈ s.waiting ∧ other.worker ≠ run.worker)
    (hs : s.service.step cfg.perWorkerCap (.worker run.worker .finish) = some service) :
    Settled cfg
      { s with service := service, waiting := waiting, finished := s.finished ++ [run] } := by
  obtain ⟨v, hv, hworkers⟩ := Service.of_finish hrun hs
  constructor
  case waiting =>
    intro other hother
    obtain ⟨hmem, hne⟩ := hwaiting other hother
    refine ⟨?_, (h.waiting other hmem).sent⟩
    show service.workers[other.worker]?.map Worker.pc = _
    rw [hworkers, List.getElem?_set_ne hne.symm]
    exact (h.waiting other hmem).worker
  case finished =>
    show ∀ other ∈ s.earlier ++ (s.finished ++ [run]), Truthful cfg s.ackedEntries other
    rw [← List.append_assoc, List.forall_mem_append, List.forall_mem_singleton]
    exact ⟨h.finished, htruthful⟩
  case processed =>
    intro id u hu
    replace hu : service.workers[id]? = some u := hu
    show u.processed = jobsOf (s.finished ++ [run]) id
    rw [hworkers] at hu
    by_cases hid : run.worker = id
    · subst hid
      rw [List.getElem?_set_self (List.getElem?_eq_some_iff.mp hv).1] at hu
      cases hu
      rw [jobsOf_concat, if_pos rfl]
      exact congrArg (· ++ [run.job]) (h.processed _ v hv)
    · rw [List.getElem?_set_ne hid] at hu
      rw [jobsOf_concat, if_neg hid, List.append_nil]
      exact h.processed id u hu

/-- The upload goes on. -/
lemma upload_step (h : Settled cfg s) {l : UploadLabel} {upload : Upload}
    (hcrash : ∀ written, l ≠ .lifetime (.crash written))
    (hs : s.uploadStep cfg l = some upload) : Settled cfg { s with upload := upload } where
  waiting run hrun := by
    obtain ⟨hworker, event, hevent, hsent⟩ := h.waiting run hrun
    refine ⟨hworker, event, hevent, ?_⟩
    show _ ∈ upload.lifetime.node.writer.sent
    rw [Upload.sent_of_step hcrash hs]
    exact List.mem_append_left _ hsent
  finished run hrun := (h.finished run hrun).mono (Upload.acked_of_step hs)
  processed := h.processed

/-- A worker waits for its ack. -/
lemma send (h : Settled cfg s) {worker ack : ℕ} {job : IngestJob} {nowMs : Int64}
    {event : WalEvent} {upload : Upload}
    (hworker : s.service.workers[worker]?.map Worker.pc = some (.run job))
    (hevent : cfg.eventOf job nowMs = some event)
    (hs : s.uploadStep cfg (sendLabel ⟨event, some ack⟩) = some upload) :
    Settled cfg
      { s with upload := upload, waiting := s.waiting ++ [⟨worker, job, nowMs, ack⟩] } := by
  have hcrash : ∀ written, sendLabel ⟨event, some ack⟩ ≠ .lifetime (.crash written) := by
    simp [sendLabel]
  have hupload := h.upload_step hcrash hs
  refine ⟨List.forall_mem_append.mpr ⟨?_, List.forall_mem_singleton.mpr ⟨hworker, event, hevent, ?_⟩⟩,
    hupload.finished, hupload.processed⟩
  · exact fun run hrun => ⟨(hupload.waiting run hrun).worker, (hupload.waiting run hrun).sent⟩
  · show _ ∈ upload.lifetime.node.writer.sent
    rw [Upload.sent_of_step hcrash hs]
    exact List.mem_append_right _ (List.mem_singleton_self _)

/-- The answer of the writer is the truth. -/
lemma truthful (hcfg : cfg.Lawful) (hs : Sourced cfg w jobs s.service s.upload)
    {run : WaitingRun} (hrun : Waits cfg s run) {result : AckResult}
    (hresult : (run.ack, result) ∈ s.writer.acks) :
    Truthful cfg s.ackedEntries ⟨run.worker, run.job, run.nowMs,
      cfg.run run.job run.nowMs fun _ => result.toAppend⟩ := by
  refine ⟨fun _ => result.toAppend, rfl, fun event hevent hok => ?_⟩
  obtain ⟨event', hevent', hsent⟩ := hrun.sent
  obtain rfl : event' = event := Option.some.inj (hevent'.symm.trans hevent)
  obtain ⟨d, v, halive, -⟩ := hs.made.alive
  cases result with
  | ok =>
    obtain ⟨e, he, heq⟩ := halive.exists_entry_of_ack hcfg.roundTrips hsent rfl hresult
    exact ⟨e, List.mem_append_right _ he, heq⟩
  | err => cases hok
  | dropped => cases hok

lemma crash (h : Settled cfg s) {written : Bytes} {upload : Upload}
    (hs : s.uploadStep cfg (.lifetime (.crash written)) = some upload) :
    Settled cfg
      { service := .init cfg.workerTotal
        upload := upload
        waiting := []
        finished := []
        earlier := s.earlier ++ s.finished } where
  waiting := List.forall_mem_nil _
  finished := by
    rw [List.append_nil]
    exact fun run hrun => (h.finished run hrun).mono (Upload.acked_of_step hs)
  processed _ _ := Service.processed_init

lemma step (hcfg : cfg.Lawful) (hs : Sourced cfg w jobs s.service s.upload) (h : Settled cfg s)
    (hstep : s.step cfg l = some s') : Settled cfg s' := by
  cases IngestionRule.of_step hstep with
  | service hl hservice =>
    obtain ⟨current, -, hdealt⟩ := hs.dealt
    exact h.service_step hdealt.joined hl hservice
  | ended hjob hanswer hservice =>
    obtain ⟨⟨v, hv, hpc⟩, hwaiting⟩ := of_jobOf hjob
    refine h.finish ⟨_, _, _, _⟩ ?_ ⟨_, rfl, ?_⟩ ?_ hservice
    · rw [hv, Option.map_some, hpc]
    · exact fun event hevent hok => absurd hok (hanswer event hevent)
    · exact fun other hother => ⟨hother, hwaiting other hother⟩
  | answered hrun hresult hservice =>
    have hwaits := h.waiting _ hrun
    refine h.finish ⟨_, _, _, _⟩ hwaits.worker (truthful hcfg hs hwaits hresult) ?_ hservice
    intro other hother
    simpa using List.mem_filter.mp hother
  | send hjob hevent hupload =>
    obtain ⟨⟨v, hv, hpc⟩, -⟩ := of_jobOf hjob
    refine h.send ?_ hevent hupload
    rw [hv, Option.map_some, hpc]
  | upload _ hcrash hupload => exact h.upload_step hcrash hupload
  | crash hupload => exact h.crash hupload

lemma exec (hcfg : cfg.Lawful) {ls : List IngestionLabel}
    (hs : Sourced cfg w jobs s.service s.upload) (h : Settled cfg s)
    (hl : Always (Ingestion.step cfg) (Orderly cfg) s ls)
    (hexec : exec (Ingestion.step cfg) s ls = some s') : Settled cfg s' := by
  induction ls generalizing s jobs with
  | nil =>
    cases hexec
    exact h
  | cons l ls ih =>
    obtain ⟨t, ht, hrest⟩ := Option.bind_eq_some_iff.mp hexec
    exact ih (hs.step hcfg hl.1 ht) (h.step hcfg hs ht) (hl.2 t ht) hrest

end Settled

/-! ### Outcomes -/

/-- Where a run has ended, by what its append was answered. -/
lemma Truthful.ends {topicRoutes : List (String × String)}
    (hrouter : buildRouter topicRoutes = .ok cfg.router) {acked : List WalEntry}
    {run : FinishedRun F} (h : Truthful cfg acked run) :
    let dlq (reason : String) : List DlqMessage :=
      [⟨cfg.dlqTopic, run.job.topic, payloadText run.job.payload, reason⟩]
    match cfg.accept run.job with
    | .error reason => run.state.appended = [] ∧ run.state.published = dlq reason
    | .ok msg =>
      let event : WalEvent := ⟨run.job.topic, run.nowMs, msg.encode⟩
      (∃ err : AppendDurableError, run.state.appended = [(event, .error err)] ∧
        run.state.published = dlq err.dlqReason) ∨
      run.state.appended = [(event, .ok ())] ∧ run.state.published = [] ∧
        ∃ e ∈ acked, e.event = event := by
  obtain ⟨answer, hstate, hok⟩ := h
  have hspec := IngestionConfig.run_spec hrouter run.job run.nowMs answer
  rw [← hstate] at hspec
  dsimp only at hspec ⊢
  cases haccept : cfg.accept run.job with
  | error reason =>
    rw [haccept] at hspec
    exact hspec
  | ok msg =>
    rw [haccept] at hspec
    dsimp only at hspec ⊢
    cases hanswer : answer ⟨run.job.topic, run.nowMs, msg.encode⟩ with
    | error err =>
      rw [hanswer] at hspec
      exact .inl ⟨err, hspec⟩
    | ok _ =>
      rw [hanswer] at hspec
      have hevent : cfg.eventOf run.job run.nowMs =
          some ⟨run.job.topic, run.nowMs, msg.encode⟩ :=
        (IngestionConfig.eventOf_eq_some_iff hrouter).mpr ⟨msg, haccept, rfl⟩
      exact .inr ⟨hspec.1, hspec.2, hok _ hevent hanswer⟩

/-- The line of the event is in a body that Influx has taken. -/
def Took (s : Upload) (event : WalEvent) : Prop :=
  ∃ post ∈ s.taken, ∃ batch, post.body = buildBody batch ∧ event ∈ batch

/-- An acknowledged entry is with Influx or on its way there. -/
lemma took_or_pending (hcfg : cfg.Lawful) (hs : Sourced cfg w jobs s.service s.upload)
    {e : WalEntry} (he : e ∈ s.ackedEntries) :
    Took s.upload e.event ∨ e ∈ s.upload.lifetime.node.pending cfg.bc := by
  obtain ⟨batches, hbatches⟩ := Upload.exists_carries hs.reach
  obtain ⟨d, v, halive, -⟩ := hs.made.alive
  refine (hbatches.covered hcfg.roundTrips halive e he).imp_left ?_
  rintro ⟨batch, hbatch, hmem⟩
  have hbody : buildBody (batch.map WalEntry.event) ∈ s.upload.taken.map Post.body := by
    rw [hbatches.bodies]
    exact List.mem_map_of_mem hbatch
  obtain ⟨post, hpost, heq⟩ := List.mem_map.mp hbody
  exact ⟨post, hpost, _, heq, List.mem_map_of_mem hmem⟩

/-- In every orderly run, over crashes as well, each run of the pipeline that is over has one end. A job
that is not accepted was published once, with the reason against it and the payload as it came, and
not appended; an accepted one was published once because its append failed, or not published, and its
line is in a body that Influx has taken or is still to be sent. When `run_forwarder` has returned
nothing is still to be sent. Of the jobs of a worker the first ones are those of its finished runs. -/
theorem outcomes_of_exec (hcfg : cfg.Lawful) (hopen : Wal.open cfg.bc ⟨∅, none, none⟩ = .ok w)
    {ls : List IngestionLabel} (hl : Always (Ingestion.step cfg) (Orderly cfg) (init cfg w) ls)
    (hexec : exec (Ingestion.step cfg) (init cfg w) ls = some s) :
    (∀ run ∈ s.earlier ++ s.finished,
      let dlq (reason : String) : List DlqMessage :=
        [⟨cfg.dlqTopic, run.job.topic, payloadText run.job.payload, reason⟩]
      match cfg.accept run.job with
      | .error reason => run.state.appended = [] ∧ run.state.published = dlq reason
      | .ok msg =>
        let event : WalEvent := ⟨run.job.topic, run.nowMs, msg.encode⟩
        (∃ err : AppendDurableError, run.state.appended = [(event, .error err)] ∧
          run.state.published = dlq err.dlqReason) ∨
        run.state.appended = [(event, .ok ())] ∧ run.state.published = [] ∧
          (Took s.upload event ∨
            ∃ e ∈ s.upload.lifetime.node.pending cfg.bc, e.event = event)) ∧
    (s.upload.lifetime.node.pc = .returned → s.upload.lifetime.node.pending cfg.bc = []) ∧
    ∀ id (v : Worker), s.service.workers[id]? = some v →
      ∃ lost, v.accepted = jobsOf s.finished id ++ v.inHand ++ v.queue ++ lost ∧
        (v.pc ≠ .exited → lost = []) := by
  have hs : Sourced cfg w (ls.flatMap IngestionLabel.jobs) s.service s.upload :=
    (sourced_init hopen).exec hcfg hl hexec
  have hsettled := (settled_init cfg w).exec hcfg (sourced_init hopen) hl hexec
  obtain ⟨_, hrouter⟩ := hcfg.router
  refine ⟨fun run hrun => ?_, ?_, ?_⟩
  · have hends := (hsettled.finished run hrun).ends hrouter
    dsimp only at hends ⊢
    cases haccept : cfg.accept run.job with
    | error reason =>
      rw [haccept] at hends
      exact hends
    | ok msg =>
      rw [haccept] at hends
      refine hends.imp_right ?_
      rintro ⟨happended, hpublished, e, he, heq⟩
      rw [← heq] at happended ⊢
      exact ⟨happended, hpublished,
        (took_or_pending hcfg hs he).imp_right fun hpending => ⟨e, hpending, rfl⟩⟩
  · obtain ⟨d, v, halive, -⟩ := hs.made.alive
    exact halive.pending_of_returned hcfg.roundTrips
  · intro id v hv
    obtain ⟨current, -, hdealt⟩ := hs.dealt
    obtain ⟨lost, haccepted, hlost⟩ := (hdealt.served v (List.mem_of_getElem? hv)).accepted
    rw [hsettled.processed id v hv] at haccepted
    exact ⟨lost, haccepted, hlost⟩

/-- The status message that was not published is with Influx. -/
theorem outcomes_of_resentStatus :
    ∃ w s, Wal.open Bincode.fixint ⟨∅, none, none⟩ = .ok w ∧
      exec (Ingestion.step statusConfig) (init statusConfig w) resentStatus = some s ∧
      (s.earlier ++ s.finished).map (fun run => (run.nowMs, run.state.published.map (·.reason))) =
        [(9, ["payload not valid JSON"]), (9, []), (10, ["wal queue full"])] ∧
      ∀ run ∈ s.earlier ++ s.finished, run.job = statusJob → run.state.published = [] →
        Took s.upload ⟨statusJob.topic, run.nowMs, statusLine⟩ := by
  obtain ⟨w, hopen⟩ : ∃ w, Wal.open Bincode.fixint ⟨∅, none, none⟩ = .ok w := ⟨_, rfl⟩
  obtain ⟨s, hl, hexec, -, hpc, hruns⟩ := exec_resentStatus hopen
  obtain ⟨houtcomes, hreturned, -⟩ := outcomes_of_exec lawful_statusConfig hopen hl hexec
  refine ⟨w, s, hopen, hexec, hruns, fun run hrun hjob hpublished => ?_⟩
  have hline : (statusConfig.accept statusJob).map HandledMessage.encode = .ok statusLine := by
    decide +kernel
  have hends := houtcomes run hrun
  rw [hjob, hpublished, hreturned hpc] at hends
  cases haccept : statusConfig.accept statusJob with
  | error reason =>
    rw [haccept] at hline
    cases hline
  | ok msg =>
    rw [haccept] at hline hends
    have heq : msg.encode = statusLine := Except.ok.inj hline
    obtain ⟨-, htook⟩ : _ ∧ Took s.upload ⟨statusJob.topic, run.nowMs, statusLine⟩ := by
      simpa [heq] using hends
    exact htook

end Ingestion

end SmarthomeIngest
