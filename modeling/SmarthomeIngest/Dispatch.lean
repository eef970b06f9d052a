import SmarthomeIngest.Shutdown
import Mathlib.Data.List.Permutation

/-!
# Where the jobs go

The account of all dispatched jobs, in every run of the service: the jobs are dealt to the workers
in turn, each is queued or dropped at once, and a queued one is run in its turn, unless it is still
in the queue when a worker that has stopped drops its receiver.
-/

namespace SmarthomeIngest

open Transition
open scoped List

/-! ### Inversion -/

namespace Service

variable {cap : ℕ} {s s' : Service} {l : ServiceLabel}

/-- The steps from `s`, with their labels and their results. -/
inductive ServiceRule (cap : ℕ) (s : Service) : ServiceLabel → Service → Prop
  | queued {job : IngestJob} {w w' : Worker} (hw : s.workers[s.target]? = some w)
      (hsend : w.trySend cap job = .ok w') :
      ServiceRule cap s (.dispatch job)
        { s with workers := s.workers.set s.target w', next := (s.next + 1) % 2 ^ 64 }
  | dropped {job : IngestJob} {w : Worker} {e : TrySendError}
      (hw : s.workers[s.target]? = some w) (hsend : w.trySend cap job = .error e) :
      ServiceRule cap s (.dispatch job)
        { s with next := (s.next + 1) % 2 ^ 64, dropped := s.dropped ++ [(job, e)] }
  | worker {id : ℕ} {l : WorkerLabel} {w w' : Worker} (hw : s.workers[id]? = some w)
      (hstep : w.step s.shutdown s.senders l = some w') :
      ServiceRule cap s (.worker id l) { s with workers := s.workers.set id w' }
  | control {l : ServiceLabel} {sourceRunning shutdown : Bool} {main : MainPc}
      (hjobs : ∀ job, l ≠ .dispatch job) (hworker : ∀ id l', l ≠ .worker id l')
      (hjoined : main = .joined → ∀ w ∈ s.workers, w.pc = .exited) :
      ServiceRule cap s l
        { s with sourceRunning := sourceRunning, shutdown := shutdown, main := main }

/-- Every step is by one of the rules. While a worker has not exited `main` has not joined. -/
theorem ServiceRule.of_step (hmain : s.main = .joined → ∀ w ∈ s.workers, w.pc = .exited)
    (hs : s.step cap l = some s') : ServiceRule cap s l s' := by
  cases l with
  | dispatch job =>
    simp only [Service.step] at hs
    split at hs
    · split at hs
      · cases hs
      · rename_i w hw
        split at hs
        · rename_i w' hsend
          cases hs
          exact .queued hw hsend
        · rename_i e hsend
          cases hs
          exact .dropped hw hsend
    · cases hs
  | worker id l =>
    simp only [Service.step] at hs
    split at hs
    · cases hs
    · rename_i w hw
      obtain ⟨w', hstep, rfl⟩ := Option.map_eq_some_iff.mp hs
      exact .worker hw hstep
  | sourceEnds =>
    simp only [Service.step] at hs
    split_ifs at hs
    cases hs
    exact .control (by simp) (by simp) hmain
  | signal =>
    simp only [Service.step] at hs
    split_ifs at hs
    cases hs
    exact .control (by simp) (by simp) (by simp)
  | main =>
    simp only [Service.step] at hs
    split at hs
    · split_ifs at hs
      cases hs
      exact .control (by simp) (by simp) (by simp)
    · split_ifs at hs
      cases hs
      exact .control (by simp) (by simp) (by simp)
    · cases hs
      exact .control (by simp) (by simp) (by simp)
    · split_ifs at hs with hall
      cases hs
      exact .control (by simp) (by simp) fun _ => hall
    · cases hs

end Service

/-! ### One worker -/

namespace Worker

variable {shutdown senders : Bool} {cap : ℕ} {w w' : Worker} {l : WorkerLabel} {job : IngestJob}

/-- Every queued job has been run, is in hand or in the queue, in this order, or it was lost with the
queue of a worker that has exited. -/
structure Served (cap : ℕ) (w : Worker) : Prop where
  accepted : ∃ lost, w.accepted = w.processed ++ w.inHand ++ w.queue ++ lost ∧
    (w.pc ≠ .exited → lost = [])
  queue : w.queue.length ≤ cap

lemma served_init (cap : ℕ) : Served cap .init := ⟨⟨[], rfl, fun _ => rfl⟩, Nat.zero_le cap⟩

/-- The account of a worker that has not exited. -/
lemma Served.eq (h : w.Served cap) (hpc : w.pc ≠ .exited) :
    w.accepted = w.processed ++ w.inHand ++ w.queue := by
  obtain ⟨lost, haccepted, hlost⟩ := h.accepted
  rw [haccepted, hlost hpc, List.append_nil]

lemma Served.of_eq (haccepted : w.accepted = w.processed ++ w.inHand ++ w.queue)
    (hqueue : w.queue.length ≤ cap) : w.Served cap :=
  ⟨⟨[], by rw [haccepted, List.append_nil], fun _ => rfl⟩, hqueue⟩

lemma Served.step (h : w.Served cap) (hs : w.step shutdown senders l = some w') :
    w'.Served cap := by
  have haccepted := h.eq (Service.pc_ne_exited_of_step hs)
  have hqueue := h.queue
  cases WorkerRule.of_step hs with
  | borrow hpc =>
    rw [inHand, hpc] at haccepted
    cases shutdown <;> exact .of_eq haccepted hqueue
  | changed hpc =>
    rw [inHand, hpc] at haccepted
    exact .of_eq haccepted hqueue
  | recv hpc hrest | tryRecv hpc hrest =>
    rw [inHand, hpc, hrest] at haccepted
    rw [hrest, List.length_cons] at hqueue
    exact .of_eq (by simpa [inHand] using haccepted) (Nat.le_of_succ_le hqueue)
  | closed hpc | drained hpc =>
    rw [inHand, hpc] at haccepted
    exact .of_eq haccepted hqueue
  | finish hpc =>
    rw [inHand, hpc] at haccepted
    exact .of_eq (by simpa [inHand] using haccepted) hqueue
  | dropReceiver hpc =>
    rw [inHand, hpc] at haccepted
    refine ⟨⟨w.queue, ?_, fun hne => absurd rfl hne⟩, Nat.zero_le cap⟩
    simpa [inHand] using haccepted

/-- A job is queued behind the others. -/
lemma of_trySend (h : w.trySend cap job = .ok w') :
    w.pc ≠ .exited ∧ w.queue.length < cap ∧
      w' = { w with queue := w.queue ++ [job], accepted := w.accepted ++ [job] } := by
  unfold trySend at h
  split_ifs at h with hexit hfull
  cases h
  exact ⟨hexit, not_le.mp hfull, rfl⟩

lemma Served.trySend (h : w.Served cap) (hs : w.trySend cap job = .ok w') : w'.Served cap := by
  obtain ⟨hpc, hroom, rfl⟩ := of_trySend hs
  refine .of_eq ?_ (by simpa [Nat.succ_le_iff] using hroom)
  show w.accepted ++ [job] = w.processed ++ w.inHand ++ (w.queue ++ [job])
  rw [h.eq hpc, List.append_assoc]

/-- Only `try_send` adds to what has been accepted. -/
lemma accepted_of_step (hs : w.step shutdown senders l = some w') : w'.accepted = w.accepted := by
  cases WorkerRule.of_step hs <;> rfl

end Worker

/-! ### The deal -/

/-- The jobs that a label dispatches. -/
def ServiceLabel.jobs : ServiceLabel → List IngestJob
  | .dispatch job => [job]
  | _             => []

/-- Which of `n` workers the job with the number `k` goes to. The counter is an `AtomicUsize`. -/
def turnOf (n k : ℕ) : ℕ := k % 2 ^ 64 % n

/-- The jobs that come to one of `n` workers in its turn. -/
def turns (n id : ℕ) (jobs : List IngestJob) : List IngestJob :=
  (jobs.zipIdx.filter fun p => turnOf n p.2 = id).map Prod.fst

lemma turns_concat (n id : ℕ) (jobs : List IngestJob) (job : IngestJob) :
    turns n id (jobs ++ [job]) =
      turns n id jobs ++ if turnOf n jobs.length = id then [job] else [] := by
  simp only [turns, List.zipIdx_append, List.filter_append, List.map_append, Nat.zero_add]
  by_cases h : turnOf n jobs.length = id
  · simp [h]
  · simp [h]

namespace Service

variable {cap n : ℕ} {s s' : Service} {l : ServiceLabel} {jobs : List IngestJob}

/-- The account of the jobs dispatched so far. -/
structure Dealt (cap n : ℕ) (jobs : List IngestJob) (s : Service) : Prop where
  workers : s.workers.length = n
  next : s.next = jobs.length % 2 ^ 64
  served : ∀ w ∈ s.workers, w.Served cap
  turns : ∀ id (w : Worker), s.workers[id]? = some w → w.accepted.Sublist (turns n id jobs)
  all : s.workers.flatMap Worker.accepted ++ s.dropped.map Prod.fst ~ jobs
  joined : s.main = .joined → ∀ w ∈ s.workers, w.pc = .exited
  closed : ∀ d ∈ s.dropped, d.2 = .closed → ∃ w ∈ s.workers, w.pc = .exited

lemma dealt_init (cap n : ℕ) : Dealt cap n [] (init n) where
  workers := List.length_replicate
  next := rfl
  served w hw := by
    rw [List.eq_of_mem_replicate hw]
    exact Worker.served_init cap
  turns id w hw := by
    rw [List.eq_of_mem_replicate (List.mem_of_getElem? hw)]
    exact .slnil
  all := by simp [init, Worker.init, List.flatMap_replicate]
  joined := nofun
  closed := nofun

/-- Another job, queued or dropped: the deal goes on with the next worker. -/
lemma Dealt.turns_concat (h : Dealt cap n jobs s) (job : IngestJob) {id : ℕ} {w : Worker}
    (hw : s.workers[id]? = some w) : w.accepted.Sublist (SmarthomeIngest.turns n id (jobs ++ [job])) := by
  rw [SmarthomeIngest.turns_concat]
  exact (h.turns id w hw).trans (List.sublist_append_left _ _)

lemma Dealt.target_eq (h : Dealt cap n jobs s) : s.target = turnOf n jobs.length := by
  rw [target, h.next, h.workers, turnOf]

lemma Dealt.next_concat (h : Dealt cap n jobs s) (job : IngestJob) :
    (s.next + 1) % 2 ^ 64 = (jobs ++ [job]).length % 2 ^ 64 := by
  rw [h.next, List.length_append, List.length_singleton, Nat.mod_add_mod]

/-- The accepted jobs of all workers, when one of them has accepted `new` more. -/
lemma perm_flatMap_set {ws : List Worker} {i : ℕ} {w : Worker} (hw : ws[i]? = some w)
    (w' : Worker) (new : List IngestJob) (haccepted : w'.accepted = w.accepted ++ new) :
    (ws.set i w').flatMap Worker.accepted ~ ws.flatMap Worker.accepted ++ new := by
  obtain ⟨hi, rfl⟩ := List.getElem?_eq_some_iff.mp hw
  have hset := (List.set_perm_cons_eraseIdx hi w').flatMap_right Worker.accepted
  have hall := (List.getElem_cons_eraseIdx_perm hi).flatMap_right Worker.accepted
  rw [List.flatMap_cons] at hset hall
  calc (ws.set i w').flatMap Worker.accepted
      ~ ws[i].accepted ++ new ++ (ws.eraseIdx i).flatMap Worker.accepted := haccepted ▸ hset
    _ ~ ws[i].accepted ++ (ws.eraseIdx i).flatMap Worker.accepted ++ new := by
        rw [List.append_assoc, List.append_assoc]
        exact List.Perm.append_left _ List.perm_append_comm
    _ ~ ws.flatMap Worker.accepted ++ new := hall.append_right new

/-- A worker that has exited stays as it is. -/
lemma exited_of_set {ws : List Worker} {i : ℕ} {w : Worker} (hw : ws[i]? = some w)
    (hpc : w.pc ≠ .exited) (h : ∃ v ∈ ws, v.pc = .exited) (w' : Worker) :
    ∃ v ∈ ws.set i w', v.pc = .exited := by
  obtain ⟨v, hv, hexit⟩ := h
  obtain ⟨k, hk⟩ := List.mem_iff_getElem?.mp hv
  have hne : i ≠ k := by
    rintro rfl
    rw [hw] at hk
    cases hk
    exact hpc hexit
  refine ⟨v, List.mem_of_getElem? (i := k) ?_, hexit⟩
  rwa [List.getElem?_set_ne hne]

lemma Dealt.queued (h : Dealt cap n jobs s) {job : IngestJob} {w w' : Worker}
    (hw : s.workers[s.target]? = some w) (hsend : w.trySend cap job = .ok w') :
    Dealt cap n (jobs ++ [job])
      { s with workers := s.workers.set s.target w', next := (s.next + 1) % 2 ^ 64 } := by
  obtain ⟨hpc, -, hw'⟩ := Worker.of_trySend hsend
  have hmem := List.mem_of_getElem? hw
  constructor
  case workers => simpa using h.workers
  case next => exact h.next_concat job
  case served =>
    intro v hv
    rcases List.mem_or_eq_of_mem_set hv with hold | rfl
    · exact h.served v hold
    · exact (h.served w hmem).trySend hsend
  case turns =>
    intro id v hv
    by_cases hid : s.target = id
    · subst hid
      rw [List.getElem?_set_self (List.getElem?_eq_some_iff.mp hw).1] at hv
      cases hv
      rw [SmarthomeIngest.turns_concat, if_pos h.target_eq.symm, hw']
      exact (h.turns _ w hw).append_right [job]
    · rw [List.getElem?_set_ne hid] at hv
      exact h.turns_concat job hv
  case all =>
    have hset := perm_flatMap_set hw w' [job] (by rw [hw'])
    calc (s.workers.set s.target w').flatMap Worker.accepted ++ s.dropped.map Prod.fst
        ~ s.workers.flatMap Worker.accepted ++ [job] ++ s.dropped.map Prod.fst :=
          hset.append_right _
      _ ~ s.workers.flatMap Worker.accepted ++ s.dropped.map Prod.fst ++ [job] := by
          rw [List.append_assoc, List.append_assoc]
          exact List.Perm.append_left _ List.perm_append_comm
      _ ~ jobs ++ [job] := h.all.append_right [job]
  case joined => exact fun hjoined => absurd (h.joined hjoined w hmem) hpc
  case closed =>
    intro d hd hclosed
    exact exited_of_set hw hpc (h.closed d hd hclosed) w'

lemma Dealt.dropped (h : Dealt cap n jobs s) {job : IngestJob} {w : Worker} {e : TrySendError}
    (hw : s.workers[s.target]? = some w) (hsend : w.trySend cap job = .error e) :
    Dealt cap n (jobs ++ [job])
      { s with next := (s.next + 1) % 2 ^ 64, dropped := s.dropped ++ [(job, e)] } where
  workers := h.workers
  next := h.next_concat job
  served := h.served
  turns _ _ hv := h.turns_concat job hv
  all := by
    rw [List.map_append, ← List.append_assoc]
    exact h.all.append_right [job]
  joined := h.joined
  closed := by
    intro d hd hclosed
    rcases List.mem_append.mp hd with hd | hd
    · exact h.closed d hd hclosed
    · rw [List.mem_singleton.mp hd] at hclosed
      refine ⟨w, List.mem_of_getElem? hw, ?_⟩
      unfold Worker.trySend at hsend
      split_ifs at hsend with hexit
      · exact hexit
      · cases hsend
        cases hclosed

lemma Dealt.worker (h : Dealt cap n jobs s) {id : ℕ} {l : WorkerLabel} {w w' : Worker}
    (hw : s.workers[id]? = some w) (hstep : w.step s.shutdown s.senders l = some w') :
    Dealt cap n jobs { s with workers := s.workers.set id w' } := by
  have hpc := pc_ne_exited_of_step hstep
  have haccepted := Worker.accepted_of_step hstep
  have hmem := List.mem_of_getElem? hw
  constructor
  case workers => simpa using h.workers
  case next => exact h.next
  case served =>
    intro v hv
    rcases List.mem_or_eq_of_mem_set hv with hold | rfl
    · exact h.served v hold
    · exact (h.served w hmem).step hstep
  case turns =>
    intro id' v hv
    by_cases hid : id = id'
    · subst hid
      rw [List.getElem?_set_self (List.getElem?_eq_some_iff.mp hw).1] at hv
      cases hv
      exact haccepted ▸ h.turns id w hw
    · rw [List.getElem?_set_ne hid] at hv
      exact h.turns id' v hv
  case all =>
    have hset := perm_flatMap_set hw w' [] (by simpa using haccepted)
    rw [List.append_nil] at hset
    exact (hset.append_right _).trans h.all
  case joined => exact fun hjoined => absurd (h.joined hjoined w hmem) hpc
  case closed =>
    intro d hd hclosed
    exact exited_of_set hw hpc (h.closed d hd hclosed) w'

lemma Dealt.step (h : Dealt cap n jobs s) (hs : s.step cap l = some s') :
    Dealt cap n (jobs ++ l.jobs) s' := by
  cases ServiceRule.of_step h.joined hs with
  | queued hw hsend => exact h.queued hw hsend
  | dropped hw hsend => exact h.dropped hw hsend
  | worker hw hstep =>
    show Dealt cap n (jobs ++ []) _
    rw [List.append_nil]
    exact h.worker hw hstep
  | control hjobs _ hjoined =>
    have hnil : l.jobs = [] := by
      cases l with
      | dispatch job => exact absurd rfl (hjobs job)
      | _ => rfl
    rw [hnil, List.append_nil]
    exact ⟨h.workers, h.next, h.served, h.turns, h.all, hjoined, h.closed⟩

lemma Dealt.exec {ls : List ServiceLabel} (h : Dealt cap n jobs s)
    (hexec : exec (Service.step cap) s ls = some s') :
    Dealt cap n (jobs ++ ls.flatMap ServiceLabel.jobs) s' := by
  induction ls generalizing s jobs with
  | nil =>
    cases hexec
    simpa using h
  | cons l ls ih =>
    obtain ⟨t, ht, hrest⟩ := Option.bind_eq_some_iff.mp hexec
    rw [List.flatMap_cons, ← List.append_assoc]
    exact ih (h.step ht) hrest

/-- A job that is being run has been dispatched. -/
lemma Dealt.mem_of_run (h : Dealt cap n jobs s) {id : ℕ} {w : Worker} {job : IngestJob}
    (hw : s.workers[id]? = some w) (hpc : w.pc = .run job) : job ∈ jobs := by
  have hmem := List.mem_of_getElem? hw
  obtain ⟨lost, haccepted, -⟩ := (h.served w hmem).accepted
  have hjob : job ∈ w.accepted := by
    rw [haccepted, Worker.inHand, hpc]
    simp
  exact h.all.subset (List.mem_append_left _ (List.mem_flatMap_of_mem hmem hjob))

/-- In every run each dispatched job is queued for one worker or dropped, once. A worker is given
only the jobs whose turn it is for, in order; of those it was given it has run the first ones, has the
next one in hand and the others in a queue that is never too long, but for those that it lost when it
exited. A queue is found closed only when a worker has exited. -/
theorem dealt_of_exec {ls : List ServiceLabel}
    (h : Transition.exec (step cap) (init n) ls = some s) :
    let jobs := ls.flatMap ServiceLabel.jobs
    s.workers.flatMap Worker.accepted ++ s.dropped.map Prod.fst ~ jobs ∧
      (∀ id (w : Worker), s.workers[id]? = some w → w.accepted.Sublist (turns n id jobs) ∧
        w.queue.length ≤ cap ∧
        ∃ lost, w.accepted = w.processed ++ w.inHand ++ w.queue ++ lost ∧
          (w.pc ≠ .exited → lost = [])) ∧
      ∀ d ∈ s.dropped, d.2 = .closed → ∃ w ∈ s.workers, w.pc = .exited := by
  have hdealt : Dealt cap n (ls.flatMap ServiceLabel.jobs) s := (dealt_init cap n).exec h
  refine ⟨hdealt.all, ?_, hdealt.closed⟩
  intro id w hw
  have hserved := hdealt.served w (List.mem_of_getElem? hw)
  exact ⟨hdealt.turns id w hw, hserved.queue, hserved.accepted⟩

/-- The run in which the source dispatches to workers that have stopped. -/
theorem dealt_of_lateDispatch :
    ∃ s, Transition.exec (step 4) (init 2) lateDispatch = some s ∧
      s.workers.flatMap Worker.accepted ++ s.dropped.map Prod.fst ~
        [⟨"smarthome/dev-1/status", [123, 125]⟩, ⟨"smarthome/dev-2/status", [123, 125]⟩] ∧
      ∃ w ∈ s.workers, w.pc = .exited := by
  obtain ⟨s, hexec, hdropped⟩ : ∃ s : Service,
      Transition.exec (step 4) (init 2) lateDispatch = some s ∧
      s.dropped = [(⟨"smarthome/dev-2/status", [123, 125]⟩, .closed)] :=
    ⟨_, rfl, rfl⟩
  obtain ⟨hall, -, hclosed⟩ := dealt_of_exec hexec
  exact ⟨s, hexec, hall, hclosed _ (hdropped ▸ List.mem_singleton_self _) rfl⟩

end Service

end SmarthomeIngest
