import SmarthomeIngest.Wal.Session
import SmarthomeIngest.Wal.Writer.Invariant

/-!
# Wake-ups at the exit of the writer

`wait_or_advance` registers its interest in notifications, and tells from the reference count of the
`Notify` handle whether the writer is gone. The writer drops its handle behind its last
notification, and its fatal returns notify nobody. A subscription that parks between the two, or is
parked at a fatal return, is never woken.
-/

namespace SmarthomeIngest

open Transition

/-! ### Definitions -/

/-- The step makes `writer_loop` return without a notification. -/
def Writer.FatalReturn (s : Writer) (l : WriterLabel) : Prop :=
  match l, s.pc with
  | .flush fault, .rotateFlush _ _ => fault ≠ none
  | .openNext error, .openNext _ _ => error ≠ none
  | .write flushFault writeFault, .writeAll req frame =>
    (s.writeAll req frame flushFault writeFault).1 ≠ .ok ()
  | _, _ => False

namespace Session

/-- The subscription waits, and has not been notified since it registered its interest. -/
def Waits (s : Session) : Prop :=
  ∃ seen, s.subscription.pc = .park seen ∧ s.writer.notifications ≤ seen

/-- The subscription waits for a writer that is gone. -/
def Lost (s : Session) : Prop := s.Waits ∧ s.writer.notifyAlive = false

/-- The writer does not return fatally while the subscription waits, and the reference count is not
looked at between the return and the drop of the handle, unless a notification has come since
interest was registered. -/
def Heard (s : Session) : SessionLabel → Prop
  | .writer l => s.Waits → ¬ s.writer.FatalReturn l
  | .next (.run _) =>
    s.writer.pc = .dropNotify → ∀ seen, s.subscription.pc = .checkClosed seen →
      seen < s.writer.notifications
  | _ => True

/-- The notifications seen at the registration of interest. -/
def seen (s : Session) : ℕ :=
  match s.subscription.pc with
  | .loadHead seen | .checkClosed seen | .reloadHead seen | .park seen => seen
  | _ => 0

/-- No more notifications have been seen than sent, and the writer that a subscription waits for has
not returned. -/
structure WillHear (s : Session) : Prop where
  seen_le : s.seen ≤ s.writer.notifications
  running : s.Waits → s.writer.pc.Running

end Session

variable {bc : Bincode} {segmentBytes : ℕ}

/-! ### The writer -/

namespace Writer

variable {s s' : Writer} {l : WriterLabel}

/-- The writer returns with a notification or fatally. -/
lemma running_of_step (h : step bc segmentBytes s l = some s') (hrun : s.pc.Running)
    (hfatal : ¬ s.FatalReturn l) : s'.pc.Running ∨ s.notifications < s'.notifications := by
  cases WriterRule.of_step h with
  | finalNotify => exact .inr (Nat.lt_succ_self _)
  | @rotateFlushError req frame fault e w hpc hflush =>
    cases fault with
    | none => cases hflush
    | some f => simp [FatalReturn, hpc] at hfatal
  | openNextError hpc => simp [FatalReturn, hpc] at hfatal
  | writeError hpc hwrite => simp [FatalReturn, hpc, hwrite] at hfatal
  | dropNotify hpc | dropRx hpc | dropWriter hpc | dropWriterFlush hpc =>
    rw [hpc] at hrun
    cases hrun
  | send | dropSenders => exact .inl hrun
  | _ => exact .inl trivial

/-- A fatal return leaves the handle to be dropped, and notifies nobody. -/
lemma pc_of_fatalReturn (h : step bc segmentBytes s l = some s') (hfatal : s.FatalReturn l) :
    s'.pc = .dropNotify ∧ s'.notifications = s.notifications := by
  cases WriterRule.of_step h with
  | rotateFlushError | openNextError | writeError => exact ⟨rfl, rfl⟩
  | @rotateFlush req frame fault w hpc hflush =>
    cases fault with
    | none => simp [FatalReturn, hpc] at hfatal
    | some f => cases hflush
  | openNext hpc => simp [FatalReturn, hpc] at hfatal
  | write hpc hwrite => simp [FatalReturn, hpc, hwrite] at hfatal
  | periodicFlushError hpc | periodicFlush hpc | finalFlushError hpc | finalFlush hpc
  | dropWriter hpc | dropWriterFlush hpc => simp [FatalReturn, hpc] at hfatal
  | _ => cases hfatal

lemma not_fatalReturn_flush (s : Writer) : ¬ s.FatalReturn (.flush none) := by
  intro hfatal
  cases hpc : s.pc <;> simp [FatalReturn, hpc] at hfatal

lemma pc_of_dropNotify (hpc : s.pc = .dropNotify) :
    step bc segmentBytes s .step = some { s with pc := .dropRx } := by
  simp only [step, hpc]

end Writer

/-! ### The two parties -/

namespace Session

variable {s s' : Session}

lemma WillHear.writer (h : WillHear s) {l : WriterLabel} {w : Writer} (hl : s.Heard (.writer l))
    (hstep : s.writer.step bc segmentBytes l = some w) : WillHear { s with writer := w } := by
  have hmono := Writer.notifications_of_step hstep
  refine ⟨h.seen_le.trans hmono, ?_⟩
  rintro ⟨seen, hpc, hle⟩
  have hwaits : s.Waits := ⟨seen, hpc, hmono.trans hle⟩
  have hseen : s.seen = seen := by
    rw [Session.seen, show s.subscription.pc = .park seen from hpc]
  rcases Writer.running_of_step hstep (h.running hwaits) (hl hwaits) with hrun | hlt
  · exact hrun
  · -- a notification wakes whoever waits
    have hseen_le := h.seen_le
    rw [hseen] at hseen_le
    exact absurd (hseen_le.trans_lt hlt) (not_lt.mpr hle)

/-- Nothing is promised to a subscription that does not wait. -/
lemma willHear_of_not_park (hpc : ∀ seen, s.subscription.pc ≠ .park seen)
    (hseen : s.seen ≤ s.writer.notifications) : WillHear s := by
  refine ⟨hseen, ?_⟩
  rintro ⟨seen, hpark, -⟩
  exact absurd hpark (hpc seen)

/-- Interest is registered with the notifications sent so far, and kept. -/
lemma WillHear.next (h : WillHear s) {l : NextLabel} {sub : Subscription}
    {entry : Option WalEntry} (hl : s.Heard (.next l))
    (hstep : s.subscription.step bc s.writer.view l = some (sub, entry)) :
    WillHear { s with subscription := sub, yielded := s.yielded ++ entry.toList } := by
  have hseen := h.seen_le
  cases Subscription.NextRule.of_step hstep with
  | register => exact willHear_of_not_park (by simp) le_rfl
  | atHead hpc | closed hpc =>
    rw [Session.seen, hpc] at hseen
    exact willHear_of_not_park (by simp) hseen
  | @parks faults seen hpc hgone =>
    rw [Session.seen, hpc] at hseen
    refine ⟨hseen, ?_⟩
    rintro ⟨seen', hpark, hle⟩
    obtain rfl : seen = seen' := by simpa using hpark
    -- the handle has not been dropped, and is not about to be
    have halive : s.writer.notifyAlive := by simpa [Writer.view] using hgone
    cases hw : s.writer.pc with
    | dropNotify => exact absurd (hl hw seen hpc) (not_lt.mpr hle)
    | dropRx | dropWriter | exited => simp [Writer.notifyAlive, hw] at halive
    | _ => trivial
  | _ =>
    refine willHear_of_not_park ?_ (Nat.zero_le _)
    intro seen hpark
    cases hpark

lemma WillHear.step (h : WillHear s) {l : SessionLabel} (hl : s.Heard l)
    (hstep : s.step bc segmentBytes l = some s') : WillHear s' := by
  cases l with
  | writer l =>
    obtain ⟨w, hw, rfl⟩ := Option.map_eq_some_iff.mp hstep
    exact h.writer hl hw
  | next l =>
    obtain ⟨⟨sub, entry⟩, hsub, rfl⟩ := Option.map_eq_some_iff.mp hstep
    exact h.next hl hsub
  | commit upTo faults =>
    simp only [Session.step] at hstep
    split_ifs at hstep
    cases hstep
    exact ⟨h.seen_le, h.running⟩

/-- A subscription that waits is lost once the writer drops its handle. -/
lemma Waits.lost (h : s.Waits) (hpc : s.writer.pc = .dropNotify) :
    ∃ s', s.step bc segmentBytes (.writer .step) = some s' ∧ s'.Lost := by
  refine ⟨{ s with writer := { s.writer with pc := .dropRx } }, ?_, h, rfl⟩
  simp only [Session.step, Writer.pc_of_dropNotify hpc, Option.map_some]

/-- A step that is not heard is followed by the loss of the subscription. -/
lemma lost_of_not_heard {l : SessionLabel} (hl : ¬ s.Heard l)
    (hstep : s.step bc segmentBytes l = some s') :
    ∃ s'', s'.step bc segmentBytes (.writer .step) = some s'' ∧ s''.Lost := by
  cases l with
  | writer l =>
    obtain ⟨w, hw, rfl⟩ := Option.map_eq_some_iff.mp hstep
    simp only [Heard, not_forall, not_not] at hl
    obtain ⟨⟨seen, hpark, hle⟩, hfatal⟩ := hl
    obtain ⟨hpc, hnote⟩ := Writer.pc_of_fatalReturn hw hfatal
    have hwaits : Waits { s with writer := w } := ⟨seen, hpark, hnote.trans_le hle⟩
    exact hwaits.lost hpc
  | next l =>
    obtain ⟨⟨sub, entry⟩, hsub, rfl⟩ := Option.map_eq_some_iff.mp hstep
    cases l with
    | drop => exact absurd trivial hl
    | run faults =>
      simp only [Heard, not_forall, not_lt] at hl
      obtain ⟨hpc, seen, hcheck, hle⟩ := hl
      have halive : s.writer.view.writerGone = false := by
        simp [Writer.view, Writer.notifyAlive, hpc]
      have hpark : sub = { s.subscription with pc := .park seen } := by
        simp only [Subscription.step, hcheck, halive] at hsub
        cases hsub
        rfl
      have hwaits : Waits { s with subscription := sub, yielded := s.yielded ++ entry.toList } :=
        ⟨seen, by rw [hpark], hle⟩
      exact hwaits.lost hpc
  | commit => exact absurd trivial hl

/-- In the runs in which the writer does not return fatally while the subscription waits, and the
subscription does not look at the reference count between the last notification and the drop of the
handle, no subscription waits for a writer that is gone. Any other step is followed by such a
state. -/
theorem not_lost_of_reach {d : WalDir} {w : Wal} (hopen : Wal.open bc d = .ok w)
    (h : Reach (Session.step bc segmentBytes) Heard (Session.init w) s) :
    ¬ s.Lost ∧ ∀ l s', ¬ s.Heard l → s.step bc segmentBytes l = some s' →
      ∃ s'', s'.step bc segmentBytes (.writer .step) = some s'' ∧ s''.Lost := by
  have hinit : WillHear (Session.init w) := by
    obtain ⟨segs, active, start, -, -, rfl⟩ := open_eq_ok hopen
    exact willHear_of_not_park nofun (Nat.zero_le _)
  have hw : WillHear s := h.invariant hinit fun t l t' ht hl hs => ht.step hl hs
  refine ⟨?_, fun l s' hl hs => lost_of_not_heard hl hs⟩
  rintro ⟨hwaits, hgone⟩
  have hrun := hw.running hwaits
  cases hpc : s.writer.pc with
  | dropRx | dropWriter | exited =>
    rw [hpc] at hrun
    exact hrun
  | _ => simp [Writer.notifyAlive, hpc] at hgone

/-- The senders are gone, and the writer goes through its exit up to the drop of its handle. -/
def orderlyExit : List SessionLabel :=
  [.writer .dropSenders, .writer (.deadline false), .writer .disconnected, .writer (.flush none),
    .writer .step, .writer .step, .writer .step]

/-- The subscription reads, finds nothing and waits. -/
def readAndPark : List SessionLabel :=
  [.next (.run {}), .next (.run {}), .next (.run {}), .next (.run {}), .next (.run {})]

/-- The handle, the receiver and the `BufWriter` are dropped. -/
def dropAll : List SessionLabel := [.writer .step, .writer .step, .writer (.flush none)]

/-- Two appends, and a flush before the rotation that fails. -/
def failingRotation : List SessionLabel :=
  [.writer (.send ⟨⟨"a", 1, ""⟩, none⟩), .writer (.send ⟨⟨"a", 2, ""⟩, none⟩),
    .writer (.deadline false), .writer .recv, .writer .step, .writer (.write none none),
    .writer (.deadline false), .writer .recv, .writer .step,
    .writer (.flush (some ⟨0, "ENOSPC"⟩))]

lemma heard_of_orderlyExit : ∀ l ∈ orderlyExit ++ dropAll, ∀ s, Heard s l := by
  intro l hl s
  cases l with
  | writer l =>
    intro _ hfatal
    simp only [orderlyExit, dropAll, List.cons_append, List.nil_append, List.mem_cons,
      SessionLabel.writer.injEq, List.not_mem_nil, or_false] at hl
    have hflush := s.writer.not_fatalReturn_flush
    rcases hl with rfl | rfl | rfl | rfl | rfl | rfl | rfl | rfl | rfl | rfl
    all_goals first | exact hfatal | exact hflush hfatal
  | next l => simp [orderlyExit, dropAll] at hl
  | commit => trivial

/-- A subscription that waits before the writer exits is notified. -/
theorem not_lost_of_orderlyExit :
    ∃ w s, Wal.open Bincode.fixint ⟨∅, none, none⟩ = .ok w ∧
      exec (Session.step Bincode.fixint 30) (Session.init w)
        (readAndPark ++ (orderlyExit ++ dropAll)) = some s ∧
      s.subscription.pc = .park 0 ∧ s.writer.pc = .exited ∧ ¬ s.Lost := by
  obtain ⟨w, s, hopen, hexec, hpark, hexit, hheard⟩ : ∃ w s,
      Wal.open Bincode.fixint ⟨∅, none, none⟩ = .ok w ∧
      exec (Session.step Bincode.fixint 30) (Session.init w)
        (readAndPark ++ (orderlyExit ++ dropAll)) = some s ∧
      s.subscription.pc = .park 0 ∧ s.writer.pc = .exited ∧
      Always (Session.step Bincode.fixint 30) Heard (Session.init w)
        (readAndPark ++ (orderlyExit ++ dropAll)) := by
    refine ⟨_, _, rfl, rfl, rfl, rfl, ?_⟩
    -- the writer is at the top of its loop while the subscription goes on to wait
    iterate 5
      refine ⟨fun hpc => (by cases hpc), fun t ht => ?_⟩
      cases ht
    exact always_of_forall_mem heard_of_orderlyExit
  exact ⟨w, s, hopen, hexec, hpark, hexit, (not_lost_of_reach hopen (Reach.of_exec hheard hexec)).1⟩

/-- The subscription registers its interest behind the last notification, and looks at the
reference count before the handle is dropped. -/
theorem lost_of_lateRegistration :
    (∃ w s, Wal.open Bincode.fixint ⟨∅, none, none⟩ = .ok w ∧
      exec (Session.step Bincode.fixint 30) (Session.init w)
        (orderlyExit ++ readAndPark ++ dropAll) = some s ∧ s.writer.pc = .exited ∧ s.Lost) ∧
    ∃ w s, Wal.open Bincode.fixint ⟨∅, none, none⟩ = .ok w ∧
      exec (Session.step Bincode.fixint 30) (Session.init w)
        (readAndPark ++ failingRotation ++ dropAll) = some s ∧ s.writer.pc = .exited ∧ s.Lost :=
  ⟨⟨_, _, rfl, rfl, rfl, ⟨_, rfl, le_rfl⟩, rfl⟩, ⟨_, _, rfl, rfl, rfl, ⟨_, rfl, le_rfl⟩, rfl⟩⟩

end Session

end SmarthomeIngest
