import SmarthomeIngest.Wal.Subscription

/-!
# Inversion of the steps of `next`

`NextRule` lists what a step of `next` can do, with the point at which it does it and what it has
seen there. `NextRule.of_step` takes `Subscription.step` apart, once.
-/

namespace SmarthomeIngest

/-- The outcomes on which `next` goes on to `wait_or_advance`. -/
def ReadOutcome.Nothing : ReadOutcome → Prop
  | .notFound | .openError _ | .seekError _ | .eof => True
  | _ => False

namespace Subscription

variable (bc : Bincode)

/-- The steps of `next` from `s`, with their labels, their results and the entries returned. -/
inductive NextRule (v : WalView) (s : Subscription) :
    NextLabel → Subscription → Option WalEntry → Prop
  | ready {faults : ReadFaults} (hpc : s.pc = .ready) : NextRule v s (.run faults) s.startRead none
  | record {faults : ReadFaults} {reader reader' : Option ℕ} {payload payload' : Bytes}
      {event : WalEvent} {n : ℕ} (hpc : s.pc = .readOne reader payload)
      (hread : SmarthomeIngest.readOne bc v.segments s.curSegmentId s.curByteOffset reader payload
        faults = (.record event n, reader', payload')) :
      NextRule v s (.run faults)
        { s with
          curByteOffset := s.curByteOffset + n, curReader := reader', payloadBuf := payload',
          pc := .ready }
        (some ⟨s.position, ⟨s.curSegmentId, s.curByteOffset + n⟩, event⟩)
  | corrupt {faults : ReadFaults} {reader reader' : Option ℕ} {payload payload' : Bytes}
      {e : String} (hpc : s.pc = .readOne reader payload)
      (hread : SmarthomeIngest.readOne bc v.segments s.curSegmentId s.curByteOffset reader payload
        faults = (.corrupt e, reader', payload')) :
      NextRule v s (.run faults)
        { s with curReader := reader', payloadBuf := payload', pc := .corrupt } none
  | nothing {faults : ReadFaults} {reader reader' : Option ℕ} {payload payload' : Bytes}
      {outcome : ReadOutcome} (hpc : s.pc = .readOne reader payload)
      (hread : SmarthomeIngest.readOne bc v.segments s.curSegmentId s.curByteOffset reader payload
        faults = (outcome, reader', payload')) (hout : outcome.Nothing) :
      NextRule v s (.run faults)
        { s with curReader := reader', payloadBuf := payload', pc := .register } none
  | activeTail {faults : ReadFaults} (hpc : s.pc = .corrupt)
      (hseg : v.head.segmentId = s.curSegmentId) (hoff : v.head.byteOffset ≤ s.curByteOffset) :
      NextRule v s (.run faults) { s with pc := .register } none
  | poison {faults : ReadFaults} (hpc : s.pc = .corrupt)
      (hhead : v.head.segmentId = s.curSegmentId → s.curByteOffset < v.head.byteOffset) :
      NextRule v s (.run faults) { s with pc := .skip } none
  | unreadablePrefix {faults : ReadFaults} (hpc : s.pc = .skip)
      (hlen : readLenPrefix v.segments s.curSegmentId s.curByteOffset faults = none) :
      NextRule v s (.run faults) { s with pc := .register } none
  | tooLong {faults : ReadFaults} {len : ℕ} (hpc : s.pc = .skip)
      (hlen : readLenPrefix v.segments s.curSegmentId s.curByteOffset faults = some len)
      (hmax : maxSkipBytes < len) :
      NextRule v s (.run faults) { s with pc := .register } none
  | skip {faults : ReadFaults} {len : ℕ} (hpc : s.pc = .skip)
      (hlen : readLenPrefix v.segments s.curSegmentId s.curByteOffset faults = some len)
      (hmax : len ≤ maxSkipBytes) :
      NextRule v s (.run faults)
        (startRead { s with curByteOffset := s.curByteOffset + (4 + len) }) none
  | register {faults : ReadFaults} (hpc : s.pc = .register) :
      NextRule v s (.run faults) { s with pc := .loadHead v.notifications } none
  | nextSegment {faults : ReadFaults} {seen : ℕ}
      (hpc : s.pc = .loadHead seen ∨ s.pc = .reloadHead seen)
      (hhead : s.curSegmentId < v.head.segmentId) : NextRule v s (.run faults) s.nextSegment none
  | ahead {faults : ReadFaults} {seen : ℕ} (hpc : s.pc = .loadHead seen)
      (hseg : v.head.segmentId = s.curSegmentId) (hoff : s.curByteOffset < v.head.byteOffset) :
      NextRule v s (.run faults) s.startRead none
  | atHead {faults : ReadFaults} {seen : ℕ} (hpc : s.pc = .loadHead seen)
      (hseg : v.head.segmentId ≤ s.curSegmentId)
      (hoff : v.head.segmentId = s.curSegmentId → v.head.byteOffset ≤ s.curByteOffset) :
      NextRule v s (.run faults) { s with pc := .checkClosed seen } none
  | closed {faults : ReadFaults} {seen : ℕ} (hpc : s.pc = .checkClosed seen)
      (hgone : v.writerGone = true) :
      NextRule v s (.run faults) { s with pc := .reloadHead seen } none
  | parks {faults : ReadFaults} {seen : ℕ} (hpc : s.pc = .checkClosed seen)
      (hgone : v.writerGone = false) : NextRule v s (.run faults) { s with pc := .park seen } none
  | reloadAhead {faults : ReadFaults} {seen : ℕ} (hpc : s.pc = .reloadHead seen)
      (hseg : v.head.segmentId ≤ s.curSegmentId) (hoff : s.curByteOffset < v.head.byteOffset) :
      NextRule v s (.run faults) s.startRead none
  | ended {faults : ReadFaults} {seen : ℕ} (hpc : s.pc = .reloadHead seen)
      (hseg : v.head.segmentId ≤ s.curSegmentId) (hoff : v.head.byteOffset ≤ s.curByteOffset) :
      NextRule v s (.run faults) { s with pc := .ended } none
  | notified {faults : ReadFaults} {seen : ℕ} (hpc : s.pc = .park seen)
      (hseen : seen < v.notifications) : NextRule v s (.run faults) s.startRead none
  | dropRead {reader : Option ℕ} {payload : Bytes} (hpc : s.pc = .readOne reader payload) :
      NextRule v s .drop { s with pc := .ready } none
  | dropSkip (hpc : s.pc = .skip) : NextRule v s .drop { s with pc := .ready } none
  | dropPark {seen : ℕ} (hpc : s.pc = .park seen) : NextRule v s .drop { s with pc := .ready } none

variable {bc} {v : WalView} {s s' : Subscription} {l : NextLabel} {entry : Option WalEntry}

lemma afterRead_of_nothing {outcome : ReadOutcome} (hout : outcome.Nothing) (reader : Option ℕ)
    (payload : Bytes) :
    s.afterRead (outcome, reader, payload) =
      ({ s with curReader := reader, payloadBuf := payload, pc := .register }, none) := by
  cases outcome with
  | record | corrupt => cases hout
  | notFound | openError | seekError | eof => rfl

/-- Every step of `next` is by one of the rules. -/
theorem NextRule.of_step (h : s.step bc v l = some (s', entry)) : NextRule bc v s l s' entry := by
  cases l with
  | drop =>
    simp only [step] at h
    split at h
    · cases h
      exact .dropRead ‹_›
    · cases h
      exact .dropSkip ‹_›
    · cases h
      exact .dropPark ‹_›
    · cases h
  | run faults =>
    simp only [step] at h
    cases hpc : s.pc with
    | ready =>
      simp only [hpc] at h
      cases h
      exact .ready hpc
    | readOne reader payload =>
      simp only [hpc, Option.some.injEq] at h
      generalize hread : SmarthomeIngest.readOne bc v.segments s.curSegmentId s.curByteOffset
        reader payload faults = r at h
      obtain ⟨outcome, reader', payload'⟩ := r
      cases outcome with
      | record event n =>
        cases h
        exact .record hpc hread
      | corrupt e =>
        cases h
        exact .corrupt hpc hread
      | notFound | openError | seekError | eof =>
        cases h
        exact .nothing hpc hread trivial
    | corrupt =>
      simp only [hpc] at h
      cases h
      split_ifs with htail
      · exact .activeTail hpc htail.1 htail.2
      · exact .poison hpc fun hseg => not_le.mp fun hoff => htail ⟨hseg, hoff⟩
    | skip =>
      simp only [hpc] at h
      split at h
      · cases h
        exact .unreadablePrefix hpc ‹_›
      · split_ifs at h with hmax
        · cases h
          exact .tooLong hpc ‹_› hmax
        · cases h
          exact .skip hpc ‹_› (not_lt.mp hmax)
    | register =>
      simp only [hpc] at h
      cases h
      exact .register hpc
    | loadHead seen =>
      simp only [hpc] at h
      split_ifs at h with hseg hahead
      · cases h
        exact .nextSegment (.inl hpc) hseg
      · cases h
        exact .ahead hpc hahead.1 hahead.2
      · cases h
        exact .atHead hpc (not_lt.mp hseg) fun heq => not_lt.mp fun hoff => hahead ⟨heq, hoff⟩
    | checkClosed seen =>
      simp only [hpc] at h
      cases h
      split_ifs with hgone
      · exact .closed hpc hgone
      · exact .parks hpc (Bool.eq_false_iff.mpr hgone)
    | reloadHead seen =>
      simp only [hpc] at h
      split_ifs at h with hseg hoff
      · cases h
        exact .nextSegment (.inr hpc) hseg
      · cases h
        exact .reloadAhead hpc (not_lt.mp hseg) hoff
      · cases h
        exact .ended hpc (not_lt.mp hseg) (not_lt.mp hoff)
    | park seen =>
      simp only [hpc] at h
      split_ifs at h with hseen
      cases h
      exact .notified hpc hseen
    | ended => simp only [hpc, reduceCtorEq] at h

/-- A step stays in the segment, or goes to the next one and returns nothing. -/
lemma curSegmentId_of_step (h : s.step bc v l = some (s', entry)) :
    s'.curSegmentId = s.curSegmentId ∨ s'.curSegmentId = s.curSegmentId + 1 ∧ entry = none := by
  cases NextRule.of_step h with
  | nextSegment => exact .inr ⟨rfl, rfl⟩
  | _ => exact .inl rfl

/-- The loop is stuck only in a wait, or behind its end. -/
lemma isSome_step (hpark : ∀ seen, s.pc ≠ .park seen) (hend : s.pc ≠ .ended) :
    (s.step bc v (.run {})).isSome := by
  cases hpc : s.pc with
  | park seen => exact absurd hpc (hpark seen)
  | ended => exact absurd hpc hend
  | ready | readOne | corrupt | register | checkClosed => simp [Subscription.step, hpc]
  | loadHead | reloadHead =>
    simp only [Subscription.step, hpc]
    split_ifs <;> rfl
  | skip =>
    simp only [Subscription.step, hpc]
    split
    · rfl
    · split_ifs <;> rfl

end Subscription

end SmarthomeIngest
