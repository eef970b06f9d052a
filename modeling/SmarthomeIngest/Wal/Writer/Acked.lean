import SmarthomeIngest.Wal.Entries
import SmarthomeIngest.Wal.Writer.Acks
import SmarthomeIngest.Wal.Writer.Logged

/-!
# Acknowledged entries

The entries whose durable append has been answered `Ok`. Every frame of theirs is in its file, and so
a reader of the log finds the entry there.
-/

namespace SmarthomeIngest

open Transition

/-- The entries of the records whose ack has been answered `Ok`. -/
def Writer.ackedEntries (s : Writer) : List WalEntry :=
  (s.records.filter fun r => decide (∃ id ∈ r.request.durableAck, (id, .ok) ∈ s.acks)).map
    Record.entry

variable {bc : Bincode} {segmentBytes : ℕ} {base : Segments} {start pos : WalOffset}

namespace Writer

variable {s s' : Writer} {l : WriterLabel} {r r' : Record} {id : ℕ} {e : WalEntry}

lemma mem_ackedEntries : e ∈ s.ackedEntries ↔
    ∃ r ∈ s.records, (∃ id, r.request.durableAck = some id ∧ (id, .ok) ∈ s.acks) ∧ r.entry = e := by
  simp [ackedEntries, and_assoc]

lemma sublist_encodedFrames (reqs : List WriteRequest) :
    ((encodedFrames bc reqs).map Prod.fst).Sublist reqs := by
  induction reqs with
  | nil => exact .slnil
  | cons req reqs ih =>
    rw [← List.singleton_append, encodedFrames_append, List.map_append]
    cases h : encodeInto bc req.event with
    | error e =>
      rw [encodedFrames_of_error h]
      exact ih.cons req
    | ok frame =>
      rw [encodedFrames_of_ok h]
      exact ih.cons_cons req

/-- The records are those of requests that the writer has taken, in that order. -/
lemma records_sublist_taken (hi : Inv bc segmentBytes base start s.pc s) :
    (s.records.map Record.request).Sublist s.taken := by
  have hwritten := congrArg (List.map Prod.fst) hi.written
  rw [List.map_map] at hwritten
  exact hwritten ▸ sublist_encodedFrames s.taken

/-- Every ack is asked for once. -/
lemma nodup_ackIds (ha : Accounted s.pc s) : (s.sent.filterMap WriteRequest.durableAck).Nodup :=
  List.nodup_iff_count_le_one.mpr ha.sent_nodup

/-- So it belongs to one element of a list whose requests are those sent. -/
lemma eq_of_durableAck {α : Type} {f : α → WriteRequest} {xs : List α}
    (ha : Accounted s.pc s) (hxs : (xs.map f).Sublist s.sent) {x y : α} (hx : x ∈ xs) (hy : y ∈ xs)
    (h : (f x).durableAck = some id) (h' : (f y).durableAck = some id) : x = y := by
  have hnodup : (xs.filterMap fun x => (f x).durableAck).Nodup := by
    have hids := hxs.filterMap WriteRequest.durableAck
    rw [List.filterMap_map] at hids
    exact hids.nodup (nodup_ackIds ha)
  by_contra hne
  have hsymm : Std.Symm fun a b : α => ∀ i, (f a).durableAck = some i →
      ∀ j, (f b).durableAck = some j → i ≠ j :=
    ⟨fun a b hab i hi j hj hij => hab j hj i hi hij.symm⟩
  exact (List.pairwise_filterMap.mp hnodup).forall hx hy hne id h id h' rfl

/-- The records are those of requests that were sent. -/
lemma records_sublist_sent (hi : Inv bc segmentBytes base start s.pc s) :
    (s.records.map Record.request).Sublist s.sent := by
  obtain ⟨rest, hsplit, -⟩ := hi.queueOrder
  refine (records_sublist_taken hi).trans ?_
  rw [← hsplit, List.append_assoc]
  exact List.sublist_append_left _ _

lemma record_unique (hi : Inv bc segmentBytes base start s.pc s) (ha : Accounted s.pc s)
    (hr : r ∈ s.records) (hr' : r' ∈ s.records) (h : r.request.durableAck = some id)
    (h' : r'.request.durableAck = some id) : r = r' :=
  eq_of_durableAck ha (records_sublist_sent hi) hr hr' h h'

/-- `Ok` stands for the entry of the event that was sent with the ack. -/
lemma exists_entry_of_ack (hi : Inv bc segmentBytes base start s.pc s) (ha : Accounted s.pc s)
    (hs : AcksSound s) {req : WriteRequest} (hreq : req ∈ s.sent)
    (hack : req.durableAck = some id) (hok : (id, .ok) ∈ s.acks) :
    ∃ e ∈ s.ackedEntries, e.event = req.event := by
  obtain ⟨r, hr, hack', -⟩ := hs.acked id hok
  have hsent := (records_sublist_sent hi).subset (List.mem_map_of_mem hr)
  have heq : r.request = req :=
    eq_of_durableAck (f := fun req => req) ha (by simp) hsent hreq hack' hack
  exact ⟨r.entry, mem_ackedEntries.mpr ⟨r, hr, ⟨_, hack', hok⟩, rfl⟩,
    congrArg WriteRequest.event heq⟩

/-- Answers stay. -/
lemma acks_prefix_of_step (h : Writer.step bc segmentBytes s l = some s') : s.acks <+: s'.acks := by
  cases WriterRule.of_step h with
  | periodicAck | rotateAck | finalAck | encodeError | dropRx | finalFlushError =>
    exact List.prefix_append _ _
  | rotateFlushError | openNextError | writeError =>
    exact (List.prefix_append _ _).trans (List.prefix_append _ _)
  | _ => exact List.prefix_rfl

/-- An acknowledged entry stays one. -/
lemma ackedEntries_of_step (h : Writer.step bc segmentBytes s l = some s') :
    ∀ e ∈ s.ackedEntries, e ∈ s'.ackedEntries := by
  intro e he
  obtain ⟨r, hr, ⟨id, hack, hok⟩, rfl⟩ := mem_ackedEntries.mp he
  exact mem_ackedEntries.mpr ⟨r, (records_of_step h).subset hr,
    ⟨id, hack, (acks_prefix_of_step h).subset hok⟩, rfl⟩

/-- The frame of an acknowledged entry is in its file. -/
lemma in_of_acked (hi : Inv bc segmentBytes base start s.pc s) (ha : Accounted s.pc s)
    (hs : AcksSound s) (hr : r ∈ s.records) (hack : r.request.durableAck = some id)
    (hok : (id, .ok) ∈ s.acks) : r.In (s.segments.content r.segmentId) := by
  obtain ⟨r', hr', hack', hin⟩ := hs.acked id hok
  rwa [record_unique hi ha hr hr' hack hack']

end Writer

end SmarthomeIngest
