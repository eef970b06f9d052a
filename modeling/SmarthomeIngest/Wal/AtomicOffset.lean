import SmarthomeIngest.Lib.Seqlock.Linearizable
import SmarthomeIngest.Wal.Types

/-!
# The shared head

`AtomicWalOffset` is a sequence lock over the two halves of an offset, with a `u64` for the counter.
The writer thread stores the head in it, and the subscriptions load it.
-/

namespace SmarthomeIngest

open Transition

/-- `version`: raised by `fetch_add(1)`, which wraps around, and tested by `& 1`. -/
def versionCounter : Seqlock.Counter UInt64 where
  zero := 0
  next := (· + 1)
  busy version := version &&& 1 == 1

/-- The first word is `segment_id`, the second one `byte_offset`. -/
abbrev AtomicWalOffset := Seqlock.State UInt64 ℕ ℕ

namespace AtomicWalOffset

def new (offset : WalOffset) : AtomicWalOffset :=
  Seqlock.init versionCounter offset.segmentId offset.byteOffset

/-- The next operation of `store` in the writer thread, or of `load` in a reader. -/
def step : AtomicWalOffset → Seqlock.Label ℕ ℕ → Option AtomicWalOffset :=
  Seqlock.step versionCounter

/-- The offsets that the loads of a reader have returned. -/
def loads (s : AtomicWalOffset) (r : ℕ) : List WalOffset :=
  (s.returned r).map fun (segmentId, byteOffset) => ⟨segmentId, byteOffset⟩

/-- The offsets that a run stores. -/
def stores (ls : List (Seqlock.Label ℕ ℕ)) : List WalOffset :=
  (Seqlock.arguments ls).map fun (segmentId, byteOffset) => ⟨segmentId, byteOffset⟩

/-- Fewer than `2 ^ 64` increments of the version during one load. -/
def Few : AtomicWalOffset → Seqlock.Label ℕ ℕ → Prop := Seqlock.Few (2 ^ 64)

end AtomicWalOffset

/-! ### The counter -/

lemma at_versionCounter (n : ℕ) : versionCounter.at n = UInt64.ofNat n := by
  induction n with
  | zero => rfl
  | succ n ih =>
    rw [← Seqlock.Counter.at_succ, ih]
    exact (UInt64.ofNat_add n 1).symm

lemma lawful_versionCounter : versionCounter.Lawful (2 ^ 64) where
  busy_iff n := by
    rw [at_versionCounter, versionCounter, beq_iff_eq, ← UInt64.toNat_inj, UInt64.toNat_and,
      UInt64.toNat_ofNat']
    show n % 2 ^ 64 &&& 1 = 1 ↔ _
    rw [Nat.and_one_is_mod, Nat.odd_iff]
    omega
  eq_of_at_eq m n hle hlt h := by
    rw [at_versionCounter, at_versionCounter, ← UInt64.toNat_inj, UInt64.toNat_ofNat',
      UInt64.toNat_ofNat'] at h
    omega

/-! ### Runs -/

namespace AtomicWalOffset

/-- In every run, whoever moves when, what the loads of a reader return are the initial offset and
stored ones, none torn and none older than the one before. -/
theorem loads_of_run {offset : WalOffset} {ls : List (Seqlock.Label ℕ ℕ)} {s : AtomicWalOffset}
    (h : exec step (new offset) ls = some s) (hfew : Always step Few (new offset) ls) (r : ℕ) :
    ∃ ks : List ℕ, ks.Pairwise (· ≤ ·) ∧
      List.Forall₂ (fun k v => (offset :: stores ls)[k]? = some v) ks (s.loads r) := by
  obtain ⟨ks, hsorted, hplaces⟩ :=
    Seqlock.selects_of_reach lawful_versionCounter (.of_exec hfew h) r
  have hstored : s.stored = (offset.segmentId, offset.byteOffset) :: Seqlock.arguments ls :=
    Seqlock.stored_of_exec h
  refine ⟨ks, hsorted, List.forall₂_map_right_iff.mpr (hplaces.imp fun k v hk => ?_)⟩
  rw [hstored] at hk
  have hmap := congrArg (Option.map fun (p : ℕ × ℕ) => (⟨p.1, p.2⟩ : WalOffset)) hk
  rwa [← List.getElem?_map] at hmap

/-- A load that a store overtakes: the reader starts over and returns the new offset. -/
theorem loads_of_overtaken :
    ∃ s : AtomicWalOffset, exec step (new ⟨1, 0⟩)
        [.load 0, .load 0, .store 2 29, .write, .load 0, .write, .write, .load 0,
          .load 0, .load 0, .load 0, .load 0] = some s ∧ s.loads 0 = [⟨2, 29⟩] ∧
      ∃ ks : List ℕ, ks.Pairwise (· ≤ ·) ∧
        List.Forall₂ (fun k v => [(⟨1, 0⟩ : WalOffset), ⟨2, 29⟩][k]? = some v) ks (s.loads 0) := by
  obtain ⟨s, hrun, hloads⟩ : ∃ s : AtomicWalOffset, exec step (new ⟨1, 0⟩)
      [.load 0, .load 0, .store 2 29, .write, .load 0, .write, .write, .load 0,
        .load 0, .load 0, .load 0, .load 0] = some s ∧ s.loads 0 = [⟨2, 29⟩] := ⟨_, rfl, rfl⟩
  refine ⟨s, hrun, hloads, loads_of_run hrun ?_ 0⟩
  unfold Few
  decide +kernel

/-! ### Linearizability -/

/-- What takes effect in a run: a store with its second step of the version, a load with the one that
finds the version unchanged. -/
def effects (offset : WalOffset) (ls : List (Seqlock.Label ℕ ℕ)) : List (Register.Op WalOffset) :=
  (Seqlock.effects versionCounter (new offset) ls).map
    (Register.Op.map fun (segmentId, byteOffset) => ⟨segmentId, byteOffset⟩)

/-- In every run, whoever moves when, the loads return what the reads of an atomic register return
when the stores and loads are made one after the other, each at one of its own operations; and
while no store is under way the two words hold its value. -/
theorem linearizable_of_run {offset : WalOffset} {ls : List (Seqlock.Label ℕ ℕ)}
    {s : AtomicWalOffset} (h : exec step (new offset) ls = some s)
    (hfew : Always step Few (new offset) ls) :
    ∃ value : WalOffset, (Register.init offset).run (effects offset ls) = ⟨value, s.loads⟩ ∧
      (s.writer = .idle → value = ⟨s.fst, s.snd⟩) := by
  have hinit := Seqlock.Inv.init versionCounter offset.segmentId offset.byteOffset
  have hshows := Seqlock.shows_of_exec lawful_versionCounter hinit (Seqlock.shows_init _ _ _) hfew h
  have hinv : Seqlock.Inv versionCounter s := (Reach.of_exec hfew h).invariant hinit
    fun _ _ _ hs hl hstep => hs.step lawful_versionCounter hl hstep
  let toOffset : ℕ × ℕ → WalOffset := fun p => ⟨p.1, p.2⟩
  have hrun := Register.run_map toOffset (.init (offset.segmentId, offset.byteOffset))
    (Seqlock.effects versionCounter (new offset) ls)
  refine ⟨toOffset ((Register.init (offset.segmentId, offset.byteOffset)).run
    (Seqlock.effects versionCounter (new offset) ls)).value, hrun.trans ?_, fun hw => ?_⟩
  · exact congrArg (Register.mk _) (funext fun r =>
      congrArg (List.map toOffset) (congrFun hshows.returned r))
  · exact congrArg toOffset (hshows.value_of_idle hinv hw)

/-- Two readers, the second one of which begins before a store is done and ends behind it. -/
theorem linearizable_of_two :
    ∃ s : AtomicWalOffset, ∃ value : WalOffset,
      exec step (new ⟨1, 0⟩) [.load 1, .store 2 29, .load 0, .write, .write, .load 1, .load 1,
        .write, .load 0, .load 1, .load 0, .load 0, .load 0, .load 1, .load 1, .load 1, .load 1] =
        some s ∧
      (Register.init ⟨1, 0⟩).run [.write ⟨2, 29⟩, .read 0, .read 1] = ⟨value, s.loads⟩ ∧
      s.loads 1 = [⟨2, 29⟩] := by
  obtain ⟨s, hexec, hloads⟩ : ∃ s : AtomicWalOffset, exec step (new ⟨1, 0⟩)
      [.load 1, .store 2 29, .load 0, .write, .write, .load 1, .load 1, .write, .load 0, .load 1,
        .load 0, .load 0, .load 0, .load 1, .load 1, .load 1, .load 1] = some s ∧
      s.loads 1 = [⟨2, 29⟩] := ⟨_, rfl, rfl⟩
  obtain ⟨value, hrun, -⟩ := linearizable_of_run hexec (by unfold Few; decide +kernel)
  exact ⟨s, value, hexec, hrun, hloads⟩

end AtomicWalOffset

end SmarthomeIngest
