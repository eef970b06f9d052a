import SmarthomeIngest.Lib.Bytes
import Mathlib.Data.List.AList
import Mathlib.Data.Prod.Lex

/-!
# WAL types

Offsets, events and entries of the write-ahead log, and the two formats that do not depend on the
contents of a record: the 16-byte cursor and the error of a durable append.
-/

namespace SmarthomeIngest

/-- A position in the log. The derived order compares the segment first. -/
structure WalOffset where
  segmentId : ℕ
  byteOffset : ℕ
  deriving DecidableEq, Repr

namespace WalOffset

/-- `#[derive(PartialOrd, Ord)]` on the fields in their order. -/
instance : LinearOrder WalOffset :=
  LinearOrder.lift' (fun o => toLex (o.segmentId, o.byteOffset)) fun a b h => by
    cases a
    cases b
    simpa using h

lemma le_iff {a b : WalOffset} :
    a ≤ b ↔ a.segmentId < b.segmentId ∨
      a.segmentId = b.segmentId ∧ a.byteOffset ≤ b.byteOffset :=
  Prod.Lex.le_iff

lemma lt_iff {a b : WalOffset} :
    a < b ↔ a.segmentId < b.segmentId ∨
      a.segmentId = b.segmentId ∧ a.byteOffset < b.byteOffset :=
  Prod.Lex.lt_iff

/-- `to_bytes`: both fields as big-endian `u64`. -/
def toBytes (o : WalOffset) : Bytes := Bytes.ofNatBe 8 o.segmentId ++ Bytes.ofNatBe 8 o.byteOffset

/-- `from_bytes`, on the 16 bytes of a cursor file. -/
def fromBytes (buf : Bytes) : WalOffset :=
  ⟨Bytes.toNatBe (buf.take 8), Bytes.toNatBe (buf.drop 8)⟩

/-- Both fields are `u64` values. -/
def FitsU64 (o : WalOffset) : Prop := o.segmentId < 2 ^ 64 ∧ o.byteOffset < 2 ^ 64

@[simp] lemma length_toBytes (o : WalOffset) : o.toBytes.length = 16 := by simp [toBytes]

lemma fromBytes_toBytes {o : WalOffset} (h : o.FitsU64) : fromBytes o.toBytes = o := by
  have hseg : o.segmentId < 256 ^ 8 := h.1.trans_eq (by norm_num)
  have hoff : o.byteOffset < 256 ^ 8 := h.2.trans_eq (by norm_num)
  simp [fromBytes, toBytes, Bytes.toNatBe_ofNatBe hseg, Bytes.toNatBe_ofNatBe hoff]

/-- The `Debug` text of an offset. -/
def debug (o : WalOffset) : String :=
  "WalOffset \x7b segment_id: " ++ toString o.segmentId ++ ", byte_offset: " ++
    toString o.byteOffset ++ " \x7d"

end WalOffset

/-- What a record of the log carries: the source topic, the ingest time and the sink payload. -/
structure WalEvent where
  topic : String
  tsMs : Int64
  payload : String
  deriving DecidableEq

/-- A record read back from the log: where it starts, where it ends, and its event. -/
structure WalEntry where
  offset : WalOffset
  offsetAfter : WalOffset
  event : WalEvent
  deriving DecidableEq

/-- The reason a durability-bound append failed. -/
inductive AppendDurableError where
  | full (event : WalEvent)
  | closed (event : WalEvent)
  | durability (reason : String)
  deriving DecidableEq

end SmarthomeIngest
