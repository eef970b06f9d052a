import SmarthomeIngest.Wal.Types
import SmarthomeIngest.Wal.Segment

/-!
# The log directory and its cursor

The directory holds the segment files, the cursor file and the temporary file a commit writes
before it renames it over the cursor.
-/

namespace SmarthomeIngest

/-- The files of a log directory. -/
structure WalDir where
  segments : Segments
  cursor : Option Bytes
  cursorTmp : Option Bytes

/-- `read_cursor`: a missing or empty cursor file is no cursor. -/
def readCursor (d : WalDir) : Except String (Option WalOffset) :=
  match d.cursor with
  | none => .ok none
  | some buf =>
    if buf.length = 0 then .ok none
    else if buf.length ≠ 16 then
      .error ("Invalid cursor file length: expected 16 bytes, got " ++ toString buf.length)
    else .ok (some (WalOffset.fromBytes buf))

/-- The I/O errors `write_cursor` may run into. A failed write leaves a part of the bytes. -/
inductive CursorFault where
  | create (error : String)
  | write (written : ℕ) (error : String)
  | rename (error : String)
  deriving DecidableEq

/-- `write_cursor`: the temporary file is written and renamed over the cursor. -/
def writeCursor (d : WalDir) (offset : WalOffset) :
    Option CursorFault → Except String Unit × WalDir
  | some (.create e)  => (.error e, d)
  | some (.write n e) => (.error e, { d with cursorTmp := some (offset.toBytes.take n) })
  | some (.rename e)  => (.error e, { d with cursorTmp := some offset.toBytes })
  | none => (.ok (), { d with cursor := some offset.toBytes, cursorTmp := none })

lemma readCursor_toBytes {d : WalDir} {o : WalOffset} (ho : o.FitsU64)
    (hd : d.cursor = some o.toBytes) : readCursor d = .ok (some o) := by
  simp [readCursor, hd, WalOffset.fromBytes_toBytes ho]

end SmarthomeIngest
