import SmarthomeIngest.Sink.Influx

/-!
# Reading line protocol

A reader of write bodies, independent of the code that writes them: a record ends at a newline
outside a quoted value, or with the body. What the escaping of keys and values is for is stated
about it: a line that was written is read back.
-/

namespace SmarthomeIngest

variable {F : Type}

/-! ### The reader -/

/-- The parts of a record in which a backslash makes the next character literal. -/
inductive LinePart where
  | measurement
  | tagKey
  | tagValue (key : String)
  | fieldKey

/-- Where the reader is in a record, with the characters of the part it is reading. -/
inductive LineMode where
  | text (part : LinePart) (acc : List Char) (escaped : Bool)
  | bare (key : String) (acc : List Char)
  | quoted (key : String) (acc : List Char) (escaped : Bool)
  | fieldEnd
  | timestamp (acc : List Char)

/-- The records read so far, the one being read, and where in it the reader is. -/
structure LineReader (F : Type) where
  records : List (Point F)
  current : Point F
  mode : LineMode

namespace LineReader

/-- In front of a record. -/
def start (records : List (Point F)) : LineReader F :=
  ⟨records, .new "", .text .measurement [] false⟩

/-- What an unescaped separator does behind a key, a tag value or the measurement. -/
def endText (p : Point F) (part : LinePart) (s : String) (c : Char) : Option (Point F × LineMode) :=
  match part, c with
  | .measurement, ',' => some ({ p with measurement := s }, .text .tagKey [] false)
  | .measurement, ' ' => some ({ p with measurement := s }, .text .fieldKey [] false)
  | .tagKey, '=' => some (p, .text (.tagValue s) [] false)
  | .tagValue key, ',' => some (p.tag key s, .text .tagKey [] false)
  | .tagValue key, ' ' => some (p.tag key s, .text .fieldKey [] false)
  | .fieldKey, '=' => some (p, .bare s [])
  | _, _ => none

def readI64 (cs : List Char) : Option Int64 :=
  (Text.readInt cs).bind fun i =>
    if -2 ^ 63 ≤ i ∧ i < 2 ^ 63 then some (Int64.ofInt i) else none

def readU64 (cs : List Char) : Option UInt64 :=
  (Text.readNat cs).bind fun n => if n < 2 ^ 64 then some (UInt64.ofNat n) else none

variable (readF64 : String → Option F)

/-- A field value that is not quoted. -/
def readBare (cs : List Char) : Option (FieldValue F) :=
  if cs = "true".toList then some (.bool true)
  else if cs = "false".toList then some (.bool false)
  else if cs.getLast? = some 'i' then (readI64 cs.dropLast).map .int
  else if cs.getLast? = some 'u' then (readU64 cs.dropLast).map .uint
  else (readF64 (String.ofList cs)).map .float

/-- The record, where one may end. -/
def finish (r : LineReader F) : Option (Point F) :=
  match r.mode with
  | .bare key acc => (readBare readF64 acc).map fun v => r.current.field key v
  | .fieldEnd => some r.current
  | .timestamp acc => (readI64 acc).map r.current.timestamp
  | _ => none

/-- What follows the value of a field. -/
def endField (records : List (Point F)) (p : Point F) : Char → Option (LineReader F)
  | ',' => some ⟨records, p, .text .fieldKey [] false⟩
  | ' ' => some ⟨records, p, .timestamp []⟩
  | '\n' => some (start (records ++ [p]))
  | _ => none

/-- One character. -/
def step (r : LineReader F) (c : Char) : Option (LineReader F) :=
  match r.mode with
  | .text part acc true => some { r with mode := .text part (acc ++ [c]) false }
  | .text part acc false =>
    if c = '\\' then some { r with mode := .text part acc true }
    else if c ∈ [',', '=', ' ', '\n'] then
      (endText r.current part (String.ofList acc) c).map fun (p, mode) =>
        { r with current := p, mode := mode }
    else some { r with mode := .text part (acc ++ [c]) false }
  | .bare key acc =>
    if acc = [] ∧ c = '"' then some { r with mode := .quoted key [] false }
    else if c ∈ [',', ' ', '\n'] then
      (r.finish readF64).bind fun p => endField r.records p c
    else some { r with mode := .bare key (acc ++ [c]) }
  | .quoted key acc true =>
    let literal := if c = '"' ∨ c = '\\' then [c] else ['\\', c]
    some { r with mode := .quoted key (acc ++ literal) false }
  | .quoted key acc false =>
    if c = '\\' then some { r with mode := .quoted key acc true }
    else if c = '"' then
      some { r with current := r.current.field key (.str (String.ofList acc)), mode := .fieldEnd }
    else some { r with mode := .quoted key (acc ++ [c]) false }
  | .fieldEnd => endField r.records r.current c
  | .timestamp acc =>
    if c = '\n' then (r.finish readF64).map fun p => start (r.records ++ [p])
    else some { r with mode := .timestamp (acc ++ [c]) }

def run (r : LineReader F) (s : String) : Option (LineReader F) := s.toList.foldlM (step readF64) r

/-- The records of a body. -/
def read (body : String) : Option (List (Point F)) :=
  if body = "" then some []
  else (run readF64 (start []) body).bind fun r => (r.finish readF64).map fun p => r.records ++ [p]

end LineReader

end SmarthomeIngest
