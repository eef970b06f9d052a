import SmarthomeIngest.Lib.Text

/-!
# Topic patterns

Topic filters with the wildcards `+` (one level) and `#` (the levels that are left).
-/

namespace SmarthomeIngest

inductive Segment where
  | lit (s : String)
  | one
  | multi
  deriving DecidableEq, Repr

structure TopicPattern where
  segments : List Segment
  /-- The position of the device id, as far as it can be told. -/
  deviceIdIndex : Option ℕ
  deriving DecidableEq

namespace TopicPattern

/-- Without surrounding white space, then without surrounding slashes. -/
def trimTopic (raw : String) : String := Text.trimMatches (· == '/') (Text.trim raw)

/-- The loop of `new` over the parts. -/
def parseSegments (raw : String) : List String → Except String (List Segment)
  | [] => .ok []
  | seg :: rest =>
    if seg = "" then .error ("topic pattern contains empty segment: '" ++ raw ++ "'")
    else if seg = "#" ∧ rest ≠ [] then
      .error ("'#' must be the last segment in topic pattern: '" ++ raw ++ "'")
    else
      (parseSegments raw rest).map fun segments =>
        (if seg = "+" then .one else if seg = "#" then .multi else .lit seg) :: segments

def new (raw : String) : Except String TopicPattern :=
  let raw := trimTopic raw
  if raw = "" then .error "topic pattern must not be empty"
  else
    let parts := Text.split '/' raw
    (parseSegments raw parts).map fun segments =>
      { segments
        deviceIdIndex :=
          match segments.findIdx? (· = .one) with
          | some i => some i
          -- the convention "smarthome/<device_id>/..." for a pattern without `+`
          | none => if 2 ≤ parts.length ∧ parts.head? = some "smarthome" then some 1 else none }

/-- The loop of `matches`, on the parts of the topic that are left. -/
def matchSegments : List Segment → List String → Bool
  | .multi :: rest, _ => rest.isEmpty
  | .one :: _, [] => false
  | .one :: segments, part :: parts => part != "" && matchSegments segments parts
  | .lit _ :: _, [] => false
  | .lit s :: segments, part :: parts => part == s && matchSegments segments parts
  | [], parts => parts.isEmpty

def «matches» (p : TopicPattern) (topic : String) : Bool :=
  matchSegments p.segments (Text.split '/' (trimTopic topic))

def deviceIdFromTopic (p : TopicPattern) (topic : String) : Option String :=
  p.deviceIdIndex.bind fun i => (Text.split '/' (trimTopic topic))[i]?

end TopicPattern

end SmarthomeIngest
