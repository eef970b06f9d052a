import SmarthomeIngest.Lib.Text
import SmarthomeIngest.Message.Json
import Mathlib.Data.List.Sort

/-!
# Points

Points and their line protocol.
-/

namespace SmarthomeIngest

variable {F : Type}

inductive FieldValue (F : Type) where
  | float (x : F)
  | int (i : Int64)
  | uint (n : UInt64)
  | bool (b : Bool)
  | str (s : String)
  deriving DecidableEq

/-- A float is finite. -/
def FieldValue.Finite [F64 F] : FieldValue F → Prop
  | .float x => F64.isFinite x = true
  | _ => True

structure Point (F : Type) where
  measurement : String
  tags : List (String × String)
  fields : List (String × FieldValue F)
  timestampMs : Option Int64
  deriving DecidableEq

/-! ### Escaping -/

def escMeasurement (s : String) : String :=
  Text.replace ' ' "\\ " (Text.replace ',' "\\," (Text.replace '\\' "\\\\" s))

def escTagKey (s : String) : String :=
  Text.replace ' ' "\\ " (Text.replace '=' "\\=" (Text.replace ',' "\\," (Text.replace '\\' "\\\\" s)))

def escTagValue (s : String) : String := escTagKey s

def escFieldKey (s : String) : String := escTagKey s

def escStringField (s : String) : String :=
  Text.replace '"' "\\\"" (Text.replace '\\' "\\\\" s)

def formatFieldValue [F64 F] : FieldValue F → String
  | .float x => F64.display x
  | .int i   => toString i.toInt ++ "i"
  | .uint n  => toString (n.toNat : ℤ) ++ "u"
  | .bool b  => if b then "true" else "false"
  | .str s   => "\"" ++ escStringField s ++ "\""

/-! ### Building and writing -/

namespace Point

/-- `Point::build(measurement)`. -/
def new (measurement : String) : Point F := ⟨measurement, [], [], none⟩

def tag (b : Point F) (key value : String) : Point F := { b with tags := b.tags ++ [(key, value)] }

/-- `field_f64`, `field_i64`, `field_u64`, `field_bool` and `field_str`. -/
def field (b : Point F) (key : String) (value : FieldValue F) : Point F :=
  { b with fields := b.fields ++ [(key, value)] }

/-- A field that is there only if its value is. -/
def optField (b : Point F) (key : String) (value : Option (FieldValue F)) : Point F :=
  match value with
  | some value => b.field key value
  | none => b

def timestamp (b : Point F) (ms : Int64) : Point F := { b with timestampMs := some ms }

/-- `build`: tags and fields sorted by their keys. -/
def build (b : Point F) : Point F :=
  { b with
    tags := b.tags.insertionSort fun s t => s.1 ≤ t.1
    fields := b.fields.insertionSort fun s t => s.1 ≤ t.1 }

variable {p : Point F}

@[simp] lemma tags_new (measurement : String) : (new measurement : Point F).tags = [] := rfl

@[simp] lemma tags_tag (key value : String) : (p.tag key value).tags = p.tags ++ [(key, value)] :=
  rfl

@[simp] lemma tags_field (key : String) (v : FieldValue F) : (p.field key v).tags = p.tags := rfl

@[simp] lemma tags_optField (key : String) (v : Option (FieldValue F)) :
    (p.optField key v).tags = p.tags := by
  cases v <;> rfl

@[simp] lemma fields_field (key : String) (v : FieldValue F) :
    (p.field key v).fields = p.fields ++ [(key, v)] := rfl

@[simp] lemma fields_optField (key : String) (v : Option (FieldValue F)) :
    (p.optField key v).fields = p.fields ++ (v.map fun w => (key, w)).toList := by
  cases v with
  | none => exact (List.append_nil _).symm
  | some w => rfl

lemma mem_tags_build {t : String × String} : t ∈ p.build.tags ↔ t ∈ p.tags :=
  List.mem_insertionSort _

lemma mem_fields_build {f : String × FieldValue F} : f ∈ p.build.fields ↔ f ∈ p.fields :=
  List.mem_insertionSort _

@[simp] lemma fields_build_eq_nil : p.build.fields = [] ↔ p.fields = [] := by
  rw [← List.length_eq_zero_iff, ← List.length_eq_zero_iff (l := p.fields)]
  exact (List.perm_insertionSort _ p.fields).length_eq.congr_left

variable [F64 F]

def writeTag (out : String) (tag : String × String) : String :=
  out ++ "," ++ escTagKey tag.1 ++ "=" ++ escTagValue tag.2

def writeField (out : String) (field : String × FieldValue F) : String :=
  out ++ escFieldKey field.1 ++ "=" ++ formatFieldValue field.2

/-- The fields, with a comma in front of each but the first. -/
def writeFields (out : String) : List (String × FieldValue F) → String
  | [] => out
  | field :: fields => fields.foldl (fun out field => writeField (out ++ ",") field)
      (writeField out field)

def writeLineProtocol (p : Point F) (out : String) : String :=
  let out := out ++ escMeasurement p.measurement
  let out := p.tags.foldl writeTag out
  let out := writeFields (out ++ " ") p.fields
  match p.timestampMs with
  | some ts => out ++ " " ++ toString ts.toInt
  | none    => out

end Point

/-! ### The chains of replacements escape in one pass -/

lemma escMeasurement_eq (s : String) : escMeasurement s = Text.escape [' ', ',', '\\'] s := by
  rw [escMeasurement, Text.replace_backslash, Text.replace_escape rfl (by decide) (by decide),
    Text.replace_escape rfl (by decide) (by decide)]

lemma escTagKey_eq (s : String) : escTagKey s = Text.escape [' ', '=', ',', '\\'] s := by
  rw [escTagKey, Text.replace_backslash, Text.replace_escape rfl (by decide) (by decide),
    Text.replace_escape rfl (by decide) (by decide),
    Text.replace_escape rfl (by decide) (by decide)]

lemma escStringField_eq (s : String) : escStringField s = Text.escape ['"', '\\'] s := by
  rw [escStringField, Text.replace_backslash, Text.replace_escape rfl (by decide) (by decide)]

end SmarthomeIngest
