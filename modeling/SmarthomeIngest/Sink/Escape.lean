import SmarthomeIngest.Lib.Escape
import SmarthomeIngest.Sink.Point

/-!
# Escaping in one pass

The escaping functions replace one character after the other in the whole text. They replace
backslashes first, so that the later replacements leave alone what the earlier ones have put in, and
the result is that of a single pass.
-/

namespace SmarthomeIngest

/-- The function escapes the separators and the backslash, all in one pass, and what it makes of a
text can be told apart and read back. -/
structure EscapesInOnePass (esc : String → String) (separators : List Char) : Prop where
  onePass : ∀ s, esc s = Text.escape (separators ++ ['\\']) s
  injective : Function.Injective esc
  unescape : ∀ s, Text.unescape (esc s) = s
  guarded : ∀ s, Text.Guarded separators (esc s)

lemma EscapesInOnePass.of_onePass {esc : String → String} {separators : List Char}
    (hne : '\\' ∉ separators) (h : ∀ s, esc s = Text.escape (separators ++ ['\\']) s) :
    EscapesInOnePass esc separators := by
  obtain rfl : esc = Text.escape (separators ++ ['\\']) := funext h
  have hback : '\\' ∈ separators ++ ['\\'] := List.mem_append_right _ List.mem_cons_self
  refine ⟨h, Text.escape_injective hback, Text.unescape_escape hback, ?_⟩
  exact Text.guarded_escape hback fun c hc =>
    ⟨List.mem_append_left _ hc, fun heq => hne (heq ▸ hc)⟩

/-- Each of the escaping functions, with the separators of its place in a line. -/
theorem escapesInOnePass :
    EscapesInOnePass escMeasurement [' ', ','] ∧ EscapesInOnePass escTagKey [' ', '=', ','] ∧
      EscapesInOnePass escTagValue [' ', '=', ','] ∧
      EscapesInOnePass escFieldKey [' ', '=', ','] ∧ EscapesInOnePass escStringField ['"'] := by
  have hkey : EscapesInOnePass escTagKey [' ', '=', ','] := .of_onePass (by decide) escTagKey_eq
  refine ⟨.of_onePass (by decide) escMeasurement_eq, hkey, hkey, hkey, ?_⟩
  exact .of_onePass (by decide) escStringField_eq

end SmarthomeIngest
