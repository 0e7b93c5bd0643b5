import LayeredConfig.Expansion.Directive
import LayeredConfig.Text.Split

/-!
# Substitution

One pass over a text from left to right. A placeholder whose name the directive knows is exchanged
for its replacement, which is not looked at again; after an unknown one the pass goes on right
behind the opening delimiter. An opening delimiter that is never closed ends the pass.
-/

namespace LayeredConfig

structure Substitution where
  text : List Char
  changed : Bool
  unterminated : Bool
  deriving DecidableEq, Repr

namespace Directive

def substituteChars (directive : Directive) (text : List Char) : Substitution :=
  match _hopen : Text.cut? directive.opening text with
  | none => ⟨text, false, false⟩
  | some (before, after) =>
    match _hclose : Text.cut? directive.closing after with
    | none => ⟨text, false, true⟩
    | some (name, rest) =>
      let (replacement, found) := directive.lookup (String.ofList name)
      if found then
        let tail := directive.substituteChars rest
        ⟨before ++ replacement.toList ++ tail.text, true, tail.unterminated⟩
      else
        let tail := directive.substituteChars after
        ⟨before ++ directive.opening ++ tail.text, tail.changed, tail.unterminated⟩
termination_by text.length
decreasing_by
  all_goals
    have := Text.cut?_length _hopen
    have := Text.cut?_length _hclose
    have := List.length_pos_iff.mpr directive.opening_ne
    omega

/-- One pass over a text: the result, whether anything was exchanged, whether it ended early. -/
def substitute (directive : Directive) (text : String) : String × Bool × Bool :=
  let result := directive.substituteChars text.toList
  (String.ofList result.text, result.changed, result.unterminated)

end Directive

end LayeredConfig
