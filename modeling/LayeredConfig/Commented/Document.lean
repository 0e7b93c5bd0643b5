import LayeredConfig.Commented.ValueForm
import LayeredConfig.Order.NumericFirst
import LayeredConfig.Tree.Basic

/-!
# Documents with comments

A document is a tree of entries with comments above them, comments behind them and values. Each
entry is laid out as

    # comment above
    key: value          # comment behind
      # comments behind, if there are several
      long value

with a hyphen in place of the key for items of a sequence. An entry on a negative level, such as the
root, contributes nothing but what is below it. Siblings are sorted: items first in their order,
then keys, numbers first.
-/

namespace LayeredConfig.Commented

open Text

/-- An entry of a document; an item of a sequence has no key. -/
inductive Entry
  | entry (level : Int) (key value : Option String) (above behind : List String)
    (below : Option (List Entry))
  deriving Repr, Inhabited

namespace Entry

def level : Entry → Int
  | entry level .. => level

def key : Entry → Option String
  | entry _ key .. => key

/-- Whether an entry comes before or with another one. -/
def inOrder (a b : Entry) : Bool :=
  match a.key, b.key with
  | none, _ => true
  | some _, none => false
  | some x, some y => Order.numericFirst x y != .gt

end Entry

/-- How documents are laid out. -/
structure Layout where
  /-- Longer values are broken; without a positive number nothing is. -/
  maxLineLength : Int := 0
  /-- The column of a comment behind a value. -/
  commentColumn : Int := 0
  /-- The columns of one level; without a positive number there are two. -/
  indentWidth : Int := 0
  deriving DecidableEq, Repr, Inhabited

namespace Layout

/-- The width of lines that are never broken. -/
def unbounded : Int := 9223372036854775807

/-- The width that is left behind `used` columns, which may reach over several lines. -/
def widthBehind (layout : Layout) (used : Nat) : Int :=
  if layout.maxLineLength ≤ 0 then unbounded
  else layout.maxLineLength - (used : Int) % layout.maxLineLength

def indent (layout : Layout) (level : Int) : String :=
  let width := if 0 < layout.indentWidth then layout.indentWidth else 2
  String.ofList (List.replicate (level * width).toNat ' ')

/-- The comments above an entry, from the first one on that is not blank. -/
def above (layout : Layout) (level : Int) (comments : List String) : String :=
  if level < 0 then ""
  else
    let texts := comments.map fun comment => (dropEnd? ['\n'] comment.toList).getD comment.toList
    match texts.dropWhile isAllBlank with
    | [] => ""
    | texts =>
      "\n" ++ String.join
        (texts.map fun text => layout.indent level ++ "# " ++ String.ofList text ++ "\n")

/-- The key or hyphen of an entry with its indentation. -/
def opening (layout : Layout) (level : Int) (key : Option String) : String :=
  layout.indent level ++ (key.elim "-" fun key => key ++ ":")

/-- The form of a value behind its key; an entry with others below it and no value has none. -/
def formBehind (layout : Layout) (opening : String) (value : Option String) (isParent : Bool) :
    ValueForm :=
  if value.isNone && isParent then { lines := [] }
  else ValueForm.of value (layout.widthBehind (opening.length - 1))

/-- The line of an entry, with a value that is a single line if at most one comment follows. -/
def mainLine (layout : Layout) (opening : String) (behind : List String) (form : ValueForm) :
    String :=
  let line :=
    match form.sign, form.lines with
    | none, [line] => if behind.length ≤ 1 then opening ++ " " ++ line else opening
    | none, _ :: _ :: _ => opening ++ " "
    | _, _ => opening
  let comment :=
    match behind with
    | [comment] =>
      let spaces := max (layout.commentColumn - line.length) 1
      String.ofList (List.replicate spaces.toNat ' ') ++ "# " ++ comment
    | _ => ""
  let sign := if behind.isEmpty then form.sign.elim "" fun sign => s!" {sign}" else ""
  line ++ comment ++ sign ++ "\n"

/-- The lines under an entry: several comments, and the lines of a value not behind its key. -/
def linesBelow (layout : Layout) (level : Int) (behind : List String) (form : ValueForm)
    (value : Option String) : List String :=
  let left := layout.indent (level + 1)
  let comments := if 1 < behind.length then behind.map ("# " ++ ·) else []
  let values :=
    if behind.length ≤ 1 && form.lines.length ≤ 1 && form.sign.isNone then []
    else
      (if behind.isEmpty then [] else form.sign.toList.map BlockSign.toText) ++
        (ValueForm.of value (layout.widthBehind left.length)).lines
  (comments ++ values).map fun line => left ++ line ++ "\n"

/-- An entry without its comments above and without what is below it. -/
def body (layout : Layout) (level : Int) (key value : Option String) (behind : List String)
    (isParent : Bool) : String :=
  let opening := layout.opening level key
  let form := layout.formBehind opening value isParent
  let main := if level < 0 then "" else layout.mainLine opening behind form
  let text := main ++ String.join (layout.linesBelow level behind form value)
  if isAllBlank text.toList then "" else text

mutual

/-- An entry with everything below it, together with its place among its siblings. -/
def entryText (layout : Layout) : Entry → String
  | .entry level key value comments behind below =>
    layout.above level comments ++ layout.body level key value behind below.isSome ++
      match below with
      | none => ""
      | some entries =>
        String.join (((entryTexts layout entries).mergeSort fun a b => a.1.inOrder b.1).map (·.2))

/-- Each entry with its text. -/
def entryTexts (layout : Layout) : List Entry → List (Entry × String)
  | [] => []
  | entry :: rest => (entry, entryText layout entry) :: entryTexts layout rest

end

/-- A document; an empty line at its beginning is left out. -/
def render (layout : Layout) (root : Entry) : String :=
  let text := layout.entryText root ++ "\n"
  "---\n" ++ String.ofList (match text.toList with
    | '\n' :: rest => rest
    | chars => chars)

end Layout

/-! ## Trees with their origins -/

mutual

/-- A tree as an entry, with the origins of each node behind it. -/
def originEntry (level : Int) (key : Option String) : Tree → Entry
  | .leaf value mark =>
    .entry level key ((value.filter fun scalar => !scalar.isNull).map Scalar.toText) []
      (originComments mark) none
  | .map [] mark | .array [] mark => .entry level key none [] (originComments mark) none
  | .map entries mark =>
    .entry level key none [] (originComments mark) (some (originEntries (level + 1) entries))
  | .array items mark =>
    .entry level key none [] (originComments mark) (some (originItems (level + 1) items))

def originEntries (level : Int) : List (String × Tree) → List Entry
  | [] => []
  | (key, child) :: rest => originEntry level (some key) child :: originEntries level rest

def originItems (level : Int) : List Tree → List Entry
  | [] => []
  | item :: rest => originEntry level none item :: originItems level rest

/-- All origins of a node in one comment. -/
def originComments (mark : Mark) : List String :=
  if mark.origins.isEmpty then [] else [", ".intercalate (mark.origins.map Origin.toText)]

end

/-- A tree as a document with the origins of its nodes. -/
def renderOrigins (tree : Tree) : String := ({} : Layout).render (originEntry (-1) none tree)

end LayeredConfig.Commented
