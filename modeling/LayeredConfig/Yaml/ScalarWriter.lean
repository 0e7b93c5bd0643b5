import LayeredConfig.Yaml.Page
import LayeredConfig.Yaml.ScalarStyle

/-!
# Writing scalars

Long scalars are broken at single spaces once a line is full; a scalar in double quotes is also
broken behind an escape.
-/

namespace LayeredConfig.Yaml.Page

open Text ScalarStyle

/-- Kinds of characters that are written in one piece. -/
inductive Run
  | space
  | lineEnd
  | other
  deriving DecidableEq

def runOf (c : Char) : Run := if c == ' ' then .space else if isLineEnd c then .lineEnd else .other

/-- The longest pieces of one kind each. -/
def runs (text : List Char) : List (List Char) := text.splitBy fun a b => runOf a = runOf b

/-- Whether a line may end instead of this space. -/
def breaksAt (breakable : Bool) (run : List Char) (page : Page) : Bool :=
  breakable && run == [' '] && page.column > width

/-- A scalar as it is. -/
def plain (column : Nat) (breakable : Bool) (text : List Char) (page : Page) : Page :=
  let start := if page.spaced then page else page.put [' ']
  (runs text).foldl
    (fun page run => if breaksAt breakable run page then page.continueAt column else page.put run)
    { start with spaced := false, fresh := false }

/-- Line ends inside single quotes: the first one counts twice if it is a line feed. -/
def lineEnds (column : Nat) (run : List Char) (page : Page) : Page :=
  let start := if run.head? == some '\n' then page.lineBreak '\n' else page
  (run.foldl (fun page c => page.lineBreak c) start).moveTo column

/-- The pieces of a scalar in single quotes; the outermost ones are never broken. -/
def singleRuns (column : Nat) (breakable : Bool) (first : Bool) (page : Page) :
    List (List Char) → Page
  | [] => page
  | run :: rest =>
    let page :=
      match run.head?.map runOf with
      | some .space =>
        if breaksAt (breakable && !first && !rest.isEmpty) run page then page.moveTo column
        else page.put run
      | some .lineEnd => lineEnds column run page
      | _ => page.put (run.flatMap fun c => if c == '\'' then ['\'', '\''] else [c])
    singleRuns column breakable false page rest

/-- A scalar in single quotes. -/
def single (column : Nat) (breakable : Bool) (text : List Char) (page : Page) : Page :=
  (singleRuns column breakable true (page.sign "'" true false) (runs text)).sign "'" false false

/-- Characters with an escape of their own. -/
def namedEscapes : List (Char × Char) :=
  [('\x00', '0'), ('\x07', 'a'), ('\x08', 'b'), ('\t', 't'), ('\n', 'n'), ('\x0b', 'v'),
    ('\x0c', 'f'), ('\r', 'r'), ('\x1b', 'e'), ('"', '"'), ('\\', '\\'), ('\x85', 'N'),
    ('\u2028', 'L'), ('\u2029', 'P')]

/-- A character that stands for itself in double quotes. -/
def standsForItself (c : Char) : Bool :=
  c != '"' && c != '\\' && c != '\u2028' && c != '\u2029' && c != '\uFEFF'
    && ((' ' ≤ c && c ≤ '~') || (0xA0 ≤ c.toNat && c.toNat ≤ 0xFFFD))

/-- A character inside double quotes as an escape. -/
def escape (c : Char) : List Char :=
  match namedEscapes.lookup c with
  | some name => ['\\', name]
  | none =>
    let digits (width : Nat) : List Char := (digitsInBase 16 width c.toNat).map Char.toUpper
    if c.toNat ≤ 0xFF then '\\' :: 'x' :: digits 2
    else if c.toNat ≤ 0xFFFF then '\\' :: 'u' :: digits 4
    else '\\' :: 'U' :: digits 8

/--
The characters of a scalar in double quotes. `pending` are those that were read but not written yet,
and `first` tells whether this is the first character. Behind a full line a backslash ends it, and
another one saves a space at the beginning of the next.
-/
def doubleChars (column : Nat) (breakable first : Bool) (pending : List Char) (page : Page) :
    List Char → Page
  | [] => page.put pending
  | c :: rest =>
    let mayBreak := breakable && !first && !rest.isEmpty
    let newLine (page : Page) (next : Option Char) : Page :=
      let page := (page.put ['\\']).continueAt column
      if next == some ' ' then page.put ['\\'] else page
    if standsForItself c then
      if mayBreak && (c == ' ' || pending.isEmpty) && page.column + pending.length > width then
        doubleChars column breakable false [c] (newLine (page.put pending) (some c)) rest
      else doubleChars column breakable false (pending ++ [c]) page rest
    else
      let page := (page.put pending).put (escape c)
      let page := if mayBreak && page.column > width + 1 then newLine page rest.head? else page
      doubleChars column breakable false [] page rest

/-- A scalar in double quotes. -/
def double (column : Nat) (breakable : Bool) (text : List Char) (page : Page) : Page :=
  (doubleChars column breakable true [] (page.sign "\"" true false) text).sign "\"" false false

/-- A scalar with a tag. Lines after the first start at `column`; keys have one line. -/
def scalar (column : Nat) (isKey : Bool) (tag text : String) (page : Page) : Page :=
  match ScalarStyle.choose tag isKey text with
  | .plain => plain column (!isKey) text.toList page
  | .single => single column (!isKey) text.toList page
  | .double => double column (!isKey) text.toList page

end LayeredConfig.Yaml.Page
