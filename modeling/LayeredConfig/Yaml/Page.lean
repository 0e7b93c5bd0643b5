/-!
# Pages

A page is what has been written so far, with what the next sign needs to know: the column, whether
a space is needed, and whether the line holds nothing but indentation and signs of structure.
-/

namespace LayeredConfig.Yaml

structure Page where
  written : List Char := []
  column : Nat := 0
  /-- Whether nothing or white space stands before the next sign. -/
  spaced : Bool := true
  /-- Whether the line holds only indentation and signs of structure. -/
  fresh : Bool := true
  /-- Whether the document ends in a plain scalar, so that only a mark closes it. -/
  isOpen : Bool := false
  deriving Repr

namespace Page

/-- The longest line, where there is a choice. -/
def width : Nat := 80

def put (text : List Char) (page : Page) : Page :=
  { page with written := page.written ++ text, column := page.column + text.length }

def lineBreak (mark : Char) (page : Page) : Page :=
  { page with written := page.written ++ [mark], column := 0, spaced := true, fresh := true }

/-- Moves to a column, on a line of its own unless the present one is still free for it. -/
def moveTo (column : Nat) (page : Page) : Page :=
  let page :=
    if !page.fresh || page.column > column || (page.column == column && !page.spaced) then
      page.lineBreak '\n'
    else page
  if page.column < column then
    { page.put (List.replicate (column - page.column) ' ') with spaced := true }
  else page

/-- Writes a sign; `structural` ones leave the line free for more of them. -/
def sign (text : String) (needsSpace structural : Bool) (page : Page) : Page :=
  let text := if page.spaced || !needsSpace then text.toList else ' ' :: text.toList
  { page.put text with spaced := false, fresh := page.fresh && structural, isOpen := false }

/-- Continues a scalar in another line. -/
def continueAt (column : Nat) (page : Page) : Page :=
  { page.moveTo column with spaced := false, fresh := false }

end Page

end LayeredConfig.Yaml
