import LayeredConfig.Text.Classes

/-!
# Trimming

Dropping white space at the ends of a text, and cutting it into words.
-/

namespace LayeredConfig.Text

def trimRight (p : Char → Bool) (text : List Char) : List Char :=
  (text.reverse.dropWhile p).reverse

def trim (p : Char → Bool) (text : List Char) : List Char :=
  trimRight p (text.dropWhile p)

/-- Whether a text holds nothing but white space. -/
def isAllBlank (text : List Char) : Bool := text.all isBlank

/-- The runs of characters that are not white space. -/
def words (text : List Char) : List (List Char) :=
  match _h : text.dropWhile isBlank with
  | [] => []
  | c :: rest =>
    (c :: rest.takeWhile (!isBlank ·)) :: words (rest.dropWhile (!isBlank ·))
termination_by text.length
decreasing_by
  have hdrop : (text.dropWhile isBlank).length ≤ text.length := (List.dropWhile_suffix _).length_le
  have hrest : (rest.dropWhile (!isBlank ·)).length ≤ rest.length :=
    (List.dropWhile_suffix _).length_le
  rw [_h] at hdrop
  simp only [List.length_cons] at hdrop
  omega

end LayeredConfig.Text
