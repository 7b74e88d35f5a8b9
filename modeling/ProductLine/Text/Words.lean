/- # Words — trimming a text and cutting it at its white space

`trim` removes white space at both ends, `words` lists the maximal runs of
other characters, `splitWord` cuts off the first of them.  All three work on
lists of characters, where "the rest of the text" is a value.
-/
import ProductLine.Text.Blank

namespace ProductLine.Text

/-- The text without the white space at its end. -/
def trimEnd (cs : List Char) : List Char :=
  (cs.reverse.dropWhile isBlank).reverse

/-- The text without the white space at its two ends. -/
def trim (cs : List Char) : List Char :=
  trimEnd (cs.dropWhile isBlank)

/-- The maximal runs of characters that are not white space, from left to right. -/
def words (cs : List Char) : List (List Char) :=
  match _h : cs.dropWhile isBlank with
  | [] => []
  | c :: rest => (c :: rest.takeWhile (!isBlank ·)) :: words (rest.dropWhile (!isBlank ·))
termination_by cs.length
decreasing_by
  have skipped := (List.dropWhile_sublist isBlank (l := cs)).length_le
  have taken := (List.dropWhile_sublist (!isBlank ·) (l := rest)).length_le
  simp only [_h, List.length_cons] at skipped
  omega

/-- The text up to its first white space, and the trimmed text after that. -/
def splitWord (cs : List Char) : List Char × List Char :=
  (cs.takeWhile (!isBlank ·), trim (cs.dropWhile (!isBlank ·)))

end ProductLine.Text
