/- # Lines — cutting a text, or its bytes, into lines

A line ends at a line feed; one carriage return before that line feed
belongs to the ending.  What follows the last line feed is a line of its own
unless it is empty, and a carriage return in it is an ordinary character.

The cut is written once for any alphabet with a line feed and a carriage
return.  A source arrives either as characters or as bytes, and the two ways
can only agree if they agree on where lines end.
-/

namespace ProductLine.Text

variable {α : Type} [BEq α]

/-- The piece without one `mark` at its end. -/
def dropFinal (mark : α) (piece : List α) : List α :=
  if piece.getLast? == some mark then piece.dropLast else piece

/-- The lines of `text`, where `feed` ends a line and one `ret` before it goes with it. -/
def linesBy (feed ret : α) (text : List α) : List (List α) :=
  let pieces := text.splitOn feed
  let ended := pieces.dropLast.map (dropFinal ret)
  match pieces.getLast? with
  | none | some [] => ended
  | some last => ended ++ [last]

def lines (text : List Char) : List (List Char) :=
  linesBy '\n' '\r' text

/-- The lines of a sequence of bytes, each still to be decoded. -/
def byteLines (bytes : List UInt8) : List (List UInt8) :=
  linesBy 0x0A 0x0D bytes

/-- The lines that have ended in a sequence of bytes, and what follows the last of them. -/
def endedByteLines (bytes : List UInt8) : List (List UInt8) × List UInt8 :=
  let pieces := bytes.splitOn 0x0A
  (pieces.dropLast.map (dropFinal 0x0D), pieces.getLastD [])

def encode (text : List Char) : List UInt8 :=
  text.flatMap String.utf8EncodeChar

/-- The text that the bytes encode in UTF-8, if they do. -/
def decode? (bytes : List UInt8) : Option (List Char) :=
  (String.fromUTF8? ⟨bytes.toArray⟩).map String.toList

end ProductLine.Text
