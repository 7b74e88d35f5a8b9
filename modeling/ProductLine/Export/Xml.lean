/- # XML — elements and their text

An element holds either text or further elements.  How elements are written is
left to a writer, which may fail on an element.  The writer used here,
`Xml.lines`, never does: elements stand one per line, indented by two spaces per
level, and text stands on the line of its element and is kept as it is, but for
the characters that XML reserves.
-/

namespace ProductLine

/-- An element with text, or with attributes and elements. -/
inductive Xml where
  | leaf (name : String) (text : String)
  | node (name : String) (attributes : List (String × String)) (children : List Xml)

/-- Why an element could not be written. -/
structure XmlFault where
  reason : String
deriving DecidableEq

def XmlFault.message (f : XmlFault) : String :=
  "XML serialization failed: " ++ f.reason

namespace Xml

/-- A way to write elements. -/
abbrev Writer := Xml → Except XmlFault String

def escapeInText : Char → List Char
  | '<' => "&lt;".toList
  | '>' => "&gt;".toList
  | '&' => "&amp;".toList
  | c => [c]

/-- The spelling of a character in an attribute's value, which stands between double quotes. -/
def escapeInAttribute : Char → List Char
  | '"' => "&quot;".toList
  | c => escapeInText c

def escape (spell : Char → List Char) (text : String) : String :=
  String.ofList (text.toList.flatMap spell)

def attributesText (attributes : List (String × String)) : String :=
  String.join (attributes.map fun a => " " ++ a.1 ++ "=\"" ++ escape escapeInAttribute a.2 ++ "\"")

/-- The white space at the start of a line. -/
def indentation (level : Nat) : String :=
  String.ofList (List.replicate (2 * level) ' ')

mutual

def render (level : Nat) : Xml → String
  | leaf name text =>
    if text.isEmpty then
      indentation level ++ "<" ++ name ++ "/>"
    else
      indentation level ++ "<" ++ name ++ ">" ++ escape escapeInText text ++ "</" ++ name ++ ">"
  | node name attributes [] =>
    indentation level ++ "<" ++ name ++ attributesText attributes ++ "/>"
  | node name attributes (child :: children) =>
    indentation level ++ "<" ++ name ++ attributesText attributes ++ ">\n" ++
      render (level + 1) child ++ "\n" ++ renderAll (level + 1) children ++
      indentation level ++ "</" ++ name ++ ">"

/-- The lines of elements at a level, each ended by a line feed. -/
def renderAll (level : Nat) : List Xml → String
  | [] => ""
  | x :: xs => render level x ++ "\n" ++ renderAll level xs

end

def lines : Writer := fun x => .ok (render 0 x)

end Xml

end ProductLine
