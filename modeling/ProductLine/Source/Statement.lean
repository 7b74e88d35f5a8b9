/- # Statements — what one line of a source says

White space around a line means nothing.  A line is skipped if nothing is
left or if it starts with the comment mark; otherwise its first word is a
keyword and the rest of it are the arguments.  Arguments that name features
have to be names, and the first word that is none is blamed.
-/
import ProductLine.Source.Fault
import ProductLine.Text.Words

namespace ProductLine

def commentMark : String := "%%"

/-- What a line says before its arguments are read. -/
inductive Statement where
  | skipped
  | unknown (keyword : String)
  | directive (d : Directive) (arguments : List Char)
deriving DecidableEq

namespace Statement

/-- Reads a line without white space around it. -/
def ofTrimmed (text : List Char) : Statement :=
  if text.isEmpty || commentMark.toList.isPrefixOf text then
    skipped
  else
    let (word, arguments) := Text.splitWord text
    match Directive.ofKeyword? (String.ofList word) with
    | none => unknown (String.ofList word)
    | some d => directive d arguments

def feature (word : List Char) : Except DirectiveFault Feature :=
  match Feature.ofName? (String.ofList word) with
  | none => .error (.invalidFeatureName (String.ofList word))
  | some f => .ok f

def features (arguments : List Char) : Except DirectiveFault (List Feature) :=
  (Text.words arguments).mapM feature

def singleFeature (arguments : List Char) : Except DirectiveFault Feature :=
  match Text.words arguments with
  | [word] => feature word
  | _ => .error (.invalidFeatureName (String.ofList arguments))

def edit (d : Directive) (arguments : List Char) : Except LineFault Edit :=
  let named {α : Type} (names : Except DirectiveFault α) : Except LineFault α :=
    names.mapError LineFault.directive
  match d with
  | .mandatory => (named (singleFeature arguments)).map Edit.mandatory
  | .optional => (named (singleFeature arguments)).map Edit.optional
  | .declared => (named (singleFeature arguments)).map Edit.declared
  | .constraint => .ok (.constraint (String.ofList arguments))
  | .alternative =>
    match named (features arguments) with
    | .error fault => .error fault
    | .ok [] => .error (.model (.violation (.emptyDirective .alternative)))
    | .ok (parent :: children) => .ok (.alternative parent children)
  | .excluded => (named (features arguments)).map Edit.excluded

end Statement

end ProductLine
