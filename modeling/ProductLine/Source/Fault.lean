/- # Source faults — why a source is refused, and where

A line is refused because it is no directive, because its directive breaks a
rule of the model, or because its constraint was not converted.  The fault
of a source adds the number of the line and its text; a source that cannot
be read to its end has no line to blame.
-/
import ProductLine.Files.Fault
import ProductLine.Model.Draft

namespace ProductLine

inductive DirectiveFault where
  | unknownDirective (keyword : String)
  | invalidFeatureName (name : String)
deriving DecidableEq

def DirectiveFault.message : DirectiveFault → String
  | unknownDirective keyword => "unknown directive `" ++ keyword ++ "`"
  | invalidFeatureName name => "invalid feature name `" ++ name ++ "`, expected [A-Za-z0-9_]+"

inductive LineFault where
  | directive (fault : DirectiveFault)
  | model (fault : ModelFault)
deriving DecidableEq

def LineFault.message : LineFault → String
  | directive fault => fault.message
  | model fault => fault.message

/-- Why a source is refused: a line, counted from 1, with its text; or the source's own end. -/
inductive SourceFault where
  | line (number : Nat) (text : String) (fault : LineFault)
  | unreadable (fault : FileFault)
deriving DecidableEq

namespace SourceFault

inductive Category where
  | syntactic
  | semantic
  | engine
  | file
deriving DecidableEq

def category : SourceFault → Category
  | line _ _ (.directive _) => .syntactic
  | line _ _ (.model (.violation _)) => .semantic
  | line _ _ (.model (.engine _)) => .engine
  | unreadable _ => .file

def lineNumber? : SourceFault → Option Nat
  | line number _ _ => some number
  | unreadable _ => none

def cause : SourceFault → String
  | line _ _ fault => fault.message
  | unreadable fault => fault.message

def message : SourceFault → String
  | line number text fault =>
    "line " ++ toString number ++ ": " ++ fault.message ++ ": `" ++ text ++ "`"
  | unreadable fault => "I/O error: " ++ fault.message

end SourceFault

end ProductLine
