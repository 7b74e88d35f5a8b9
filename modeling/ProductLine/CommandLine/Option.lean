/- # Options — what the words of a command line can be

The program has three verbs.  Some options belong to all of them and may
stand before the verb as well as after it; the others belong to the verb
`compile`.
-/
import ProductLine.Engine.Settings
import ProductLine.Export.Format

namespace ProductLine.CommandLine

inductive Verb where
  | compile
  | check
  | normalize
deriving DecidableEq

def Verb.word : Verb → String
  | compile => "compile"
  | check => "check"
  | normalize => "normalize"

/-- The verb with that word, which is not to be abbreviated. -/
def Verb.ofWord? (word : String) : Option Verb :=
  [Verb.compile, .check, .normalize].find? fun verb => verb.word == word

inductive Opt where
  | engine
  | engineCommand
  | engineArg
  | timeoutMs
  | maxClauses
  | name
  | outDir
  | file (format : ExportFormat)
deriving DecidableEq

namespace Opt

def word : Opt → String
  | engine => "engine"
  | engineCommand => "engine-command"
  | engineArg => "engine-arg"
  | timeoutMs => "timeout-ms"
  | maxClauses => "max-clauses"
  | name => "name"
  | outDir => "out-dir"
  | file format => format.name

def shared : List Opt := [engine, engineCommand, engineArg, timeoutMs, maxClauses]

def admitted : Option Verb → List Opt
  | some .compile => shared ++ [name, outDir] ++ ExportFormat.all.map file
  | _ => shared

/-- The value may start with a hyphen. -/
def takesHyphens (o : Opt) : Bool := o == engineArg

/-- The option may be given more than once. -/
def isRepeatable (o : Opt) : Bool := o == engineArg

/-- The option may be given without a value. -/
def isValueOptional : Opt → Bool
  | file _ => true
  | _ => false

end Opt

/-! ## Values -/

/-- The largest number that can be given: 64 bits, all of them set. -/
def maxNumber : Nat := 0xFFFFFFFFFFFFFFFF

/-- A number in decimal, after at most one `+`. -/
def number? (text : String) : Option Nat :=
  let digits := match text.toList with
    | '+' :: rest => rest
    | cs => cs
  if digits.isEmpty || !digits.all Char.isDigit then
    none
  else
    let n := digits.foldl (fun n c => 10 * n + (c.toNat - '0'.toNat)) 0
    if n ≤ maxNumber then some n else none

/-- The option admits the value.  A path is never empty. -/
def Opt.admits (value : String) : Opt → Bool
  | .engine => (EngineKind.ofName? value).isSome
  | .engineCommand | .outDir | .file _ => !value.isEmpty
  | .timeoutMs | .maxClauses => (number? value).isSome
  | .engineArg | .name => true

def Verb.admits (value : String) : Verb → Bool
  | .compile | .check => !value.isEmpty
  | .normalize => true

end ProductLine.CommandLine
