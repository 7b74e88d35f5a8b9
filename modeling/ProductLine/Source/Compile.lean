/- # Compiling a source — line by line, up to the first fault

Once an `excluded` directive has been accepted, no other directive may
follow: the clause it stands for is about all features, and is written down
when the features declared so far are all there will be.
-/
import ProductLine.Source.Statement
import ProductLine.Text.Lines

namespace ProductLine

/-- Whether every directive is admitted, or, since the first exclusion, exclusions alone. -/
inductive Phase where
  | open
  | exclusionLocked
deriving DecidableEq

def Phase.text : Phase → String
  | .open => "Open"
  | .exclusionLocked => "ExclusionLocked"

/-- A draft and the phase that its source is in. -/
structure Compilation (m : Type → Type) where
  draft : Draft m
  phase : Phase := .open

namespace Compilation

variable {m : Type → Type}

def start (name : String) (normalizer : Normalizer m) : Compilation m :=
  { draft := .empty name normalizer }

/-- The phase after a directive has been accepted. -/
def phaseAfter (phase : Phase) (d : Directive) : Phase :=
  if d = .excluded then .exclusionLocked else phase

/-- Carries out a directive.  The phase is looked at before the arguments. -/
def perform [Monad m] (c : Compilation m) (d : Directive) (arguments : List Char) :
    m (Except LineFault Unit × Compilation m) :=
  if c.phase = .exclusionLocked ∧ d ≠ .excluded then
    return (.error (.model (.violation (.directiveOrder d))), c)
  else
    match Statement.edit d arguments with
    | .error fault => return (.error fault, c)
    | .ok edit => do
      match ← c.draft.apply edit with
      | (.error fault, draft) => return (.error (.model fault), { c with draft := draft })
      | (.ok (), draft) => return (.ok (), ⟨draft, phaseAfter c.phase d⟩)

def feed [Monad m] (c : Compilation m) (line : List Char) :
    m (Except LineFault Unit × Compilation m) :=
  match Statement.ofTrimmed (Text.trim line) with
  | .skipped => return (.ok (), c)
  | .unknown keyword => return (.error (.directive (.unknownDirective keyword)), c)
  | .directive d arguments => c.perform d arguments

/-- Takes in the lines from the one with that `number` on, until one is refused or cannot be read.
A line that cannot be read is given by its fault. -/
def feedLines [Monad m] (c : Compilation m) (number : Nat) :
    List (Except FileFault (List Char)) → m (Except SourceFault (Compilation m))
  | [] => return .ok c
  | .error fault :: _ => return .error (.unreadable fault)
  | .ok line :: rest => do
    match ← c.feed line with
    | (.error fault, _) => return .error (.line number (String.ofList (Text.trim line)) fault)
    | (.ok (), c) => c.feedLines (number + 1) rest

end Compilation

namespace Source

variable {m : Type → Type} [Monad m]

def compileLines (name : String) (normalizer : Normalizer m)
    (lines : List (Except FileFault (List Char))) : m (Except SourceFault Model) := do
  let result ← (Compilation.start name normalizer).feedLines 1 lines
  return result.map fun c => c.draft.model

def compileText (name : String) (normalizer : Normalizer m) (text : String) :
    m (Except SourceFault Model) :=
  compileLines name normalizer ((Text.lines text.toList).map .ok)

def decodeLine (bytes : List UInt8) : Except FileFault (List Char) :=
  match Text.decode? bytes with
  | none => .error .notUtf8
  | some line => .ok line

/-- The model of a sequence of bytes.  Each line is decoded when its turn comes, so a fault in an
earlier line goes first. -/
def compileBytes (name : String) (normalizer : Normalizer m) (bytes : List UInt8) :
    m (Except SourceFault Model) :=
  compileLines name normalizer ((Text.byteLines bytes).map decodeLine)

/-- The fault of a source that has more blocks than any file: it is too large. -/
def endless : FileFault := .ofNumber 27

/-- Goes on with a source that is read block by block, and may change meanwhile, since engines may
write to it.  `read` gives a block of what the source holds beyond so many bytes, `unfinished` is
the line that has begun; the source ends when nothing more is there.  A source that grows under the
hands of its reader need not end, so `rounds` bounds the blocks. -/
def compileRest (read : Nat → m (Except FileFault (List UInt8))) :
    (rounds : Nat) → (c : Compilation m) → (number offset : Nat) → (unfinished : List UInt8) →
    m (Except SourceFault Model)
  | 0, _, _, _, _ => return .error (.unreadable endless)
  | rounds + 1, c, number, offset, unfinished => do
    match ← read offset with
    | .error fault => return .error (.unreadable fault)
    | .ok block =>
      if block.isEmpty && unfinished.isEmpty then return .ok c.draft.model
      else
        let (lines, unfinished) :=
          if block.isEmpty then (Text.byteLines unfinished, [])
          else Text.endedByteLines (unfinished ++ block)
        match ← c.feedLines number (lines.map decodeLine) with
        | .error fault => return .error fault
        | .ok c =>
          compileRest read rounds c (number + lines.length) (offset + block.length) unfinished

/-- How often a source is asked for more at most, which is more often than any file has bytes. -/
def maxRounds : Nat := UInt64.size

def compileStream (name : String) (normalizer : Normalizer m)
    (read : Nat → m (Except FileFault (List UInt8))) : m (Except SourceFault Model) :=
  compileRest read maxRounds (.start name normalizer) 1 0 []

end Source

end ProductLine
