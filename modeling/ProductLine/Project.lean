/- # Projects — one source, any number of exports

A project reads its source once and writes its outputs one after the other.
The first fault ends it; what was written before stays written.
-/
import ProductLine.Export.Format
import ProductLine.Files.Store
import ProductLine.Source.Compile

namespace ProductLine

inductive ProjectFault where
  | source (path : String) (fault : SourceFault)
  | opening (path : String) (fault : FileFault)
  | writing (path : String) (fault : FileFault)
deriving DecidableEq

namespace ProjectFault

def message : ProjectFault → String
  | source path fault => path ++ ": " ++ fault.message
  | opening path fault => "cannot open " ++ path ++ ": " ++ fault.message
  | writing path fault => "cannot write " ++ path ++ ": " ++ fault.message

/-- The fault in words, then its causes, each of which is the cause of the one before it. -/
def chain (f : ProjectFault) : List String :=
  f.message ::
    match f with
    | source _ fault => [fault.message, fault.cause]
    | opening _ fault | writing _ fault => [fault.message]

end ProjectFault

/-- A source and the files to be made of it. -/
structure Project where
  name : String
  input : String
  outputs : List (ExportFormat × String) := []
deriving DecidableEq

namespace Project

/-- The project of a source, named after its file and without outputs. -/
def ofInput (input : String) : Project :=
  { name := Path.fileStem input, input := input }

def withOutput (p : Project) (format : ExportFormat) (path : String) : Project :=
  { p with outputs := p.outputs ++ [(format, path)] }

/-- Adds an output in its default file below a directory. -/
def withOutputIn (p : Project) (format : ExportFormat) (directory : String) : Project :=
  p.withOutput format (Path.join directory (format.defaultFile p.name))

variable {m : Type → Type} [Monad m] [FileStore m]

def attempt {α : Type} (report : FileFault → ProjectFault) (operation : m (Except FileFault α)) :
    ExceptT ProjectFault m α :=
  ExceptT.mk (Except.mapError report <$> operation)

def check (p : Project) (normalizer : Normalizer m) : ExceptT ProjectFault m Model := do
  let source ← attempt (.opening p.input) (FileStore.openFile p.input)
  ExceptT.mk (Except.mapError (.source p.input) <$>
    Source.compileStream p.name normalizer (FileStore.readBlock source))

/-- Writes one output, in a directory that is created if it is missing. -/
def writeOutput (path : String) (text : String) : ExceptT ProjectFault m Unit := do
  match (Route.ofText path).parent? with
  | some directory =>
    if !directory.isEmpty then
      attempt (.writing path) (FileStore.createDirectories directory)
  | none => pure ()
  attempt (.writing path) (FileStore.writeFile path text)

def writeOutputs (model : Model) : List (ExportFormat × String) → ExceptT ProjectFault m Unit
  | [] => pure ()
  | (format, path) :: rest => do
    writeOutput path (format.generate model)
    writeOutputs model rest

/-- Reads the source and writes every output. -/
def compile (p : Project) (normalizer : Normalizer m) : ExceptT ProjectFault m Model := do
  let model ← p.check normalizer
  writeOutputs model p.outputs
  return model

end Project

def Source.compileFile {m : Type → Type} [Monad m] [FileStore m] (path : String)
    (normalizer : Normalizer m) : m (Except SourceFault Model) := do
  match ← FileStore.openFile path with
  | .error fault => return .error (.unreadable fault)
  | .ok source =>
    Source.compileStream (Path.fileStem path) normalizer (FileStore.readBlock source)

end ProductLine
