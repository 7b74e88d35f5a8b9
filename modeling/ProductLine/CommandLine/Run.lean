/- # Running a command line — what is printed, and the exit code

The exit code is 0 for success, 1 for a failure that is reported, 2 for a
command line that is not understood.  A failure is reported with its causes,
the outermost first.
-/
import ProductLine.CommandLine.Arguments

namespace ProductLine.CommandLine

/-- What a run of the program leaves behind, besides files. -/
structure Report where
  exitCode : Nat := 0
  output : String := ""
  errors : List String := []
deriving DecidableEq

def versionText : String := "fm-compiler 0.1.0\n"

/-- How to call the program. -/
def usageText : String :=
  "Feature model DSL compiler\n\nUsage: fmc [OPTIONS] <compile|check|normalize> ...\n"

/-- The report of a command line without a job. -/
def Stop.report : Stop → Report
  | usage => { exitCode := 2 }
  | help => { output := usageText }
  | version => { output := versionText }

def failure (errors : List String) : Report :=
  { exitCode := 1, errors := errors }

def summary (m : Model) : String :=
  String.join ([
    "name: " ++ m.name,
    "features: " ++ toString m.features.length,
    "mandatory: " ++ toString m.mandatory.length,
    "optional: " ++ toString m.optional.length,
    "alternative groups: " ++ toString m.alternatives.length,
    "constraint clauses: " ++ toString m.constraints.length].map (· ++ "\n"))

def normalizeReport (expression : String) : Except EngineFailure (List String) → Report
  | .error fault => failure ["cannot normalize `" ++ expression ++ "`", fault.message]
  | .ok clauses => { output := String.join (clauses.map (· ++ "\n")) }

variable {m : Type → Type} [Monad m] [FileStore m]

def Task.run (normalizer : Normalizer m) : Task → m Report
  | .normalize expression => do
    let (result, _) ← normalizer.normalize expression
    return normalizeReport expression result
  | .check input => do
    match ← (Project.check (.ofInput input) normalizer).run with
    | .error fault => return failure fault.chain
    | .ok model => return { output := summary model }
  | .compile project => do
    match ← (project.compile normalizer).run with
    | .error fault => return failure fault.chain
    | .ok _ => return {}

/-- Runs the program on the words of its command line. -/
def run (host : Host m) (tickets : TicketBook) (words : List String) : m Report :=
  match job words with
  | .error stop => return stop.report
  | .ok job =>
    match job.settings.normalizer host tickets with
    | .error fault => return failure [fault.message]
    | .ok normalizer => job.task.run normalizer

end ProductLine.CommandLine
