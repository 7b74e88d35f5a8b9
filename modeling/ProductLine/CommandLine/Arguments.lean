/- # Arguments — from the words of a command line to a job

Words are taken from left to right.  A word is an option if it starts with a
hyphen, the value of the option before it if that still wants one, a verb if
there is none yet, and otherwise the operand of the verb.  After `--` every
word is an operand.  The first word that does not fit ends the matter, and
so does asking for the version or for help.

The options before the verb and those after it are two sets: an option that
must not be repeated may stand once in each, and then the later one counts.
-/
import ProductLine.CommandLine.Option
import ProductLine.Project

namespace ProductLine.CommandLine

inductive Stop where
  | usage
  | help
  | version
deriving DecidableEq

/-- What the words on one side of the verb have given so far. -/
structure Given where
  quiet : Bool := false
  options : List (Opt × Option String) := []
  operand : Option String := none
  awaiting : Option Opt := none
  operandsOnly : Bool := false
deriving DecidableEq

namespace Given

def has (g : Given) (o : Opt) : Bool :=
  g.options.any fun given => given.1 == o

def addOption (g : Given) (o : Opt) (value : Option String) : Except Stop Given :=
  let fits := match value with
    | none => o.isValueOptional
    | some text => o.admits text
  if fits && (o.isRepeatable || !g.has o) then
    .ok { g with options := g.options ++ [(o, value)], awaiting := none }
  else
    .error .usage

/-- Gives up waiting for the value of an option. -/
def settle (g : Given) : Except Stop Given :=
  match g.awaiting with
  | none => .ok g
  | some o => g.addOption o none

/-- A word of the form `--name` or `--name=value`; its part after the hyphens is given. -/
def addLong (verb : Option Verb) (g : Given) (word : List Char) : Except Stop Given := do
  let name := String.ofList (word.takeWhile (· ≠ '='))
  let value := match word.dropWhile (· ≠ '=') with
    | [] => none
    | _ :: value => some (String.ofList value)
  match (Opt.admitted verb).find? (fun o => o.word == name), value with
  | some o, none =>
    let g ← g.settle
    return { g with awaiting := some o }
  | some o, some text =>
    let g ← g.settle
    g.addOption o (some text)
  | none, some _ => .error .usage
  | none, none =>
    match name with
    | "verbose" => g.settle
    | "quiet" =>
      let g ← g.settle
      if g.quiet then .error .usage else return { g with quiet := true }
    | "help" =>
      let _ ← g.settle
      .error .help
    | "version" =>
      let _ ← g.settle
      .error (if verb.isNone then .version else .usage)
    | _ => .error .usage

/-- The letters after a single hyphen, one switch each. -/
def addLetters (verb : Option Verb) (g : Given) : List Char → Except Stop Given
  | [] => .ok g
  | letter :: rest => do
    let name := match letter with
      | 'v' => "verbose"
      | 'q' => "quiet"
      | 'h' => "help"
      | 'V' => "version"
      | _ => ""
    let g ← g.addLong verb name.toList
    g.addLetters verb rest

def addPlain (verb : Option Verb) (g : Given) (word : String) : Except Stop Given := do
  match g.awaiting, g.operandsOnly with
  | some o, false => g.addOption o (some word)
  | _, _ =>
    let g ← g.settle
    match verb, g.operand with
    | some v, none =>
      if v.admits word then return { g with operand := some word } else .error .usage
    | _, _ => .error .usage

def add (verb : Option Verb) (g : Given) (word : String) : Except Stop Given :=
  if g.operandsOnly || (g.awaiting.any Opt.takesHyphens) then
    g.addPlain verb word
  else
    match word.toList with
    | ['-', '-'] => .ok { g with operandsOnly := true }
    | '-' :: '-' :: name => g.addLong verb name
    | '-' :: letter :: letters => g.addLetters verb (letter :: letters)
    | _ => g.addPlain verb word

def addAll (verb : Option Verb) (g : Given) (words : List String) : Except Stop Given := do
  let g ← words.foldlM (Given.add verb) g
  g.settle

/-- A word can be a verb where no value is awaited and operands alone are not announced. -/
def admitsVerb (g : Given) : Bool :=
  g.awaiting.isNone && !g.operandsOnly

def value? (g : Given) (o : Opt) : Option String :=
  (g.options.find? fun given => given.1 == o).bind Prod.snd

def values (g : Given) (o : Opt) : List String :=
  g.options.filterMap fun given => if given.1 = o then given.2 else none

end Given

/-! ## Jobs -/

inductive Task where
  | compile (project : Project)
  | check (input : String)
  | normalize (expression : String)
deriving DecidableEq

structure Job where
  settings : Settings
  task : Task
deriving DecidableEq

/-- The side of the verb whose word on a shared option counts. -/
def prevailing (before after : Given) (o : Opt) : Given :=
  if after.has o then after else before

/-- The settings that the options on both sides of the verb amount to. -/
def settings (before after : Given) : Settings :=
  let value? (o : Opt) : Option String := (prevailing before after o).value? o
  let default : Settings := {}
  { engine := ((value? .engine).bind EngineKind.ofName?).getD default.engine
    program := value? .engineCommand
    arguments := (prevailing before after .engineArg).values .engineArg
    timeout := (((value? .timeoutMs).bind number?).map Duration.ofMillis).getD default.timeout
    maxClauses := ((value? .maxClauses).bind number?).getD default.maxClauses }

def project (g : Given) (input : String) : Project :=
  let base := Project.ofInput input
  let named := match g.value? .name with
    | none => base
    | some name => { base with name := name }
  let directory := (g.value? .outDir).getD "."
  ExportFormat.all.foldl (fun p format =>
    if g.has (.file format) then
      match g.value? (.file format) with
      | some path => p.withOutput format path
      | none => p.withOutputIn format directory
    else p) named

def task (verb : Verb) (g : Given) (operand : String) : Task :=
  match verb with
  | .compile => .compile (project g operand)
  | .check => .check operand
  | .normalize => .normalize operand

def jobAfter (before : Given) (verb : Verb) (words : List String) : Except Stop Job := do
  let after ← Given.addAll (some verb) {} words
  match after.operand with
  | none => .error .usage
  | some operand => return ⟨settings before after, task verb after operand⟩

/-- What the word `help` in the place of a verb asks for. -/
def helpAbout : List String → Stop
  | [] | ["help"] => .help
  | [word] => if (Verb.ofWord? word).isSome then .help else .usage
  | _ => .usage

/-- The job of the words that follow those which gave `before`. -/
def jobFrom (before : Given) : List String → Except Stop Job
  | [] => .error .usage
  | word :: rest =>
    match before.admitsVerb, Verb.ofWord? word with
    | true, some verb => jobAfter before verb rest
    | true, none =>
      if word = "help" then .error (helpAbout rest)
      else do
        let before ← before.add none word
        jobFrom before rest
    | false, _ => do
      let before ← before.add none word
      jobFrom before rest

def job (words : List String) : Except Stop Job :=
  jobFrom {} words

end ProductLine.CommandLine
