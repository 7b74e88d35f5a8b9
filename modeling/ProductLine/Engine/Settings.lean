/- # Settings — which normalizer to use -/
import ProductLine.Engine.Command
import ProductLine.Engine.Normalizer

namespace ProductLine

inductive EngineKind where
  | builtin
  | command
deriving DecidableEq

namespace EngineKind

def name : EngineKind → String
  | builtin => "builtin"
  | command => "command"

def ofName? (name : String) : Option EngineKind :=
  [builtin, command].find? fun kind => kind.name == name

end EngineKind

inductive SettingsFault where
  | missingProgram
  | zeroTimeout
deriving DecidableEq

def SettingsFault.message : SettingsFault → String
  | missingProgram => "the command engine needs a program to run"
  | zeroTimeout => "timeout must be positive"

/-- The choice of an engine and of its limits. -/
structure Settings where
  engine : EngineKind := .builtin
  program : Option String := none
  arguments : List String := []
  timeout : Duration := Normalizer.defaultTimeout
  maxClauses : Nat := Cnf.defaultMaxClauses
deriving DecidableEq

/-- The normalizer of the settings.  The timeout is looked at first. -/
def Settings.normalizer {m : Type → Type} [Monad m] (s : Settings) (host : Host m)
    (tickets : TicketBook) : Except SettingsFault (Normalizer m) :=
  if s.timeout.micros = 0 then
    .error .zeroTimeout
  else
    match s.engine, s.program with
    | .builtin, _ => .ok ⟨.builtin s.maxClauses {}, s.timeout, tickets⟩
    | .command, some program =>
      .ok ⟨.command host program s.arguments false, s.timeout, tickets⟩
    | .command, none => .error .missingProgram

end ProductLine
