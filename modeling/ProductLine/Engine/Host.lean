/- # Hosts — where external programs run

A host starts a program with arguments, an environment and an input, or says
why it cannot.  A program that was started leaves its two outputs and the
way in which it ended, unless the host loses hold of it: it may fail to ask
whether the program has ended, or to keep its pipes going meanwhile.
-/
import ProductLine.Duration
import ProductLine.Files.Fault

namespace ProductLine

/-- What a program is started with, and after how long it is stopped if it has not ended. -/
structure Invocation where
  program : String
  arguments : List String
  environment : List (String × String)
  input : List UInt8
  patience : Duration
deriving DecidableEq

/-- How a program ended: by itself, with a code, or by a signal. -/
inductive ExitStatus where
  | exited (code : Nat)
  | signaled (signal : Nat)
deriving DecidableEq

namespace ExitStatus

def signalNames : List String :=
  ["SIGHUP", "SIGINT", "SIGQUIT", "SIGILL", "SIGTRAP", "SIGABRT", "SIGBUS", "SIGFPE", "SIGKILL",
    "SIGUSR1", "SIGSEGV", "SIGUSR2", "SIGPIPE", "SIGALRM", "SIGTERM", "SIGSTKFLT", "SIGCHLD",
    "SIGCONT", "SIGSTOP", "SIGTSTP", "SIGTTIN", "SIGTTOU", "SIGURG", "SIGXCPU", "SIGXFSZ",
    "SIGVTALRM", "SIGPROF", "SIGWINCH", "SIGIO", "SIGPWR", "SIGSYS"]

/-- The name of a signal, in parentheses after a space; nothing if it has none. -/
def signalName (signal : Nat) : String :=
  match signalNames[signal - 1]? with
  | some name => if signal = 0 then "" else " (" ++ name ++ ")"
  | none => ""

def text : ExitStatus → String
  | exited code => "exit status: " ++ toString code
  | signaled signal => "signal: " ++ toString signal ++ signalName signal

end ExitStatus

/-- What a program leaves behind. -/
structure Execution where
  output : List UInt8
  errors : List UInt8
  status : ExitStatus
  elapsed : Duration
deriving DecidableEq

/-- The worker at one of the pipes of a program. -/
inductive PipeWorker where
  | inputWriter
  | outputReader
  | errorReader
deriving DecidableEq

def PipeWorker.text : PipeWorker → String
  | inputWriter => "stdin writer"
  | outputReader => "stdout reader"
  | errorReader => "stderr reader"

/-- Why it cannot be said what a program has left behind.  Its input matters for a program that has
ended well, and that such a program did not want all of it is no fault. -/
inductive ProgramFault where
  | unstarted (fault : FileFault)
  | unattended (fault : FileFault) (elapsed : Duration)
  | unfed (fault : FileFault) (elapsed : Duration)
  | abandoned (worker : PipeWorker) (elapsed : Duration)
deriving DecidableEq

namespace ProgramFault

def message (program : String) : ProgramFault → String
  | unstarted fault => "cannot start `" ++ program ++ "`: " ++ fault.message
  | unattended fault _ => "cannot wait for `" ++ program ++ "`: " ++ fault.message
  | unfed fault _ => "cannot write to `" ++ program ++ "`: " ++ fault.message
  | abandoned worker _ => worker.text ++ " panicked"

def elapsed : ProgramFault → Duration
  | unstarted _ => .zero
  | unattended _ elapsed | unfed _ elapsed | abandoned _ elapsed => elapsed

/-- The fault does not show before the program has ended. -/
def afterEnd : ProgramFault → Bool
  | unstarted _ | unattended _ _ => false
  | unfed _ _ | abandoned _ _ => true

end ProgramFault

/-- A place where programs run, with whatever effects they have. -/
structure Host (m : Type → Type) where
  run : Invocation → m (Except ProgramFault Execution)

end ProductLine
