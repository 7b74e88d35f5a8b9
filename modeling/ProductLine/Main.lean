/- # The program — command line, files and streams of the system

The logic is that of `CommandLine.run`; here the operations on files are
those of the system, the report goes to the standard streams, and the
family of tickets is drawn at random.  External engines run on the host of
`ProductLine.Shell.Host`, beside the files of its own system.
-/
import ProductLine.CommandLine.Run
import ProductLine.Shell.Host

namespace ProductLine

/-- The number of an error, which may be given with its sign changed. -/
def errorNumber (code : UInt32) : Nat :=
  min code.toNat (0x100000000 - code.toNat)

def faultOfError : IO.Error → FileFault
  | .noFileOrDirectory .. => .notFound
  | .alreadyExists .. => .alreadyExists
  | .permissionDenied .. => .permissionDenied
  | .inappropriateType _ n _ | .noSuchThing _ n _ | .invalidArgument _ n _
  | .resourceExhausted _ n _ | .interrupted _ n _ | .otherError n _ | .resourceBusy n _
  | .resourceVanished n _ | .unsupportedOperation n _ | .hardwareFault n _
  | .unsatisfiedConstraints n _ | .illegalOperation n _ | .protocolError n _
  | .timeExpired n _ => .ofNumber (errorNumber n)
  | .unexpectedEof | .userError _ => .other 0

def faultOf {α : Type} (action : IO α) : IO (Except FileFault α) := do
  try
    return .ok (← action)
  catch e =>
    return .error (faultOfError e)

instance : FileStore IO where
  Source := IO.FS.Handle
  openFile path := faultOf (IO.FS.Handle.mk path .read)
  readBlock handle _ := faultOf do return (← handle.read blockSize.toUSize).data.toList
  createDirectories route := faultOf (IO.FS.createDirAll route.text)
  writeFile path text := faultOf (IO.FS.writeFile path text)

/-- The host of external engines.  It has no files but those of its own system, and forgets what
programs do to them. -/
def systemHost : Host IO where
  run invocation := return (Shell.execute invocation Shell.freshSystem).1

/-- Writes a report to the standard streams and returns its exit code. -/
def CommandLine.Report.show (r : Report) : IO UInt32 := do
  IO.print r.output
  unless r.errors.isEmpty do
    IO.eprintln "Error:"
    for (error, i) in r.errors.zipIdx do
      IO.eprintln ("   " ++ toString i ++ ": " ++ error)
  return r.exitCode.toUInt32

def drawFamily : IO FamilyId := do
  let bytes ← IO.getRandomBytes 16
  return bytes.toList.foldl (fun id byte => id * 256 + BitVec.ofNat 128 byte.toNat) 0

end ProductLine

def main (args : List String) : IO UInt32 := do
  let tickets : ProductLine.TicketBook := { family := ← ProductLine.drawFamily }
  let report : ProductLine.CommandLine.Report ←
    ProductLine.CommandLine.run ProductLine.systemHost tickets args
  report.show
