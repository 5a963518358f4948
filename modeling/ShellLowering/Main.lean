import ShellLowering.Session.Invocation

namespace ShellLowering

def Run.write (run : Run) : IO Unit := do
  let stdout ← IO.getStdout
  let stderr ← IO.getStderr
  stdout.putStr run.stdout
  stdout.flush
  stderr.putStr run.stderr
  stderr.flush

partial def readAll (stream : IO.FS.Stream) (read : String) : IO String := do
  let line ← stream.getLine
  if line.isEmpty then return read else readAll stream (read ++ line)

/-- A terminal session: every event is run as soon as it happens. -/
partial def readEvents (settings : Settings) (stream : IO.FS.Stream) (status : Status) :
    IO Status := do
  (Run.output Input.prompt).write
  let line ← stream.getLine
  if line.isEmpty then
    (Run.output "\n").write
    return status
  else
    let run := Run.ofRead settings (Input.chomp line)
    run.write
    if run.status = .aborted then return .aborted
    else readEvents settings stream (status.andThen run.status)

def Invocation.perform (invocation : Invocation) : IO Status := do
  let stdin ← IO.getStdin
  if invocation.line.isNone && (← stdin.isTty) then
    invocation.opening.write
    readEvents invocation.settings stdin .success
  else
    let text ← if invocation.line.isNone then readAll stdin "" else pure ""
    let run := invocation.runWith (.piped text)
    run.write
    return run.status

end ShellLowering

open ShellLowering in
def main (arguments : List String) : IO UInt32 := do
  match Options.parse arguments with
  | .error stop =>
    let run := Invocation.stopped stop
    run.write
    return run.status.code.toUInt32
  | .ok options =>
    let invocation := Invocation.ofOptions options (← IO.getEnv Mode.variableName)
    let status ← invocation.perform
    return status.code.toUInt32
