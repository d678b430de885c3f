import JavaSyntax.CommandLine.Run

/-!
# The command `jfront`

Reads the arguments and the file that they name, runs the command, and prints what it
came to.
-/

namespace JavaSyntax.Main

/-- How many bytes are read at once. -/
def chunkSize : USize := 65536

/-- Reads on to the end of a file and counts its bytes. Bytes beyond the limit are
counted and not kept. -/
partial def readFrom (h : IO.FS.Handle) (size : Nat) (bytes : ByteArray) :
    IO (Nat × ByteArray) := do
  let chunk ← h.read chunkSize
  if chunk.isEmpty then return (size, bytes)
  let size := size + chunk.size
  readFrom h size (if Limits.maxFileSize < size then bytes else bytes ++ chunk)

/-- The size and the bytes of the file at a path. -/
def readFile (path : String) : IO (Nat × ByteArray) := do
  readFrom (← IO.FS.Handle.mk path .read) 0 .empty

/-- What a failure of the file system says about a path. -/
def refusal (path : String) : IO.Error → SourceError
  | .noFileOrDirectory .. => .notFound path
  | .inappropriateType .. => .notFile path
  | .permissionDenied .. => .notPermitted path
  | error => .unreadable (toString error)

/-- The source text at a path. -/
def readSource (path : String) : IO (Except SourceError String) := do
  try
    let (size, bytes) ← readFile path
    return do (← FileInfo.accept false path (.file size)).decode bytes
  catch error => return .error (refusal path error)

/-- Runs a command and prints what it came to. -/
def execute (command : Command) : IO UInt32 := do
  let source ←
    match command.path? with
    | some path => readSource path
    | none => pure (.ok "")
  let result := command.run fun _ => source
  IO.print result.output
  IO.eprint result.complaint
  return result.status.toUInt32

/-- The exit status for arguments that make no command. -/
def usageStatus : UInt32 := 2

end JavaSyntax.Main

def main (arguments : List String) : IO UInt32 := do
  match JavaSyntax.Command.ofArguments arguments with
  | .ok command => JavaSyntax.Main.execute command
  | .error e =>
    IO.eprintln s!"error: {e.message}"
    return JavaSyntax.Main.usageStatus
