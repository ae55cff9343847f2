import TileFabric.CommandLine

/-!
# The program

Runs a command on the real file system and prints what it has written.
-/

set_option autoImplicit false

namespace TileFabric

/--
The cause of an error. Where a kind of error has several causes its number tells them apart; some
calls give the number with its sign changed.
-/
def FileError.ofIO (e : IO.Error) : FileError :=
  match e with
  | .noFileOrDirectory .. => .notFound
  | .inappropriateType _ code _ =>
    if code = 21 || code = -21 then .isADirectory else .notADirectory
  | .invalidArgument _ code _ =>
    if code = 36 || code = -36 then .nameTooLong else .other (toString e)
  | e => .other (toString e)

/-- The real file system. -/
def realSystem : FileSystem IO where
  isFile path := do
    try return (← (← IO.FS.realPath path).metadata).type == .file
    catch _ => return false
  isDirectory path := do
    try (← IO.FS.realPath path).isDir
    catch _ => return false
  read path := do
    try return .ok (← IO.FS.readFile path)
    catch e => return .error (.ofIO e)
  write path text := do
    try
      IO.FS.writeFile path text
      return .ok ()
    catch e => return .error (.ofIO e)

end TileFabric

def main (arguments : List String) : IO UInt32 := do
  let colorTerminal := (← IO.getEnv "TERM").isSome
  let (code, transcript) ← TileFabric.CommandLine.run TileFabric.realSystem colorTerminal arguments
  (← IO.getStderr).putStr transcript.err
  (← IO.getStdout).putStr transcript.out
  return code
