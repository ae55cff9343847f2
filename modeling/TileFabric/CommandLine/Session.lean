import TileFabric.CommandLine.Arguments
import TileFabric.Files
import TileFabric.Log
import TileFabric.Settings

/-!
# Sessions

A session is the run of one command: it works on files, writes to two streams, and ends well or in
a failure. Errors are always shown; the other diagnostics as the general options have it.
-/

set_option autoImplicit false

namespace TileFabric.CommandLine

/-- What a command has written so far. -/
structure Transcript where
  out : String := ""
  err : String := ""
  deriving DecidableEq, Repr, Inhabited

inductive Failure where
  /-- The errors have been shown as diagnostics. -/
  | reported
  | message (text : String)
  deriving DecidableEq, Repr

abbrev Session (m : Type → Type) (α : Type) := ExceptT Failure (StateT Transcript m) α

namespace Session

variable {m : Type → Type} [Monad m] {α : Type}

def print (text : String) : Session m Unit := modify fun t => { t with out := t.out ++ text }

def printError (text : String) : Session m Unit := modify fun t => { t with err := t.err ++ text }

/-- A remark on progress, which only a quiet session leaves out. -/
def remark (general : General) (text : String) : Session m Unit :=
  if general.quiet then pure () else printError (text ++ "\n")

/-- Runs an action on files; `wording` says what a failure is called. -/
def onFiles (wording : String → String) (action : m (Except FileError α)) : Session m α := do
  match ← (liftM action : Session m (Except FileError α)) with
  | .ok value => pure value
  | .error e => throw (.message (wording e.message))

/-- Whether a diagnostic is shown. -/
def isShown (general : General) : Severity → Bool
  | .error => true
  | .warning | .help => !general.quiet
  | .note => general.verbose && !general.quiet

/-- Shows what a log holds, in color or not. -/
def showLog (general : General) (colored : Bool) (log : Log) : Session m Unit :=
  log.entries.toList.forM fun d =>
    if isShown general d.severity then printError (d.render colored) else pure ()

/-- The text that a finished session comes to, and its exit code. -/
def finish (session : Session m Unit) : m (UInt32 × Transcript) := do
  let (result, t) ← session.run {}
  pure (match result with
    | .ok () => (0, t)
    | .error .reported => (1, t)
    | .error (.message text) => (1, { t with err := t.err ++ "error: " ++ text ++ "\n" }))

end Session

/-- The file that settings are looked for in. -/
def settingsFile : String := "borca.toml"

/-- A name in a directory. -/
def inDirectory (directory name : String) : String :=
  if directory.endsWith "/" then directory ++ name else directory ++ "/" ++ name

section

variable {m : Type → Type} [Monad m]

/-- Reads settings from a file. -/
def settingsFrom (system : FileSystem m) (path : String) : Session m Settings := do
  let text ← Session.onFiles ("failed to read configuration: " ++ ·) (system.read path)
  match Settings.parse text with
  | .ok settings => pure settings
  | .error e => throw (.message e.message)

/--
The settings of a session: from the file or the directory that is named, else from the working
directory, and without a file there the defaults.
-/
def loadSettings (system : FileSystem m) (general : General) : Session m Settings := do
  match general.config with
  | some path =>
    if ← (liftM (system.isDirectory path) : Session m Bool) then
      settingsFrom system (inDirectory path settingsFile)
    else settingsFrom system path
  | none =>
    if ← (liftM (system.isFile settingsFile) : Session m Bool) then
      settingsFrom system settingsFile
    else pure {}

end

end TileFabric.CommandLine
