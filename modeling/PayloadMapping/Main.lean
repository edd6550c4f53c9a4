import PayloadMapping.Command.Help

set_option autoImplicit false

/-!
# The program

Reads the files that the arguments name, runs the command on them, and writes and prints what
comes out. The file for the documents is written before anything is printed, so that a failed
write is reported like any other failure.
-/

namespace PayloadMapping

open Command

/-- The failure of an access to a file. The code of a path that runs through a file comes with
either sign. -/
def fileError : IO.Error → FileError
  | .noFileOrDirectory .. => .notFound
  | .inappropriateType _ code _ =>
    if code = 20 ∨ code = -20 then .notADirectory else .isADirectory
  | e => .other (toString e)

def readText (path : String) : IO (Except FileError String) :=
  try
    match String.fromUTF8? (← IO.FS.readBinFile path) with
    | some text => return .ok text
    | none => return .error (.other "stream did not contain valid UTF-8")
  catch e => return .error (fileError e)

def paths : Request → List String
  | .transform request =>
    request.mapping :: request.config.toList ++ request.providerAttributes.toList
      ++ request.inputs
  | .check mapping => [mapping]
  | _ => []

def readAll (paths : List String) : IO Files := do
  let found ← paths.mapM fun path => return (path, ← readText path)
  return {
    read := fun path => (Fields.get? path found).getD (.error .notFound)
    target := .ok }

def writeText (path text : String) : IO (Except FileError Unit) :=
  try
    IO.FS.writeFile path text
    return .ok ()
  catch e => return .error (fileError e)

/-- Write the file of an outcome; a failed write makes the outcome a failure. -/
def writeFile (outcome : Outcome) : IO Outcome := do
  match outcome.written with
  | none => return outcome
  | some (path, text) =>
    let result ← writeText path text
    return outcome.afterWriting fun _ _ => result

end PayloadMapping

open PayloadMapping Command in
def main (arguments : List String) : IO UInt32 := do
  let files ← readAll (paths (Request.ofArguments arguments))
  let outcome ← writeFile (run files arguments)
  IO.print outcome.printed
  for notice in outcome.notices do
    IO.eprintln notice.text
  match outcome.failure with
  | some failure => IO.eprintln failure.report
  | none => if outcome.exit = 2 then IO.eprint HelpPage.general.text
  return outcome.exit.toUInt32
