import Relational.Session

/-!
# The command line

Statements are read from standard input and answers are written to standard output. The one argument
is the data directory; without it, tables are stored in the working directory.
-/
namespace Relational

def FileFault.ofSystem : IO.Error → FileFault
  | .noFileOrDirectory _ _ _ => .noSuchFile
  | .inappropriateType _ 20 _ => .notADirectory
  | .inappropriateType _ 21 _ => .isADirectory
  | e => .other (toString e)

/-- Takes a step with the files of the system. -/
def Step.runSystem : Step → IO (Answer × Database)
  | .done answer db => return (answer, db)
  | .reading path next => do
    let found ← (IO.FS.readBinFile path).toBaseIO
    return next <| match found with
      | .ok content => .ok content.data.toList
      | .error e => .error (.ofSystem e)
  | .writing path content next => do
    let written ← (IO.FS.writeBinFile path ⟨content.toArray⟩).toBaseIO
    return next <| match written with
      | .ok _ => .ok ()
      | .error e => .error (.ofSystem e)

/-- The next line of a stream, when `reversed` holds its bytes so far in reverse order. -/
partial def Bytes.nextLine (input : IO.FS.Stream) (reversed : Bytes) : IO (Option Bytes) := do
  match (← input.read 1).data.toList with
  | [] => return if reversed.isEmpty then none else some reversed.reverse
  | b :: _ =>
    if b = lineFeed then return some (endedLine reversed)
    else nextLine input (b :: reversed)

/-- Goes on with a session, and gives the exit code. -/
partial def Session.loop (input output : IO.FS.Stream) (db : Database) : IO UInt32 := do
  output.putStr Session.prompt
  output.flush
  match ← Bytes.nextLine input [] with
  | none => return 0
  | some line =>
    match line.toText? with
    | none => return 1
    | some s =>
      match Session.Request.ofLine s with
      | .leave => return 0
      | .nothing => Session.loop input output db
      | .statement text =>
        let (answer, db) ← (db.execute text).runSystem
        output.putStr (Session.answerLine answer)
        Session.loop input output db

end Relational

open Relational in
def main (args : List String) : IO UInt32 := do
  let directory : DataDirectory := match args with
    | path :: _ => { path }
    | [] => {}
  Session.loop (← IO.getStdin) (← IO.getStdout) { directory }
