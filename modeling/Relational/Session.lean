import Relational.Database

/-!
# Sessions

A session reads one statement from each line and writes the answers between prompts. Blank lines are
passed over, and `exit` or `quit` ends the session. So does a line that is no text, as a failure.
-/
namespace Relational.Session

def prompt : String := "> "

inductive Request where
  | leave
  | nothing
  | statement (text : String)
deriving DecidableEq

def Request.ofLine (line : String) : Request :=
  let content := Text.trim line
  if content = "exit" ∨ content = "quit" then .leave
  else if content = "" then .nothing
  else .statement content

def answerLine (a : Answer) : String :=
  if a.text = "" then "" else a.text ++ "\n"

/-- What is written after the first prompt, and whether the session ends well. -/
def converse (store : FileStore σ) (db : Database) (files : σ) : List Bytes → String × Bool
  | [] => ("", true)
  | line :: rest =>
    match line.toText? with
    | none => ("", false)
    | some s =>
      match Request.ofLine s with
      | .leave => ("", true)
      | .nothing =>
        let (output, ended) := converse store db files rest
        (prompt ++ output, ended)
      | .statement text =>
        let (answer, db, files) := (db.execute text).run store files
        let (output, ended) := converse store db files rest
        (answerLine answer ++ prompt ++ output, ended)

/-- All that a session writes on an input, and whether it ends well. -/
def run (store : FileStore σ) (db : Database) (files : σ) (input : Bytes) : String × Bool :=
  let (output, ended) := converse store db files input.lines
  (prompt ++ output, ended)

end Relational.Session
