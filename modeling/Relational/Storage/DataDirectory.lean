/-!
# The data directory

Each stored table has a file of its own in the data directory, named after the table.
-/
namespace Relational

structure DataDirectory where
  path : String := "."
  extension : String := "tbl"
deriving DecidableEq

namespace DataDirectory

/-- The path of `file` as seen from `directory`. An absolute path stays as it is. -/
def join (directory file : String) : String :=
  if file.toList.head? = some '/' ∨ directory = "" then file
  else if directory.toList.getLast? = some '/' then directory ++ file
  else directory ++ "/" ++ file

def fileName (d : DataDirectory) (table : String) : String := table ++ "." ++ d.extension

def tablePath (d : DataDirectory) (table : String) : String := join d.path (d.fileName table)

end DataDirectory
end Relational
