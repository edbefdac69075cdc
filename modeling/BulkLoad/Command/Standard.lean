import BulkLoad.Api.WebUrl
import BulkLoad.Command.FileSettings

/-!
# The library of the program

What the program is given for what its commands leave to others.
-/

namespace BulkLoad.Command

/-- The library that the program is built with. -/
def Library.standard : Library where
  toLibrary := Api.WebUrl.library
  jsonWords _ := "not a document"
  tomlWords _ := "not the settings of a command"

end BulkLoad.Command
