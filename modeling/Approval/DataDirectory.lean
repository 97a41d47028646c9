import Approval.Text.Blank

/-!
# The data directory

The names of the files in which a directory keeps the settings and the store.
-/

namespace Approval.DataDirectory

/-- The path of a file in a directory. -/
def file (directory name : String) : String :=
  if directory.isEmpty || directory.toList.getLast? = some '/' then directory ++ name
  else directory ++ "/" ++ name

def settingsFile (directory : String) : String := file directory "signoff.toml"

def storeFile (directory : String) : String := file directory "signoff.db"

/-- The address of the store; it is made when it is not there. -/
def storeAddress (directory : String) : String := "sqlite://" ++ storeFile directory ++ "?mode=rwc"

end Approval.DataDirectory
