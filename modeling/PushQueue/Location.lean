import PushQueue.Settings
import PushQueue.Text.Fields

/-!
Where the settings and the database are: a data directory that the environment names, and two files
in it that the environment and the settings may name instead.
-/

namespace PushQueue

/-- A file in a directory; an absolute file name is not in any. -/
def joinPath (directory file : String) : String :=
  if file.startsWith "/" then file
  else if directory.isEmpty ∨ directory.endsWith "/" then directory ++ file
  else directory ++ "/" ++ file

/-- The directory that a path names a file in, unless that is the root or the current one. -/
def parentPath? (path : String) : Option String :=
  let parent := Text.joinFields '/' (Text.fields '/' path.toList).dropLast
  if parent.isEmpty then none else some (String.ofList parent)

/-- What the environment says; an empty value counts as one. -/
structure Environment where
  dataDirectory : Option String := none
  configFile : Option String := none
  home : Option String := none

namespace Environment

/-- The directory of the database and of the settings file. -/
def dataDir (env : Environment) : String :=
  match env.dataDirectory, env.home with
  | some directory, _ => directory
  | none, some home => joinPath home ".pushstore"
  | none, none => "/tmp/pushstore"

/-- The settings file that is read where no other is named. -/
def configPath (env : Environment) : String :=
  env.configFile.getD (joinPath env.dataDir "config.toml")

end Environment

inductive FileState where
  | missing
  | text (content : String)
  | unreadable

namespace Settings

def databasePath (s : Settings) (env : Environment) : String :=
  if s.database.path.isEmpty then joinPath env.dataDir "pushstore.db" else s.database.path

/-- The settings of a file; a missing one leaves all defaults. -/
def load (path : String) : FileState → Except ConfigError Settings
  | .missing => .ok {}
  | .text content => parse content
  | .unreadable => .error (.unreadable path)

end Settings

end PushQueue
