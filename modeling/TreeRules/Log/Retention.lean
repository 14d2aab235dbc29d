import TreeRules.Log.FileSystem
import TreeRules.Text.Quoted

/-!
Which session logs are kept. Regular files that are named like session logs are removed from the log
directory once they are more than seven days old; nothing else is touched. Of those that cannot be
removed, the console is told.
-/

namespace TreeRules.Log.Retention

def limit : Rat := 7 * 24 * 60 * 60

def nameStart : String := "session-"

def nameEnd : String := ".log"

def isSessionName : FileName → Bool
  | .text name => name.startsWith nameStart && name.endsWith nameEnd
  | .undecodable _ => false

/-- Whether an entry is a session log that is too old. A time in the future is not old. -/
def isExpired (now : Rat) (name : FileName) : FileEntry → Bool
  | .file _ modified => isSessionName name && limit < now - modified
  | .directory | .link _ => false

/-- Whether an entry stands directly in a directory and is expired. -/
def isExpiredIn (now : Rat) (directory : Path) (path : Path) (entry : FileEntry) : Bool :=
  match path.getLast? with
  | none => false
  | some name => path.dropLast == directory && isExpired now name entry

/-- Whether the route to a directory, taken on to an entry of it, is short enough. -/
def isInReach (route : Route) (path : Path) : Bool :=
  match path.getLast? with
  | some (.text name) => !(route.child name).isTooLong
  | _ => true

/-- Removes the expired session logs of the directory that a route leads to, as far as they are in
reach. -/
def removeExpired (now : Rat) (route : Route) (directory : Path) (files : FileSystem) :
    FileSystem :=
  ⟨files.entries.filter fun (path, entry) =>
    !(isExpiredIn now directory path entry && isInReach route path)⟩

def complaint (route : Route) : String :=
  "Failed to remove old log file " ++ Text.quoted route.toString ++ ": " ++
    FileError.nameTooLong.message ++ "\n"

/-- What is said about an expired session log that is out of reach. -/
def complaint? (now : Rat) (route : Route) (directory : Path) (path : Path) (entry : FileEntry) :
    Option String :=
  match path.getLast? with
  | some (.text name) =>
    if isExpiredIn now directory path entry && !isInReach route path then
      some (complaint (route.child name))
    else none
  | _ => none

/-- What is said about the expired session logs that stay, in the order of the entries. -/
def complaints (now : Rat) (route : Route) (directory : Path) (files : FileSystem) : String :=
  String.join (files.entries.filterMap fun (path, entry) =>
    complaint? now route directory path entry)

end TreeRules.Log.Retention
