import Outreach.Program.Command

/-!
# Rehearsed command lines

Command lines that are carried out one after the other in a folder held in memory, each at the same
time of day and with what the ones before it have written.
-/

namespace Outreach

/-- A folder: texts by the steps that lead to their files. -/
structure Folder where
  files : List (List String × String)

namespace Folder

/-- One more step of a path. -/
def descend (steps : List String) (step : String) : List String :=
  if step = "" ∨ step = "." then steps
  else if step = ".." then steps.dropLast
  else steps ++ [step]

/-- The steps of a path. -/
def stepsOf (path : String) : List String :=
  ((Text.split '/' path.toList).map String.ofList).foldl descend []

/-- The text of a file. -/
def text? (folder : Folder) (steps : List String) : Option String :=
  folder.files.lookup steps

/-- Whether steps lead to a directory: to the folder itself or to one in which a file lies. -/
def isDirectory (folder : Folder) (steps : List String) : Bool :=
  steps.isEmpty || folder.files.any fun file => steps.isPrefixOf file.1 && steps != file.1

/-- What is found at a path. Paths that begin outside of the folder lead nowhere. -/
def find (folder : Folder) (path : String) : Finding :=
  let steps := stepsOf path
  if path.toList.head? = some '/' then .absent false
  else if folder.isDirectory steps then .unreadable "Is a directory (os error 21)"
  else match folder.text? steps with
    | some text => .text text
    | none =>
      if (folder.text? steps.dropLast).isSome then .unreadable "Not a directory (os error 20)"
      else .absent (folder.isDirectory steps.dropLast)

/-- Writes a file. -/
def write (folder : Folder) (path text : String) : Folder :=
  let steps := stepsOf path
  ⟨(steps, text) :: folder.files.filter fun file => file.1 != steps⟩

/-- A folder with files at the given paths. -/
def ofFiles (files : List (String × String)) : Folder :=
  files.foldl (fun folder file => folder.write file.1 file.2) ⟨[]⟩

end Folder

/-- A folder in which command lines are carried out, and their number so far. -/
structure Session where
  folder : Folder
  serial : Nat
  now : Instant
  network : Network

namespace Session

/-- The world in which the next command line is carried out. -/
def world (s : Session) (environment : Environment) : World where
  now := s.now
  seed := s.serial * Nat.pow 2 48
  environment
  find := s.folder.find
  network := s.network

/-- Carries out a command line. -/
def perform (s : Session) (environment : Environment) (words : List String) : Outcome × Session :=
  let outcome := (s.world environment).perform words
  let folder := match outcome.written with
    | some (path, text) => s.folder.write path text
    | none => s.folder
  (outcome, { s with folder, serial := s.serial + 1 })

end Session

end Outreach
