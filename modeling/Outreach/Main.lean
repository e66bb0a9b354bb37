import Outreach.Program.Command
import Std.Time.DateTime.Timestamp

/-!
# The program

The command line, carried out for real: files, the environment and the clock are looked up, and what
comes of it is written. There is no network, so a service with an address cannot be reached.
-/

namespace Outreach.Program

/-- The directory in which a file lies. -/
def directoryOf (path : String) : String :=
  let above := path.toList.reverse.dropWhile (· ≠ '/')
  if above.isEmpty then "." else String.ofList above.reverse

/-- What is found at a path. -/
def findFile (path : String) : IO Finding := do
  let file := System.mkFilePath [path]
  if ← file.isDir then return .unreadable "Is a directory (os error 21)"
  else if ← file.pathExists then
    try return .text (← IO.FS.readFile file)
    catch e => return .unreadable (toString e)
  else return .absent (← (System.mkFilePath [directoryOf path]).isDir)

/-- The environment, as far as it matters. -/
def readEnvironment : IO Environment := do
  let found ← Invocation.environmentNames.mapM fun name => do return (name, ← IO.getEnv name)
  return fun name => (found.lookup name).join

/-- The time. -/
def readClock : IO Instant := do
  let now := (← Std.Time.Timestamp.now).toDurationSinceUnixEpoch
  return ⟨now.second.val, now.nano.val.toNat⟩

/-- The world, with the files that a command line may look at. -/
def readWorld (words : List String) : IO World := do
  let environment ← readEnvironment
  let bare : World :=
    ⟨← readClock, ← IO.rand 0 (Nat.pow 2 73), environment, fun _ => .absent false, .unreachable⟩
  match Invocation.read environment words with
  | .error _ => return bare
  | .ok invocation =>
    let found ← (invocation.paths bare).mapM fun path => do return (path, ← findFile path)
    return { bare with find := fun path => (found.lookup path).getD (.absent false) }

end Outreach.Program

open Outreach Outreach.Program in
/-- Carries out a command line. -/
def main (words : List String) : IO UInt32 := do
  let outcome := (← readWorld words).perform words
  IO.sleep outcome.elapsed.toUInt32
  match outcome.written with
  | some (path, text) => IO.FS.writeFile (System.mkFilePath [path]) text
  | none => pure ()
  IO.print outcome.output.render
  match outcome.complaint with
  | some complaint => IO.eprintln complaint.render
  | none => pure ()
  return outcome.code.toUInt32
