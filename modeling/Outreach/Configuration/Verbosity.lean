/-!
# How much is logged

Each time that more is asked for, the level of the log drops by one, from warnings down to traces.
-/

namespace Outreach

/-- What is written to the log, and how. -/
structure Logging where
  /-- The levels from which on the parts of the program write. -/
  filter : String
  /-- Whether every event is written as an object. -/
  asObjects : Bool
  /-- Whether spans are exported as well. -/
  exportsSpans : Bool
  deriving DecidableEq, Repr

namespace Logging

/-- The parts whose levels are set one by one. -/
def parts : List String :=
  ["funnel_core", "funnel_infra", "funnel"]

/-- What is logged where nothing is said about it. -/
def standard : Logging :=
  ⟨"info", false, false⟩

/-- The level when more was asked for so many times. -/
def level : Nat → String
  | 0 => "warn"
  | 1 => "info"
  | 2 => "debug"
  | _ => "trace"

/-- What is logged when more was asked for so many times. -/
def ofVerbosity (count : Nat) : Logging :=
  let level := level count
  { standard with
    filter := String.intercalate "," (parts.map (fun part => part ++ "=" ++ level) ++ [level]) }

end Logging

end Outreach
