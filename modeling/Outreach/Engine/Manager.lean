import Outreach.Engine.Fault
import Outreach.Time.Instant

/-!
# Runs under way

The manager knows which runs are under way and lends out the slots for them. Each registered run
holds a token, by which it learns that it was cancelled; it keeps the token when it is no longer
registered, but can then not be reached any more.
-/

namespace Outreach

/-- A run that is registered. -/
structure ActiveRun where
  id : Identifier
  funnelId : String
  startedAt : Instant
  token : Nat
  deriving DecidableEq, Repr

/-- The runs under way, in the order of their identifiers, the tokens that were given out with
whether they are cancelled, and the slots. -/
structure Manager where
  capacity : Nat
  taken : Nat
  active : List ActiveRun
  tokens : List Bool
  deriving DecidableEq, Repr

namespace Manager

/-- A manager without runs; it has at least one slot. -/
def create (concurrent : Nat) : Manager :=
  ⟨max concurrent 1, 0, [], []⟩

/-- The slots that are free. -/
def available (m : Manager) : Nat :=
  m.capacity - m.taken

/-- Takes a slot, if one is free. -/
def acquire? (m : Manager) : Option Manager :=
  if m.taken < m.capacity then some { m with taken := m.taken + 1 } else none

/-- Gives a slot back. -/
def release (m : Manager) : Manager :=
  { m with taken := m.taken - 1 }

/-- The registered run with an identifier. -/
def find? (m : Manager) (id : Identifier) : Option ActiveRun :=
  m.active.find? fun run => run.id == id

/-- Whether a run is registered. -/
def isActive (m : Manager) (id : Identifier) : Bool :=
  (m.find? id).isSome

/-- Puts a run among the others. -/
def insert (run : ActiveRun) : List ActiveRun → List ActiveRun
  | [] => [run]
  | other :: rest =>
    if run.id.value < other.id.value then run :: other :: rest else other :: insert run rest

/-- Registers a run and gives out its token; an identifier can be registered only once. -/
def register (m : Manager) (id : Identifier) (funnelId : String) (now : Instant) :
    Except EngineFault (Nat × Manager) :=
  if m.isActive id then .error (.alreadyActive id)
  else
    let token := m.tokens.length
    .ok (token, { m with
      active := insert ⟨id, funnelId, now, token⟩ m.active,
      tokens := m.tokens ++ [false] })

/-- Forgets a run. -/
def deregister (m : Manager) (id : Identifier) : Manager :=
  { m with active := m.active.filter fun run => run.id != id }

/-- Cancels a registered run. -/
def cancel (m : Manager) (id : Identifier) : Manager :=
  match m.find? id with
  | some run => { m with tokens := m.tokens.set run.token true }
  | none => m

/-- Whether the holder of a token is cancelled. -/
def isTripped (m : Manager) (token : Nat) : Bool :=
  m.tokens.getD token false

/-- Whether a registered run is cancelled; none where no run is registered. -/
def status? (m : Manager) (id : Identifier) : Option Bool :=
  (m.find? id).map fun run => m.isTripped run.token

end Manager

end Outreach
