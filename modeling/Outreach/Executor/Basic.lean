import Outreach.Delivery.Basic
import Outreach.Funnel.Settings
import Outreach.Funnel.Verdict

/-!
# Executors

An executor gives a type of node its meaning. What it does at a node is a `Task`: it may wait, ask a
service and go on from the reply, and it comes to a result in the end. An executor sees the
execution and does not change it; what it wants changed stands in its result.
-/

namespace Outreach

/-- Work that waits for time to pass or for services to reply, and ends in a result. -/
inductive Task where
  | done (result : ActionResult)
  | sleep (milliseconds : Nat) (next : Instant → Task)
  | ask (request : Request) (next : Instant → Reply request → Task)

/-- The meaning of a type of node. -/
structure Executor where
  /-- Executors of one family are one and the same under several labels. -/
  family : String
  /-- Whether its waiting is left out of the time that a run may take. -/
  isExempt : Bool
  /-- What is wrong with settings. -/
  examine : Json → Verdict
  /-- What is done at a node. -/
  perform : Instant → Node → Execution → Task

namespace Executor

/-- Work on a node whose settings have been read; settings that cannot be read are a failure. -/
def withSettings {α : Type} (layout : Layout α) (node : Node) (work : α → Task) : Task :=
  match node.settingsAs layout with
  | .ok settings => work settings
  | .error fault => .done (.failure fault.message)

/-- An examination of settings that can be read; settings that cannot are an error. -/
def examineSettings {α : Type} (layout : Layout α) (check : α → Verdict) (settings : Json) : Verdict :=
  match layout.ofSettings settings with
  | .ok a => check a
  | .error fault => Verdict.valid.error ("invalid config: " ++ fault.message)

end Executor

/-- Executors and the types that they give a meaning to, each behind the label of its type and in the
order of the labels. It is the type that counts and not the label, which another type may have too. -/
abbrev Registry := List (String × NodeType × Executor)

namespace Registry

/-- The executor of a type. -/
def executor? : Registry → NodeType → Option Executor
  | [], _ => none
  | (_, known, x) :: rest, type => if known = type then some x else executor? rest type

/-- Gives a type its meaning, in place of the one it had. -/
def register : Registry → NodeType → Executor → Registry
  | [], type, x => [(type.label, type, x)]
  | (label, known, old) :: rest, type, x =>
    if known = type then (type.label, type, x) :: rest
    else if type.label < label then (type.label, type, x) :: (label, known, old) :: rest
    else (label, known, old) :: register rest type x

/-- The types that have a meaning, in the order of their labels. -/
def types (registry : Registry) : List NodeType :=
  registry.map fun entry => entry.2.1

/-- The labels that share an executor with a type. -/
def sharing (registry : Registry) (type : NodeType) : List String :=
  match registry.executor? type with
  | none => []
  | some x => (registry.filter fun entry => entry.2.2.family == x.family).map Prod.fst

/-- A type has the meaning that it was given last. -/
theorem executor?_register (registry : Registry) (type other : NodeType) (x : Executor) :
    (registry.register type x).executor? other =
      if type = other then some x else registry.executor? other := by
  induction registry with
  | nil => rfl
  | cons entry rest ih =>
    obtain ⟨label, known, old⟩ := entry
    rw [register]
    split
    next hknown =>
      subst hknown
      by_cases hother : known = other <;> simp [executor?, hother]
    next hknown =>
      split
      next => rfl
      next =>
        rw [executor?, executor?, ih]
        by_cases hother : known = other
        · have htype : type ≠ other := fun htype => hknown (hother.trans htype.symm)
          rw [if_pos hother, if_pos hother, if_neg htype]
        · rw [if_neg hother, if_neg hother]

end Registry

end Outreach
