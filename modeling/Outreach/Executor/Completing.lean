import Outreach.Executor.Basic
import Outreach.Variables.Template

/-!
# Nodes that have a text written

The prompt goes to a service that writes a reply to it; the reply becomes a variable.
-/

namespace Outreach

/-- The settings of a node that has a text written. -/
structure CompletionSettings where
  prompt : String
  systemPrompt : Option String
  model : Option String
  temperature : Option Double
  maxTokens : Option Nat
  outputVariable : Option String

namespace CompletionSettings

/-- How the settings are read. -/
def layout : Layout CompletionSettings where
  name := "AiResponseConfig"
  fields := [
    .required "prompt" .text fun v s => { s with prompt := v },
    .defaulted "systemPrompt" (.optional .text) fun v s => { s with systemPrompt := v },
    .defaulted "model" (.optional .text) fun v s => { s with model := v },
    .defaulted "temperature" (.optional .double) fun v s => { s with temperature := v },
    .defaulted "maxTokens" (.optional .nat32) fun v s => { s with maxTokens := v },
    .defaulted "outputVariable" (.optional .text) fun v s => { s with outputVariable := v }]
  blank := ⟨"", none, none, none, none, none⟩

/-- The settings as a value. -/
def toJson (s : CompletionSettings) : Json :=
  .record [("prompt", .string s.prompt), ("systemPrompt", .textOrNull s.systemPrompt),
    ("model", .textOrNull s.model), ("temperature", .orNull (s.temperature.map .double)),
    ("maxTokens", .orNull (s.maxTokens.map .nat)), ("outputVariable", .textOrNull s.outputVariable)]

/-- The variable that takes the reply. -/
def target (s : CompletionSettings) : String :=
  (s.outputVariable.filter fun v => !v.isEmpty).getD "ai_response"

end CompletionSettings

namespace Executor.Completing

/-- What is asked for. -/
def request (settings : CompletionSettings) (vars : Variables) : Completion where
  prompt := Template.interpolate settings.prompt vars
  systemPrompt := settings.systemPrompt.map fun s => Template.interpolate s vars
  model := settings.model
  temperature := settings.temperature
  maxTokens := settings.maxTokens

/-- Has the text of a node written. -/
def perform (_ : Instant) (node : Node) (e : Execution) : Task :=
  withSettings CompletionSettings.layout node fun settings =>
    .ask (.complete (request settings e.vars)) fun _ reply => .done <|
      match reply with
      | .ok reply =>
        (ActionResult.proceed.withVariable settings.target (.string reply.content)).withData
          (.record [("model", .string reply.model), ("usage", .orNull reply.usage)])
      | .error fault => .failure ("AI generation failed: " ++ fault.message)

/-- Whether a temperature lies outside of the usual range. -/
def isUnusual (temperature : Double) : Bool :=
  temperature.less (.ofInt 0) || (Double.ofInt 2).less temperature || temperature.isNaN

/-- What is wrong with settings. -/
def check (settings : CompletionSettings) : Verdict :=
  let start := Verdict.valid.errorIf (Text.isBlankText settings.prompt) "prompt is required"
  match settings.temperature with
  | none => start
  | some t => start.warningIf (isUnusual t)
      ("temperature " ++ NumberStyle.plain.render t ++ " is outside 0.0..=2.0")

end Executor.Completing

/-- Has texts written. -/
def Executor.completing : Executor where
  family := "completing"
  isExempt := false
  examine := examineSettings CompletionSettings.layout Completing.check
  perform := Completing.perform

end Outreach
