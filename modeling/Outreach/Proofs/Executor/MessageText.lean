import Outreach.Proofs.Executor.Outcome

/-!
# The text of a message

Settings of a message are accepted if the message or the template is a text that is not empty; the
text to be sent is the message, unless there is none. The two go together for every message but the
empty one, which counts as no text where settings are examined, and as the text where they are
carried out. `Executor.Messaging.sent_text_iff` says what is sent on behalf of accepted settings, and
exactly when it comes from a text that is not empty. In `Executor.Messaging.empty_message_sent` an
empty message hides a template.
-/

namespace Outreach

namespace MessageSettings

/-- A text, if there is one and it is not empty. -/
def nonempty? (text : Option String) : Option String :=
  text.filter fun t => !t.isEmpty

/-- The text that settings supply: the message, or else the template, if it is not empty. -/
def supplied? (s : MessageSettings) : Option String :=
  (nonempty? s.message).or (nonempty? s.template)

variable {s : MessageSettings} {text : String}

theorem nonempty?_eq_some_iff {given : Option String} :
    nonempty? given = some text ↔ given = some text ∧ text ≠ "" := by
  simp [nonempty?, Option.filter_eq_some_iff]

theorem ne_empty_of_supplied? (h : s.supplied? = some text) : text ≠ "" := by
  rcases Option.or_eq_some_iff.mp h with h | ⟨-, h⟩
  · exact (nonempty?_eq_some_iff.mp h).2
  · exact (nonempty?_eq_some_iff.mp h).2

/-- What is sent is the text that is supplied, unless the message is empty. -/
theorem body?_of_supplied? (h : s.supplied? = some text) :
    s.body? = some (if s.message = some "" then "" else text) := by
  rcases Option.or_eq_some_iff.mp h with h | ⟨hnone, h⟩
  · obtain ⟨hmessage, hne⟩ := nonempty?_eq_some_iff.mp h
    simp [body?, hmessage, hne]
  · obtain ⟨htemplate, -⟩ := nonempty?_eq_some_iff.mp h
    cases hmessage : s.message with
    | none => simp [body?, hmessage, htemplate]
    | some message =>
      have hempty : message = "" := by simpa [nonempty?, hmessage] using hnone
      simp [body?, hmessage, hempty]

end MessageSettings

namespace Executor.Messaging

variable {channels : List Channel} {n : Node} {settings : MessageSettings}

theorem isGiven_eq_isSome (text : Option String) :
    isGiven text = (MessageSettings.nonempty? text).isSome := by
  cases text with
  | none => rfl
  | some t => cases h : t.isEmpty <;> simp [isGiven, MessageSettings.nonempty?, h]

/-- Settings that pass the check supply a text. -/
theorem exists_supplied?_of_isValid (h : (check channels settings).isValid = true) :
    ∃ text, settings.supplied? = some text := by
  rw [check, Verdict.isValid_errorIf, isGiven_eq_isSome, isGiven_eq_isSome] at h
  have hgiven := (Bool.and_eq_true_iff.mp h).2
  rw [← Option.isSome_iff_exists, MessageSettings.supplied?, Option.isSome_or]
  revert hgiven
  cases (MessageSettings.nonempty? settings.message).isSome <;> simp

/-- The one thing that is asked for at a node whose settings have a text is that the text be sent,
filled in. -/
theorem exists_sent_of_mem_calls {text : String}
    (hs : n.settingsAs MessageSettings.layout = .ok settings)
    (hbody : settings.body? = some text) {now : Instant} {e : Execution} {wake : Nat → Wake}
    {call : Exchange} (h : call ∈ ((messaging channels).perform now n e).calls wake) :
    ∃ message, call.request = .send message ∧
      message.body = Template.interpolate text e.vars := by
  have hperform : (messaging channels).perform now n e = perform channels now n e := rfl
  rw [hperform, perform, withSettings, hs] at h
  dsimp only at h
  rw [hbody] at h
  dsimp only at h
  split at h
  next => exact absurd h List.not_mem_nil
  next =>
    split at h
    next =>
      obtain rfl := List.mem_singleton.mp h
      exact ⟨_, rfl, rfl⟩
    next => exact absurd h List.not_mem_nil

/-- **What is sent on behalf of settings that are accepted.** They supply a text that is not empty,
and whatever is handed to a sender is what this text comes to when it is filled in, exactly unless the
message of the settings is the empty text and the text comes to something else: then nothing is in
what is sent. -/
theorem sent_text_iff (haccepted : ((messaging channels).examine n.settings).isValid = true)
    (now : Instant) (e : Execution) (wake : Nat → Wake) :
    ∃ settings text, n.settingsAs MessageSettings.layout = .ok settings ∧
      settings.supplied? = some text ∧ text ≠ "" ∧
      ∀ call ∈ ((messaging channels).perform now n e).calls wake,
        ∃ message, call.request = .send message ∧
          (message.body = Template.interpolate text e.vars ↔
            settings.message ≠ some "" ∨ Template.interpolate text e.vars = "") ∧
          (settings.message = some "" → message.body = "") := by
  obtain ⟨settings, hs, hcheck⟩ := settingsAs_of_isValid haccepted
  obtain ⟨text, htext⟩ := exists_supplied?_of_isValid hcheck
  refine ⟨settings, text, hs, htext, MessageSettings.ne_empty_of_supplied? htext, fun call hcall => ?_⟩
  obtain ⟨message, hrequest, hsent⟩ :=
    exists_sent_of_mem_calls hs (MessageSettings.body?_of_supplied? htext) hcall
  refine ⟨message, hrequest, ?_⟩
  have hnothing : Template.interpolate "" e.vars = "" := rfl
  by_cases hempty : settings.message = some ""
  · rw [if_pos hempty, hnothing] at hsent
    refine ⟨⟨fun h => .inr (h.symm.trans hsent), fun h => ?_⟩, fun _ => hsent⟩
    exact hsent.trans (h.resolve_left (not_not_intro hempty)).symm
  · rw [if_neg hempty] at hsent
    exact ⟨iff_of_true hsent (.inl hempty), fun h => absurd h hempty⟩

/-- Settings with a recipient, a message and a template. -/
def letter (message template : String) : Node where
  id := "a"
  type := .sendMessage
  name := ""
  settings := .record [("recipient", .string "+1"), ("message", .string message),
    ("template", .string template)]
  connections := []
  position := none

/-- A message with a place for a name. -/
def greeting : String := "Hi \x7b\x7bname\x7d\x7d"

/-- The message is sent, with the name filled in. -/
theorem greeting_sent :
    let e := Execution.create Wake.outage.moment "f" none [("name", .string "Ada")]
    let n := letter greeting ""
    let calls := ((messaging Channel.all).perform default n e).calls fun _ => .outage
    ((messaging Channel.all).examine n.settings).isValid = true ∧ calls.length = 1 ∧
      ∀ call ∈ calls, ∃ message, call.request = .send message ∧ message.body = "Hi Ada" := by
  refine ⟨by decide, rfl, fun call hcall => ?_⟩
  obtain ⟨settings, text, hs, htext, -, hsent⟩ :=
    @sent_text_iff Channel.all (letter greeting "") (by decide) default
      (.create Wake.outage.moment "f" none [("name", .string "Ada")]) fun _ => .outage
  obtain ⟨message, hrequest, hbody, -⟩ := hsent call hcall
  obtain rfl : settings = ⟨none, some "+1", some greeting, some "", none⟩ :=
    (Except.ok.inj hs).symm
  obtain rfl : text = greeting := (Option.some.inj htext).symm
  have hfilled : Template.interpolate greeting [("name", .string "Ada")] = "Hi Ada" := by cbv
  exact ⟨message, hrequest, (hbody.mpr (.inl (by decide))).trans hfilled⟩

/-- A message that is empty hides a template: the settings are accepted, and what is sent is empty
although the template is not. -/
theorem empty_message_sent :
    let e := Execution.create Wake.outage.moment "f" none []
    let n := letter "" "Hi"
    ((messaging Channel.all).examine n.settings).isValid = true ∧
      (((messaging Channel.all).perform default n e).calls fun _ => .outage).map Exchange.request =
        [.send ⟨.whatsapp, "+1", "", none⟩] ∧
      Template.interpolate "Hi" e.vars ≠ "" :=
  ⟨by decide, rfl, by decide⟩

end Executor.Messaging

end Outreach
