import Outreach.Executor.BuiltIn
import Outreach.Proofs.Funnel.Acceptance
import Outreach.Proofs.Text.Start

/-!
# What the built-in executors bring about

A built-in executor comes to a result at once or after a single wait. At a node whose settings pass
its examination the result is never a complaint about the settings and carries no remark, and the
only results that name a node to jump to are those of conditions (`Executor.ends_of_builtIn?`).
-/

namespace Outreach

/-! ## Tasks -/

/-- A result without a remark whose error, if it has one, is no complaint about settings. -/
structure ActionResult.IsPlain (r : ActionResult) : Prop where
  metadata : r.metadata = []
  error : ∀ text, r.error = some text → ¬ SettingsFault.start.toList <+: text.toList

/-- A plain result that names no node to jump to. -/
structure ActionResult.IsUndirected (r : ActionResult) : Prop extends r.IsPlain where
  nextNode : r.nextNode = none

namespace ActionResult.IsUndirected

theorem proceed : ActionResult.proceed.IsUndirected := ⟨⟨rfl, by rintro _ ⟨⟩⟩, rfl⟩

theorem finish : ActionResult.finish.IsUndirected := ⟨⟨rfl, by rintro _ ⟨⟩⟩, rfl⟩

theorem failure {text : String} (h : Text.Apart SettingsFault.start text) :
    (ActionResult.failure text).IsUndirected := by
  refine ⟨⟨rfl, ?_⟩, rfl⟩
  rintro _ ⟨⟩
  exact h.1

variable {r : ActionResult}

theorem withVariables (h : r.IsUndirected) (added : Variables) :
    (r.withVariables added).IsUndirected := ⟨⟨h.metadata, h.error⟩, h.nextNode⟩

theorem withVariable (h : r.IsUndirected) (name : String) (value : Json) :
    (r.withVariable name value).IsUndirected := h.withVariables _

theorem withData (h : r.IsUndirected) (data : Json) : (r.withData data).IsUndirected :=
  ⟨⟨h.metadata, h.error⟩, h.nextNode⟩

end ActionResult.IsUndirected

/-- A task that comes to a result at once, of which `first` holds, or waits once and then comes to a
result of which `later` holds. -/
inductive Task.Ends (first later : ActionResult → Prop) : Task → Prop
  | done {result : ActionResult} (h : first result) : Ends first later (.done result)
  | sleep {time : Nat} {next : Instant → Task}
    (h : ∀ now, ∃ result, next now = .done result ∧ later result) :
    Ends first later (.sleep time next)
  | ask {request : Request} {next : Instant → Reply request → Task}
    (h : ∀ now reply, ∃ result, next now reply = .done result ∧ later result) :
    Ends first later (.ask request next)

namespace Task.Ends

variable {first later : ActionResult → Prop} {task : Task}

theorem mono {first' later' : ActionResult → Prop} (h : task.Ends first later)
    (hf : ∀ r, first r → first' r) (hl : ∀ r, later r → later' r) : task.Ends first' later' := by
  cases h with
  | done h => exact .done (hf _ h)
  | sleep h =>
    refine .sleep fun now => ?_
    obtain ⟨r, hr, hlater⟩ := h now
    exact ⟨r, hr, hl r hlater⟩
  | ask h =>
    refine .ask fun now reply => ?_
    obtain ⟨r, hr, hlater⟩ := h now reply
    exact ⟨r, hr, hl r hlater⟩

theorem withSettings {α : Type} {layout : Layout α} {node : Node} {work : α → Task}
    (hread : ∃ settings, node.settingsAs layout = .ok settings)
    (h : ∀ settings, node.settingsAs layout = .ok settings → (work settings).Ends first later) :
    (Executor.withSettings layout node work).Ends first later := by
  obtain ⟨settings, hs⟩ := hread
  rw [Executor.withSettings, hs]
  exact h settings hs

end Task.Ends

/-- A meaningful condition has an answer, whatever the variables. -/
theorem Condition.IsMeaningful.exists_evaluate {c : Condition} (h : c.IsMeaningful)
    (vars : Variables) : ∃ answer, c.evaluate vars = .ok answer := by
  obtain ⟨field, operator, value⟩ := c
  unfold Condition.evaluate
  rw [h.field]
  cases operator with
  | unknown label => exact absurd h.operator (by simp [Operator.isKnown])
  | _ => exact ⟨_, rfl⟩

/-- The node to jump to that a condition chooses at some values of the variables, if the node is a
condition and names one. -/
def Node.jump? (n : Node) (vars : Variables) : Option String :=
  if n.type = .condition then
    match n.settingsAs BranchSettings.layout with
    | .ok settings => (Executor.Branch.choose settings vars).nextNode
    | .error _ => none
  else none

namespace Executor

variable {channels : List Channel} {n : Node}

/-- Settings that pass an examination can be read, and pass the check of what is read. -/
theorem settingsAs_of_isValid {α : Type} {layout : Layout α} {check : α → Verdict}
    (h : (examineSettings layout check n.settings).isValid = true) :
    ∃ settings, n.settingsAs layout = .ok settings ∧ (check settings).isValid = true := by
  unfold examineSettings at h
  split at h
  next settings hs =>
    refine ⟨settings, ?_, h⟩
    rw [Node.settingsAs, hs]
    rfl
  next => simp at h

open ActionResult (IsUndirected)
open SettingsFault (start)

theorem ends_trigger (now : Instant) (e : Execution) :
    (trigger.perform now n e).Ends IsUndirected IsUndirected :=
  .done ((IsUndirected.proceed.withVariable _ _).withData _)

theorem apart_label (channel : Channel) : Text.Apart start channel.label := by
  cases channel <;> decide

theorem ends_messaging (h : ((messaging channels).examine n.settings).isValid = true)
    (now : Instant) (e : Execution) :
    ((messaging channels).perform now n e).Ends IsUndirected IsUndirected := by
  obtain ⟨settings, hs, -⟩ := settingsAs_of_isValid h
  refine .withSettings ⟨settings, hs⟩ fun settings _ => ?_
  dsimp only
  split
  next => exact .done (IsUndirected.failure (by decide))
  next body _ =>
    split
    next => exact .done (IsUndirected.failure (by decide))
    next =>
      split
      next =>
        refine .ask fun now reply => ⟨_, rfl, ?_⟩
        cases reply with
        | ok receipt => exact (IsUndirected.proceed.withVariable _ _).withData _
        | error fault =>
          exact IsUndirected.failure (((apart_label _).append _).append _)
      next =>
        have hapart : Text.Apart start "no sender configured for channel '" := by decide
        exact .done (IsUndirected.failure ((hapart.append _).append _))

theorem ends_completing (h : (completing.examine n.settings).isValid = true) (now : Instant)
    (e : Execution) : (completing.perform now n e).Ends IsUndirected IsUndirected := by
  obtain ⟨settings, hs, -⟩ := settingsAs_of_isValid h
  refine .withSettings ⟨settings, hs⟩ fun settings _ => .ask fun now reply => ⟨_, rfl, ?_⟩
  cases reply with
  | ok reply => exact (IsUndirected.proceed.withVariable _ _).withData _
  | error fault =>
    have hapart : Text.Apart start "AI generation failed: " := by decide
    exact IsUndirected.failure (hapart.append _)

theorem apart_of_mem_methods {method : String} (h : method ∈ Http.methods) :
    Text.Apart start (method ++ " ") := by
  have hall : ∀ method ∈ Http.methods, Text.Apart start method := by decide
  exact (hall method h).append _

theorem ends_http (h : (http.examine n.settings).isValid = true) (now : Instant) (e : Execution) :
    (http.perform now n e).Ends IsUndirected IsUndirected := by
  obtain ⟨settings, hs, hcheck⟩ := settingsAs_of_isValid h
  refine .withSettings ⟨settings, hs⟩ fun other hother => .ask fun now reply => ⟨_, rfl, ?_⟩
  obtain rfl : settings = other := Except.ok.inj (hs.symm.trans hother)
  have hmethod : settings.verb ∈ Http.methods := by
    rw [Http.check, Verdict.isValid_errorIf] at hcheck
    simpa using (Bool.and_eq_true_iff.mp hcheck).2
  have hapart := apart_of_mem_methods hmethod
  cases reply with
  | ok reply =>
    dsimp only
    unfold Http.settle
    dsimp only
    split
    next =>
      split
      next name _ => exact (IsUndirected.proceed.withData _).withVariable _ _
      next => exact IsUndirected.proceed.withData _
    next => exact (IsUndirected.failure ((((hapart.append _).append _).append _))).withData _
  | error fault => exact IsUndirected.failure (((hapart.append _).append _).append _)

theorem ends_contact (h : (contact.examine n.settings).isValid = true) (now : Instant)
    (e : Execution) : (contact.perform now n e).Ends IsUndirected IsUndirected := by
  obtain ⟨settings, hs, -⟩ := settingsAs_of_isValid h
  refine .withSettings ⟨settings, hs⟩ fun settings _ => ?_
  dsimp only
  split
  next => exact .done (IsUndirected.failure (by decide))
  next =>
    refine .ask fun now reply => ⟨_, rfl, ?_⟩
    cases reply with
    | ok stored => exact (IsUndirected.proceed.withVariable _ _).withData _
    | error fault =>
      have hapart : Text.Apart start "contact update failed: " := by decide
      exact IsUndirected.failure (hapart.append _)

theorem ends_tracking (h : (tracking.examine n.settings).isValid = true) (now : Instant)
    (e : Execution) : (tracking.perform now n e).Ends IsUndirected IsUndirected := by
  obtain ⟨settings, hs, -⟩ := settingsAs_of_isValid h
  refine .withSettings ⟨settings, hs⟩ fun settings _ => .ask fun now reply => ⟨_, rfl, ?_⟩
  cases reply with
  | ok => exact IsUndirected.proceed.withVariable _ _
  | error fault =>
    have hapart : Text.Apart start "event tracking failed: " := by decide
    exact IsUndirected.failure (hapart.append _)

theorem ends_delay (h : (delay.examine n.settings).isValid = true) (now : Instant) (e : Execution) :
    (delay.perform now n e).Ends IsUndirected IsUndirected := by
  obtain ⟨settings, hs, -⟩ := settingsAs_of_isValid h
  exact .withSettings ⟨settings, hs⟩ fun settings _ =>
    .sleep fun now => ⟨_, rfl, IsUndirected.proceed.withData _⟩

theorem ends_finish (h : (Executor.finish.examine n.settings).isValid = true) (now : Instant)
    (e : Execution) : (Executor.finish.perform now n e).Ends IsUndirected IsUndirected := by
  obtain ⟨settings, hs, -⟩ := settingsAs_of_isValid h
  exact .withSettings ⟨settings, hs⟩ fun settings _ =>
    .done (IsUndirected.finish.withVariables _)

/-! ## Jumps -/

theorem isMeaningful_of_isValid {settings : BranchSettings}
    (h : (Branch.check settings).isValid = true) : settings.condition.IsMeaningful := by
  rw [Branch.check, Verdict.isValid_errorIf, Verdict.isValid_errorIf] at h
  obtain ⟨hfield, hoperator⟩ : Text.isBlankText settings.condition.field = false ∧
      settings.condition.operator.isKnown = true := by simpa using h
  exact ⟨hfield, hoperator⟩

/-- A choice by a meaningful condition carries no remark. -/
theorem isPlain_choose {settings : BranchSettings} (h : settings.condition.IsMeaningful)
    (vars : Variables) : (Branch.choose settings vars).IsPlain := by
  obtain ⟨answer, ha⟩ := h.exists_evaluate vars
  unfold Branch.choose
  rw [ha]
  dsimp only
  cases (if answer then settings.whenTrue else settings.whenFalse) with
  | none => exact ⟨rfl, by rintro _ ⟨⟩⟩
  | some id => exact ⟨rfl, by rintro _ ⟨⟩⟩

/-- A choice always works, and never stops a run. -/
theorem choose_goesOn (settings : BranchSettings) (vars : Variables) :
    (Branch.choose settings vars).success = true ∧
      (Branch.choose settings vars).shouldContinue = true := by
  unfold Branch.choose
  cases settings.condition.evaluate vars with
  | ok answer =>
    dsimp only
    split <;> exact ⟨rfl, rfl⟩
  | error fault =>
    dsimp only
    split <;> exact ⟨rfl, rfl⟩

/-- A choice names one of the two ways. -/
theorem exists_nextNode_choose (settings : BranchSettings) (vars : Variables) :
    ∃ answer : Bool, (Branch.choose settings vars).nextNode =
      if answer then settings.whenTrue else settings.whenFalse := by
  unfold Branch.choose
  cases settings.condition.evaluate vars with
  | ok answer =>
    refine ⟨answer, ?_⟩
    dsimp only
    cases (if answer then settings.whenTrue else settings.whenFalse) <;> rfl
  | error fault =>
    refine ⟨false, ?_⟩
    dsimp only
    cases (if false then settings.whenTrue else settings.whenFalse) <;> rfl

theorem jump?_of_settingsAs (hn : n.type = .condition) {settings : BranchSettings}
    (hs : n.settingsAs BranchSettings.layout = .ok settings)
    (vars : Variables) : n.jump? vars = (Branch.choose settings vars).nextNode := by
  rw [Node.jump?, if_pos hn, hs]

theorem ends_branch (h : (branch.examine n.settings).isValid = true)
    (hn : n.type = .condition) (now : Instant) (e : Execution) :
    (branch.perform now n e).Ends (fun r => r.IsPlain ∧ r.nextNode = n.jump? e.vars)
      IsUndirected := by
  obtain ⟨settings, hs, hcheck⟩ := settingsAs_of_isValid h
  refine .withSettings ⟨settings, hs⟩ fun other hother => ?_
  obtain rfl : settings = other := Except.ok.inj (hs.symm.trans hother)
  exact .done ⟨isPlain_choose (isMeaningful_of_isValid hcheck) e.vars,
    (jump?_of_settingsAs hn hs e.vars).symm⟩

/-! ## All of them -/

/-- **What a built-in executor brings about** at a node whose settings pass its examination. -/
theorem ends_of_builtIn? {type : NodeType} {x : Executor} (hx : builtIn? channels type = some x)
    (hn : n.type = type) (h : (x.examine n.settings).isValid = true) (now : Instant)
    (e : Execution) :
    (x.perform now n e).Ends (fun r => r.IsPlain ∧ r.nextNode = n.jump? e.vars) IsUndirected := by
  have hundirected (hne : type ≠ .condition)
      (hends : (x.perform now n e).Ends IsUndirected IsUndirected) :
      (x.perform now n e).Ends (fun r => r.IsPlain ∧ r.nextNode = n.jump? e.vars)
        IsUndirected := by
    have hnone : n.jump? e.vars = none := if_neg (hn ▸ hne)
    exact hends.mono (fun r hr => ⟨hr.toIsPlain, hr.nextNode.trans hnone.symm⟩) fun _ => id
  cases type with
  | trigger => cases hx; exact hundirected (by decide) (ends_trigger now e)
  | sendMessage => cases hx; exact hundirected (by decide) (ends_messaging h now e)
  | sendWhatsapp => cases hx; exact hundirected (by decide) (ends_messaging h now e)
  | sendEmail => cases hx; exact hundirected (by decide) (ends_messaging h now e)
  | sendSms => cases hx; exact hundirected (by decide) (ends_messaging h now e)
  | aiResponse => cases hx; exact hundirected (by decide) (ends_completing h now e)
  | condition => cases hx; exact ends_branch h hn now e
  | delay => cases hx; exact hundirected (by decide) (ends_delay h now e)
  | webhook => cases hx; exact hundirected (by decide) (ends_http h now e)
  | apiCall => cases hx; exact hundirected (by decide) (ends_http h now e)
  | updateContact => cases hx; exact hundirected (by decide) (ends_contact h now e)
  | trackEvent => cases hx; exact hundirected (by decide) (ends_tracking h now e)
  | finish => cases hx; exact hundirected (by decide) (ends_finish h now e)
  | custom label => cases hx

end Executor

/-! ## The registry -/

namespace Registry

/-- Types that are given their meanings one after the other have these, and others keep theirs. -/
theorem executor?_foldl (channels : List Channel) (types : List NodeType) (registry : Registry)
    (type : NodeType) :
    (types.foldl (fun registry type =>
      match Executor.builtIn? channels type with
      | some x => registry.register type x
      | none => registry) registry).executor? type =
      if type ∈ types then (Executor.builtIn? channels type).or (registry.executor? type)
      else registry.executor? type := by
  induction types generalizing registry with
  | nil => rfl
  | cons first rest ih =>
    rw [List.foldl_cons, ih]
    by_cases hfirst : first = type
    · subst hfirst
      cases hx : Executor.builtIn? channels first <;> simp [executor?_register]
    · have hmem : type ∈ first :: rest ↔ type ∈ rest := by simp [Ne.symm hfirst]
      cases hx : Executor.builtIn? channels first <;> simp [executor?_register, hfirst, hmem]

/-- The types with a meaning in the built-in registry are the built-in ones. -/
theorem executor?_builtIn (channels : List Channel) (type : NodeType) :
    (builtIn channels).executor? type = Executor.builtIn? channels type := by
  refine (executor?_foldl channels NodeType.builtIn [] type).trans ?_
  cases type <;> rfl

/-- A node that names a node to jump to works at once, and names it. -/
theorem perform_of_jump? {channels : List Channel} {n : Node} {x : Executor}
    (hx : (builtIn channels).executor? n.type = some x) (now : Instant) {e : Execution} {id : String}
    (hjump : n.jump? e.vars = some id) :
    ∃ r, x.perform now n e = .done r ∧ r.success = true ∧ r.shouldContinue = true ∧
      r.nextNode = some id := by
  unfold Node.jump? at hjump
  split at hjump
  next htype =>
    split at hjump
    next settings hs =>
      rw [executor?_builtIn, htype] at hx
      cases hx
      refine ⟨Executor.Branch.choose settings e.vars, ?_, ?_⟩
      · change Executor.withSettings BranchSettings.layout n _ = _
        rw [Executor.withSettings, hs]
      · obtain ⟨hsuccess, hcontinue⟩ := Executor.choose_goesOn settings e.vars
        exact ⟨hsuccess, hcontinue, hjump⟩
    next => cases hjump
  next => cases hjump

end Registry

/-- **What the executor of a node in an accepted funnel brings about.** -/
theorem Funnel.Accepted.ends {f : Funnel} {channels : List Channel} {limits : Limits}
    (h : f.Accepted (.builtIn channels) limits) {n : Node} (hn : n ∈ f.nodes) {x : Executor}
    (hx : (Registry.builtIn channels).executor? n.type = some x) (now : Instant) (e : Execution) :
    (x.perform now n e).Ends (fun r => r.IsPlain ∧ r.nextNode = n.jump? e.vars)
      ActionResult.IsUndirected := by
  obtain ⟨y, hy, hvalid, -⟩ := (h.nodes n hn).executor
  obtain rfl : x = y := Option.some.inj (hx.symm.trans hy)
  rw [Registry.executor?_builtIn] at hx
  exact Executor.ends_of_builtIn? hx rfl hvalid now e

end Outreach
