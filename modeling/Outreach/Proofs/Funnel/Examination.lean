import Outreach.Proofs.Executor.BuiltIn

/-!
# When a funnel is valid

An examination never calls a funnel invalid without saying why, and never lists an error of a funnel
that it calls valid, as long as the executors do neither (`Verdict.IsFair`). So its verdict, its list
of errors and what it asks of a funnel say the same (`Funnel.validate_exact`).
-/

namespace Outreach

/-! ## Fair verdicts -/

/-- A verdict that is valid exactly if it lists no error. -/
def Verdict.IsFair (v : Verdict) : Prop :=
  v.isValid = true ↔ v.errors = []

namespace Verdict.IsFair

variable {v part : Verdict}

theorem valid : Verdict.valid.IsFair :=
  iff_of_true rfl rfl

theorem error (v : Verdict) (message : String) : (v.error message).IsFair :=
  iff_of_false Bool.false_ne_true (List.append_ne_nil_of_right_ne_nil _ (List.cons_ne_nil _ _))

theorem warning (h : v.IsFair) (message : String) : (v.warning message).IsFair := h

theorem errorIf (h : v.IsFair) (found : Bool) (message : String) :
    (v.errorIf found message).IsFair := by
  cases found with
  | true => exact error v message
  | false => exact h

theorem warningIf (h : v.IsFair) (found : Bool) (message : String) :
    (v.warningIf found message).IsFair := by
  cases found with
  | true => exact h.warning message
  | false => exact h

theorem absorb (h : v.IsFair) (scope : String) (hpart : part.IsFair) :
    (v.absorb scope part).IsFair := by
  have hv : v.isValid = true ↔ v.errors = [] := h
  have hp : part.isValid = true ↔ part.errors = [] := hpart
  have herrors : (v.absorb scope part).errors = [] ↔ v.errors = [] ∧ part.errors = [] := by
    simp [Verdict.absorb]
  rw [IsFair, herrors, isValid_absorb, Bool.and_eq_true, Bool.and_eq_true, List.isEmpty_iff, hv, hp,
    and_assoc, and_self]

theorem foldl {α : Type} {check : Verdict → α → Verdict}
    (hcheck : ∀ v a, v.IsFair → (check v a).IsFair) (h : v.IsFair) (items : List α) :
    (items.foldl check v).IsFair :=
  List.foldlRecOn _ _ h fun v hv a _ => hcheck v a hv

end Verdict.IsFair

/-! ## Fair executors -/

/-- An executor all of whose verdicts are fair. -/
def Executor.IsFair (x : Executor) : Prop :=
  ∀ settings, (x.examine settings).IsFair

namespace Executor

open Verdict (IsFair)

theorem isFair_examineSettings {α : Type} {layout : Layout α} {check : α → Verdict}
    (h : ∀ a, (check a).IsFair) (settings : Json) :
    (examineSettings layout check settings).IsFair := by
  unfold examineSettings
  split
  next a _ => exact h a
  next => exact IsFair.error _ _

theorem isFair_trigger : trigger.IsFair := fun _ => IsFair.valid.errorIf _ _

theorem isFair_messaging (channels : List Channel) : (messaging channels).IsFair := by
  refine isFair_examineSettings fun settings => IsFair.errorIf (IsFair.errorIf ?_ _ _) _ _
  cases settings.channel with
  | none => exact IsFair.valid.warning _
  | some channel => exact IsFair.valid.warningIf _ _

theorem isFair_completing : completing.IsFair := by
  refine isFair_examineSettings fun settings => ?_
  have hprompt := IsFair.valid.errorIf (Text.isBlankText settings.prompt) "prompt is required"
  unfold Completing.check
  cases settings.temperature with
  | none => exact hprompt
  | some t => exact hprompt.warningIf _ _

theorem isFair_http : http.IsFair := by
  refine isFair_examineSettings fun settings => IsFair.errorIf ?_ _ _
  split
  next => exact IsFair.error _ _
  next => exact IsFair.valid.errorIf _ _

theorem isFair_builtIn? {channels : List Channel} {type : NodeType} {x : Executor}
    (hx : builtIn? channels type = some x) : x.IsFair := by
  cases type with
  | trigger => cases hx; exact isFair_trigger
  | sendMessage => cases hx; exact isFair_messaging channels
  | sendWhatsapp => cases hx; exact isFair_messaging channels
  | sendEmail => cases hx; exact isFair_messaging channels
  | sendSms => cases hx; exact isFair_messaging channels
  | aiResponse => cases hx; exact isFair_completing
  | condition =>
    cases hx
    exact isFair_examineSettings fun _ => (IsFair.valid.errorIf _ _).errorIf _ _
  | delay =>
    cases hx
    exact isFair_examineSettings fun _ => IsFair.valid.warningIf _ _
  | webhook => cases hx; exact isFair_http
  | apiCall => cases hx; exact isFair_http
  | updateContact =>
    cases hx
    exact isFair_examineSettings fun _ => (IsFair.valid.errorIf _ _).warningIf _ _
  | trackEvent =>
    cases hx
    exact isFair_examineSettings fun _ => IsFair.valid.errorIf _ _
  | finish =>
    cases hx
    exact isFair_examineSettings fun _ => IsFair.valid
  | custom label => cases hx

end Executor

/-- A registry all of whose executors are fair. -/
def Registry.IsFair (registry : Registry) : Prop :=
  ∀ type x, registry.executor? type = some x → x.IsFair

namespace Registry

/-- Gives further types a meaning, one after the other. -/
def extend (registry : Registry) (added : List (NodeType × Executor)) : Registry :=
  added.foldl (fun registry entry => registry.register entry.1 entry.2) registry

theorem isFair_builtIn (channels : List Channel) : (builtIn channels).IsFair := by
  intro type x hx
  rw [executor?_builtIn] at hx
  exact Executor.isFair_builtIn? hx

theorem IsFair.register {registry : Registry} (h : registry.IsFair) (type : NodeType) {x : Executor}
    (hx : x.IsFair) : (registry.register type x).IsFair := by
  intro other y hy
  rw [executor?_register] at hy
  split at hy
  next =>
    cases hy
    exact hx
  next => exact h other y hy

theorem IsFair.extend {registry : Registry} (h : registry.IsFair)
    {added : List (NodeType × Executor)} (hadded : ∀ entry ∈ added, entry.2.IsFair) :
    (registry.extend added).IsFair :=
  List.foldlRecOn _ _ h fun _ hr entry hentry => hr.register entry.1 (hadded entry hentry)

end Registry

/-! ## Examinations -/

namespace Funnel

variable {f : Funnel} {registry : Registry} {limits : Limits} {v : Verdict}

theorem isFair_checkIds (seen : List String) (nodes : List Node) (h : v.IsFair) :
    (checkIds seen nodes v).IsFair := by
  induction nodes generalizing seen v with
  | nil => exact h
  | cons n rest ih => exact ih _ (h.errorIf _ _)

theorem isFair_checkConnection (f : Funnel) (n : Node) (v : Verdict) (c : Connection) (h : v.IsFair) :
    (f.checkConnection n v c).IsFair := by
  unfold checkConnection
  dsimp only
  cases c.condition with
  | none => exact (h.warningIf _ _).errorIf _ _
  | some condition =>
    unfold checkCondition
    exact (((h.warningIf _ _).errorIf _ _).errorIf _ _).errorIf _ _

theorem isFair_checkNode (hregistry : registry.IsFair) (v : Verdict) (n : Node) (h : v.IsFair) :
    (f.checkNode registry v n).IsFair := by
  refine Verdict.IsFair.foldl (f.isFair_checkConnection n) ?_ _
  cases hx : registry.executor? n.type with
  | none => exact .error _ _
  | some x => exact h.absorb _ (hregistry _ _ hx _)

theorem isFair_checkGraph (h : v.IsFair) : (f.checkGraph limits v).IsFair := by
  unfold checkGraph
  dsimp only
  split
  next => exact .error _ _
  next =>
    split
    next => exact h
    next => exact h.errorIf _ _

/-- With fair executors every examination is fair. -/
theorem isFair_validate (hregistry : registry.IsFair) (f : Funnel) (limits : Limits) :
    (f.validate registry limits).IsFair := by
  unfold validate
  split
  next => exact .error _ _
  next =>
    refine isFair_checkGraph (Verdict.IsFair.foldl (isFair_checkNode hregistry) ?_ _)
    exact (isFair_checkIds _ _ (Verdict.IsFair.valid.errorIf _ _)).errorIf _ _

/-- **What an examination says.** With the built-in executors, and any fair ones that were added, a
verdict is valid exactly if it lists no error, and exactly if the funnel is what is asked for:
conditions that are meaningful, targets that exist, executors that find nothing wrong, no cycle, and
no path from the entry that is too long. -/
theorem validate_exact (channels : List Channel) {added : List (NodeType × Executor)}
    (hadded : ∀ entry ∈ added, entry.2.IsFair) (f : Funnel) (limits : Limits) :
    let registry := (Registry.builtIn channels).extend added
    ((f.validate registry limits).isValid = true ↔ (f.validate registry limits).errors = []) ∧
      ((f.validate registry limits).isValid = true ↔ f.Accepted registry limits) := by
  intro registry
  have hregistry : registry.IsFair := (Registry.isFair_builtIn channels).extend hadded
  exact ⟨isFair_validate hregistry f limits, isValid_validate_iff⟩

/-- A trigger from which two ways lead to the end, one of them over an errand. -/
def forked : Funnel where
  id := "forked"
  name := ""
  description := none
  version := 1
  nodes := [
    ⟨"a", .trigger, "", .null, [⟨"ab", "a", "b", none⟩, ⟨"ac", "a", "c", none⟩], none⟩,
    ⟨"b", .custom "errand", "", .null, [⟨"bc", "b", "c", none⟩], none⟩,
    ⟨"c", .finish, "", .null, [], none⟩]
  tags := []
  metadata := []

/-- The longer way counts: three nodes are enough for the limit, and two are not. -/
theorem forked_is_three_deep :
    let added : List (NodeType × Executor) := [(.custom "errand", .delegating "errand" false)]
    let registry := (Registry.builtIn []).extend added
    (∀ entry ∈ added, entry.2.IsFair) ∧
      forked.Accepted registry { Limits.standard with depth := 3 } ∧
      ¬ forked.Accepted registry { Limits.standard with depth := 2 } := by
  intro added registry
  have hadded : ∀ entry ∈ added, entry.2.IsFair := by
    rintro _ hmem
    obtain rfl := List.mem_singleton.mp hmem
    exact fun _ => Verdict.IsFair.valid
  refine ⟨hadded, ?_, fun haccepted => ?_⟩
  · exact (validate_exact [] hadded forked _).2.mp (by decide)
  · have hvalid := (validate_exact [] hadded forked _).2.mpr haccepted
    revert hvalid
    decide

end Funnel

end Outreach
