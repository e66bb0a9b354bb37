/-!
# How texts begin

Whatever is put behind a text, it still begins with the words that it began with. So texts that begin
differently stay different (`Text.Apart.append`, `Text.BeginsWith.ne`).
-/

namespace Outreach.Text

/-- A text begins with given words. -/
def BeginsWith (start text : String) : Prop :=
  start.toList <+: text.toList

/-- Two texts, neither of which begins with the other. -/
def Apart (a b : String) : Prop :=
  ¬ a.toList <+: b.toList ∧ ¬ b.toList <+: a.toList

instance (a b : String) : Decidable (Apart a b) :=
  inferInstanceAs (Decidable (_ ∧ _))

variable {start text : String}

namespace BeginsWith

theorem self (start : String) : BeginsWith start start := List.prefix_rfl

theorem append (h : BeginsWith start text) (rest : String) : BeginsWith start (text ++ rest) := by
  rw [BeginsWith, String.toList_append]
  exact List.IsPrefix.trans h (List.prefix_append _ _)

theorem ne {other : String} (h : BeginsWith start text) (hother : ¬ BeginsWith start other) :
    other ≠ text := by
  rintro rfl
  exact hother h

end BeginsWith

namespace Apart

theorem append (h : Apart start text) (rest : String) : Apart start (text ++ rest) := by
  have hpre : BeginsWith text (text ++ rest) := (BeginsWith.self text).append rest
  refine ⟨fun hstart => ?_, fun htext => h.2 (hpre.trans htext)⟩
  rcases List.prefix_or_prefix_of_prefix hstart hpre with hp | hp
  · exact h.1 hp
  · exact h.2 hp

theorem ne (h : Apart start text) : start ≠ text := by
  rintro rfl
  exact h.1 List.prefix_rfl

end Apart

end Outreach.Text
