import Mathlib.Logic.Function.Basic
import Outreach.Configuration.Environment
import Outreach.Proofs.Number.Reading
import Outreach.Proofs.Text.Blank

/-!
# What the environment sets

A configuration is made up of fifteen settings. Each has a variable of its own and a form in which
the variable states it (`Setting.name`, `Form.Says`). Where the variable says something in the
form, the setting is that; where it does not, the setting stays as it is. No variable reaches another
setting, and to be told the same again changes nothing (`Configuration.override_exact`).
-/

namespace Outreach

/-- What a configuration has for a setting: a number, or a text that may be missing. -/
inductive SettingValue where
  | number (n : Nat)
  | text (t : Option String)
  deriving DecidableEq, Repr

/-- The forms in which variables state settings: a number of so many bits, or a text. -/
inductive Form where
  | number (bits : Nat)
  | text
  deriving DecidableEq, Repr

/-- What a text says in a form. -/
inductive Form.Says : Form → String → SettingValue → Prop
  /-- Digits, perhaps behind a plus, with white space around them or without. -/
  | number {bits : Nat} {raw : String} {front sign digits back : List Char}
    (htrims : Text.Trims raw.toList front (sign ++ digits) back) (hsign : sign = [] ∨ sign = ['+'])
    (hne : digits ≠ []) (hdigits : ∀ c ∈ digits, Numeral.isDigit c = true)
    (hfits : Numeral.read digits < 2 ^ bits) :
    Says (.number bits) raw (.number (Numeral.read digits))
  /-- Anything with a character that is no white space, as it is. -/
  | text {raw : String} {c : Char} (hc : c ∈ raw.toList) (hblank : c.toNat ∉ Text.blankPoints) :
    Says .text raw (.text (some raw))

/-- The settings that a configuration is made up of. -/
inductive Setting where
  | concurrent
  | timeout
  | retries
  | retryDelay
  | nodes
  | depth
  | keepFor
  | deliveryTimeout
  | whatsappUrl
  | whatsappToken
  | completionUrl
  | completionKey
  | completionModel
  | contactsUrl
  | analyticsUrl
  deriving DecidableEq, Repr

namespace Setting

/-- The variable that states a setting. -/
def name : Setting → String
  | concurrent => "MAX_CONCURRENT_EXECUTIONS"
  | timeout => "EXECUTION_TIMEOUT"
  | retries => "MAX_RETRY_ATTEMPTS"
  | retryDelay => "RETRY_DELAY"
  | nodes => "MAX_FLOW_NODES"
  | depth => "MAX_FLOW_DEPTH"
  | keepFor => "FLOW_CACHE_TTL"
  | deliveryTimeout => "DELIVERY_TIMEOUT"
  | whatsappUrl => "WHATSAPP_SERVICE_URL"
  | whatsappToken => "WHATSAPP_API_TOKEN"
  | completionUrl => "AI_API_URL"
  | completionKey => "AI_API_KEY"
  | completionModel => "AI_MODEL"
  | contactsUrl => "CONTACT_SERVICE_URL"
  | analyticsUrl => "ANALYTICS_SERVICE_URL"

/-- The form in which the variable states it: counts and times are words of the machine, the number
of retries half a one, and all else is text. -/
def form : Setting → Form
  | retries => .number 32
  | concurrent | timeout | retryDelay | nodes | depth | keepFor | deliveryTimeout => .number 64
  | whatsappUrl | whatsappToken | completionUrl | completionKey | completionModel | contactsUrl
  | analyticsUrl => .text

theorem name_injective : Function.Injective Setting.name := by
  intro s s' h
  cases s <;> cases s' <;> first | rfl | simp [Setting.name] at h

end Setting

namespace Configuration

/-- What a configuration has for a setting. -/
def valueOf (c : Configuration) : Setting → SettingValue
  | .concurrent => .number c.limits.concurrent
  | .timeout => .number c.limits.timeout
  | .retries => .number c.limits.retries
  | .retryDelay => .number c.limits.retryDelay
  | .nodes => .number c.limits.nodes
  | .depth => .number c.limits.depth
  | .keepFor => .number c.limits.keepFor
  | .deliveryTimeout => .number c.addresses.timeout
  | .whatsappUrl => .text c.addresses.whatsappUrl
  | .whatsappToken => .text c.addresses.whatsappToken
  | .completionUrl => .text c.addresses.completionUrl
  | .completionKey => .text c.addresses.completionKey
  | .completionModel => .text (some c.addresses.completionModel)
  | .contactsUrl => .text c.addresses.contactsUrl
  | .analyticsUrl => .text c.addresses.analyticsUrl

/-- The settings are all that a configuration is made up of. -/
theorem valueOf_injective : Function.Injective valueOf := by
  rintro ⟨l, a⟩ ⟨l', a'⟩ h
  have hvalue (s : Setting) := congrFun h s
  obtain ⟨⟩ := l
  obtain ⟨⟩ := l'
  obtain ⟨⟩ := a
  obtain ⟨⟩ := a'
  simp only [mk.injEq, Limits.mk.injEq, ServiceAddresses.mk.injEq]
  have hnumber {m n : Nat} (h : SettingValue.number m = .number n) : m = n :=
    SettingValue.number.inj h
  have htext {t u : Option String} (h : SettingValue.text t = .text u) : t = u :=
    SettingValue.text.inj h
  exact ⟨⟨hnumber (hvalue .concurrent), hnumber (hvalue .timeout), hnumber (hvalue .retries),
    hnumber (hvalue .retryDelay), hnumber (hvalue .nodes), hnumber (hvalue .depth),
    hnumber (hvalue .keepFor)⟩, htext (hvalue .whatsappUrl), htext (hvalue .whatsappToken),
    hnumber (hvalue .deliveryTimeout), htext (hvalue .completionUrl), htext (hvalue .completionKey),
    Option.some.inj (htext (hvalue .completionModel)), htext (hvalue .contactsUrl),
    htext (hvalue .analyticsUrl)⟩

end Configuration

/-! ## What a variable says -/

namespace Environment

variable {env : Environment} {name : String}

/-- What a variable says in a form, if it says anything. -/
def said? (env : Environment) (name : String) : Form → Option SettingValue
  | .number bits => (env.number? bits name).map .number
  | .text => (env.text? name).map fun t => .text (some t)

theorem number?_eq_some_iff {bits n : Nat} :
    env.number? bits name = some n ↔
      ∃ raw, env name = some raw ∧ (Form.number bits).Says raw (.number n) := by
  simp only [number?, Option.bind_eq_some_iff, Numeral.below?_eq_some_iff, Numeral.isNumeral_iff,
    Nat.pow_eq]
  refine exists_congr fun raw => and_congr_right fun _ => ⟨?_, ?_⟩
  · rintro ⟨sign, digits, htrim, hsign, ⟨hne, hdigits⟩, rfl, hfits⟩
    obtain ⟨front, back, htrims⟩ := Text.exists_trims raw.toList
    rw [htrim] at htrims
    exact .number htrims hsign hne hdigits hfits
  · intro hsays
    cases hsays with
    | number htrims hsign hne hdigits hfits =>
      exact ⟨_, _, htrims.eq_trim, hsign, ⟨hne, hdigits⟩, rfl, hfits⟩

theorem text?_eq_some_iff {t : String} :
    env.text? name = some t ↔ ∃ raw, env name = some raw ∧ Form.text.Says raw (.text (some t)) := by
  have hblank : Text.isBlankText t = false ↔ ∃ c ∈ t.toList, c.toNat ∉ Text.blankPoints := by
    simp [Text.isBlankText, ← Text.isBlank_iff]
  simp only [text?, Option.filter_eq_some_iff, Bool.not_eq_true', hblank]
  constructor
  · rintro ⟨hname, c, hc, hblank⟩
    exact ⟨t, hname, .text hc hblank⟩
  · rintro ⟨raw, hname, hsays⟩
    cases hsays with
    | text hc hblank => exact ⟨hname, _, hc, hblank⟩

/-- A variable says what its text says. -/
theorem said?_eq_some_iff {form : Form} {v : SettingValue} :
    env.said? name form = some v ↔ ∃ raw, env name = some raw ∧ form.Says raw v := by
  cases form with
  | number bits =>
    simp only [said?, Option.map_eq_some_iff, number?_eq_some_iff]
    constructor
    · rintro ⟨n, h, rfl⟩
      exact h
    · rintro ⟨raw, hname, hsays⟩
      cases hsays with
      | number htrims hsign hne hdigits hfits =>
        exact ⟨_, ⟨raw, hname, .number htrims hsign hne hdigits hfits⟩, rfl⟩
  | text =>
    simp only [said?, Option.map_eq_some_iff, text?_eq_some_iff]
    constructor
    · rintro ⟨t, h, rfl⟩
      exact h
    · rintro ⟨raw, hname, hsays⟩
      cases hsays with
      | text hc hblank => exact ⟨raw, ⟨raw, hname, .text hc hblank⟩, rfl⟩

theorem said?_eq_none_iff {form : Form} :
    env.said? name form = none ↔ ∀ raw v, env name = some raw → ¬ form.Says raw v := by
  simp only [Option.eq_none_iff_forall_ne_some, ne_eq, said?_eq_some_iff, not_exists, not_and]
  exact forall_comm

/-- A variable that says the same is heard the same. -/
theorem said?_congr {env' : Environment} (h : env name = env' name) (form : Form) :
    env.said? name form = env'.said? name form := by
  cases form <;> simp [said?, number?, text?, h]

end Environment

namespace Configuration

/-- A setting has what its variable says, or else what it had. -/
theorem valueOf_override (c : Configuration) (env : Environment) (s : Setting) :
    (c.override env).valueOf s = (env.said? s.name s.form).getD (c.valueOf s) := by
  have hnumber (found : Option Nat) (n : Nat) :
      SettingValue.number (found.getD n) = (found.map SettingValue.number).getD (.number n) := by
    cases found <;> rfl
  have htext (found : Option String) (t : Option String) : SettingValue.text (found.or t) =
      (found.map fun raw => SettingValue.text (some raw)).getD (.text t) := by
    cases found <;> rfl
  have hname (found : Option String) (t : String) : SettingValue.text (some (found.getD t)) =
      (found.map fun raw => SettingValue.text (some raw)).getD (.text (some t)) := by
    cases found <;> rfl
  cases s <;> first | exact hnumber _ _ | exact htext _ _ | exact hname _ _

/-- **Every setting goes by its own variable and by nothing else**, whatever the configuration and
the environment. A setting becomes what its variable says in the form that the setting has: the
number that fits its word, or the text as it is. If the variable is missing or says nothing in that
form, the setting stays as it was. Whatever any other variable says, this does not change. Nor does
it change anything to be told the same again. The variables of the settings are different ones, and
the settings make up the configuration. -/
theorem override_exact (c : Configuration) (env : Environment) :
    (∀ s raw v, env s.name = some raw → s.form.Says raw v → (c.override env).valueOf s = v) ∧
      (∀ s, (∀ raw v, env s.name = some raw → ¬ s.form.Says raw v) →
        (c.override env).valueOf s = c.valueOf s) ∧
      (∀ (s : Setting) (name : String) (other : Option String), s.name ≠ name →
        (c.override (Function.update env name other)).valueOf s = (c.override env).valueOf s) ∧
      (c.override env).override env = c.override env ∧
      Function.Injective Setting.name ∧ Function.Injective valueOf := by
  refine ⟨?_, ?_, ?_, ?_, Setting.name_injective, valueOf_injective⟩
  · intro s raw v hname hsays
    have hsaid : env.said? s.name s.form = some v :=
      Environment.said?_eq_some_iff.mpr ⟨raw, hname, hsays⟩
    rw [valueOf_override, hsaid, Option.getD_some]
  · intro s hsilent
    rw [valueOf_override, Environment.said?_eq_none_iff.mpr hsilent, Option.getD_none]
  · intro s name other hne
    have hsame : Function.update env name other s.name = env s.name :=
      Function.update_of_ne hne other env
    rw [valueOf_override, valueOf_override, Environment.said?_congr hsame]
  · apply valueOf_injective
    funext s
    rw [valueOf_override, valueOf_override]
    cases env.said? s.name s.form <;> rfl

/-- The case of a number with white space around it, beside a text that is no number. -/
example : (standard.override fun name =>
      if name = "RETRY_DELAY" then some " +250 " else if name = "MAX_FLOW_NODES" then some "-1"
      else none).limits = { Limits.standard with retryDelay := 250 } := by
  decide +kernel

end Configuration

end Outreach
