import PolicyAuthoring.Text.Digit
import PolicyAuthoring.Text.LowerCase

/-!
# Settings

Settings are read from the environment when they are first asked for and then kept until they are
reset, so that a later change of the environment does not show. Every variable has a default, and
a variable that cannot be understood counts as unset.
-/

namespace PolicyAuthoring

/-- The variables of the environment. -/
abbrev Environment := List (String × String)

/-- How the stems of rule identifiers are made. -/
inductive StemStrategy where
  /-- From the time of the compile. -/
  | timestamp
  /-- From a token that is never used twice. -/
  | unique
  deriving DecidableEq

namespace StemStrategy

/-- The word for a strategy. -/
def word : StemStrategy → String
  | .timestamp => "timestamp"
  | .unique => "uuid"

/-- The strategy that a text asks for. -/
def ofText (s : String) : StemStrategy :=
  if Text.lower (Text.strip s) = unique.word then .unique else .timestamp

end StemStrategy

/-- The settings in force. -/
structure Settings where
  /-- Whether debug messages are logged. -/
  verbose : Bool
  /-- How the stems of rule identifiers are made. -/
  strategy : StemStrategy
  /-- The length to which a short summary is cut. -/
  summaryMaxLength : Int

namespace Settings

/-- The length to which a short summary is cut by default. -/
def defaultSummaryMaxLength : Int := 120

/-- The texts that switch something on. -/
def onWords : List String := ["1", "true", "yes", "on"]

/-- Whether a variable switches something on. -/
def switchedOn (value : Option String) : Bool :=
  match value with
  | some s => onWords.contains (Text.lower s)
  | none => false

/-- The length that a variable sets, which has to leave room for more than the dots of a cut. -/
def lengthOf (value : Option String) : Int :=
  match value.bind Text.integer? with
  | some n => if 3 < n then n else defaultSummaryMaxLength
  | none => defaultSummaryMaxLength

/-- Read the settings from the environment. -/
def ofEnvironment (env : Environment) : Settings where
  verbose := switchedOn (env.lookup "POLICYWRIGHT_VERBOSE")
  strategy := StemStrategy.ofText ((env.lookup "POLICYWRIGHT_RULE_IDS").getD "timestamp")
  summaryMaxLength := lengthOf (env.lookup "POLICYWRIGHT_SUMMARY_MAX_LENGTH")

/-- The least level of the messages that are logged. -/
def logLevel (s : Settings) : Nat := if s.verbose then 10 else 30

/-- The length to which a short summary is cut always leaves room for more than the dots. -/
theorem three_lt_lengthOf (value : Option String) : 3 < lengthOf value := by
  unfold lengthOf defaultSummaryMaxLength
  split
  · split <;> omega
  · decide

end Settings

/-- The environment and the settings that were read from it, if they were asked for. -/
structure SettingsStore where
  /-- The environment now. -/
  env : Environment := []
  /-- The settings that are kept. -/
  kept : Option Settings := none

namespace SettingsStore

/-- The settings, read from the environment unless they are kept. -/
def settings (store : SettingsStore) : Settings :=
  store.kept.getD (Settings.ofEnvironment store.env)

/-- Ask for the settings, which are kept from then on. -/
def ask (store : SettingsStore) : SettingsStore := { store with kept := some store.settings }

/-- Switch debug messages on. -/
def enableVerbose (store : SettingsStore) : SettingsStore :=
  { store with kept := some { store.settings with verbose := true } }

/-- Forget the settings that are kept. -/
def reset (store : SettingsStore) : SettingsStore := { store with kept := none }

/-- Change the environment. -/
def setEnvironment (store : SettingsStore) (env : Environment) : SettingsStore :=
  { store with env }

end SettingsStore

end PolicyAuthoring
