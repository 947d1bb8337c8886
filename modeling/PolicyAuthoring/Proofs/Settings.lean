import PolicyAuthoring.Settings
import PolicyAuthoring.Proofs.ShortSummary
import Mathlib.Data.List.Induction

/-!
# Settings over a run

Settings are read when somebody first asks for them and are kept until they are forgotten, so what
is seen at the end of a run depends on a point in its past. `SettingsStore.Splits` finds that point:
every run falls into what happened up to the last reset, the changes of the environment until
somebody asked, and what happened since. The settings are the ones of the environment at the end of
the second part, and the third part can only switch debug messages on.

Whatever the variables hold, the length for short summaries leaves room for the dots, so that a
short summary is never longer than the settings allow.
-/

namespace PolicyAuthoring

/-! ## Variables -/

/-- A text asks for a strategy by its word, with blanks around it and in any case; every other text
asks for the default. -/
theorem StemStrategy.word_ofText (s : String) :
    (ofText s).word =
      if Text.lower (Text.strip s) ∈ [timestamp.word, unique.word] then Text.lower (Text.strip s)
      else timestamp.word := by
  have hwords : timestamp.word ≠ unique.word := by decide
  by_cases hunique : Text.lower (Text.strip s) = unique.word
  · simp [ofText, hunique]
  · by_cases htimestamp : Text.lower (Text.strip s) = timestamp.word <;>
      simp [ofText, hunique, htimestamp, hwords]

namespace Settings

variable {env : Environment}

/-- Debug messages are on if their variable holds one of four words, in any case. -/
theorem verbose_ofEnvironment_iff :
    (ofEnvironment env).verbose = true ↔
      ∃ text, env.lookup "POLICYWRIGHT_VERBOSE" = some text ∧
        Text.lower text ∈ ["1", "true", "yes", "on"] := by
  rw [ofEnvironment]
  cases env.lookup "POLICYWRIGHT_VERBOSE" with
  | none => simp [switchedOn]
  | some text => simp [switchedOn, onWords]

/-- Identifiers come from tokens if their variable holds the word for that, with blanks around it
and in any case. -/
theorem strategy_ofEnvironment_iff :
    (ofEnvironment env).strategy = .unique ↔
      ∃ text, env.lookup "POLICYWRIGHT_RULE_IDS" = some text ∧
        Text.lower (Text.strip text) = "uuid" := by
  rw [ofEnvironment, StemStrategy.ofText]
  cases env.lookup "POLICYWRIGHT_RULE_IDS" with
  | none =>
    have hdefault : Text.lower (Text.strip "timestamp") ≠ StemStrategy.unique.word := by
      decide +kernel
    rw [Option.getD_none, if_neg hdefault]
    simp
  | some text =>
    by_cases hword : Text.lower (Text.strip text) = "uuid" <;> simp [StemStrategy.word, hword]

/-- A length that a variable can set is the length in force. -/
theorem summaryMaxLength_of_integer? {text : String} {n : Int}
    (htext : env.lookup "POLICYWRIGHT_SUMMARY_MAX_LENGTH" = some text)
    (hn : Text.integer? text = some n) (hroom : 3 < n) :
    (ofEnvironment env).summaryMaxLength = n := by
  simp [ofEnvironment, lengthOf, htext, hn, hroom]

/-- A variable that writes no length with room for more than the dots counts as unset. -/
theorem summaryMaxLength_default
    (h : ∀ text n, env.lookup "POLICYWRIGHT_SUMMARY_MAX_LENGTH" = some text →
      Text.integer? text = some n → n ≤ 3) :
    (ofEnvironment env).summaryMaxLength = 120 := by
  rw [ofEnvironment, lengthOf]
  cases hlength : (env.lookup "POLICYWRIGHT_SUMMARY_MAX_LENGTH").bind Text.integer? with
  | none => rfl
  | some n =>
    obtain ⟨text, htext, hn⟩ := Option.bind_eq_some_iff.mp hlength
    exact if_neg (Int.not_lt.mpr (h text n htext hn))

/-- Whatever the environment holds, the strategy has one of two words and the length for short
summaries leaves room for more than the dots. -/
theorem ofEnvironment_spec (env : Environment) :
    (ofEnvironment env).strategy.word ∈ ["timestamp", "uuid"] ∧
      3 < (ofEnvironment env).summaryMaxLength := by
  refine ⟨?_, three_lt_lengthOf _⟩
  rw [ofEnvironment, StemStrategy.word_ofText]
  split
  next hknown => exact hknown
  next => exact List.mem_cons_self

end Settings

/-! ## Runs -/

namespace SettingsStore

/-- What can happen to the settings of a process. -/
inductive Event where
  /-- The environment changes. -/
  | setEnvironment (env : Environment)
  /-- Somebody asks for the settings. -/
  | ask
  /-- Somebody asks for the settings and switches debug messages on. -/
  | enableVerbose
  /-- The settings are forgotten. -/
  | reset

namespace Event

/-- The environment to which an event changes. -/
def environment? : Event → Option Environment
  | .setEnvironment env => some env
  | _ => none

/-- Whether an event asks for the settings. -/
def asks : Event → Bool
  | .ask => true
  | .enableVerbose => true
  | _ => false

/-- Whether an event switches debug messages on. -/
def switchesOn : Event → Bool
  | .enableVerbose => true
  | _ => false

end Event

/-- The store after an event. -/
def after (store : SettingsStore) : Event → SettingsStore
  | .setEnvironment env => store.setEnvironment env
  | .ask => store.ask
  | .enableVerbose => store.enableVerbose
  | .reset => store.reset

/-- The store after events that happen one after the other. -/
def run (store : SettingsStore) (events : List Event) : SettingsStore := events.foldl after store

/-- The environment in force after events. -/
def environmentAfter (env : Environment) (events : List Event) : Environment :=
  (events.filterMap Event.environment?).getLastD env

/-- A run, split where the settings at its end were read: `before` reaches up to the last reset,
`quiet` only changes the environment, and `later` begins when somebody asked. -/
structure Splits (events before quiet later : List Event) : Prop where
  /-- The parts make up the run. -/
  eq : events = before ++ quiet ++ later
  /-- The first part is empty or ends in a reset. -/
  before_reset : before = [] ∨ ∃ earlier, before = earlier ++ [.reset]
  /-- In the second part the environment changes and nothing else happens. -/
  quiet_changes : ∀ e ∈ quiet, e.environment?.isSome
  /-- The last part is empty or begins with somebody asking. -/
  later_asks : ∀ e ∈ later.head?, e.asks
  /-- There is no reset in the last part. -/
  later_kept : .reset ∉ later

/-! ### The point where the settings were read -/

/-- Every run can be split where the settings at its end were read. -/
theorem exists_splits (events : List Event) :
    ∃ before quiet later, Splits events before quiet later := by
  -- The induction is from the end, since the split depends on what happened last.
  induction events using List.reverseRecOn with
  | nil => exact ⟨[], [], [], rfl, Or.inl rfl, by simp, by simp, by simp⟩
  | append_singleton events e ih =>
    obtain ⟨before, quiet, later, h⟩ := ih
    have happend : events ++ [e] = before ++ quiet ++ (later ++ [e]) := by
      rw [h.eq, List.append_assoc]
    match e with
    | .reset =>
      -- Everything is forgotten, so that the first part is the whole run.
      exact ⟨events ++ [.reset], [], [], by simp, Or.inr ⟨events, rfl⟩, by simp, by simp, by simp⟩
    | .ask | .enableVerbose =>
      -- Either the settings are read now, or somebody asked before.
      refine ⟨before, quiet, later ++ [_], happend, h.before_reset, h.quiet_changes, ?_, ?_⟩
      · cases hlater : later with
        | nil => simp [Event.asks]
        | cons first rest => simpa [hlater] using h.later_asks
      · simp [h.later_kept]
    | .setEnvironment env =>
      cases hlater : later with
      | nil =>
        -- Nobody has asked yet, so the new environment is the one to be read.
        refine ⟨before, quiet ++ [.setEnvironment env], [], ?_, h.before_reset, ?_, by simp,
          by simp⟩
        · simp [h.eq, hlater]
        · intro e he
          rcases List.mem_append.mp he with he | he
          · exact h.quiet_changes e he
          · rw [List.mem_singleton.mp he]
            rfl
      | cons first rest =>
        rw [hlater] at happend
        refine ⟨before, quiet, _, happend, h.before_reset, h.quiet_changes, ?_, ?_⟩
        · simpa [hlater] using h.later_asks
        · simpa [hlater] using h.later_kept

/-! ### What a run does to the store -/

/-- A run of two parts is the run of the second after the first. -/
theorem run_append (store : SettingsStore) (first second : List Event) :
    store.run (first ++ second) = (store.run first).run second :=
  List.foldl_append

/-- An event changes the environment if it says so. -/
theorem env_after (store : SettingsStore) (e : Event) :
    (store.after e).env = e.environment?.getD store.env := by
  cases e <;> rfl

/-- The environment after a run is the one it was last changed to. -/
theorem env_run (store : SettingsStore) (events : List Event) :
    (store.run events).env = environmentAfter store.env events := by
  induction events generalizing store with
  | nil => rfl
  | cons e events ih =>
    have hrest : (store.run (e :: events)).env = environmentAfter (store.after e).env events :=
      ih (store.after e)
    rw [hrest, env_after, environmentAfter, environmentAfter, List.filterMap_cons]
    cases e.environment? with
    | none => rfl
    | some env => rw [List.getLastD_cons]; rfl

/-- As long as only the environment changes, what is kept stays as it is. -/
theorem kept_run_of_quiet {quiet : List Event} (store : SettingsStore)
    (hquiet : ∀ e ∈ quiet, e.environment?.isSome) : (store.run quiet).kept = store.kept := by
  induction quiet generalizing store with
  | nil => rfl
  | cons e quiet ih =>
    obtain ⟨he, hrest⟩ := List.forall_mem_cons.mp hquiet
    have hstep : (store.after e).kept = store.kept := by
      cases e <;> simp_all [Event.environment?, after, setEnvironment]
    exact (ih (store.after e) hrest).trans hstep

/-- Nothing is kept where the first part of a run ends. -/
theorem kept_run_before {env : Environment} {before : List Event}
    (h : before = [] ∨ ∃ earlier, before = earlier ++ [.reset]) :
    (run { env } before).kept = none := by
  rcases h with rfl | ⟨earlier, rfl⟩
  · rfl
  · rw [run_append]
    rfl

/-- Settings that are kept stay the same through every event but a reset, except that debug messages
can be switched on. -/
theorem kept_after {store : SettingsStore} {s : Settings} {e : Event} (h : store.kept = some s)
    (he : e ≠ .reset) :
    (store.after e).kept = some { s with verbose := s.verbose || e.switchesOn } := by
  cases e with
  | setEnvironment env => simp [after, setEnvironment, h, Event.switchesOn]
  | ask => simp [after, SettingsStore.ask, settings, h, Event.switchesOn]
  | enableVerbose => simp [after, SettingsStore.enableVerbose, settings, h, Event.switchesOn]
  | reset => exact absurd rfl he

/-- Settings that are kept stay the same through every run without a reset, except that debug
messages can be switched on. -/
theorem kept_run {store : SettingsStore} {s : Settings} {events : List Event}
    (h : store.kept = some s) (hkept : .reset ∉ events) :
    (store.run events).kept =
      some { s with verbose := s.verbose || events.any Event.switchesOn } := by
  induction events generalizing store s with
  | nil => simpa [run] using h
  | cons e events ih =>
    rw [List.mem_cons, not_or] at hkept
    have hstep := kept_after h (Ne.symm hkept.1)
    -- Debug messages are on if they were, if this event switches them on or if a later one does.
    simpa [run, Bool.or_assoc] using ih hstep hkept.2

/-- Whoever asks finds the settings kept as if somebody had asked before. -/
theorem run_ask {store : SettingsStore} {e : Event} (he : e.asks) (rest : List Event) :
    store.ask.run (e :: rest) = store.run (e :: rest) := by
  have hstep : store.ask.after e = store.after e := by
    cases e with
    | ask => rfl
    | enableVerbose => rfl
    | _ => exact absurd he Bool.false_ne_true
  show (store.ask.after e).run rest = (store.after e).run rest
  rw [hstep]

/-- Through a run that begins with somebody asking and has no reset, the settings stay the same,
except that debug messages can be switched on. -/
theorem settings_run_later (store : SettingsStore) {later : List Event}
    (hasks : ∀ e ∈ later.head?, e.asks) (hkept : .reset ∉ later) :
    (store.run later).settings =
      { store.settings with verbose := store.settings.verbose || later.any Event.switchesOn } := by
  cases later with
  | nil => simp [run]
  | cons e rest =>
    have hask : store.ask.kept = some store.settings := rfl
    rw [← run_ask (hasks e rfl), settings, kept_run hask hkept, Option.getD_some]

/-! ### What is seen at the end of a run -/

/-- When the last part of a run begins, the settings are still to be read. -/
theorem Splits.settings_run_quiet {events before quiet later : List Event}
    (h : Splits events before quiet later) (env : Environment) :
    (run { env } (before ++ quiet)).settings =
      Settings.ofEnvironment (environmentAfter env (before ++ quiet)) := by
  have hkept : (run { env } (before ++ quiet)).kept = none := by
    rw [run_append, kept_run_of_quiet _ h.quiet_changes, kept_run_before h.before_reset]
  rw [settings, hkept, env_run, Option.getD_none]

/-- Debug messages are switched on by the event that says so. -/
theorem any_switchesOn_iff {events : List Event} :
    events.any Event.switchesOn = true ↔ .enableVerbose ∈ events := by
  rw [List.any_eq_true]
  constructor
  · rintro ⟨e, he, hon⟩
    cases e with
    | enableVerbose => exact he
    | _ => exact absurd hon Bool.false_ne_true
  · exact fun hmem => ⟨_, hmem, rfl⟩

/-- The settings at the end of a run are the ones of the environment in force when they were read,
except that debug messages are on if somebody switched them on since. -/
theorem Splits.settings_run {events before quiet later : List Event} {env : Environment}
    {seen read : Settings} (h : Splits events before quiet later)
    (hseen : (run { env } events).settings = seen)
    (hread : Settings.ofEnvironment (environmentAfter env (before ++ quiet)) = read) :
    seen.strategy = read.strategy ∧ seen.summaryMaxLength = read.summaryMaxLength ∧
      (seen.verbose = true ↔ read.verbose = true ∨ .enableVerbose ∈ later) := by
  rw [h.eq, run_append, settings_run_later _ h.later_asks h.later_kept, h.settings_run_quiet,
    hread] at hseen
  subst hseen
  exact ⟨rfl, rfl, by rw [Bool.or_eq_true, any_switchesOn_iff]⟩

/-- Whatever happens to the settings of a process, what is seen at the end of a run was read from
the environment that was in force when somebody first asked after the last reset: debug messages are
on if that environment said so or somebody switched them on since, and the strategy and the length
are those that its variables write, or the default where they write none. The strategy has one of
two words, the length leaves room for the dots, and a short summary is never longer than that. -/
theorem settings_run_spec (env : Environment) (events : List Event) :
    let seen := (run { env } events).settings
    (∃ before quiet later, Splits events before quiet later) ∧
    (∀ before quiet later, Splits events before quiet later →
      let read := environmentAfter env (before ++ quiet)
      (seen.verbose = true ↔
        (∃ text, read.lookup "POLICYWRIGHT_VERBOSE" = some text ∧
          Text.lower text ∈ ["1", "true", "yes", "on"]) ∨ .enableVerbose ∈ later) ∧
      (seen.strategy = .unique ↔ ∃ text, read.lookup "POLICYWRIGHT_RULE_IDS" = some text ∧
        Text.lower (Text.strip text) = "uuid") ∧
      (∀ text n, read.lookup "POLICYWRIGHT_SUMMARY_MAX_LENGTH" = some text →
        Text.integer? text = some n → 3 < n → seen.summaryMaxLength = n) ∧
      ((∀ text n, read.lookup "POLICYWRIGHT_SUMMARY_MAX_LENGTH" = some text →
        Text.integer? text = some n → n ≤ 3) → seen.summaryMaxLength = 120)) ∧
    seen.strategy.word ∈ ["timestamp", "uuid"] ∧ 3 < seen.summaryMaxLength ∧
    ∀ (r : Registry) (d : Document),
      ((∃ short, r.shortSummary seen.summaryMaxLength d = .ok short) ↔
        ∃ text, r.summary d = .ok text) ∧
      ∀ short, r.shortSummary seen.summaryMaxLength d = .ok short →
        (short.length : Int) ≤ seen.summaryMaxLength := by
  intro seen
  obtain ⟨before, quiet, later, hsplits⟩ := exists_splits events
  have hseen : (run { env } events).settings = seen := rfl
  obtain ⟨hstrategy, hmaxLength, -⟩ := hsplits.settings_run hseen rfl
  obtain ⟨hword, hroom⟩ := Settings.ofEnvironment_spec (environmentAfter env (before ++ quiet))
  rw [← hstrategy] at hword
  rw [← hmaxLength] at hroom
  refine ⟨⟨before, quiet, later, hsplits⟩, ?_, hword, hroom, ?_⟩
  · intro before quiet later hsplits read
    obtain ⟨hstrategy, hmaxLength, hverbose⟩ := hsplits.settings_run hseen rfl
    rw [hstrategy, hmaxLength, hverbose, Settings.verbose_ofEnvironment_iff]
    exact ⟨Iff.rfl, Settings.strategy_ofEnvironment_iff,
      fun text n => Settings.summaryMaxLength_of_integer?, Settings.summaryMaxLength_default⟩
  · intro r d
    refine ⟨⟨?_, ?_⟩, ?_⟩
    · rintro ⟨short, hshort⟩
      obtain ⟨text, htext, -⟩ := Registry.shortSummary_eq_ok_iff.mp hshort
      exact ⟨text, htext⟩
    · rintro ⟨text, htext⟩
      exact ⟨_, Registry.shortSummary_eq_ok_iff.mpr ⟨text, htext, rfl⟩⟩
    · intro short hshort
      obtain ⟨text, -, rfl⟩ := Registry.shortSummary_eq_ok_iff.mp hshort
      exact Registry.length_cutTo_le (Int.le_of_lt hroom) text

/-- A run in which the settings are read, forgotten and read again from another environment, which
is then cleared. -/
def rereadRun : List Event :=
  [.setEnvironment [("POLICYWRIGHT_SUMMARY_MAX_LENGTH", "60")], .ask, .reset,
    .setEnvironment [("POLICYWRIGHT_VERBOSE", "Yes"), ("POLICYWRIGHT_RULE_IDS", " UUID"),
      ("POLICYWRIGHT_SUMMARY_MAX_LENGTH", "40")],
    .ask, .setEnvironment [], .ask]

/-- The settings at the end of the run were read after the reset, before the environment was
cleared. -/
theorem splits_rereadRun :
    Splits rereadRun (rereadRun.take 3) [rereadRun[3]] (rereadRun.drop 4) where
  eq := rfl
  before_reset := Or.inr ⟨rereadRun.take 2, rfl⟩
  quiet_changes := by simp [rereadRun, Event.environment?]
  later_asks := by simp [rereadRun, Event.asks]
  later_kept := by simp [rereadRun]

/-- Nothing is read before the settings are asked for again. -/
theorem splits_reset : Splits (rereadRun ++ [.reset, .enableVerbose]) (rereadRun ++ [.reset]) []
    [.enableVerbose] where
  eq := by simp
  before_reset := Or.inr ⟨rereadRun, rfl⟩
  quiet_changes := by simp
  later_asks := by simp [Event.asks]
  later_kept := by simp

/-- Clearing the environment does not show in the settings: debug messages are still on, identifiers
still come from tokens, and short summaries are still cut to the length that was read. It shows
after a reset, but for the debug messages if somebody switches them on. -/
theorem settings_run_spec_rereadRun :
    let seen := (run {} rereadRun).settings
    let later := (run {} (rereadRun ++ [.reset, .enableVerbose])).settings
    (seen.verbose = true ∧ seen.strategy = .unique ∧ seen.summaryMaxLength = 40 ∧
      ∀ (r : Registry) (d : Document) (short : CodePoints),
        r.shortSummary seen.summaryMaxLength d = .ok short →
          (short.length : Int) ≤ seen.summaryMaxLength) ∧
    later.verbose = true ∧ later.strategy ≠ .unique ∧ later.summaryMaxLength = 120 := by
  constructor
  · obtain ⟨-, hseen, -, -, hshort⟩ := settings_run_spec [] rereadRun
    obtain ⟨hverbose, hstrategy, hlength, -⟩ := hseen _ _ _ splits_rereadRun
    refine ⟨hverbose.mpr (Or.inl ⟨"Yes", rfl, by decide +kernel⟩),
      hstrategy.mpr ⟨" UUID", rfl, by decide +kernel⟩,
      hlength "40" 40 rfl (by decide +kernel) (by decide), fun r d => (hshort r d).2⟩
  · obtain ⟨-, hseen, -⟩ := settings_run_spec [] (rereadRun ++ [.reset, .enableVerbose])
    obtain ⟨hverbose, hstrategy, -, hdefault⟩ := hseen _ _ _ splits_reset
    -- The environment in force is the one that was cleared.
    refine ⟨hverbose.mpr (Or.inr (List.mem_singleton_self _)), fun hunique => ?_,
      hdefault fun _ _ htext => nomatch htext⟩
    obtain ⟨_, htext, -⟩ := hstrategy.mp hunique
    cases htext

end SettingsStore

end PolicyAuthoring
