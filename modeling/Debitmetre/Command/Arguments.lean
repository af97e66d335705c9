import Debitmetre.Smoke.Arguments

/-!
# The arguments of the command

The binary runs the gateway, or prints the local summary, or, if it was built for tests,
runs the load smoke.  A line of arguments is accepted exactly if it spells settings one
after another, and it is refused for the first place where it spells none.
-/

namespace Debitmetre

open CommandLine

/-- The path of the configuration if none is given. -/
def defaultConfigPath : String := "/etc/debitmetre/config.toml"

/-- What the operator asked the binary to do. -/
inductive Command
  | run (config : String)
  | summary (config : String)
  | smoke (params : Smoke.SmokeParams)
deriving DecidableEq

namespace Command

/-- What the arguments set. -/
inductive Setting
  | summary
  | config (path : String)
deriving DecidableEq

/-- The value of an argument of the form `--config=<PATH>`. -/
def configValue (arg : String) : Option String :=
  let name := "--config=".toList
  if name <+: arg.toList then some (String.ofList (arg.toList.drop name.length)) else none

/-- What a word of the command line means. -/
def mainWord (arg : String) : Word Setting CliError :=
  if arg = "-h" ∨ arg = "--help" then .refused .help
  else if arg = "summary" then .flag .summary
  else if arg = "--config" then .option .missingValue fun value => .ok (.config value)
  else match configValue arg with
    | some value => if value = "" then .refused .missingValue else .flag (.config value)
    | none => .refused .unknownOption

/-- What was found in the arguments. -/
structure Found where
  config : Option String
  summaryCommand : Bool

namespace Found

/-- One more setting is found. -/
def put (found : Found) : Setting → Found
  | .summary => { found with summaryCommand := true }
  | .config path => { found with config := some path }

/-- The command that the settings found give. -/
def command (found : Found) : Command :=
  let config := found.config.getD defaultConfigPath
  if found.summaryCommand then .summary config else .run config

end Found

/-- The smoke command is there only in a build with the test feature, and has to come first. -/
def IsSmoke (feature : Bool) (args : List String) : Prop :=
  feature = true ∧ args.head? = some "smoke"

instance (feature : Bool) (args : List String) : Decidable (IsSmoke feature args) :=
  inferInstanceAs (Decidable (feature = true ∧ args.head? = some "smoke"))

/-- The arguments of the binary, in a build with or without the smoke run. -/
def parseArgs (feature : Bool) (args : List String) : Except CliError Command :=
  if IsSmoke feature args then (Smoke.parseSmoke args.tail).map .smoke
  else (read mainWord Found.put ⟨none, false⟩ args).map Found.command

/-- The ways to spell a setting. -/
inductive Setting.Spelled : Setting → List String → Prop
  | summary : Spelled .summary ["summary"]
  /-- Whatever follows the option is the path, an option too. -/
  | config (path : String) : Spelled (.config path) ["--config", path]
  | configIs {path : String} (some_path : path ≠ "") : Spelled (.config path) ["--config=" ++ path]

/-- What is said of arguments that begin with no setting. -/
inductive MainOffends : List String → CliError → Prop
  | help {first : String} {rest : List String} (asks : first = "-h" ∨ first = "--help") :
      MainOffends (first :: rest) .help
  | missing : MainOffends ["--config"] .missingValue
  | empty {rest : List String} : MainOffends ("--config=" :: rest) .missingValue
  | unknown {first : String} {rest : List String}
      (other : first ∉ ["-h", "--help", "summary", "--config"])
      (none_given : ∀ path, first ≠ "--config=" ++ path) :
      MainOffends (first :: rest) .unknownOption

/-- The path that a setting gives. -/
def Setting.path? : Setting → Option String
  | summary => none
  | config path => some path

/-- What settings ask for: the last path decides. -/
def ofSettings (settings : List Setting) : Command :=
  let config := (settings.filterMap Setting.path?).getLast?.getD defaultConfigPath
  if .summary ∈ settings then .summary config else .run config

/-- What follows the equals sign is the path. -/
theorem configValue_eq_some_iff {arg path : String} :
    configValue arg = some path ↔ arg = "--config=" ++ path := by
  rw [configValue]
  constructor
  · intro found
    split at found
    · next starts =>
        obtain ⟨rest, same⟩ := starts
        rw [← same, List.drop_left, Option.some.injEq] at found
        have own : path.toList = rest := by rw [← found, String.toList_ofList]
        rw [← String.toList_inj, String.toList_append, own, same]
    · cases found
  · intro same
    rw [same, String.toList_append, if_pos (List.prefix_append _ _), List.drop_left,
      String.ofList_toList]

/-- What a word stands for. -/
inductive MainStands : String → Word Setting CliError → Prop
  | help {first : String} (asks : first = "-h" ∨ first = "--help") :
      MainStands first (.refused .help)
  | summary : MainStands "summary" (.flag .summary)
  | config : MainStands "--config" (.option .missingValue fun value => .ok (.config value))
  | configIs {path : String} (some_path : path ≠ "") :
      MainStands ("--config=" ++ path) (.flag (.config path))
  | empty : MainStands "--config=" (.refused .missingValue)
  | unknown {first : String} (other : first ∉ ["-h", "--help", "summary", "--config"])
      (none_given : ∀ path, first ≠ "--config=" ++ path) :
      MainStands first (.refused .unknownOption)

/-- Any other first word has to be a path after an equals sign. -/
theorem mainWord_of_other {first : String}
    (other : first ∉ ["-h", "--help", "summary", "--config"]) :
    mainWord first = match configValue first with
      | some value => if value = "" then .refused .missingValue else .flag (.config value)
      | none => .refused .unknownOption := by
  simp only [List.mem_cons, List.not_mem_nil, or_false, not_or] at other
  rw [mainWord, if_neg (not_or.mpr ⟨other.1, other.2.1⟩), if_neg other.2.2.1, if_neg other.2.2.2]

theorem mainStands (first : String) : MainStands first (mainWord first) := by
  by_cases other : first ∈ ["-h", "--help", "summary", "--config"]
  · simp only [List.mem_cons, List.not_mem_nil, or_false] at other
    rcases other with rfl | rfl | rfl | rfl
    · exact .help (.inl rfl)
    · exact .help (.inr rfl)
    · exact .summary
    · exact .config
  · rw [mainWord_of_other other]
    cases found : configValue first with
    | some path =>
        obtain rfl := configValue_eq_some_iff.mp found
        by_cases empty : path = ""
        · subst empty
          exact .empty
        · simp only [if_neg empty]
          exact .configIs empty
    | none =>
        refine .unknown other fun path same => ?_
        cases found.symm.trans (configValue_eq_some_iff.mpr same)

theorem mainWord_configIs {path : String} (some_path : path ≠ "") :
    mainWord ("--config=" ++ path) = .flag (.config path) := by
  have found := configValue_eq_some_iff.mpr (rfl : "--config=" ++ path = "--config=" ++ path)
  have silent : ∀ name ∈ ["-h", "--help", "summary", "--config"], configValue name = none := by
    decide
  have other : "--config=" ++ path ∉ ["-h", "--help", "summary", "--config"] := by
    intro member
    cases (silent _ member).symm.trans found
  rw [mainWord_of_other other, found]
  exact if_neg some_path

/-- The words that are read as a setting are those that spell it. -/
theorem spelled_mainWord_iff {setting : Setting} {words : List String} :
    Spelled mainWord setting words ↔ setting.Spelled words := by
  constructor
  · intro spelled
    cases spelled with
    | @flag first setting stands =>
        cases stands ▸ mainStands first with
        | summary => exact .summary
        | configIs some_path => exact .configIs some_path
    | @option first value setting missing take stands taken =>
        cases stands ▸ mainStands first with
        | config =>
            cases taken
            exact .config value
  · intro spelled
    cases spelled with
    | summary => exact .flag rfl
    | config path => exact .option rfl rfl
    | configIs some_path => exact .flag (mainWord_configIs some_path)

/-- The words that are refused are those that offend. -/
theorem offends_mainWord_iff {words : List String} {error : CliError} :
    Offends mainWord words error ↔ MainOffends words error := by
  constructor
  · intro offends
    cases offends with
    | @refused first rest error stands =>
        cases stands ▸ mainStands first with
        | help asks => exact .help asks
        | empty => exact .empty
        | unknown other none_given => exact .unknown other none_given
    | @missing first missing take stands =>
        cases stands ▸ mainStands first with
        | config => exact .missing
    | @taken first value rest missing error take stands taken =>
        cases stands ▸ mainStands first with
        | config => cases taken
  · intro offends
    cases offends with
    | help asks => exact .refused (by rw [mainWord, if_pos asks])
    | missing => exact .missing rfl
    | empty => exact .refused rfl
    | @unknown first rest other none_given =>
        refine .refused ((mainWord_of_other other).trans ?_)
        cases found : configValue first with
        | none => rfl
        | some path => exact absurd (configValue_eq_some_iff.mp found) (none_given path)

/-- The summary is run if it is asked for anywhere. -/
theorem Found.summaryCommand_foldl (settings : List Setting) (found : Found) :
    (settings.foldl put found).summaryCommand =
      (found.summaryCommand || decide (.summary ∈ settings)) := by
  induction settings generalizing found with
  | nil => exact (Bool.or_false _).symm
  | cons setting settings ih =>
      rw [List.foldl_cons, ih]
      cases setting with
      | summary =>
          rw [put, decide_eq_true List.mem_cons_self, Bool.true_or, Bool.or_true]
      | config path =>
          have other : Setting.summary ∈ Setting.config path :: settings ↔ .summary ∈ settings :=
            List.mem_cons.trans (or_iff_right fun same => by cases same)
          rw [put, decide_eq_decide.mpr other]

/-- The last path decides. -/
theorem Found.command_foldl (settings : List Setting) :
    (settings.foldl put ⟨none, false⟩).command = ofSettings settings := by
  have config := foldl_put_or put Found.config Setting.path?
    (fun _ setting => by cases setting <;> rfl) settings ⟨none, false⟩
  have summary := summaryCommand_foldl settings ⟨none, false⟩
  rw [Option.or_none] at config
  rw [Bool.false_or] at summary
  simp only [command, ofSettings, config, summary, decide_eq_true_eq]

/-- No setting is spelled like the smoke run. -/
theorem not_isSmoke_of_spells {feature : Bool} {settings : List Setting} {args : List String}
    (line : Spells Setting.Spelled settings args) : ¬ IsSmoke feature args := by
  intro smoke
  cases line with
  | nil => cases smoke.2
  | cons first others =>
      cases first with
      | summary => exact absurd (Option.some.inj smoke.2) (by decide)
      | config path => exact absurd (Option.some.inj smoke.2) (by decide)
      | @configIs path some_path =>
          have found := configValue_eq_some_iff.mpr (Option.some.inj smoke.2).symm
          have silent : configValue "smoke" = none := by decide
          cases silent.symm.trans found

end Command

/-- **Arguments are accepted** exactly if they spell settings one after another: the last path
given decides, and the summary is printed if it is asked for anywhere; or, in a build for
tests, if they spell the settings of a smoke run that has requests, connections and octets. -/
theorem Command.parseArgs_eq_ok_iff {feature : Bool} {args : List String} {command : Command} :
    parseArgs feature args = .ok command ↔
      (∃ settings, Spells Setting.Spelled settings args ∧ ofSettings settings = command) ∨
        feature = true ∧ ∃ rest settings params, args = "smoke" :: rest ∧
          Spells Smoke.SmokeSetting.Spelled settings rest ∧
          Smoke.SmokeParams.of settings = params ∧ command = .smoke params ∧
            params.count ≠ 0 ∧ params.concurrency ≠ 0 ∧ params.responseBytes ≠ 0 := by
  rw [parseArgs]
  by_cases smoke : IsSmoke feature args
  · obtain ⟨rest, rfl⟩ := List.head?_eq_some_iff.mp smoke.2
    rw [if_pos smoke, Except.map_eq_ok_iff, List.tail_cons]
    simp only [Smoke.parseSmoke_eq_ok_iff]
    constructor
    · intro accepted
      obtain ⟨params, ⟨settings, line, own, workload⟩, rfl⟩ := accepted
      exact .inr ⟨smoke.1, rest, settings, params, rfl, line, own, rfl, workload⟩
    · intro accepted
      rcases accepted with ⟨settings, line, -⟩ |
        ⟨-, _, settings, params, same, line, own, rfl, workload⟩
      · exact absurd smoke (not_isSmoke_of_spells line)
      · cases same
        exact ⟨params, ⟨settings, line, own, workload⟩, rfl⟩
  · rw [if_neg smoke, Except.map_eq_ok_iff]
    simp only [read_eq_ok_iff, spells_congr spelled_mainWord_iff]
    constructor
    · intro accepted
      obtain ⟨_, ⟨settings, line, rfl⟩, own⟩ := accepted
      exact .inl ⟨settings, line, (Found.command_foldl settings).symm.trans own⟩
    · intro accepted
      rcases accepted with ⟨settings, line, own⟩ | ⟨built, rest, _, _, same, -⟩
      · exact ⟨_, ⟨settings, line, rfl⟩, (Found.command_foldl settings).trans own⟩
      · exact absurd ⟨built, congrArg List.head? same⟩ smoke

/-- **Arguments are refused** for the first place where they spell no setting, or, for a smoke
run, because it would send nothing. -/
theorem Command.parseArgs_eq_error_iff {feature : Bool} {args : List String} {error : CliError} :
    parseArgs feature args = .error error ↔
      (¬ IsSmoke feature args ∧ ∃ settings before rest, Spells Setting.Spelled settings before ∧
        args = before ++ rest ∧ MainOffends rest error) ∨
      IsSmoke feature args ∧ Smoke.SmokeRefused args.tail error := by
  rw [parseArgs]
  by_cases smoke : IsSmoke feature args
  · rw [if_pos smoke, Except.map_eq_error_iff, Smoke.parseSmoke_eq_error_iff]
    constructor
    · exact fun refused => .inr ⟨smoke, refused⟩
    · intro refused
      rcases refused with ⟨other, -⟩ | ⟨-, refused⟩
      · exact absurd smoke other
      · exact refused
  · rw [if_neg smoke, Except.map_eq_error_iff]
    simp only [read_eq_error_iff, spells_congr spelled_mainWord_iff, offends_mainWord_iff]
    constructor
    · exact fun refused => .inl ⟨smoke, refused⟩
    · intro refused
      rcases refused with ⟨-, refused⟩ | ⟨other, -⟩
      · exact refused
      · exact absurd other smoke

end Debitmetre
