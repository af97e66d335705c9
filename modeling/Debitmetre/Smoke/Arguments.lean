import Debitmetre.Foundation.CommandLine
import Debitmetre.Foundation.Failure
import Debitmetre.Smoke.LoadReport

/-!
# The options of the smoke command

The workload of a smoke run is given by options that each take a value.  A value that
begins with a dash is refused, so that no option is taken for a value; the last value given
decides; and a workload that would send nothing is refused in the end.
-/

namespace Debitmetre

open CommandLine

/-- What is said about arguments that are not accepted. -/
inductive CliError
  | help
  | unknownOption
  | missingValue
  | smokeHelp
  | smoke (message : String)
deriving DecidableEq

namespace Smoke

/-- The workload and the sizes of one smoke run. -/
@[ext]
structure SmokeParams where
  count : UInt64
  concurrency : UInt64
  responseBytes : UInt64
  delayMs : UInt64
  oha : Option String
  port : Nat
deriving DecidableEq

namespace SmokeParams

/-- What is run if no option is given. -/
def default : SmokeParams where
  count := 100
  concurrency := 10
  responseBytes := 4096
  delayMs := 5
  oha := none
  port := 0

end SmokeParams

/-- `str::parse::<u64>`. -/
def parseU64 (text : String) : Option UInt64 := parseUnsigned UInt64.size Nat.toUInt64 text

/-- The number that a value is, or what is said of one that is none. -/
def parseNumber {α : Type} (parse : String → Option α) (complaint value : String) :
    Except CliError α :=
  match parse value with
  | some n => .ok n
  | none => .error (.smoke (complaint ++ value ++ "'"))

/-- The value of an option that takes a number. -/
def parseUint (name value : String) : Except CliError UInt64 :=
  parseNumber parseU64 (name ++ " requires a non-negative integer, got '") value

/-- The value of `--port`. -/
def parsePort (value : String) : Except CliError Nat :=
  parseNumber parseU16 "--port requires an integer port 0..65535, got '" value

/-- A value that begins with a dash is taken for an option. -/
def OptionLike (value : String) : Prop := value.toList.head? = some '-'

instance (value : String) : Decidable (OptionLike value) :=
  inferInstanceAs (Decidable (value.toList.head? = some '-'))

/-- What one option sets. -/
inductive SmokeSetting
  | count (n : UInt64)
  | concurrency (n : UInt64)
  | responseBytes (n : UInt64)
  | delayMs (n : UInt64)
  | oha (path : String)
  | port (port : Nat)

/-- The options, and how the value of each is parsed. -/
def smokeOption : String → Option (String → Except CliError SmokeSetting)
  | "--count" => some fun value => (parseUint "--count" value).map .count
  | "--concurrency" => some fun value => (parseUint "--concurrency" value).map .concurrency
  | "--response-bytes" => some fun value => (parseUint "--response-bytes" value).map .responseBytes
  | "--delay-ms" => some fun value => (parseUint "--delay-ms" value).map .delayMs
  | "--oha" => some fun value => .ok (.oha value)
  | "--port" => some fun value => (parsePort value).map .port
  | _ => none

/-- The complaint about an option that comes last. -/
def missingValue (name : String) : CliError := .smoke (name ++ " requires a value")

/-- The complaint about a value that begins with a dash. -/
def gotOption (name value : String) : CliError :=
  .smoke (name ++ " requires a value, got option-like '" ++ value ++ "'")

/-- The complaint about a word that is no option. -/
def unknownOption (name : String) : CliError := .smoke ("unknown option '" ++ name ++ "'")

/-- A value is parsed unless it looks like an option. -/
def takeValue (name : String) (parse : String → Except CliError SmokeSetting) (value : String) :
    Except CliError SmokeSetting :=
  if OptionLike value then .error (gotOption name value) else parse value

/-- What a word of the command line stands for. -/
def smokeWord (arg : String) : Word SmokeSetting CliError :=
  if arg = "-h" ∨ arg = "--help" then .refused .smokeHelp
  else match smokeOption arg with
    | some parse => .option (missingValue arg) (takeValue arg parse)
    | none => .refused (unknownOption arg)

namespace SmokeParams

/-- The parameters with one more setting. -/
def put (params : SmokeParams) : SmokeSetting → SmokeParams
  | .count n => { params with count := n }
  | .concurrency n => { params with concurrency := n }
  | .responseBytes n => { params with responseBytes := n }
  | .delayMs n => { params with delayMs := n }
  | .oha path => { params with oha := some path }
  | .port port => { params with port := port }

/-- A workload of size zero is refused. -/
def checked (params : SmokeParams) : Except CliError SmokeParams :=
  if params.count = 0 then .error (.smoke "--count must be at least 1")
  else if params.concurrency = 0 then .error (.smoke "--concurrency must be at least 1")
  else if params.responseBytes = 0 then .error (.smoke "--response-bytes must be at least 1")
  else .ok params

end SmokeParams

/-- The parameters that a command line asks for. -/
def parseSmoke (args : List String) : Except CliError SmokeParams :=
  (read smokeWord SmokeParams.put .default args).bind SmokeParams.checked

/-- The options whose value is an unsigned integer. -/
def countOptions : List String := ["--count", "--concurrency", "--response-bytes", "--delay-ms"]

def smokeOptions : List String := countOptions ++ ["--oha", "--port"]

/-- The two words that a setting of the smoke command is made from. -/
inductive SmokeSetting.Spelled : SmokeSetting → List String → Prop
  | count {text : String} {n : UInt64} (parsed : parseU64 text = some n) :
      Spelled (.count n) ["--count", text]
  | concurrency {text : String} {n : UInt64} (parsed : parseU64 text = some n) :
      Spelled (.concurrency n) ["--concurrency", text]
  | responseBytes {text : String} {n : UInt64} (parsed : parseU64 text = some n) :
      Spelled (.responseBytes n) ["--response-bytes", text]
  | delayMs {text : String} {n : UInt64} (parsed : parseU64 text = some n) :
      Spelled (.delayMs n) ["--delay-ms", text]
  | oha {path : String} (plain : ¬ OptionLike path) : Spelled (.oha path) ["--oha", path]
  | port {text : String} {port : Nat} (parsed : parseU16 text = some port) :
      Spelled (.port port) ["--port", text]

/-- What is said of arguments that begin with no setting of the smoke command. -/
inductive SmokeOffends : List String → CliError → Prop
  | help {first : String} {rest : List String} (asks : first = "-h" ∨ first = "--help") :
      SmokeOffends (first :: rest) .smokeHelp
  | unknown {first : String} {rest : List String} (silent : ¬ (first = "-h" ∨ first = "--help"))
      (other : first ∉ smokeOptions) : SmokeOffends (first :: rest) (unknownOption first)
  | missing {name : String} (known : name ∈ smokeOptions) :
      SmokeOffends [name] (missingValue name)
  | optionLike {name value : String} {rest : List String} (known : name ∈ smokeOptions)
      (dash : OptionLike value) : SmokeOffends (name :: value :: rest) (gotOption name value)
  | number {name value : String} {rest : List String} (known : name ∈ countOptions)
      (plain : ¬ OptionLike value) (bad : parseU64 value = none) :
      SmokeOffends (name :: value :: rest)
        (.smoke (name ++ " requires a non-negative integer, got '" ++ value ++ "'"))
  | port {value : String} {rest : List String} (plain : ¬ OptionLike value)
      (bad : parseU16 value = none) :
      SmokeOffends ("--port" :: value :: rest)
        (.smoke ("--port requires an integer port 0..65535, got '" ++ value ++ "'"))

/-- A number is not taken for an option. -/
theorem not_optionLike_of_parseUnsigned {α : Type} {bound : Nat} {make : Nat → α} {text : String}
    {n : α} (parsed : parseUnsigned bound make text = some n) : ¬ OptionLike text := by
  intro dash
  have digits := (Option.ite_none_right_eq_some.mp parsed).1.2.1
  obtain ⟨rest, same⟩ := List.head?_eq_some_iff.mp dash
  rw [same, unsigned, List.all_cons, Bool.and_eq_true] at digits
  · cases digits.1
  · intro rest plus
    cases plus

/-- A value is taken if it does not look like an option and can be parsed. -/
theorem takeValue_eq_ok_iff {name value : String} {parse : String → Except CliError SmokeSetting}
    {setting : SmokeSetting} :
    takeValue name parse value = .ok setting ↔ ¬ OptionLike value ∧ parse value = .ok setting := by
  rw [takeValue]
  by_cases dash : OptionLike value
  · rw [if_pos dash]
    exact iff_of_false (fun same => by cases same) fun both => both.1 dash
  · rw [if_neg dash]
    exact (and_iff_right dash).symm

/-- An option of the smoke command takes a number, a path or a port. -/
inductive Takes : String → (String → Except CliError SmokeSetting) → Prop
  | number {name : String} {make : UInt64 → SmokeSetting} (known : name ∈ countOptions)
      (spelled : ∀ {text n}, parseU64 text = some n → (make n).Spelled [name, text]) :
      Takes name fun value => (parseUint name value).map make
  | oha : Takes "--oha" fun value => .ok (.oha value)
  | port : Takes "--port" fun value => (parsePort value).map .port

/-- Each option takes a number, a path or a port. -/
theorem takes_of_smokeOption {name : String} {parse : String → Except CliError SmokeSetting}
    (known : smokeOption name = some parse) : Takes name parse := by
  unfold smokeOption at known
  split at known
  · cases known
    exact .number List.mem_cons_self .count
  · cases known
    exact .number (by decide) .concurrency
  · cases known
    exact .number (by decide) .responseBytes
  · cases known
    exact .number (by decide) .delayMs
  · cases known
    exact .oha
  · cases known
    exact .port
  · cases known

theorem Takes.known {name : String} {parse : String → Except CliError SmokeSetting}
    (takes : Takes name parse) : name ∈ smokeOptions := by
  cases takes with
  | number known => exact List.mem_append_left _ known
  | oha | port => decide

/-- Every option that is listed has a parser. -/
theorem exists_smokeOption {name : String} (known : name ∈ smokeOptions) :
    ∃ parse, smokeOption name = some parse := by
  simp only [smokeOptions, countOptions, List.cons_append, List.nil_append, List.mem_cons,
    List.not_mem_nil, or_false] at known
  rcases known with rfl | rfl | rfl | rfl | rfl | rfl <;> exact ⟨_, rfl⟩

/-- The parsers of the options that take a number differ in what they set. -/
theorem exists_smokeOption_count {name : String} (known : name ∈ countOptions) :
    ∃ make, smokeOption name = some fun value => (parseUint name value).map make := by
  simp only [countOptions, List.mem_cons, List.not_mem_nil, or_false] at known
  rcases known with rfl | rfl | rfl | rfl <;> exact ⟨_, rfl⟩

/-- No option asks for help. -/
theorem not_help {name : String} (known : name ∈ smokeOptions) :
    ¬ (name = "-h" ∨ name = "--help") := by
  intro asks
  rcases asks with rfl | rfl
  · exact absurd known (by decide)
  · exact absurd known (by decide)

theorem smokeWord_of_some {name : String} {parse : String → Except CliError SmokeSetting}
    (known : smokeOption name = some parse) :
    smokeWord name = .option (missingValue name) (takeValue name parse) := by
  rw [smokeWord, if_neg (not_help (takes_of_smokeOption known).known), known]

theorem smokeWord_of_other {name : String} (silent : ¬ (name = "-h" ∨ name = "--help"))
    (other : name ∉ smokeOptions) : smokeWord name = .refused (unknownOption name) := by
  cases known : smokeOption name with
  | none => rw [smokeWord, if_neg silent, known]
  | some parse => exact absurd (takes_of_smokeOption known).known other

/-- What a word stands for. -/
inductive SmokeStands : String → Word SmokeSetting CliError → Prop
  | help {first : String} (asks : first = "-h" ∨ first = "--help") :
      SmokeStands first (.refused .smokeHelp)
  | unknown {first : String} (silent : ¬ (first = "-h" ∨ first = "--help"))
      (other : first ∉ smokeOptions) : SmokeStands first (.refused (unknownOption first))
  | option {first : String} {parse : String → Except CliError SmokeSetting}
      (takes : Takes first parse) :
      SmokeStands first (.option (missingValue first) (takeValue first parse))

/-- Every word stands for something. -/
theorem smokeStands (first : String) : SmokeStands first (smokeWord first) := by
  by_cases asks : first = "-h" ∨ first = "--help"
  · rw [smokeWord, if_pos asks]
    exact .help asks
  · by_cases known : first ∈ smokeOptions
    · obtain ⟨parse, found⟩ := exists_smokeOption known
      rw [smokeWord_of_some found]
      exact .option (takes_of_smokeOption found)
    · rw [smokeWord_of_other asks known]
      exact .unknown asks known

theorem parseNumber_eq {α : Type} (parse : String → Option α) (complaint value : String) :
    parseNumber parse complaint value =
      (parse value).elim (.error (.smoke (complaint ++ value ++ "'"))) .ok := by
  rw [parseNumber]
  cases parse value <;> rfl

theorem parseNumber_eq_ok_iff {α : Type} {parse : String → Option α} {complaint value : String}
    {n : α} : parseNumber parse complaint value = .ok n ↔ parse value = some n := by
  rw [parseNumber_eq, Except.elim_eq_ok_iff]

/-- A value that is no number is complained about. -/
theorem parseNumber_eq_error_iff {α : Type} {parse : String → Option α}
    {complaint value : String} {error : CliError} :
    parseNumber parse complaint value = .error error ↔
      parse value = none ∧ error = .smoke (complaint ++ value ++ "'") := by
  rw [parseNumber_eq, Except.elim_eq_error_iff]

/-- The words that a setting is read from are those that spell it. -/
theorem spelled_smokeWord_iff {setting : SmokeSetting} {words : List String} :
    Spelled smokeWord setting words ↔ setting.Spelled words := by
  constructor
  · intro spelled
    cases spelled with
    | @flag first setting stands => cases stands ▸ smokeStands first
    | @option first value setting missing take stands taken =>
        cases stands ▸ smokeStands first with
        | option takes =>
            obtain ⟨plain, parsed⟩ := takeValue_eq_ok_iff.mp taken
            cases takes with
            | number known spelled =>
                obtain ⟨n, read, rfl⟩ := Except.map_eq_ok_iff.mp parsed
                exact spelled (parseNumber_eq_ok_iff.mp read)
            | oha =>
                cases parsed
                exact .oha plain
            | port =>
                obtain ⟨port, read, rfl⟩ := Except.map_eq_ok_iff.mp parsed
                exact .port (parseNumber_eq_ok_iff.mp read)
  · intro spelled
    cases spelled with
    | count parsed | concurrency parsed | responseBytes parsed | delayMs parsed =>
        exact .option (smokeWord_of_some rfl) (takeValue_eq_ok_iff.mpr
          ⟨not_optionLike_of_parseUnsigned parsed,
            Except.map_eq_ok_iff.mpr ⟨_, parseNumber_eq_ok_iff.mpr parsed, rfl⟩⟩)
    | oha plain => exact .option (smokeWord_of_some rfl) (takeValue_eq_ok_iff.mpr ⟨plain, rfl⟩)
    | port parsed =>
        exact .option (smokeWord_of_some rfl) (takeValue_eq_ok_iff.mpr
          ⟨not_optionLike_of_parseUnsigned parsed,
            Except.map_eq_ok_iff.mpr ⟨_, parseNumber_eq_ok_iff.mpr parsed, rfl⟩⟩)

theorem takeValue_of_optionLike {name value : String}
    {parse : String → Except CliError SmokeSetting} (dash : OptionLike value) :
    takeValue name parse value = .error (gotOption name value) := if_pos dash

theorem takeValue_of_plain {name value : String} {parse : String → Except CliError SmokeSetting}
    (plain : ¬ OptionLike value) : takeValue name parse value = parse value := if_neg plain

/-- The words that are complained about are those that offend. -/
theorem offends_smokeWord_iff {words : List String} {error : CliError} :
    Offends smokeWord words error ↔ SmokeOffends words error := by
  constructor
  · intro offends
    cases offends with
    | @refused first rest error stands =>
        cases stands ▸ smokeStands first with
        | help asks => exact .help asks
        | unknown silent other => exact .unknown silent other
    | @missing first missing take stands =>
        cases stands ▸ smokeStands first with
        | option takes => exact .missing takes.known
    | @taken first value rest missing error take stands taken =>
        cases stands ▸ smokeStands first with
        | option takes =>
            by_cases dash : OptionLike value
            · rw [takeValue_of_optionLike dash] at taken
              cases taken
              exact .optionLike takes.known dash
            · rw [takeValue_of_plain dash] at taken
              cases takes with
              | number known =>
                  obtain ⟨bad, rfl⟩ :=
                    parseNumber_eq_error_iff.mp (Except.map_eq_error_iff.mp taken)
                  exact .number known dash bad
              | oha => cases taken
              | port =>
                  obtain ⟨bad, rfl⟩ :=
                    parseNumber_eq_error_iff.mp (Except.map_eq_error_iff.mp taken)
                  exact .port dash bad
  · intro offends
    cases offends with
    | help asks => exact .refused (by rw [smokeWord, if_pos asks])
    | @unknown first rest silent other => exact .refused (smokeWord_of_other silent other)
    | missing known =>
        obtain ⟨parse, found⟩ := exists_smokeOption known
        exact .missing (smokeWord_of_some found)
    | optionLike known dash =>
        obtain ⟨parse, found⟩ := exists_smokeOption known
        exact .taken (smokeWord_of_some found) (takeValue_of_optionLike dash)
    | number known plain bad =>
        obtain ⟨make, found⟩ := exists_smokeOption_count known
        exact .taken (smokeWord_of_some found) ((takeValue_of_plain plain).trans
          (Except.map_eq_error_iff.mpr (parseNumber_eq_error_iff.mpr ⟨bad, rfl⟩)))
    | port plain bad =>
        exact .taken (smokeWord_of_some rfl) ((takeValue_of_plain plain).trans
          (Except.map_eq_error_iff.mpr (parseNumber_eq_error_iff.mpr ⟨bad, rfl⟩)))

namespace SmokeSetting

/-- What a setting says about `--count`. -/
def count? : SmokeSetting → Option UInt64
  | count n => some n
  | _ => none

/-- What a setting says about `--concurrency`. -/
def concurrency? : SmokeSetting → Option UInt64
  | concurrency n => some n
  | _ => none

/-- What a setting says about `--response-bytes`. -/
def responseBytes? : SmokeSetting → Option UInt64
  | responseBytes n => some n
  | _ => none

/-- What a setting says about `--delay-ms`. -/
def delayMs? : SmokeSetting → Option UInt64
  | delayMs n => some n
  | _ => none

/-- What a setting says about `--oha`. -/
def oha? : SmokeSetting → Option String
  | oha path => some path
  | _ => none

/-- What a setting says about `--port`. -/
def port? : SmokeSetting → Option Nat
  | .port n => some n
  | _ => none

end SmokeSetting

/-- The parameters that settings give: the last one of each kind decides. -/
def SmokeParams.of (settings : List SmokeSetting) : SmokeParams where
  count := (settings.filterMap SmokeSetting.count?).getLast?.getD 100
  concurrency := (settings.filterMap SmokeSetting.concurrency?).getLast?.getD 10
  responseBytes := (settings.filterMap SmokeSetting.responseBytes?).getLast?.getD 4096
  delayMs := (settings.filterMap SmokeSetting.delayMs?).getLast?.getD 5
  oha := (settings.filterMap SmokeSetting.oha?).getLast?
  port := (settings.filterMap SmokeSetting.port?).getLast?.getD 0

/-- Settings that are put one after another come to what the last of each kind sets. -/
theorem SmokeParams.foldl_put (settings : List SmokeSetting) :
    settings.foldl put .default = of settings := by
  ext1
  · exact foldl_put_getD put SmokeParams.count SmokeSetting.count?
      (fun _ setting => by cases setting <;> rfl) settings .default
  · exact foldl_put_getD put SmokeParams.concurrency SmokeSetting.concurrency?
      (fun _ setting => by cases setting <;> rfl) settings .default
  · exact foldl_put_getD put SmokeParams.responseBytes SmokeSetting.responseBytes?
      (fun _ setting => by cases setting <;> rfl) settings .default
  · exact foldl_put_getD put SmokeParams.delayMs SmokeSetting.delayMs?
      (fun _ setting => by cases setting <;> rfl) settings .default
  · refine (foldl_put_or put SmokeParams.oha SmokeSetting.oha?
      (fun _ setting => by cases setting <;> rfl) settings .default).trans ?_
    exact Option.or_none
  · exact foldl_put_getD put SmokeParams.port SmokeSetting.port?
      (fun _ setting => by cases setting <;> rfl) settings .default

/-- Only a workload of a positive size is accepted. -/
theorem SmokeParams.checked_eq_ok_iff {params final : SmokeParams} :
    params.checked = .ok final ↔
      params = final ∧ params.count ≠ 0 ∧ params.concurrency ≠ 0 ∧ params.responseBytes ≠ 0 := by
  rw [checked]
  split
  · next zero => exact iff_of_false (fun same => by cases same) fun all => all.2.1 zero
  · next some_requests =>
      split
      · next zero => exact iff_of_false (fun same => by cases same) fun all => all.2.2.1 zero
      · next some_connections =>
          split
          · next zero => exact iff_of_false (fun same => by cases same) fun all => all.2.2.2 zero
          · next some_octets =>
              rw [Except.ok.injEq]
              exact (and_iff_left ⟨some_requests, some_connections, some_octets⟩).symm

/-- The smoke command accepts what spells settings that give a workload. -/
theorem parseSmoke_eq_ok_iff {args : List String} {params : SmokeParams} :
    parseSmoke args = .ok params ↔
      ∃ settings, Spells SmokeSetting.Spelled settings args ∧ .of settings = params ∧
        params.count ≠ 0 ∧ params.concurrency ≠ 0 ∧ params.responseBytes ≠ 0 := by
  rw [parseSmoke, Except.bind_eq_ok_iff]
  simp only [read_eq_ok_iff, spells_congr spelled_smokeWord_iff, SmokeParams.foldl_put,
    SmokeParams.checked_eq_ok_iff]
  constructor
  · intro accepted
    obtain ⟨_, ⟨settings, line, rfl⟩, rfl, workload⟩ := accepted
    exact ⟨settings, line, rfl, workload⟩
  · intro accepted
    obtain ⟨settings, line, rfl, workload⟩ := accepted
    exact ⟨_, ⟨settings, line, rfl⟩, rfl, workload⟩

/-- What is said of arguments that the smoke command does not accept. -/
inductive SmokeRefused (args : List String) (error : CliError) : Prop
  | offends {settings : List SmokeSetting} {before rest : List String}
      (line : Spells SmokeSetting.Spelled settings before) (divided : args = before ++ rest)
      (offends : SmokeOffends rest error) : SmokeRefused args error
  | idle {settings : List SmokeSetting} (line : Spells SmokeSetting.Spelled settings args)
      (refused : (SmokeParams.of settings).checked = .error error) : SmokeRefused args error

/-- The smoke command refuses what offends, or a workload of size zero. -/
theorem parseSmoke_eq_error_iff {args : List String} {error : CliError} :
    parseSmoke args = .error error ↔ SmokeRefused args error := by
  rw [parseSmoke, Except.bind_eq_error_iff]
  simp only [read_eq_ok_iff, read_eq_error_iff, spells_congr spelled_smokeWord_iff,
    offends_smokeWord_iff, SmokeParams.foldl_put]
  constructor
  · intro refused
    rcases refused with ⟨settings, before, rest, line, divided, offends⟩ |
      ⟨_, ⟨settings, line, rfl⟩, refused⟩
    · exact .offends line divided offends
    · exact .idle line refused
  · intro refused
    cases refused with
    | @offends settings before rest line divided offends =>
        exact .inl ⟨settings, before, rest, line, divided, offends⟩
    | @idle settings line refused => exact .inr ⟨_, ⟨settings, line, rfl⟩, refused⟩

end Smoke

end Debitmetre
