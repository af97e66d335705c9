import Debitmetre.Foundation.Failure
import Debitmetre.Gateway.Config
import Debitmetre.Wire.Toml

/-!
# The configuration file

How the configuration is read from its file, and what is said of a file that is
rejected: that it is no text, what is wrong with its syntax, which entry is not a field
or not of its field's type, which field is missing, or which rule is broken.  The
parser of TOML is a parameter, which tells a problem and may name a part of the text.
-/

namespace Debitmetre

open Wire

/-- What is wrong with the syntax of a text, and what of the text is named. -/
structure SyntaxError (P : Type) where
  problem : P
  named : Option String

/-- A parser of TOML, with how it words what it rejects. -/
structure TomlReader (F P : Type) extends Printing F where
  parse : String → Except (SyntaxError P) (List (String × Toml F))
  wording : SyntaxError P → String

/-- What is said differs if the errors do. -/
structure TomlReader.Lawful {F P : Type} (toml : TomlReader F P) : Prop
    extends toml.toPrinting.Lawful where
  wording : Function.Injective toml.wording

inductive ErrorKind
  | io (path source : String)
  | parse (path message : String)
  | validation (error : ConfigError)
  deriving DecidableEq, Repr

/-- `ConfigError::fmt`. -/
def ErrorKind.display : ErrorKind → String
  | .io path source => "cannot read config " ++ path ++ ": " ++ source
  | .parse path message => "invalid TOML in " ++ path ++ ": " ++ message
  | .validation error => "invalid config in " ++ error.path ++ ": " ++ error.message

variable {F P : Type}

/-- The fields that were read so far. -/
structure RawFields where
  listen : Option String
  usageFile : Option String
  machineKeys : Option MachineKeys

namespace RawConfig

section Deserialization

variable (printing : Printing F)

/-- `String::deserialize`. -/
def asString : Toml F → Except String String
  | .string value => .ok value
  | other => .error (invalidType printing other.unexpected .string)

/-- An entry of a map from strings to strings. -/
def mapEntry (machineKeys : MachineKeys) (entry : String × Toml F) : Except String MachineKeys :=
  (asString printing entry.2).map fun machineId => machineKeys.insert entry.1 machineId

/-- `BTreeMap::<String, String>::deserialize`.  A date is visited as a table of one entry. -/
def asMap : Toml F → Except String MachineKeys
  | .table entries => entries.foldlM (mapEntry printing) ∅
  | .datetime text => .ok ((∅ : MachineKeys).insert "$__toml_private_datetime" text)
  | other => .error (invalidType printing other.unexpected .map)

def FIELDS : String := "one of `listen`, `usage_file`, `machine_keys`"

/-- Visit an entry of the document. -/
def visitEntry (fields : RawFields) (entry : String × Toml F) : Except String RawFields :=
  if entry.1 = "listen" then
    (asString printing entry.2).map fun listen => { fields with listen := some listen }
  else if entry.1 = "usage_file" then
    (asString printing entry.2).map fun usageFile => { fields with usageFile := some usageFile }
  else if entry.1 = "machine_keys" then
    (asMap printing entry.2).map fun machineKeys => { fields with machineKeys := some machineKeys }
  else .error (unknownField entry.1 FIELDS)

end Deserialization

def complete (fields : RawFields) : Except String RawConfig :=
  match fields.listen, fields.usageFile, fields.machineKeys with
  | none, _, _ => .error (missingField "listen")
  | some _, none, _ => .error (missingField "usage_file")
  | some _, some _, none => .error (missingField "machine_keys")
  | some listen, some usageFile, some machineKeys => .ok ⟨listen, usageFile, machineKeys⟩

/-- `RawConfig::deserialize`. -/
def deserialize (printing : Printing F) (document : List (String × Toml F)) :
    Except String RawConfig :=
  (document.foldlM (visitEntry printing) ⟨none, none, none⟩).bind complete

end RawConfig

/-- `load`, of what reading the file gives. -/
def Config.load (toml : TomlReader F P) (path : String) (file : Except String Bytes) :
    Except ErrorKind Config :=
  match file with
  | .error source => .error (.io path source)
  | .ok octets =>
      match utf8? octets with
      | none => .error (.io path "stream did not contain valid UTF-8")
      | some contents =>
          match toml.parse contents with
          | .error error => .error (.parse path (toml.wording error))
          | .ok document =>
              match RawConfig.deserialize toml.toPrinting document with
              | .error message => .error (.parse path message)
              | .ok raw => (Config.tryFrom raw path).mapError .validation

/-- The first thing in a document that has no place in a configuration. -/
inductive Misfit (F : Type)
  | key (name : String)
  | value (found : Unexpected F) (expected : Expected)
  | missing (field : String)

def Misfit.message (printing : Printing F) : Misfit F → String
  | .key name => unknownField name RawConfig.FIELDS
  | .value found expected => invalidType printing found expected
  | .missing field => missingField field

namespace Misfit

def inString : Toml F → Option (Misfit F)
  | .string _ => none
  | other => some (.value other.unexpected .string)

def inMap : Toml F → Option (Misfit F)
  | .table entries => entries.findSome? fun entry => inString entry.2
  | .datetime _ => none
  | other => some (.value other.unexpected .map)

def inEntry (entry : String × Toml F) : Option (Misfit F) :=
  if entry.1 = "listen" ∨ entry.1 = "usage_file" then inString entry.2
  else if entry.1 = "machine_keys" then inMap entry.2
  else some (.key entry.1)

/-- The first entry of a document that does not fit, or else the first field it lacks. -/
def inDocument (document : List (String × Toml F)) : Option (Misfit F) :=
  (document.findSome? inEntry).or
    ((["listen", "usage_file", "machine_keys"].find? fun field =>
      !document.any fun entry => entry.1 == field).map .missing)

section Messages

variable (printing : Printing F)

theorem failure_asString (value : Toml F) :
    (RawConfig.asString printing value).failure = (inString value).map (message printing) := by
  cases value <;> rfl

theorem failure_asMap (value : Toml F) :
    (RawConfig.asMap printing value).failure = (inMap value).map (message printing) := by
  cases value with
  | table entries =>
      have fails : ∀ machineKeys (entry : String × Toml F),
          (RawConfig.mapEntry printing machineKeys entry).failure =
            (inString entry.2).map (message printing) := by
        intro machineKeys entry
        rw [RawConfig.mapEntry, Except.failure_map, failure_asString]
      rw [RawConfig.asMap, Except.failure_foldlM fails, inMap, List.map_findSome?]
      rfl
  | _ => rfl

theorem failure_visitEntry (fields : RawFields) (entry : String × Toml F) :
    (RawConfig.visitEntry printing fields entry).failure =
      (inEntry entry).map (message printing) := by
  unfold RawConfig.visitEntry inEntry
  by_cases listen : entry.1 = "listen"
  · rw [if_pos listen, if_pos (.inl listen), Except.failure_map, failure_asString]
  · rw [if_neg listen]
    by_cases usageFile : entry.1 = "usage_file"
    · rw [if_pos usageFile, if_pos (.inr usageFile), Except.failure_map, failure_asString]
    · rw [if_neg usageFile, if_neg (not_or.mpr ⟨listen, usageFile⟩)]
      by_cases machineKeys : entry.1 = "machine_keys"
      · rw [if_pos machineKeys, if_pos machineKeys, Except.failure_map, failure_asMap]
      · rw [if_neg machineKeys, if_neg machineKeys]
        rfl

/-- What visiting an entry can have done. -/
theorem visitEntry_cases {fields next : RawFields} {entry : String × Toml F}
    (visited : RawConfig.visitEntry printing fields entry = .ok next) :
    (entry.1 = "listen" ∧ ∃ listen, next = { fields with listen := some listen }) ∨
      (entry.1 = "usage_file" ∧ ∃ usageFile, next = { fields with usageFile := some usageFile }) ∨
        (entry.1 = "machine_keys" ∧
          ∃ machineKeys, next = { fields with machineKeys := some machineKeys }) := by
  unfold RawConfig.visitEntry at visited
  by_cases listen : entry.1 = "listen"
  · rw [if_pos listen] at visited
    obtain ⟨value, -, rfl⟩ := Except.map_eq_ok_iff.mp visited
    exact .inl ⟨listen, value, rfl⟩
  · rw [if_neg listen] at visited
    by_cases usageFile : entry.1 = "usage_file"
    · rw [if_pos usageFile] at visited
      obtain ⟨value, -, rfl⟩ := Except.map_eq_ok_iff.mp visited
      exact .inr (.inl ⟨usageFile, value, rfl⟩)
    · rw [if_neg usageFile] at visited
      by_cases machineKeys : entry.1 = "machine_keys"
      · rw [if_pos machineKeys] at visited
        obtain ⟨value, -, rfl⟩ := Except.map_eq_ok_iff.mp visited
        exact .inr (.inr ⟨machineKeys, value, rfl⟩)
      · rw [if_neg machineKeys] at visited
        cases visited

/-- The fields that are there after some entries are those with an entry. -/
theorem isSome_foldlM {document : List (String × Toml F)} {fields : RawFields}
    (visited : document.foldlM (RawConfig.visitEntry printing) ⟨none, none, none⟩ = .ok fields) :
    fields.listen.isSome = (document.any fun entry => entry.1 == "listen") ∧
      fields.usageFile.isSome = (document.any fun entry => entry.1 == "usage_file") ∧
        fields.machineKeys.isSome = document.any fun entry => entry.1 == "machine_keys" := by
  refine ⟨Except.mark_foldlM (fun fields => fields.listen.isSome) ?_ visited,
    Except.mark_foldlM (fun fields => fields.usageFile.isSome) ?_ visited,
    Except.mark_foldlM (fun fields => fields.machineKeys.isSome) ?_ visited⟩
  all_goals
    intro fields entry next step
    obtain ⟨name, value, rfl⟩ | ⟨name, value, rfl⟩ | ⟨name, value, rfl⟩ :=
      visitEntry_cases printing step
    all_goals simp [name]

/-- **What deserializing a document fails with** is what is first wrong with it. -/
theorem failure_deserialize (document : List (String × Toml F)) :
    (RawConfig.deserialize printing document).failure =
      (inDocument document).map (message printing) := by
  have loop := Except.failure_foldlM (failure_visitEntry printing) document ⟨none, none, none⟩
  have first : document.findSome? (fun entry => (inEntry entry).map (message printing)) =
      (document.findSome? inEntry).map (message printing) := List.map_findSome?.symm
  rw [first] at loop
  unfold RawConfig.deserialize inDocument
  cases visited : document.foldlM (RawConfig.visitEntry printing) ⟨none, none, none⟩ with
  | error reason =>
      rw [visited] at loop
      obtain ⟨misfit, first, rfl⟩ := Option.map_eq_some_iff.mp loop.symm
      rw [first]
      rfl
  | ok fields =>
      rw [visited] at loop
      rw [Option.map_eq_none_iff.mp loop.symm]
      obtain ⟨hasListen, hasUsageFile, hasKeys⟩ := isSome_foldlM printing visited
      simp only [List.find?_cons, ← hasListen, ← hasUsageFile, ← hasKeys]
      obtain ⟨listen, usageFile, machineKeys⟩ := fields
      cases listen <;> cases usageFile <;> cases machineKeys <;> rfl

end Messages

end Misfit

/-- The rules a configuration is validated by. -/
inductive Rule
  | listen
  | usageFile
  | someMachine
  | digest
  | machineId
  deriving DecidableEq, Repr

namespace Rule

def message : Rule → String
  | listen => "listen must be a valid IP:port address, e.g. \"127.0.0.1:8787\""
  | usageFile => "usage_file must be a non-empty file path"
  | someMachine => "machine_keys must map at least one meter key digest to a machine id"
  | digest => "machine_keys entry must be a 64-character lowercase hex SHA-256 digest"
  | machineId => "machine id must not be blank"

/-- The rule that an entry of the table of machines breaks. -/
def brokenByEntry (entry : String × String) : Option Rule :=
  if isDigestHex entry.1 = false then some .digest
  else if trimIsEmpty entry.2 then some .machineId
  else none

/-- The first rule that a configuration breaks. -/
def brokenBy (raw : RawConfig) : Option Rule :=
  if (SocketAddr.parse (utf8 raw.listen)).isNone then some .listen
  else if raw.usageFile = "" then some .usageFile
  else if raw.machineKeys.isEmpty then some .someMachine
  else raw.machineKeys.toList.findSome? brokenByEntry

theorem failure_tryEntry (path : String) (machineKeys : MachineKeys) (entry : String × String) :
    (Config.tryEntry path machineKeys entry.1 entry.2).failure =
      (brokenByEntry entry).map fun rule => ⟨path, rule.message⟩ := by
  unfold Config.tryEntry brokenByEntry
  cases isDigestHex entry.1 with
  | false => rfl
  | true => cases trimIsEmpty entry.2 <;> rfl

/-- **What validating a configuration fails with** is the first rule that it breaks. -/
theorem failure_tryFrom (raw : RawConfig) (path : String) :
    (Config.tryFrom raw path).failure = (brokenBy raw).map fun rule => ⟨path, rule.message⟩ := by
  unfold Config.tryFrom brokenBy
  cases SocketAddr.parse (utf8 raw.listen) with
  | none => rfl
  | some listen =>
      by_cases noFile : raw.usageFile = ""
      · simp only [noFile, Option.isNone_some, Bool.false_eq_true, ↓reduceIte]
        rfl
      · by_cases noKeys : raw.machineKeys.isEmpty = true
        · simp only [noFile, noKeys, Option.isNone_some, Bool.false_eq_true, ↓reduceIte]
          rfl
        · simp only [noFile, noKeys, Option.isNone_some, Bool.false_eq_true, ↓reduceIte]
          rw [Except.failure_map, Std.ExtTreeMap.foldlM_eq_foldlM_toList,
            Except.failure_foldlM (failure_tryEntry path)]
          exact List.map_findSome?.symm

end Rule

/-- What is first wrong with a file. -/
inductive Complaint (F P : Type)
  | notText
  | malformed (error : SyntaxError P)
  | unfit (misfit : Misfit F)
  | broken (rule : Rule)

/-- The reasons that are told apart regardless of what a file contains. -/
inductive Reason
  | notText
  | malformed
  | unknownField
  | wrongType
  | missingField
  | broken (rule : Rule)
  deriving DecidableEq, Repr

namespace Complaint

def reason : Complaint F P → Reason
  | .notText => .notText
  | .malformed _ => .malformed
  | .unfit (.key _) => .unknownField
  | .unfit (.value _ _) => .wrongType
  | .unfit (.missing _) => .missingField
  | .broken rule => .broken rule

section Files

variable (toml : TomlReader F P)

/-- What is first wrong with a document: an entry, a field that is missing, or a rule. -/
def ofDocument (document : List (String × Toml F)) : Option (Complaint F P) :=
  match RawConfig.deserialize toml.toPrinting document with
  | .error _ => (Misfit.inDocument document).map .unfit
  | .ok raw => (Rule.brokenBy raw).map .broken

def ofFile (file : Bytes) : Option (Complaint F P) :=
  match utf8? file with
  | none => some .notText
  | some contents =>
      match toml.parse contents with
      | .error error => some (.malformed error)
      | .ok document => ofDocument toml document

/-- The error of a complaint about the file at a path. -/
def kind (path : String) : Complaint F P → ErrorKind
  | .notText => .io path "stream did not contain valid UTF-8"
  | .malformed error => .parse path (toml.wording error)
  | .unfit misfit => .parse path (misfit.message toml.toPrinting)
  | .broken rule => .validation ⟨path, rule.message⟩

/-- **What loading a file fails with** is what is first wrong with it. -/
theorem failure_load (path : String) (file : Bytes) :
    (Config.load toml path (.ok file)).failure = (ofFile toml file).map (kind toml path) := by
  unfold Config.load ofFile
  cases decodes : utf8? file with
  | none =>
      simp only [decodes]
      rfl
  | some contents =>
      cases read : toml.parse contents with
      | error error =>
          simp only [decodes, read]
          rfl
      | ok document =>
          simp only [decodes, read]
          have deserialized := Misfit.failure_deserialize toml.toPrinting document
          unfold ofDocument
          cases outcome : RawConfig.deserialize toml.toPrinting document with
          | error message =>
              rw [outcome] at deserialized
              obtain ⟨misfit, first, rfl⟩ := Option.map_eq_some_iff.mp deserialized.symm
              simp only [first]
              rfl
          | ok raw =>
              simp only
              rw [Except.failure_mapError, Rule.failure_tryFrom, Option.map_map, Option.map_map]
              rfl

end Files

theorem message_inj {printing : Printing F} (lawful : printing.Lawful) {misfit misfit' : Misfit F}
    (same : (unfit misfit : Complaint F P).reason = (unfit misfit' : Complaint F P).reason)
    (worded : misfit.message printing = misfit'.message printing) : misfit = misfit' := by
  cases misfit with
  | key name =>
      cases misfit' with
      | key name' => rw [unknownField_inj.mp worded]
      | _ => cases same
  | value found expected =>
      cases misfit' with
      | value found' expected' =>
          obtain ⟨rfl, rfl⟩ := (invalidType_inj lawful).mp worded
          rfl
      | _ => cases same
  | missing field =>
      cases misfit' with
      | missing field' => rw [missingField_inj.mp worded]
      | _ => cases same

/-- Complaints of one reason that are displayed alike are the same. -/
theorem display_inj {toml : TomlReader F P} (lawful : toml.Lawful) {path : String}
    {first second : Complaint F P} (same : first.reason = second.reason) :
    (first.kind toml path).display = (second.kind toml path).display ↔ first = second := by
  refine ⟨fun shown => ?_, fun | rfl => rfl⟩
  cases first with
  | notText =>
      cases second with
      | notText => rfl
      | unfit misfit => cases misfit <;> cases same
      | _ => cases same
  | malformed error =>
      cases second with
      | malformed error' =>
          have worded := (String.append_right_inj _).mp shown
          rw [lawful.wording worded]
      | unfit misfit => cases misfit <;> cases same
      | _ => cases same
  | unfit misfit =>
      cases second with
      | unfit misfit' =>
          have worded := (String.append_right_inj _).mp shown
          rw [message_inj lawful.toLawful same worded]
      | _ => cases misfit <;> cases same
  | broken rule =>
      cases second with
      | broken rule' =>
          cases same
          rfl
      | unfit misfit => cases misfit <;> cases same
      | _ => cases same

end Complaint

/-- **Two files that are rejected for one reason are told the same** if and only if the
same is wrong with them. -/
theorem display_load_eq_iff {toml : TomlReader F P} (lawful : toml.Lawful) {path : String}
    {first second : Bytes} {error error' : ErrorKind}
    (rejected : Config.load toml path (.ok first) = .error error)
    (rejected' : Config.load toml path (.ok second) = .error error')
    (same : (Complaint.ofFile toml first).map Complaint.reason =
      (Complaint.ofFile toml second).map Complaint.reason) :
    error.display = error'.display ↔
      Complaint.ofFile toml first = Complaint.ofFile toml second := by
  have about := Complaint.failure_load toml path first
  have about' := Complaint.failure_load toml path second
  rw [rejected] at about
  rw [rejected'] at about'
  obtain ⟨complaint, wrong, rfl⟩ := Option.map_eq_some_iff.mp about.symm
  obtain ⟨complaint', wrong', rfl⟩ := Option.map_eq_some_iff.mp about'.symm
  rw [wrong, wrong'] at same ⊢
  rw [Complaint.display_inj lawful (Option.some.inj same), Option.some_inj]

/-- An assignment of a string without escapes to a bare key. -/
def readAssignment (line : List Char) : Option (String × Toml Empty) :=
  match line.splitOn '"' with
  | [left, value, []] =>
      let key := left.take (left.length - 3)
      if left.drop (left.length - 3) = " = ".toList ∧ key ≠ [] ∧
          (key.all fun c => c.isAlphanum || c == '_' || c == '-') ∧
          (value.all fun c => c != '\\' && 0x20 ≤ c.toNat) then
        some (String.ofList key, .string (String.ofList value))
      else none
  | _ => none

/-- A reader of documents of such assignments. -/
def assignments : TomlReader Empty Unit where
  debug value := "\"" ++ value ++ "\""
  float := nofun
  parse text :=
    match (text.toList.splitOn '\n').mapM readAssignment with
    | some document => .ok document
    | none => .error ⟨(), none⟩
  wording error :=
    match error.named with
    | none => "invalid document"
    | some key => "duplicate key " ++ key

theorem lawful_assignments : assignments.Lawful where
  debug value value' same := by
    rwa [assignments, String.append_left_inj, String.append_right_inj] at same
  float := nofun
  wording := by
    rintro ⟨⟨⟩, named⟩ ⟨⟨⟩, named'⟩ same
    cases named with
    | none =>
        cases named' with
        | none => rfl
        | some key' =>
            have first := congrArg (fun text => text.toList.head?) same
            simp [assignments] at first
    | some key =>
        cases named' with
        | none =>
            have first := congrArg (fun text => text.toList.head?) same
            simp [assignments] at first
        | some key' => rw [(String.append_right_inj _).mp same]

/-- A configuration with one text in place of the table of machines. -/
def misplaced (secret : String) : Bytes := utf8 ("machine_keys = \"" ++ secret ++ "\"")

/-- A configuration with one unknown field. -/
def unknown (value : String) : Bytes := utf8 ("upstream = \"" ++ value ++ "\"")

/-- Files with the same unknown field are rejected with the same message, whatever its
value is, exactly if there is the same complaint of them. -/
theorem display_load_eq_iff_unknown :
    let loaded := fun value => Config.load assignments "config.toml" (.ok (unknown value))
    ∃ error error', loaded "first" = .error error ∧ loaded "second" = .error error' ∧
      (error.display = error'.display ↔ Complaint.ofFile assignments (unknown "first") =
        Complaint.ofFile assignments (unknown "second")) := by
  intro loaded
  have first : loaded "first" =
      .error (.parse "config.toml" (unknownField "upstream" RawConfig.FIELDS)) :=
    Except.failure_eq_some_iff.mp (by decide +kernel)
  have second : loaded "second" =
      .error (.parse "config.toml" (unknownField "upstream" RawConfig.FIELDS)) :=
    Except.failure_eq_some_iff.mp (by decide +kernel)
  exact ⟨_, _, first, second,
    display_load_eq_iff lawful_assignments first second (by decide +kernel)⟩

/-- A text that is not a table is shown. -/
theorem not_display_misplaced :
    ¬ ∀ (first second : String) (error error' : ErrorKind),
      Config.load assignments "config.toml" (.ok (misplaced first)) = .error error →
        Config.load assignments "config.toml" (.ok (misplaced second)) = .error error' →
          (Complaint.ofFile assignments (misplaced first)).map Complaint.reason =
              (Complaint.ofFile assignments (misplaced second)).map Complaint.reason →
            error.display = error'.display := by
  intro alike
  have first : Config.load assignments "config.toml" (.ok (misplaced "first")) =
      .error (.parse "config.toml" "invalid type: string \"first\", expected a map") :=
    Except.failure_eq_some_iff.mp (by decide +kernel)
  have second : Config.load assignments "config.toml" (.ok (misplaced "second")) =
      .error (.parse "config.toml" "invalid type: string \"second\", expected a map") :=
    Except.failure_eq_some_iff.mp (by decide +kernel)
  have shown := alike _ _ _ _ first second (by decide +kernel)
  exact absurd shown (by decide +kernel)

end Debitmetre
