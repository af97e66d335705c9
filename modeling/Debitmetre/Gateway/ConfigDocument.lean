import Debitmetre.Gateway.ConfigFile
import Mathlib.Data.List.Nodup

/-!
# The documents that are configurations

Which files a configuration is loaded from.  A document has the three fields and no other
entry, each of its type, and the values obey the rules; what is loaded is then what is
written.  That no table has two entries with one key is asked of the parser of TOML.
-/

/-- A table of strings. -/
def Wire.Toml.ofStrings {F : Type} (entries : List (String × String)) : Wire.Toml F :=
  .table (entries.map fun entry => (entry.1, .string entry.2))

namespace Debitmetre

open Wire

variable {F P : Type}

/-- No table has two entries with one key, at the top of a document or right below. -/
structure TomlReader.Distinct (toml : TomlReader F P) : Prop where
  document : ∀ {contents document}, toml.parse contents = .ok document →
    (document.map Prod.fst).Nodup
  table : ∀ {contents document}, toml.parse contents = .ok document →
    ∀ {key entries}, (key, .table entries) ∈ document → (entries.map Prod.fst).Nodup

namespace RawConfig

variable {printing : Printing F}

/-- Only a string is read as a text. -/
theorem asString_eq_ok_iff {value : Toml F} {text : String} :
    asString printing value = .ok text ↔ value = .string text := by
  cases value with
  | string other =>
      rw [asString, Except.ok.injEq, Toml.string.injEq]
  | _ =>
      refine iff_of_false (fun same => ?_) fun same => ?_
      · cases same
      · cases same

/-- A table is read if its values are strings. -/
theorem foldlM_mapEntry {entries : List (String × Toml F)}
    {machineKeys machineKeys' : MachineKeys} :
    entries.foldlM (mapEntry printing) machineKeys = .ok machineKeys' ↔
      ∃ machines : List (String × String),
        entries = machines.map (fun entry => (entry.1, .string entry.2)) ∧
          machineKeys' = machineKeys.insertMany machines := by
  induction entries generalizing machineKeys with
  | nil =>
      rw [List.foldlM_nil]
      constructor
      · intro same
        cases same
        exact ⟨[], rfl, Std.ExtTreeMap.insertMany_nil.symm⟩
      · intro ⟨machines, empty, same⟩
        rw [List.map_eq_nil_iff.mp empty.symm, Std.ExtTreeMap.insertMany_nil] at same
        rw [same]
        rfl
  | cons entry entries ih =>
      rw [List.foldlM_cons]
      constructor
      · intro read
        cases first : mapEntry printing machineKeys entry with
        | error message =>
            rw [first] at read
            cases read
        | ok next =>
            rw [first] at read
            obtain ⟨machineId, value, rfl⟩ := Except.map_eq_ok_iff.mp first
            obtain ⟨machines, same, rfl⟩ := ih.mp read
            refine ⟨(entry.1, machineId) :: machines, ?_, ?_⟩
            · rw [same, List.map_cons, ← asString_eq_ok_iff.mp value]
            · rw [Std.ExtTreeMap.insertMany_cons]
      · intro ⟨machines, same, read⟩
        obtain ⟨machine, others, rfl, rfl, rfl⟩ := List.map_eq_cons_iff.mp same.symm
        rw [Std.ExtTreeMap.insertMany_cons] at read
        exact ih.mpr ⟨others, rfl, read⟩

/-- A table of machines is a table of strings, or a date. -/
theorem asMap_eq_ok_iff {value : Toml F} {machineKeys : MachineKeys} :
    asMap printing value = .ok machineKeys ↔
      (∃ machines, value = .ofStrings machines ∧
          machineKeys = (∅ : MachineKeys).insertMany machines) ∨
        ∃ text, value = .datetime text ∧
          machineKeys = (∅ : MachineKeys).insert "$__toml_private_datetime" text := by
  cases value with
  | table entries =>
      rw [asMap, foldlM_mapEntry]
      constructor
      · intro written
        obtain ⟨machines, same, read⟩ := written
        exact .inl ⟨machines, congrArg _ same, read⟩
      · intro read
        rcases read with ⟨machines, same, read⟩ | ⟨text, same, -⟩
        · exact ⟨machines, Toml.table.inj same, read⟩
        · cases same
  | datetime text =>
      rw [asMap, Except.ok.injEq]
      constructor
      · intro same
        exact .inr ⟨text, rfl, same.symm⟩
      · intro read
        rcases read with ⟨machines, same, -⟩ | ⟨other, same, read⟩
        · cases same
        · rw [read, Toml.datetime.inj same]
  | _ =>
      refine iff_of_false (fun same => ?_) fun read => ?_
      · cases same
      · rcases read with ⟨machines, same, -⟩ | ⟨text, same, -⟩
        · cases same
        · cases same

/-- An entry that a field was read from. -/
inductive Fits (printing : Printing F) (final : RawFields) : String × Toml F → Prop
  | listen {text : String} (same : final.listen = some text) :
      Fits printing final ("listen", .string text)
  | usageFile {text : String} (same : final.usageFile = some text) :
      Fits printing final ("usage_file", .string text)
  | machineKeys {value : Toml F} {machineKeys : MachineKeys}
      (read : asMap printing value = .ok machineKeys)
      (same : final.machineKeys = some machineKeys) : Fits printing final ("machine_keys", value)

/-- The fields that no entry has are as they were. -/
structure Untouched (names : List String) (fields final : RawFields) : Prop where
  listen : "listen" ∉ names → final.listen = fields.listen
  usageFile : "usage_file" ∉ names → final.usageFile = fields.usageFile
  machineKeys : "machine_keys" ∉ names → final.machineKeys = fields.machineKeys

/-- Nothing is left to be touched. -/
theorem untouched_nil {fields final : RawFields} : Untouched [] fields final ↔ final = fields := by
  constructor
  · intro untouched
    obtain ⟨listen, usageFile, machineKeys⟩ := final
    obtain ⟨listen', usageFile', machineKeys'⟩ := fields
    cases untouched.listen List.not_mem_nil
    cases untouched.usageFile List.not_mem_nil
    cases untouched.machineKeys List.not_mem_nil
    rfl
  · intro same
    subst same
    exact ⟨fun _ => rfl, fun _ => rfl, fun _ => rfl⟩

namespace Untouched

variable {names : List String} {fields final : RawFields}

/-- A field that is read before others. -/
theorem cons_listen {listen : Option String}
    (untouched : Untouched names { fields with listen } final) :
    Untouched ("listen" :: names) fields final where
  listen := fun other => absurd List.mem_cons_self other
  usageFile := fun other => untouched.usageFile (List.not_mem_of_not_mem_cons other)
  machineKeys := fun other => untouched.machineKeys (List.not_mem_of_not_mem_cons other)

theorem cons_usageFile {usageFile : Option String}
    (untouched : Untouched names { fields with usageFile } final) :
    Untouched ("usage_file" :: names) fields final where
  listen := fun other => untouched.listen (List.not_mem_of_not_mem_cons other)
  usageFile := fun other => absurd List.mem_cons_self other
  machineKeys := fun other => untouched.machineKeys (List.not_mem_of_not_mem_cons other)

theorem cons_machineKeys {machineKeys : Option MachineKeys}
    (untouched : Untouched names { fields with machineKeys } final) :
    Untouched ("machine_keys" :: names) fields final where
  listen := fun other => untouched.listen (List.not_mem_of_not_mem_cons other)
  usageFile := fun other => untouched.usageFile (List.not_mem_of_not_mem_cons other)
  machineKeys := fun other => absurd List.mem_cons_self other

/-- A field that has been read is left as it is by the others. -/
theorem of_listen {listen : Option String} (untouched : Untouched ("listen" :: names) fields final)
    (same : final.listen = listen) : Untouched names { fields with listen } final where
  listen := fun _ => same
  usageFile := fun other =>
    untouched.usageFile (List.not_mem_cons_of_ne_of_not_mem (by decide) other)
  machineKeys := fun other =>
    untouched.machineKeys (List.not_mem_cons_of_ne_of_not_mem (by decide) other)

theorem of_usageFile {usageFile : Option String}
    (untouched : Untouched ("usage_file" :: names) fields final)
    (same : final.usageFile = usageFile) : Untouched names { fields with usageFile } final where
  listen := fun other => untouched.listen (List.not_mem_cons_of_ne_of_not_mem (by decide) other)
  usageFile := fun _ => same
  machineKeys := fun other =>
    untouched.machineKeys (List.not_mem_cons_of_ne_of_not_mem (by decide) other)

theorem of_machineKeys {machineKeys : Option MachineKeys}
    (untouched : Untouched ("machine_keys" :: names) fields final)
    (same : final.machineKeys = machineKeys) :
    Untouched names { fields with machineKeys } final where
  listen := fun other => untouched.listen (List.not_mem_cons_of_ne_of_not_mem (by decide) other)
  usageFile := fun other =>
    untouched.usageFile (List.not_mem_cons_of_ne_of_not_mem (by decide) other)
  machineKeys := fun _ => same

end Untouched

theorem visitEntry_listen {fields next : RawFields} {value : Toml F} :
    visitEntry printing fields ("listen", value) = .ok next ↔
      ∃ text, value = .string text ∧ { fields with listen := some text } = next := by
  rw [visitEntry, if_pos rfl, Except.map_eq_ok_iff]
  exact exists_congr fun text => and_congr_left' asString_eq_ok_iff

theorem visitEntry_usageFile {fields next : RawFields} {value : Toml F} :
    visitEntry printing fields ("usage_file", value) = .ok next ↔
      ∃ text, value = .string text ∧ { fields with usageFile := some text } = next := by
  have other : "usage_file" ≠ "listen" := by decide
  rw [visitEntry, if_neg other, if_pos rfl, Except.map_eq_ok_iff]
  exact exists_congr fun text => and_congr_left' asString_eq_ok_iff

theorem visitEntry_machineKeys {fields next : RawFields} {value : Toml F} :
    visitEntry printing fields ("machine_keys", value) = .ok next ↔
      ∃ machineKeys, asMap printing value = .ok machineKeys ∧
        { fields with machineKeys := some machineKeys } = next := by
  have other : "machine_keys" ≠ "listen" := by decide
  have another : "machine_keys" ≠ "usage_file" := by decide
  rw [visitEntry, if_neg other, if_neg another, if_pos rfl, Except.map_eq_ok_iff]

/-- **Entries are read** if each of them fits its field. -/
theorem foldlM_visitEntry {document : List (String × Toml F)} {fields final : RawFields}
    (distinct : (document.map Prod.fst).Nodup) :
    document.foldlM (visitEntry printing) fields = .ok final ↔
      (∀ entry ∈ document, Fits printing final entry) ∧
        Untouched (document.map Prod.fst) fields final := by
  induction document generalizing fields with
  | nil =>
      rw [List.foldlM_nil, List.map_nil, untouched_nil]
      constructor
      · intro same
        cases same
        exact ⟨fun entry member => (List.not_mem_nil member).elim, rfl⟩
      · intro both
        rw [both.2]
        rfl
  | cons entry rest ih =>
      obtain ⟨name, value⟩ := entry
      rw [List.map_cons, List.nodup_cons] at distinct
      obtain ⟨fresh, distinct⟩ := distinct
      rw [List.foldlM_cons, List.forall_mem_cons, List.map_cons]
      constructor
      · intro read
        cases first : visitEntry printing fields (name, value) with
        | error message =>
            rw [first] at read
            cases read
        | ok next =>
            rw [first] at read
            obtain ⟨fits, untouched⟩ := (ih distinct).mp read
            obtain ⟨rfl, -⟩ | ⟨rfl, -⟩ | ⟨rfl, -⟩ := Misfit.visitEntry_cases printing first
            · obtain ⟨text, rfl, rfl⟩ := visitEntry_listen.mp first
              exact ⟨⟨.listen (untouched.listen fresh), fits⟩, untouched.cons_listen⟩
            · obtain ⟨text, rfl, rfl⟩ := visitEntry_usageFile.mp first
              exact ⟨⟨.usageFile (untouched.usageFile fresh), fits⟩, untouched.cons_usageFile⟩
            · obtain ⟨machineKeys, table, rfl⟩ := visitEntry_machineKeys.mp first
              exact ⟨⟨.machineKeys table (untouched.machineKeys fresh), fits⟩,
                untouched.cons_machineKeys⟩
      · intro both
        obtain ⟨⟨first, fits⟩, untouched⟩ := both
        cases first with
        | listen same =>
            rw [visitEntry_listen.mpr ⟨_, rfl, rfl⟩]
            exact (ih distinct).mpr ⟨fits, untouched.of_listen same⟩
        | usageFile same =>
            rw [visitEntry_usageFile.mpr ⟨_, rfl, rfl⟩]
            exact (ih distinct).mpr ⟨fits, untouched.of_usageFile same⟩
        | machineKeys table same =>
            rw [visitEntry_machineKeys.mpr ⟨_, table, rfl⟩]
            exact (ih distinct).mpr ⟨fits, untouched.of_machineKeys same⟩

/-- A configuration is complete if all of its fields are there. -/
theorem complete_eq_ok_iff {fields : RawFields} {raw : RawConfig} :
    complete fields = .ok raw ↔
      fields = ⟨some raw.listen, some raw.usageFile, some raw.machineKeys⟩ := by
  obtain ⟨listen, usageFile, machineKeys⟩ := fields
  obtain ⟨listen', usageFile', machineKeys'⟩ := raw
  cases listen <;> cases usageFile <;> cases machineKeys <;>
    simp only [complete, reduceCtorEq, RawFields.mk.injEq, Option.some.injEq, Except.ok.injEq,
      RawConfig.mk.injEq, false_and, and_false]

/-- The entries of a document of a configuration. -/
def entries (raw : RawConfig) (machineKeys : Toml F) : List (String × Toml F) :=
  [("listen", .string raw.listen), ("usage_file", .string raw.usageFile),
    ("machine_keys", machineKeys)]

/-- The entries of a configuration have names of their own. -/
theorem nodup_names (raw : RawConfig) (machineKeys : Toml F) :
    ((raw.entries machineKeys).map Prod.fst).Nodup :=
  (by decide : ["listen", "usage_file", "machine_keys"].Nodup)

/-- The table of machines has been read. -/
theorem Fits.table {final : RawFields} {entry : String × Toml F} (fits : Fits printing final entry)
    (name : entry.1 = "machine_keys") :
    ∃ machineKeys, asMap printing entry.2 = .ok machineKeys ∧
      final.machineKeys = some machineKeys := by
  cases fits with
  | listen => exact absurd name (by decide : "listen" ≠ "machine_keys")
  | usageFile => exact absurd name (by decide : "usage_file" ≠ "machine_keys")
  | machineKeys read same => exact ⟨_, read, same⟩

/-- **A document is read as a configuration** if it has the three fields, each of its
type, and no other entry. -/
theorem deserialize_eq_ok_iff {document : List (String × Toml F)} {raw : RawConfig}
    (distinct : (document.map Prod.fst).Nodup) :
    deserialize printing document = .ok raw ↔
      ∃ value, asMap printing value = .ok raw.machineKeys ∧ document.Perm (raw.entries value) := by
  have read : deserialize printing document = .ok raw ↔
      document.foldlM (visitEntry printing) ⟨none, none, none⟩ =
        .ok ⟨some raw.listen, some raw.usageFile, some raw.machineKeys⟩ := by
    rw [deserialize]
    cases document.foldlM (visitEntry printing) ⟨none, none, none⟩ with
    | error message =>
        refine iff_of_false (fun same => ?_) fun same => ?_
        · cases same
        · cases same
    | ok fields => exact complete_eq_ok_iff.trans (iff_of_eq (Except.ok.injEq _ _).symm)
  rw [read, foldlM_visitEntry distinct]
  constructor
  · intro both
    obtain ⟨fits, untouched⟩ := both
    have there (name : String) (touched : ¬ name ∉ document.map Prod.fst) :
        ∃ value, (name, value) ∈ document := by
      obtain ⟨⟨_, value⟩, member, rfl⟩ := List.mem_map.mp (not_not.mp touched)
      exact ⟨value, member⟩
    obtain ⟨listen, hasListen⟩ := there _ (mt untouched.listen (Option.some_ne_none _))
    obtain ⟨usageFile, hasUsageFile⟩ := there _ (mt untouched.usageFile (Option.some_ne_none _))
    obtain ⟨machineKeys, hasKeys⟩ := there _ (mt untouched.machineKeys (Option.some_ne_none _))
    have only (entry : String × Toml F) (member : entry ∈ document) :
        entry ∈ raw.entries machineKeys := by
      cases fits entry member with
      | listen same =>
          rw [← Option.some.inj same]
          exact List.mem_cons_self
      | usageFile same =>
          rw [← Option.some.inj same]
          exact List.mem_cons_of_mem _ List.mem_cons_self
      | @machineKeys value =>
          have own := List.inj_on_of_nodup_map distinct member hasKeys rfl
          rw [own]
          exact List.mem_cons_of_mem _ (List.mem_cons_of_mem _ List.mem_cons_self)
    have own {name : String} {value value' : Toml F} (member : (name, value) ∈ document)
        (member' : (name, value') ∈ raw.entries machineKeys) : (name, value') ∈ document := by
      have same :=
        List.inj_on_of_nodup_map (raw.nodup_names machineKeys) (only _ member) member' rfl
      rwa [← same]
    have all (entry : String × Toml F) (member : entry ∈ raw.entries machineKeys) :
        entry ∈ document := by
      rcases List.mem_cons.mp member with rfl | others
      · exact own hasListen member
      · rcases List.mem_cons.mp others with rfl | last
        · exact own hasUsageFile member
        · rwa [List.mem_singleton.mp last]
    obtain ⟨table, read, same⟩ := (fits _ hasKeys).table rfl
    refine ⟨machineKeys, (Option.some.inj same) ▸ read, ?_⟩
    exact (List.perm_ext_iff_of_nodup (.of_map _ distinct)
      (.of_map _ (raw.nodup_names machineKeys))).mpr fun entry => ⟨only entry, all entry⟩
  · intro both
    obtain ⟨value, table, same⟩ := both
    have names : (document.map Prod.fst).Perm ["listen", "usage_file", "machine_keys"] :=
      same.map Prod.fst
    refine ⟨fun entry member => ?_, ⟨fun other => ?_, fun other => ?_, fun other => ?_⟩⟩
    · rcases List.mem_cons.mp (same.mem_iff.mp member) with rfl | others
      · exact .listen rfl
      · rcases List.mem_cons.mp others with rfl | last
        · exact .usageFile rfl
        · rw [List.mem_singleton.mp last]
          exact .machineKeys table rfl
    · exact absurd (names.mem_iff.mpr (by decide)) other
    · exact absurd (names.mem_iff.mpr (by decide)) other
    · exact absurd (names.mem_iff.mpr (by decide)) other

end RawConfig

namespace Config

/-- Entries without a common key are all in the table that they are put into. -/
theorem getElem?_insertMany {machines : List (String × String)}
    (distinct : (machines.map Prod.fst).Nodup) {digest machineId : String} :
    ((∅ : MachineKeys).insertMany machines)[digest]? = some machineId ↔
      (digest, machineId) ∈ machines := by
  have apart : machines.Pairwise fun entry other => ¬ compare entry.1 other.1 = .eq :=
    (List.pairwise_map.mp distinct).imp fun other same =>
      other (Std.LawfulEqCmp.eq_of_compare same)
  have found {machineId : String} (member : (digest, machineId) ∈ machines) :
      ((∅ : MachineKeys).insertMany machines)[digest]? = some machineId :=
    Std.ExtTreeMap.getElem?_insertMany_list_of_mem Std.ReflCmp.compare_self apart member
  refine ⟨fun held => ?_, found⟩
  cases present : (machines.map Prod.fst).contains digest with
  | true =>
      obtain ⟨⟨_, other⟩, member, rfl⟩ := List.mem_map.mp (List.mem_of_elem_eq_true present)
      rw [found member] at held
      rwa [← Option.some.inj held]
  | false =>
      rw [Std.ExtTreeMap.getElem?_insertMany_list_of_contains_eq_false present,
        Std.ExtTreeMap.getElem?_empty] at held
      cases held

/-- What loading goes through. -/
theorem load_eq_ok {toml : TomlReader F P} {path : String} {file : Bytes} {config : Config} :
    load toml path (.ok file) = .ok config ↔
      ∃ contents document raw, utf8? file = some contents ∧ toml.parse contents = .ok document ∧
        RawConfig.deserialize toml.toPrinting document = .ok raw ∧
        tryFrom raw path = .ok config := by
  unfold load
  cases decodes : utf8? file with
  | none => simp [decodes]
  | some contents =>
      cases read : toml.parse contents with
      | error error => simp [decodes, read]
      | ok document =>
          cases deserialized : RawConfig.deserialize toml.toPrinting document with
          | error message => simp [decodes, read, deserialized]
          | ok raw =>
              cases validated : tryFrom raw path <;>
                simp [decodes, read, deserialized, validated, Except.mapError]

/-- The key of a date is no digest. -/
theorem not_accepted_datetime (text : String) :
    ¬ Accepted ("$__toml_private_datetime", text) := by
  intro accepted
  have digest : isDigestHex "$__toml_private_datetime" = false := by decide +kernel
  exact Bool.false_ne_true (digest.symm.trans accepted.1)

end Config

/-- **A configuration is loaded from a file** if and only if the file is the text of a
document with the three fields and nothing else, whose values obey the rules; and what is
loaded is what is written. -/
theorem Config.load_eq_ok_iff {toml : TomlReader F P} (distinct : toml.Distinct) {path : String}
    {file : Bytes} {config : Config} :
    Config.load toml path (.ok file) = .ok config ↔
      ∃ contents document listen machines, utf8? file = some contents ∧
        toml.parse contents = .ok document ∧
        document.Perm [("listen", .string listen), ("usage_file", .string config.usageFile),
          ("machine_keys", .ofStrings machines)] ∧
        SocketAddr.parse (utf8 listen) = some config.listen ∧ config.usageFile ≠ "" ∧
        machines ≠ [] ∧ (∀ entry ∈ machines, Accepted entry) ∧
        ∀ digest machineId, config.machineKeys[digest]? = some machineId ↔
          (digest, machineId) ∈ machines := by
  rw [load_eq_ok]
  constructor
  · intro loaded
    obtain ⟨contents, document, raw, decodes, parsed, deserialized, validated⟩ := loaded
    obtain ⟨value, table, same⟩ :=
      (RawConfig.deserialize_eq_ok_iff (distinct.document parsed)).mp deserialized
    obtain ⟨listen, usageFile, some_file, keys, some_keys, accepted⟩ :=
      tryFrom_eq_ok_iff.mp validated
    rcases RawConfig.asMap_eq_ok_iff.mp table with ⟨machines, rfl, inserted⟩ | ⟨text, -, inserted⟩
    · have member : ("machine_keys", .ofStrings machines) ∈ document :=
        same.mem_iff.mpr (List.mem_cons_of_mem _ (List.mem_cons_of_mem _ List.mem_cons_self))
      have names := distinct.table parsed member
      rw [List.map_map] at names
      have held (digest machineId : String) :
          config.machineKeys[digest]? = some machineId ↔ (digest, machineId) ∈ machines := by
        rw [keys, inserted]
        exact getElem?_insertMany names
      refine ⟨contents, document, raw.listen, machines, decodes, parsed, usageFile ▸ same, listen,
        usageFile ▸ some_file, fun none => some_keys ?_, fun entry member => ?_, held⟩
      · rw [inserted, none, Std.ExtTreeMap.insertMany_nil]
      · exact accepted entry.1 entry.2 (keys ▸ (held _ _).mpr member)
    · refine absurd (accepted _ text ?_) (not_accepted_datetime text)
      rw [inserted, Std.ExtTreeMap.getElem?_insert, if_pos Std.ReflCmp.compare_self]
  · intro written
    obtain ⟨contents, document, listen, machines, decodes, parsed, same, address, some_file,
      some_machines, accepted, held⟩ := written
    have member : ("machine_keys", .ofStrings machines) ∈ document :=
      same.mem_iff.mpr (List.mem_cons_of_mem _ (List.mem_cons_of_mem _ List.mem_cons_self))
    have names := distinct.table parsed member
    rw [List.map_map] at names
    have inserted : config.machineKeys = (∅ : MachineKeys).insertMany machines := by
      apply Std.ExtTreeMap.ext_getElem?
      intro digest
      apply Option.ext
      intro machineId
      rw [held, getElem?_insertMany names]
    refine ⟨contents, document, ⟨listen, config.usageFile, config.machineKeys⟩, decodes, parsed,
      (RawConfig.deserialize_eq_ok_iff (distinct.document parsed)).mpr
        ⟨_, RawConfig.asMap_eq_ok_iff.mpr (.inl ⟨machines, rfl, inserted⟩), same⟩,
      tryFrom_eq_ok_iff.mpr ⟨address, rfl, some_file, rfl, fun none => ?_, ?_⟩⟩
    · obtain ⟨entry, others, rfl⟩ := List.exists_cons_of_ne_nil some_machines
      have found := (held entry.1 entry.2).mpr List.mem_cons_self
      change config.machineKeys = ∅ at none
      rw [none, Std.ExtTreeMap.getElem?_empty] at found
      cases found
    · intro digest machineId found
      exact accepted _ ((held digest machineId).mp found)

/-- A reader that knows a single document. -/
def knowing (text : String) (document : List (String × Toml Empty)) : TomlReader Empty Unit where
  debug value := "\"" ++ value ++ "\""
  float := nofun
  parse contents := if contents = text then .ok document else .error ⟨(), none⟩
  wording _ := "invalid document"

/-- The parser that knows one text takes no other. -/
theorem knowing_parse {text contents : String} {document document' : List (String × Toml Empty)} :
    (knowing text document).parse contents = .ok document' ↔
      contents = text ∧ document' = document := by
  change (if contents = text then Except.ok document else
    .error (⟨(), none⟩ : SyntaxError Unit)) = _ ↔ _
  by_cases known : contents = text
  · rw [if_pos known, Except.ok.injEq]
    exact ⟨fun same => ⟨known, same.symm⟩, fun both => both.2.symm⟩
  · rw [if_neg known]
    refine iff_of_false (fun same => ?_) fun both => known both.1
    cases same

theorem distinct_knowing {text : String} {document : List (String × Toml Empty)}
    (names : (document.map Prod.fst).Nodup)
    (tables : ∀ key entries, (key, .table entries) ∈ document → (entries.map Prod.fst).Nodup) :
    (knowing text document).Distinct where
  document := fun read => (knowing_parse.mp read).2 ▸ names
  table := fun read _ _ member => tables _ _ ((knowing_parse.mp read).2 ▸ member)

/-- A digest of zeros. -/
def zeroDigest : String := Hex.encode (List.replicate 32 0)

/-- A configuration with one machine. -/
def oneMachine : RawConfig :=
  ⟨"127.0.0.1:8787", "usage.jsonl", (∅ : MachineKeys).insertMany [(zeroDigest, "laptop")]⟩

/-- The text of its file. -/
def oneMachineText : String :=
  "listen = \"127.0.0.1:8787\"\nusage_file = \"usage.jsonl\"\n\n[machine_keys]\n\"" ++
    zeroDigest ++ "\" = \"laptop\"\n"

/-- No table of the document repeats a key. -/
theorem distinct_oneMachine (text : String) :
    (knowing text (oneMachine.entries (.ofStrings [(zeroDigest, "laptop")]))).Distinct := by
  refine distinct_knowing (RawConfig.nodup_names _ _) fun key entries member => ?_
  rcases List.mem_cons.mp member with listen | others
  · cases (Prod.mk.inj listen).2
  · rcases List.mem_cons.mp others with usageFile | last
    · cases (Prod.mk.inj usageFile).2
    · have same := (Prod.mk.inj (List.mem_singleton.mp last)).2
      rw [Toml.table.inj same]
      exact List.nodup_singleton zeroDigest

/-- A document with one machine is loaded as what it says. -/
theorem Config.load_eq_ok_iff_oneMachine :
    Config.load (knowing oneMachineText (oneMachine.entries (.ofStrings [(zeroDigest, "laptop")])))
        "debitmetre.toml" (.ok (utf8 oneMachineText)) =
      .ok ⟨.v4 ⟨127, 0, 0, 1⟩ 8787, oneMachine.machineKeys, oneMachine.usageFile⟩ := by
  have accepted : ∀ entry ∈ [(zeroDigest, "laptop")], Config.Accepted entry := by
    refine List.forall_mem_singleton.mpr ⟨Config.isDigestHex_iff.mpr ⟨_, ?_, rfl⟩, ?_⟩
    · exact List.length_replicate
    · decide +kernel
  have address : SocketAddr.parse (utf8 oneMachine.listen) = some (.v4 ⟨127, 0, 0, 1⟩ 8787) := by
    decide +kernel
  have names : ([(zeroDigest, "laptop")].map Prod.fst).Nodup := List.nodup_singleton zeroDigest
  exact (Config.load_eq_ok_iff (distinct_oneMachine _)).mpr ⟨oneMachineText, _, oneMachine.listen,
    [(zeroDigest, "laptop")], utf8?_utf8 _, knowing_parse.mpr ⟨rfl, rfl⟩, .refl _, address,
    by decide, List.cons_ne_nil _ _, accepted, fun _ _ => Config.getElem?_insertMany names⟩

end Debitmetre
