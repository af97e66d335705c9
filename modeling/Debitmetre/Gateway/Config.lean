import Debitmetre.Usage.Text
import Debitmetre.Wire.Hex
import Debitmetre.Wire.SocketAddr
import Std.Data.ExtTreeMap

/-!
# Configuration

The configuration a gateway starts with: where it listens, what file it appends
records to, and what machines the digests of meter keys stand for.  What is not
valid is rejected before anything is served.
-/

namespace Debitmetre

open Wire

/-- The machines by the digests of their keys. -/
abbrev MachineKeys := Std.ExtTreeMap String String

/-- A configuration as it is written. -/
structure RawConfig where
  listen : String
  usageFile : String
  machineKeys : MachineKeys

structure Config where
  listen : SocketAddr
  machineKeys : MachineKeys
  usageFile : String

/-- `ErrorKind::Validation`. -/
structure ConfigError where
  path : String
  message : String
  deriving DecidableEq, Repr

/-- A text has the exact shape of a digest. -/
def isDigestHex (s : String) : Bool :=
  (utf8 s).length == 64 && (utf8 s).all fun b => (0x30 ≤ b && b ≤ 0x39) || (0x61 ≤ b && b ≤ 0x66)

namespace Config

/-- One entry of the table of machines. -/
def tryEntry (path : String) (machineKeys : MachineKeys) (digest machineId : String) :
    Except ConfigError MachineKeys :=
  if isDigestHex digest = false then
    .error ⟨path, "machine_keys entry must be a 64-character lowercase hex SHA-256 digest"⟩
  else if trimIsEmpty machineId then .error ⟨path, "machine id must not be blank"⟩
  else .ok (machineKeys.insert digest machineId)

/-- `Config::try_from`. -/
def tryFrom (raw : RawConfig) (path : String) : Except ConfigError Config :=
  match SocketAddr.parse (utf8 raw.listen) with
  | none => .error ⟨path, "listen must be a valid IP:port address, e.g. \"127.0.0.1:8787\""⟩
  | some listen =>
      if raw.usageFile = "" then .error ⟨path, "usage_file must be a non-empty file path"⟩
      else if raw.machineKeys.isEmpty then
        .error ⟨path, "machine_keys must map at least one meter key digest to a machine id"⟩
      else
        (raw.machineKeys.foldlM (tryEntry path) ∅).map fun machineKeys =>
          ⟨listen, machineKeys, raw.usageFile⟩

/-- An entry that is accepted. -/
def Accepted (entry : String × String) : Prop :=
  isDigestHex entry.1 = true ∧ trimIsEmpty entry.2 = false

theorem tryEntry_eq_ok {path : String} {machineKeys machineKeys' : MachineKeys}
    {entry : String × String} :
    tryEntry path machineKeys entry.1 entry.2 = .ok machineKeys' ↔
      Accepted entry ∧ machineKeys' = machineKeys.insert entry.1 entry.2 := by
  unfold tryEntry Accepted
  cases isDigestHex entry.1 <;> cases trimIsEmpty entry.2 <;> simp [eq_comm]

/-- Entries that are all accepted are put into the table one after another. -/
theorem foldlM_tryEntry {path : String} {entries : List (String × String)}
    {machineKeys machineKeys' : MachineKeys} :
    entries.foldlM (fun table entry => tryEntry path table entry.1 entry.2) machineKeys =
        .ok machineKeys' ↔
      (∀ entry ∈ entries, Accepted entry) ∧ machineKeys' = machineKeys.insertMany entries := by
  induction entries generalizing machineKeys with
  | nil =>
      rw [List.foldlM_nil, Std.ExtTreeMap.insertMany_nil]
      exact ⟨fun same => ⟨nofun, (Except.ok.inj same).symm⟩, fun ⟨_, same⟩ => congrArg _ same.symm⟩
  | cons entry entries ih =>
      rw [List.foldlM_cons, List.forall_mem_cons, Std.ExtTreeMap.insertMany_cons]
      cases first : tryEntry path machineKeys entry.1 entry.2 with
      | error failed =>
          refine ⟨nofun, fun ⟨⟨accepted, _⟩, _⟩ => ?_⟩
          cases first.symm.trans (tryEntry_eq_ok.mpr ⟨accepted, rfl⟩)
      | ok table =>
          obtain ⟨accepted, rfl⟩ := tryEntry_eq_ok.mp first
          exact ih.trans ⟨fun ⟨rest, same⟩ => ⟨⟨accepted, rest⟩, same⟩,
            fun ⟨⟨_, rest⟩, same⟩ => ⟨rest, same⟩⟩

/-- A table is what its entries are put into, one after another. -/
theorem insertMany_toList (machineKeys : MachineKeys) :
    (∅ : MachineKeys).insertMany machineKeys.toList = machineKeys := by
  apply Std.ExtTreeMap.ext_getElem?
  intro digest
  cases held : machineKeys[digest]? with
  | some machineId =>
      exact Std.ExtTreeMap.getElem?_insertMany_list_of_mem Std.ReflCmp.compare_self
        Std.ExtTreeMap.distinct_keys_toList
        (Std.ExtTreeMap.mem_toList_iff_getElem?_eq_some.mpr held)
  | none =>
      rw [Std.ExtTreeMap.getElem?_insertMany_list_of_contains_eq_false]
      · exact Std.ExtTreeMap.getElem?_empty
      · apply Bool.eq_false_iff.mpr
        intro found
        obtain ⟨⟨_, machineId⟩, member, rfl⟩ := List.mem_map.mp (List.mem_of_elem_eq_true found)
        cases held.symm.trans (Std.ExtTreeMap.mem_toList_iff_getElem?_eq_some.mp member)

/-- **A configuration is accepted as it is written**, if every part of it is
valid. -/
theorem tryFrom_eq_ok_iff {raw : RawConfig} {path : String} {config : Config} :
    tryFrom raw path = .ok config ↔
      SocketAddr.parse (utf8 raw.listen) = some config.listen ∧
        config.usageFile = raw.usageFile ∧ raw.usageFile ≠ "" ∧
        config.machineKeys = raw.machineKeys ∧ raw.machineKeys ≠ ∅ ∧
        ∀ digest machineId, raw.machineKeys[digest]? = some machineId →
          Accepted (digest, machineId) := by
  have table (machineKeys : MachineKeys) :
      raw.machineKeys.foldlM (tryEntry path) ∅ = .ok machineKeys ↔
        (∀ digest machineId, raw.machineKeys[digest]? = some machineId →
          Accepted (digest, machineId)) ∧ machineKeys = raw.machineKeys := by
    rw [Std.ExtTreeMap.foldlM_eq_foldlM_toList, foldlM_tryEntry, insertMany_toList]
    simp only [Prod.forall, Std.ExtTreeMap.mem_toList_iff_getElem?_eq_some]
  unfold tryFrom
  cases SocketAddr.parse (utf8 raw.listen) with
  | none => exact ⟨nofun, fun valid => nomatch valid.1⟩
  | some listen =>
      by_cases noFile : raw.usageFile = ""
      · simp only [noFile, ↓reduceIte]
        exact ⟨nofun, fun valid => absurd rfl valid.2.2.1⟩
      · by_cases noKeys : raw.machineKeys.isEmpty = true
        · simp only [noFile, noKeys, ↓reduceIte]
          exact ⟨nofun, fun valid =>
            absurd (Std.ExtTreeMap.isEmpty_iff.mp noKeys) valid.2.2.2.2.1⟩
        · simp only [noFile, noKeys, ↓reduceIte]
          constructor
          · intro accepted
            cases folded : raw.machineKeys.foldlM (tryEntry path) ∅ with
            | error failed =>
                rw [folded] at accepted
                cases accepted
            | ok machineKeys =>
                rw [folded] at accepted
                cases accepted
                obtain ⟨entries, rfl⟩ := (table machineKeys).mp folded
                exact ⟨rfl, rfl, noFile, rfl, mt Std.ExtTreeMap.isEmpty_iff.mpr noKeys, entries⟩
          · rintro ⟨same, file, -, keys, -, entries⟩
            rw [(table config.machineKeys).mpr ⟨entries, keys⟩]
            obtain ⟨listen', machineKeys, usageFile⟩ := config
            cases same
            cases file
            rfl

/-- The texts that have the shape of a digest are those that encode one. -/
theorem isDigestHex_iff {s : String} :
    isDigestHex s = true ↔ ∃ digest : Bytes, digest.length = 32 ∧ Hex.encode digest = s := by
  rw [Hex.exists_encode_iff, isDigestHex, Bool.and_eq_true, beq_iff_eq]
  rfl

end Config

end Debitmetre
