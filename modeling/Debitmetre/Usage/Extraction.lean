import Debitmetre.Usage.Observer

/-!
# What the observer extracts

Both extractions, from terminal events and from one document, read the same
members of a response; this is stated once for each.  Whatever the body was, an
audit result has usage or a metering error, and the quality of its usage is that
of its input counters.
-/

namespace Debitmetre

open Wire Wire.Json

variable {F : Type}

/-- A sum that does not overflow is exact. -/
theorem checkedAdd_eq_some {a b sum : UInt64} (added : checkedAdd a b = some sum) :
    sum.toNat = a.toNat + b.toNat := by
  unfold checkedAdd at added
  split at added
  · rename_i small
    rw [← Option.some.inj added, UInt64.toNat_add, Nat.mod_eq_of_lt small]
  · cases added

/-- A difference that does not underflow is exact. -/
theorem checkedSub_eq_some {a b difference : UInt64}
    (subtracted : checkedSub a b = some difference) :
    a.toNat = difference.toNat + b.toNat := by
  unfold checkedSub at subtracted
  split at subtracted
  · rename_i below
    rw [← Option.some.inj subtracted, UInt64.toNat_sub_of_le _ _ below]
    exact (Nat.sub_add_cancel (UInt64.le_iff_toNat_le.mp below)).symm
  · cases subtracted

/-- The basis is complete exactly when the uncached input is known, and then the
input counters add up without wrapping. -/
theorem accountingBasis_cases (raw : RawUsage) :
    (∃ input read write uncached : UInt64,
      raw.inputTotal = some input ∧ raw.cacheRead = some read ∧ raw.cacheWrite = some write ∧
        accountingBasis raw = (some uncached, .complete) ∧
        input.toNat = uncached.toNat + read.toNat + write.toNat) ∨
    accountingBasis raw = (none, .inconsistent) ∨ accountingBasis raw = (none, .partialDetail) := by
  unfold accountingBasis
  split
  · rename_i input read write hasInput hasRead hasWrite
    cases derived : (checkedAdd read write).bind fun sum => checkedSub input sum with
    | none => exact .inr (.inl rfl)
    | some uncached =>
        obtain ⟨sum, added, subtracted⟩ := Option.bind_eq_some_iff.mp derived
        refine .inl ⟨input, read, write, uncached, hasInput, hasRead, hasWrite, rfl, ?_⟩
        rw [checkedSub_eq_some subtracted, checkedAdd_eq_some added, Nat.add_assoc]
  · exact .inr (.inr rfl)

/-- What every audit result satisfies, whatever the body was. -/
structure AuditResult.Sound (result : AuditResult) : Prop where
  measured : ∀ usage, result.usage = some usage → ∃ raw, canonicalize raw = (usage, result.quality)
  unmeasured : result.usage = none → result.quality = .unavailable
  metering : result.meteringError.isSome = result.usage.isNone
  notTooLarge : result.meteringError ≠ some .eventTooLarge

/-- The model a response names. -/
def responseModel (response : List (String × Value F)) : Option String :=
  (response.lookup "model").bind Value.asStr

/-- The shapes of a response's `usage` member. -/
inductive UsageMember (F : Type)
  | missing
  | object (usage : Value F)
  | malformed

/-- What a response tells of its usage. -/
def usageMember (response : List (String × Value F)) : UsageMember F :=
  match response.lookup "usage" with
  | none | some .null => .missing
  | some usage => if usage.isObject then .object usage else .malformed

/-- What a terminal event's response adds to what earlier events told. -/
theorem Terminal.response_eq (found : Terminal) (response : List (String × Value F)) :
    found.response response =
      { found with
        bodyModel := responseModel response <|> found.bodyModel
        usage := match usageMember response with
          | .object usage => some (canonicalize (extractRawUsage usage))
          | .missing | .malformed => found.usage
        usageMalformed := match usageMember response with
          | .malformed => true
          | .missing | .object _ => found.usageMalformed } := by
  unfold Terminal.response usageMember responseModel
  cases (response.lookup "model").bind Value.asStr <;>
    (cases response.lookup "usage" with
    | none => rfl
    | some usage => cases usage <;> rfl)

/-- The audit of a document whose root is an object. -/
theorem parseJsonBody_of_object {readers : Readers F} {mirror : Bytes}
    {root : List (String × Value F)} (read : fromSlice readers.f64 mirror = some (.object root))
    (headerModel : Option String) :
    parseJsonBody readers mirror headerModel =
      ({ model := effectiveModel headerModel (responseModel root)
         usage := match usageMember root with
           | .object usage => some (canonicalize (extractRawUsage usage)).1
           | .missing | .malformed => none
         quality := match usageMember root with
           | .object usage => (canonicalize (extractRawUsage usage)).2
           | .missing | .malformed => .unavailable
         meteringError := match usageMember root with
           | .missing => some .missingUsage
           | .object _ => none
           | .malformed => some .malformedUsage },
        (root.lookup "status").bind Value.asStr == some "incomplete") := by
  simp only [parseJsonBody, read, Value.asObject, usageMember, responseModel]
  cases root.lookup "usage" with
  | none => rfl
  | some usage => cases usage <;> rfl

/-- The kind and the response of a terminal event. -/
def terminalOf (readers : Readers F) (data : String) :
    Option (String × Option (List (String × Value F))) :=
  (fromSlice readers.f64 (utf8 data)).bind fun value =>
    ((value.get "type").bind Value.asStr).bind fun kind =>
      if kind = "response.completed" ∨ kind = "response.incomplete" then
        some (kind, (value.get "response").bind Value.asObject)
      else none

/-- A terminal event has been seen. -/
def Terminal.seen (found : Terminal) (kind : String) : Terminal :=
  { found with
    terminalSeen := true
    terminalIncomplete := if kind = "response.incomplete" then true else found.terminalIncomplete }

/-- An event that is not terminal tells nothing. -/
theorem Terminal.event_eq (readers : Readers F) (found : Terminal) (data : String) :
    found.event readers data =
      match terminalOf readers data with
      | none => found
      | some (kind, none) => found.seen kind
      | some (kind, some response) => (found.seen kind).response response := by
  unfold Terminal.event terminalOf
  cases fromSlice readers.f64 (utf8 data) with
  | none => rfl
  | some value =>
      simp only [Option.bind_some]
      cases (value.get "type").bind Value.asStr with
      | none => rfl
      | some kind =>
          simp only [Option.bind_some]
          by_cases terminal : kind = "response.completed" ∨ kind = "response.incomplete"
          · simp only [terminal, not_true_eq_false, ↓reduceIte]
            cases (value.get "response").bind Value.asObject <;> rfl
          · simp only [terminal, not_false_eq_true, ↓reduceIte]

/-- What holds of the facts found in any stream: usage has been canonicalized,
and only a terminal event makes a body incomplete. -/
structure Terminal.Sound (found : Terminal) : Prop where
  canonical : ∀ usage quality, found.usage = some (usage, quality) →
    ∃ raw, canonicalize raw = (usage, quality)
  ordered : found.terminalIncomplete = true → found.terminalSeen = true

theorem Terminal.Sound.seen {found : Terminal} (sound : found.Sound) (kind : String) :
    (found.seen kind).Sound := ⟨sound.canonical, fun _ => rfl⟩

/-- A response keeps what was found sound. -/
theorem Terminal.Sound.response {found : Terminal} (sound : found.Sound)
    (response : List (String × Value F)) : (found.response response).Sound := by
  rw [Terminal.response_eq]
  refine ⟨fun usage quality => ?_, sound.ordered⟩
  cases usageMember response with
  | missing => exact sound.canonical usage quality
  | malformed => exact sound.canonical usage quality
  | object reported => exact fun same => ⟨_, Option.some.inj same⟩

/-- Events keep what was found sound. -/
theorem Terminal.Sound.foldl {readers : Readers F} (events : List String) {found : Terminal}
    (sound : found.Sound) : (events.foldl (Terminal.event readers) found).Sound := by
  induction events generalizing found with
  | nil => exact sound
  | cons data events ih =>
      rw [List.foldl_cons]
      apply ih
      rw [Terminal.event_eq]
      split
      · exact sound
      · exact sound.seen _
      · exact (sound.seen _).response _

theorem AuditResult.sound_of_missing (model : Option String) {error : MeteringError}
    (small : error ≠ .eventTooLarge) :
    ({ AuditResult.default with model, meteringError := some error } : AuditResult).Sound :=
  ⟨nofun, fun _ => rfl, rfl, fun same => small (Option.some.inj same)⟩

/-- What was found gives a sound audit. -/
theorem Terminal.Sound.audit {found : Terminal} (sound : found.Sound)
    (headerModel : Option String) : (found.audit headerModel).Sound := by
  obtain ⟨terminalSeen, terminalIncomplete, bodyModel, usage, usageMalformed⟩ := found
  cases usage with
  | none => cases usageMalformed <;>
      exact AuditResult.sound_of_missing _ fun same => by cases same
  | some measured =>
      refine ⟨fun usage same => ?_, fun none => ?_, rfl, fun same => ?_⟩
      · obtain ⟨raw, canonical⟩ := sound.canonical measured.1 measured.2 rfl
        exact ⟨raw, canonical.trans (congrArg (·, measured.2) (Option.some.inj same))⟩
      · cases none
      · cases same

/-- **The audit of a document is sound.** -/
theorem parseJsonBody_sound (readers : Readers F) (mirror : Bytes) (headerModel : Option String) :
    (parseJsonBody readers mirror headerModel).1.Sound := by
  have missing : (parseJsonBody readers mirror headerModel).1 =
      { AuditResult.default with meteringError := some .missingUsage } → _ := fun same =>
    same ▸ AuditResult.sound_of_missing none (by decide : MeteringError.missingUsage ≠ _)
  cases read : fromSlice readers.f64 mirror with
  | none => exact missing (by simp only [parseJsonBody, read])
  | some root =>
      cases root with
      | object root =>
          rw [parseJsonBody_of_object read]
          cases usageMember root with
          | missing => exact AuditResult.sound_of_missing _ (by decide)
          | malformed => exact AuditResult.sound_of_missing _ (by decide)
          | object reported =>
              exact ⟨fun usage same => ⟨_, Prod.ext (Option.some.inj same) rfl⟩,
                nofun, rfl, nofun⟩
      | null | bool | number | string | array =>
          exact missing (by simp only [parseJsonBody, read, Value.asObject])

/-- **Whatever a body was**, its audit is sound, and it is incomplete only if its
end was seen. -/
theorem parseMirror_sound (readers : Readers F) (mirror : Bytes) (headerModel : Option String) :
    (parseMirror readers mirror headerModel).audit.Sound ∧
      ((parseMirror readers mirror headerModel).incomplete = true →
        (parseMirror readers mirror headerModel).terminalSeen = true) := by
  have sound : ((readers.eventsource mirror).foldl (Terminal.event readers) .start).Sound :=
    Terminal.Sound.foldl _ ⟨nofun, nofun⟩
  unfold parseMirror
  dsimp only
  split
  · exact ⟨sound.audit headerModel, fun _ => rfl⟩
  · split
    · exact ⟨AuditResult.sound_of_missing _ (by decide), nofun⟩
    · exact ⟨parseJsonBody_sound readers mirror headerModel, fun _ => rfl⟩

end Debitmetre
