import Debitmetre.Wire.Json.Derive

/-!
# Members of objects

What an object says under a name, and what a derived deserializer with one field
makes of it.  Such a deserializer does not tell an object from an array of one
item, and it reads the names of all members, also of those it ignores.
-/

namespace Wire.Json

/-- A tree is an object. -/
def IsObject (tree : Json) : Prop := ∃ members, tree = .obj members

/-- A tree is an object that has a value under a name. -/
def HasMember (tree : Json) (name : String) (value : Json) : Prop :=
  ∃ members key, tree = .obj members ∧ (key, value) ∈ members ∧ key.string? = some name

/-- The texts that the keys of some members spell. -/
def keysOf (members : List (StrLit × Json)) : List String :=
  members.filterMap fun member => member.1.string?

mutual

/-- No object repeats a key. -/
def Distinct : Json → Prop
  | .arr items => DistinctItems items
  | .obj members => (keysOf members).Nodup ∧ DistinctMembers members
  | _ => True

def DistinctItems : List Json → Prop
  | [] => True
  | item :: rest => Distinct item ∧ DistinctItems rest

def DistinctMembers : List (StrLit × Json) → Prop
  | [] => True
  | (_, value) :: rest => Distinct value ∧ DistinctMembers rest

end

/-- Every key of an object spells a text. -/
def KeysSpelled (tree : Json) : Prop :=
  ∀ members, tree = .obj members → ∀ member ∈ members, member.1.string?.isSome

/-- A tree has a value in the place of a field: under its name, or as its only
item. -/
def Stands (tree : Json) (name : String) (value : Json) : Prop :=
  HasMember tree name value ∨ tree = .arr [value]

theorem DistinctItems.of_mem {items : List Json} (distinct : DistinctItems items) {item : Json}
    (member : item ∈ items) : Distinct item := by
  induction items with
  | nil => cases member
  | cons first rest ih =>
      rcases List.mem_cons.mp member with rfl | member
      · exact distinct.1
      · exact ih distinct.2 member

theorem DistinctMembers.of_mem {members : List (StrLit × Json)} (distinct : DistinctMembers members)
    {key : StrLit} {value : Json} (member : (key, value) ∈ members) : Distinct value := by
  induction members with
  | nil => cases member
  | cons first rest ih =>
      rcases List.mem_cons.mp member with rfl | member
      · exact distinct.1
      · exact ih distinct.2 member

/-- What stands in the place of a field repeats no key either. -/
theorem Distinct.of_stands {tree value : Json} {name : String} (distinct : tree.Distinct)
    (stands : Stands tree name value) : value.Distinct := by
  rcases stands with ⟨members, key, rfl, member, -⟩ | rfl
  · exact distinct.2.of_mem member
  · exact DistinctItems.of_mem distinct List.mem_cons_self

/-- A name is that of one member only. -/
theorem filter_key_eq {members : List (StrLit × Json)} (distinct : (keysOf members).Nodup)
    {key : StrLit} {value : Json} {name : String} (member : (key, value) ∈ members)
    (spelled : key.string? = some name) :
    members.filter (fun other => other.1.string? = some name) = [(key, value)] := by
  induction members with
  | nil => cases member
  | cons first rest ih =>
      have later : (keysOf rest).Nodup := by
        refine List.Nodup.sublist ?_ distinct
        exact (List.sublist_cons_self first rest).filterMap _
      rw [List.filter_cons]
      rcases List.mem_cons.mp member with rfl | member
      · rw [keysOf, List.filterMap_cons, spelled, List.nodup_cons] at distinct
        have others : rest.filter (fun other => other.1.string? = some name) = [] := by
          simp only [List.filter_eq_nil_iff, decide_eq_true_eq]
          intro other present same
          exact distinct.1 (List.mem_filterMap.mpr ⟨other, present, same⟩)
        simp only [spelled, decide_true, ↓reduceIte, others]
      · have different : first.1.string? ≠ some name := by
          intro same
          rw [keysOf, List.filterMap_cons, same, List.nodup_cons] at distinct
          exact distinct.1 (List.mem_filterMap.mpr ⟨_, member, spelled⟩)
        simp only [different, decide_false, Bool.false_eq_true, ↓reduceIte]
        exact ih later member

/-- What stands in the place of a field is determined. -/
theorem Stands.unique {tree first second : Json} {name : String} (distinct : tree.Distinct)
    (left : Stands tree name first) (right : Stands tree name second) : first = second := by
  rcases left with ⟨members, key, rfl, member, spelled⟩ | rfl
  · rcases right with ⟨_, key', same, member', spelled'⟩ | same
    · cases same
      have only := filter_key_eq distinct.1 member spelled
      rw [filter_key_eq distinct.1 member' spelled'] at only
      cases only
      rfl
    · cases same
  · rcases right with ⟨_, _, same, -⟩ | same
    · cases same
    · cases same
      rfl

/-- The keys of members are read if all of them spell texts. -/
theorem isSome_named?_iff {members : List (StrLit × Json)} :
    (named? members).isSome ↔ ∀ member ∈ members, member.1.string?.isSome := by
  induction members with
  | nil => exact ⟨fun _ => nofun, fun _ => rfl⟩
  | cons member rest ih =>
      obtain ⟨key, value⟩ := member
      rw [named?, List.forall_mem_cons, ← ih]
      cases key.string? with
      | none => simp only [Option.bind_none, Option.isSome_none, Bool.false_eq_true, false_and]
      | some name => simp only [Option.bind_some, Option.isSome_map, Option.isSome_some, true_and]

/-- The members of a name are the same before and after their keys are read. -/
theorem filter_named? {members : List (StrLit × Json)} {named : List (String × Json)}
    (read : named? members = some named) (name : String) :
    (named.filter fun member => member.1 = name).map Prod.snd =
      (members.filter fun member => member.1.string? = some name).map Prod.snd := by
  induction members generalizing named with
  | nil =>
      cases read
      rfl
  | cons member rest ih =>
      obtain ⟨key, value⟩ := member
      rw [named?, Option.bind_eq_some_iff] at read
      obtain ⟨own, spelled, rest_read⟩ := read
      obtain ⟨others, later, rfl⟩ := Option.map_eq_some_iff.mp rest_read
      simp only [List.filter_cons, spelled, Option.some.injEq]
      by_cases same : own = name
      · simp only [same, decide_true, ↓reduceIte, List.map_cons, ih later]
      · simp only [same, decide_false, Bool.false_eq_true, ↓reduceIte, ih later]

/-- The field of an object is present if some member has its name. -/
theorem hasMember_of_filter {members : List (StrLit × Json)} {name : String} {value : Json}
    (only : (members.filter fun member => member.1.string? = some name).map Prod.snd = [value]) :
    HasMember (.obj members) name value := by
  have present : value ∈
      (members.filter fun member => member.1.string? = some name).map Prod.snd := by
    rw [only]
    exact List.mem_singleton_self value
  obtain ⟨⟨key, _⟩, member, rfl⟩ := List.mem_map.mp present
  obtain ⟨member, spelled⟩ := List.mem_filter.mp member
  exact ⟨members, key, rfl, member, of_decide_eq_true spelled⟩

/-- **What a structure of one field is read from**: a tree that has a value in the
place of the field, and no key that spells no text. -/
theorem structure?_singleton_iff {tree value : Json} {name : String} (distinct : tree.Distinct) :
    structure? [name] tree = some [some value] ↔ Stands tree name value ∧ tree.KeysSpelled := by
  cases tree with
  | null | bool | num | str =>
      constructor
      · intro read
        cases read
      · rintro ⟨⟨_, _, same, -⟩ | same, -⟩ <;> cases same
  | arr items =>
      constructor
      · intro read
        rw [structure?] at read
        split_ifs at read with single
        obtain ⟨item, rfl⟩ := List.length_eq_one_iff.mp single
        cases read
        exact ⟨.inr rfl, fun _ same => by cases same⟩
      · rintro ⟨⟨_, _, same, -⟩ | same, -⟩
        · cases same
        · cases same
          rfl
  | obj members =>
      rw [structure?, Option.bind_eq_some_iff]
      constructor
      · rintro ⟨named, read, fields⟩
        have spelled := isSome_named?_iff.mp (Option.isSome_of_eq_some read)
        refine ⟨.inl (hasMember_of_filter ?_), fun _ same => by cases same; exact spelled⟩
        rw [← filter_named? read name]
        obtain ⟨field, single, fields⟩ := Option.bind_eq_some_iff.mp fields
        cases fields
        unfold fieldOf at single
        split at single
        · cases single
        · rename_i held only
          cases single
          exact only
        · cases single
      · rintro ⟨⟨_, key, same, member, spelled⟩ | same, keys⟩
        · cases same
          obtain ⟨named, read⟩ :=
            Option.isSome_iff_exists.mp (isSome_named?_iff.mpr (keys members rfl))
          refine ⟨named, read, ?_⟩
          rw [fieldsOf, filter_named? read name, filter_key_eq distinct.1 member spelled]
          rfl
        · cases same

/-- A structure whose only field is optional. -/
def single? {α : Type} (name : String) (decoder : Decoder α) : Decoder (Option α) := fun tree =>
  (structure? [name] tree).bind fun
    | [field] => optional decoder field
    | _ => none

theorem optional_eq_some_some_iff {α : Type} {decoder : Decoder α} {field : Option Json}
    {read : α} :
    optional decoder field = some (some read) ↔
      ∃ value, field = some value ∧ value ≠ .null ∧ decoder value = some read := by
  cases field with
  | none => simp only [optional, Option.some.injEq, reduceCtorEq, false_and, exists_false]
  | some value =>
      simp only [optional, Option.some.injEq, exists_eq_left']
      cases value with
      | null =>
          simp only [Decoder.option, Option.some.injEq, reduceCtorEq, ne_eq, not_true_eq_false,
            false_and]
      | bool | num | str | arr | obj =>
          simp only [Decoder.option, Option.map_eq_some_iff, Option.some.injEq, exists_eq_right,
            ne_eq, reduceCtorEq, not_false_eq_true, true_and]

/-- **What an optional field is read from.** -/
theorem single?_eq_some_some_iff {α : Type} {decoder : Decoder α} {tree : Json} {name : String}
    (distinct : tree.Distinct) {read : α} :
    single? name decoder tree = some (some read) ↔
      ∃ value, Stands tree name value ∧ tree.KeysSpelled ∧ value ≠ .null ∧
        decoder value = some read := by
  rw [single?, Option.bind_eq_some_iff]
  constructor
  · rintro ⟨fields, shape, field⟩
    split at field
    · obtain ⟨value, rfl, present⟩ := optional_eq_some_some_iff.mp field
      obtain ⟨stands, spelled⟩ := (structure?_singleton_iff distinct).mp shape
      exact ⟨value, stands, spelled, present⟩
    · cases field
  · rintro ⟨value, stands, spelled, present⟩
    refine ⟨[some value], (structure?_singleton_iff distinct).mpr ⟨stands, spelled⟩, ?_⟩
    exact optional_eq_some_some_iff.mpr ⟨value, rfl, present⟩

end Wire.Json
