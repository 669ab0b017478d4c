import DocSearch.Proofs.Data.Results
import DocSearch.Proofs.Query.PropertyFilters
import DocSearch.Proofs.Sorted.Entries
import DocSearch.Proofs.Text.Runs
import DocSearch.Property.Document
import Mathlib.Algebra.Ring.Nat
import Mathlib.Data.List.Nodup

/-!
# The definitions of a schema

A field stands at a place, the number of its group and its number in the group
(`PropertyGroup.fieldAt?`).

* Groups make a schema iff no name stands at two places (`PropertyGroup.nodup_names_iff`), and
  otherwise they are refused for the first name that is repeated
  (`Schema.ofGroups_eq_error_iff_exists`).
* Looking up a name gives the field at the only place where it stands (`Schema.field?_eq_some_iff`).
* The same is had from a table that leads from names to places.  It is filled field by field until a
  name comes up that is entered already (`FieldTable.enter`); it fails where the groups make no
  schema (`FieldTable.enter_eq_error_iff`), and otherwise each place in it is that of a field
  (`FieldTable.Holds.enter`).
* A document makes the schema whose groups and fields are those it states, one by one, their names
  trimmed (`Schema.parse_eq_ok_iff`).

All of this is put together in `Schema.stated_by_groups_and_document`.
-/

namespace DocSearch

/-- The place of a field: the number of its `group`, and its number in the group. -/
structure FieldPlace where
  group : Nat
  field : Nat
deriving DecidableEq

namespace PropertyGroup

/-- The field at the place `p`, if the `groups` go so far. -/
def fieldAt? (groups : List PropertyGroup) (p : FieldPlace) : Option FieldDefinition :=
  groups[p.group]?.bind fun g => g.fields[p.field]?

/-- Two fields, in one group or in two, have the same name. -/
def RepeatName (groups : List PropertyGroup) : Prop :=
  ∃ p p' f f', p ≠ p' ∧ fieldAt? groups p = some f ∧ fieldAt? groups p' = some f' ∧ f.name = f'.name

/-- The field `f`, at some place, is the only one that has the `name`. -/
def IsOnlyNamed (groups : List PropertyGroup) (name : String) (f : FieldDefinition) : Prop :=
  ∃ p, fieldAt? groups p = some f ∧ f.name = name ∧
    ∀ p' f', fieldAt? groups p' = some f' → f'.name = name → p' = p

/-- All fields with their places, in reading order. -/
def placed (groups : List PropertyGroup) : List (FieldDefinition × FieldPlace) :=
  groups.zipIdx.flatMap fun g => g.1.fields.zipIdx.map fun f => (f.1, ⟨g.2, f.2⟩)

variable {groups : List PropertyGroup}

/-- The fields that are `placed` are all fields, in the same order. -/
theorem map_fst_placed (groups : List PropertyGroup) :
    (placed groups).map (·.1) = allFields groups := by
  rw [placed, List.map_flatMap, allFields]
  simp only [List.map_map, Function.comp_def]
  have hfields : ∀ g : PropertyGroup × Nat, (g.1.fields.zipIdx.map fun f => f.1) = g.1.fields :=
    fun g =>
    List.zipIdx_map_fst 0 g.1.fields
  simp only [hfields]
  rw [← List.flatMap_map, List.zipIdx_map_fst]

/-- A field is `placed` where `fieldAt?` finds it. -/
theorem mem_placed_iff {f : FieldDefinition} {p : FieldPlace} :
    (f, p) ∈ placed groups ↔ fieldAt? groups p = some f := by
  simp only [placed, List.mem_flatMap, List.mem_map, List.mem_zipIdx_iff_getElem?, fieldAt?,
    Option.bind_eq_some_iff]
  constructor
  · rintro ⟨g, hg, d, hd, heq⟩
    cases heq
    exact ⟨g.1, hg, hd⟩
  · rintro ⟨g, hg, hf⟩
    exact ⟨(g, p.group), hg, (f, p.field), hf, rfl⟩

theorem zipIdx_apart {α : Type} (l : List α) : l.zipIdx.Pairwise fun a b => a.2 ≠ b.2 := by
  rw [← List.pairwise_map (f := Prod.snd) (R := (· ≠ ·)), List.zipIdx_map_snd]
  exact List.nodup_range'

/-- No two fields have the same place. -/
theorem nodup_placed (groups : List PropertyGroup) : (placed groups).Nodup := by
  rw [placed, List.nodup_flatMap]
  constructor
  · intro g _
    refine List.pairwise_map.mpr ((zipIdx_apart g.1.fields).imp ?_)
    exact fun hab heq => hab (congrArg (·.2.field) heq)
  · refine (zipIdx_apart groups).imp fun hab x ha hb => hab ?_
    obtain ⟨_, _, rfl⟩ := List.mem_map.mp ha
    obtain ⟨_, _, heq⟩ := List.mem_map.mp hb
    exact (congrArg (·.2.group) heq).symm

theorem mem_allFields_iff {f : FieldDefinition} : f ∈ allFields groups ↔ ∃ p,
    fieldAt? groups p = some f := by
  simp only [← map_fst_placed, List.mem_map, ← mem_placed_iff]
  constructor
  · rintro ⟨⟨f, p⟩, hmem, rfl⟩
    exact ⟨p, hmem⟩
  · rintro ⟨p, hmem⟩
    exact ⟨(f, p), hmem, rfl⟩

/-- Names differ iff no name stands at two places. -/
theorem nodup_names_iff : ((allFields groups).map (·.name)).Nodup ↔ ¬ RepeatName groups := by
  rw [← map_fst_placed, List.map_map, List.nodup_map_iff_inj_on (nodup_placed groups)]
  constructor
  · rintro hinj ⟨p, p', f, f', hne, hf, hf', hname⟩
    have heq := hinj _ (mem_placed_iff.mpr hf) _ (mem_placed_iff.mpr hf') hname
    cases heq
    exact hne rfl
  · rintro hnot ⟨f, p⟩ hf ⟨f', p'⟩ hf' hname
    have hf := mem_placed_iff.mp hf
    have hf' := mem_placed_iff.mp hf'
    by_cases hp : p = p'
    · subst hp
      rw [Option.some.inj (hf.symm.trans hf')]
    · exact absurd ⟨p, p', f, f', hp, hf, hf', hname⟩ hnot

end PropertyGroup

open PropertyGroup

/-! ## Filling a table -/

/-- Where the field of each name stands. -/
abbrev FieldTable := SortedMap String FieldPlace

namespace FieldTable

/-- Enters fields under their names.  Fails with the first name that is entered already. -/
def enter : List (FieldDefinition × FieldPlace) → FieldTable → Except String FieldTable
  | [], table => .ok table
  | (f, p) :: rest, table =>
    match table.get? f.name with
    | some _ => .error f.name
    | none => enter rest (table.insert f.name p)

/-- The table of the fields of some `groups`. -/
def ofGroups (groups : List PropertyGroup) : Except String FieldTable :=
  enter (placed groups) .empty

/-- The table has the names of the fields `entered`, each with the place of its field, and no
others. -/
def Holds (table : FieldTable) (entered : List (FieldDefinition × FieldPlace)) : Prop :=
  ∀ name p, table.get? name = some p ↔ ∃ f, (f, p) ∈ entered ∧ f.name = name

variable {table : FieldTable} {entered rest : List (FieldDefinition × FieldPlace)}
  {f : FieldDefinition}
  {p : FieldPlace} {name : String}

/-- Entering a field under a new name is one step of `enter`. -/
theorem Holds.insert (h : table.Holds entered) (hnew : table.get? f.name = none) :
    Holds (SortedMap.insert f.name p table) (entered ++ [(f, p)]) := by
  intro name p'
  rw [SortedMap.get?_insert]
  simp only [List.mem_append, List.mem_singleton]
  split
  · rename_i hname
    subst hname
    constructor
    · rintro ⟨⟩
      exact ⟨f, .inr rfl, rfl⟩
    · rintro ⟨f', hmem | heq, hname⟩
      -- The name is new, so no field entered before has it.
      · rw [(h f.name p').mpr ⟨f', hmem, hname⟩] at hnew
        cases hnew
      · cases heq
        rfl
  · rename_i hname
    rw [h name p']
    constructor
    · rintro ⟨f', hmem, hname'⟩
      exact ⟨f', .inl hmem, hname'⟩
    · rintro ⟨f', hmem | heq, hname'⟩
      · exact ⟨f', hmem, hname'⟩
      · cases heq
        exact absurd hname'.symm hname

/-- A table that was filled to the end holds the fields that it was filled with, by induction on the
`rest`. -/
theorem Holds.enter :
    ∀ {rest entered : List (FieldDefinition × FieldPlace)} {table filled : FieldTable},
    table.Holds entered → enter rest table = .ok filled → filled.Holds (entered ++ rest)
  | [], entered, _, _, h, hfilled => by
    cases hfilled
    rwa [List.append_nil]
  | (f, p) :: rest, entered, table, filled, h, hfilled => by
    rw [FieldTable.enter] at hfilled
    cases hnew : table.get? f.name with
    | some _ =>
      rw [hnew] at hfilled
      cases hfilled
    | none =>
      rw [hnew] at hfilled
      have hrest := Holds.enter (h.insert (p := p) hnew) hfilled
      rwa [List.append_assoc] at hrest

/-- Filling a table fails with the first name that repeats an earlier one, which is that of
`Schema.firstRepeated?`. -/
theorem enter_eq_error_iff :
    ∀ {rest : List (FieldDefinition × FieldPlace)} {table : FieldTable} {seen : List String},
    (∀ n, (table.get? n).isSome = true ↔ n ∈ seen) →
    (FieldTable.enter rest table = .error name ↔
      Schema.firstRepeated? seen (rest.map (·.1.name)) = some name)
  | [], _, _, _ => by simp [enter, Schema.firstRepeated?]
  | (f, p) :: rest, table, seen, h => by
    rw [enter, List.map_cons, Schema.firstRepeated?]
    cases hnew : table.get? f.name with
    | some _ =>
      rw [if_pos ((h f.name).mp (by rw [hnew]; rfl))]
      simp
    | none =>
      rw [if_neg fun hseen => by simpa [hnew] using (h f.name).mpr hseen]
      refine enter_eq_error_iff fun n => ?_
      rw [SortedMap.get?_insert, List.mem_cons]
      split
      · simp [*]
      · simp [*]

end FieldTable

/-! ## Schemas -/

namespace Schema

variable {groups : List PropertyGroup} {s : Schema}

/-- Of some `names`, the first that repeats one before it or one of `seen`. -/
theorem firstRepeated?_eq_some_iff {name : String} : ∀ {seen names : List String},
    firstRepeated? seen names = some name ↔ ∃ before after, names = before ++ name :: after ∧
      (before.Nodup ∧ ∀ n ∈ before, n ∉ seen) ∧ (name ∈ seen ∨ name ∈ before)
  | seen, [] => by simp [firstRepeated?]
  | seen, n :: names => by
    rw [firstRepeated?]
    split
    -- The first name was seen before, so it is the one looked for, with nothing in front.
    · rename_i hseen
      constructor
      · rintro ⟨⟩
        exact ⟨[], names, rfl, ⟨.nil, List.forall_mem_nil _⟩, .inl hseen⟩
      · rintro ⟨before, after, heq, ⟨_, hbefore⟩, _⟩
        cases before with
        | nil =>
          cases heq
          rfl
        | cons m before =>
          cases heq
          exact absurd hseen (hbefore _ (.head _))
    -- Otherwise it joins those seen, and the names in front of the repeated one.
    · rename_i hnew
      rw [firstRepeated?_eq_some_iff]
      constructor
      · rintro ⟨before, after, rfl, ⟨hnodup, hbefore⟩, hname⟩
        refine ⟨n :: before, after, rfl,
          ⟨List.nodup_cons.mpr ⟨fun h => hbefore n h (.head _), hnodup⟩, ?_⟩, ?_⟩
        · rw [List.forall_mem_cons]
          exact ⟨hnew, fun m hm hseen => hbefore m hm (.tail _ hseen)⟩
        · simpa [or_assoc, or_comm, or_left_comm] using hname
      · rintro ⟨before, after, heq, ⟨hnodup, hbefore⟩, hname⟩
        cases before with
        | nil =>
          cases heq
          simp [hnew] at hname
        | cons m before =>
          cases heq
          rw [List.nodup_cons] at hnodup
          rw [List.forall_mem_cons] at hbefore
          refine ⟨before, after, rfl, ⟨hnodup.2, fun x hx hseen => ?_⟩, ?_⟩
          · rcases List.mem_cons.mp hseen with rfl | hseen
            · exact hnodup.1 hx
            · exact hbefore.2 x hx hseen
          · simpa [or_assoc, or_comm, or_left_comm] using hname

/-- Groups that make a schema make one of these `groups`. -/
theorem ofGroups_eq_ok_iff : ofGroups groups = .ok s ↔ s.groups = groups := by
  unfold ofGroups
  split
  · rename_i name hrepeated
    refine iff_of_false (fun h => nomatch h) fun h => ?_
    subst h
    rw [firstRepeated?_eq_none_iff.mpr ⟨s.distinct, by simp⟩] at hrepeated
    cases hrepeated
  · constructor
    · rintro ⟨⟩
      rfl
    · rintro rfl
      rfl

/-- Groups are refused for the name that `firstRepeated?` finds. -/
theorem ofGroups_eq_error_iff {fault : SchemaFault} : ofGroups groups = .error fault ↔
    ∃ name, firstRepeated? [] ((allFields groups).map (·.name)) = some name ∧
    fault = .duplicateField name := by
  unfold ofGroups
  split
  · rename_i name hrepeated
    simp [hrepeated, eq_comm]
  · rename_i hnone
    simp [hnone]

/-- Groups are refused for the first field, in reading order, whose name was used before. -/
theorem ofGroups_eq_error_iff_exists {fault : SchemaFault} : ofGroups groups = .error fault ↔
    ∃ before f after, allFields groups = before ++ f :: after ∧ (before.map (·.name)).Nodup ∧
      f.name ∈ before.map (·.name) ∧ fault = .duplicateField f.name := by
  simp only [ofGroups_eq_error_iff, firstRepeated?_eq_some_iff, List.not_mem_nil, not_false_eq_true,
    implies_true, and_true, false_or]
  constructor
  · rintro ⟨_, ⟨_, _, heq, hnodup, hname⟩, rfl⟩
    obtain ⟨before, rest, hfields, rfl, hrest⟩ := List.map_eq_append_iff.mp heq
    obtain ⟨f, after, rfl, rfl, rfl⟩ := List.map_eq_cons_iff.mp hrest
    exact ⟨before, f, after, hfields, hnodup, hname, rfl⟩
  · rintro ⟨before, f, after, hfields, hnodup, hname, rfl⟩
    exact ⟨f.name, ⟨_, after.map (·.name), by
      rw [hfields, List.map_append, List.map_cons], hnodup, hname⟩, rfl⟩

theorem exists_error_iff : (∃ fault, ofGroups groups = .error fault) ↔ RepeatName groups := by
  rw [← not_iff_not, ← nodup_names_iff]
  constructor
  · intro hnone
    cases hgroups : ofGroups groups with
    | error fault => exact absurd ⟨fault, hgroups⟩ hnone
    | ok s => exact ofGroups_eq_ok_iff.mp hgroups ▸ s.distinct
  · rintro hnodup ⟨fault, hfault⟩
    rw [ofGroups_eq_ok_iff (s := ⟨groups, hnodup⟩) |>.mpr rfl] at hfault
    cases hfault

/-- Looking up a `name` gives the field at the only place where the name stands. -/
theorem field?_eq_some_iff {name : String} {f : FieldDefinition} :
    s.field? name = some f ↔ IsOnlyNamed s.groups name f := by
  constructor
  · intro hfound
    obtain ⟨p, hp⟩ := mem_allFields_iff.mp (List.mem_of_find?_eq_some hfound)
    have hname : f.name = name := by simpa using List.find?_some hfound
    refine ⟨p, hp, hname, fun p' f' hp' hname' => ?_⟩
    by_contra hne
    exact nodup_names_iff.mp s.distinct ⟨p', p, f', f, hne, hp', hp, hname'.trans hname.symm⟩
  · rintro ⟨p, hp, rfl, _⟩
    exact field?_of_mem (mem_allFields_iff.mpr ⟨p, hp⟩)

/-- Looking up a `name` that no field has gives nothing. -/
theorem field?_eq_none_iff {name : String} :
    s.field? name = none ↔ ∀ p f, fieldAt? s.groups p = some f → f.name ≠ name := by
  rw [field?, List.find?_eq_none]
  simp only [fields, mem_allFields_iff, beq_iff_eq]
  constructor
  · intro h p f hp
    exact h f ⟨p, hp⟩
  · rintro h f ⟨p, hp⟩
    exact h p f hp

theorem fieldCount_eq (s : Schema) : s.fieldCount = (s.groups.map (·.fields.length)).sum := by
  rw [fieldCount, fields, PropertyGroup.allFields, List.length_flatMap]

end Schema

/-! ## Schemas and tables -/

namespace FieldTable

variable {groups : List PropertyGroup} {table : FieldTable}

/-- The table cannot be filled iff the `groups` make no schema, and fails with the same name. -/
theorem ofGroups_eq_error_iff {name : String} :
    ofGroups groups = .error name ↔ Schema.ofGroups groups = .error (.duplicateField name) := by
  have hempty : ∀ n, ((SortedMap.empty : FieldTable).get? n).isSome = true ↔
      n ∈ [] := by simp [SortedMap.get?_empty]
  rw [ofGroups, enter_eq_error_iff hempty, Schema.ofGroups_eq_error_iff, ← map_fst_placed,
    List.map_map]
  simp [Function.comp_def]

theorem holds_ofGroups (h : ofGroups groups = .ok table) : table.Holds (placed groups) := by
  have hempty : Holds .empty [] := by simp [Holds, SortedMap.get?_empty]
  exact hempty.enter h

/-- What a table leads to is there, and is what looking up the `name` in the schema gives. -/
theorem Holds.map_fieldAt? {s : Schema} (h : table.Holds (placed s.groups)) (name : String) :
    (table.get? name).map (fieldAt? s.groups) = (s.field? name).map some := by
  cases hget : table.get? name with
  | none =>
    have hnone : s.field? name = none := Schema.field?_eq_none_iff.mpr fun p f hp hname => by
      rw [(h name p).mpr ⟨f, mem_placed_iff.mpr hp, hname⟩] at hget
      cases hget
    rw [hnone]
    rfl
  | some p =>
    obtain ⟨f, hmem, rfl⟩ := (h name p).mp hget
    have hp := mem_placed_iff.mp hmem
    rw [Option.map_some, hp, Schema.field?_of_mem (mem_allFields_iff.mpr ⟨p, hp⟩), Option.map_some]

/-- The table has one entry for each field, as no two have the same name. -/
theorem Holds.size_eq {s : Schema} (h : table.Holds (placed s.groups)) :
    table.size = s.fieldCount := by
  have hmem : ∀ n, n ∈ table.keys ↔ n ∈ s.fields.map (·.name) := by
    intro n
    simp only [SortedMap.mem_keys_iff, h n, List.mem_map, Schema.fields, mem_allFields_iff,
      mem_placed_iff]
    constructor
    · rintro ⟨p, f, hp, hname⟩
      exact ⟨f, ⟨p, hp⟩, hname⟩
    · rintro ⟨f, ⟨p, hp⟩, hname⟩
      exact ⟨p, f, hp, hname⟩
  have hperm := (List.perm_ext_iff_of_nodup table.nodup_keys s.distinct).mpr hmem
  rw [← table.length_keys, hperm.length_eq, List.length_map]
  rfl

end FieldTable

/-! ## Documents -/

namespace SchemaDocument

/-- A definition `f` is what the document states of a field, under its trimmed name and in its
`group`. -/
structure FieldEntry.Defines (group : String) (e : FieldEntry) (f : FieldDefinition) : Prop where
  name_eq : f.name = Text.trimmed e.name
  named : f.name ≠ ""
  label_eq : f.label = e.label.getD f.name
  kind_eq : f.kind = .ofTag e.tag
  group_eq : f.group = group

/-- A group `g` is what the document states, under its trimmed name, with its fields one by one. -/
structure GroupEntry.Defines (e : GroupEntry) (g : PropertyGroup) : Prop where
  name_eq : g.name = Text.trimmed e.name
  named : g.name ≠ ""
  label_eq : g.label = e.label.getD g.name
  fields : List.Forall₂ (FieldEntry.Defines g.name) e.fields g.fields

/-- An entry of a field is accepted for what it `Defines`. -/
theorem FieldEntry.define_eq_ok_iff {group : String} {e : FieldEntry} {f : FieldDefinition} :
    e.define group = .ok f ↔ e.Defines group f := by
  unfold define
  cases hname : Text.nonBlank? e.name with
  | none =>
    refine iff_of_false (fun h => nomatch h) fun h => ?_
    rw [Text.nonBlank?_eq_some_iff.mpr ⟨h.name_eq, h.named⟩] at hname
    cases hname
  | some name =>
    obtain ⟨rfl, hnamed⟩ := Text.nonBlank?_eq_some_iff.mp hname
    -- The kind is kept folded: nothing here depends on how a tag is read.
    obtain ⟨kind, hkind⟩ : ∃ kind, kind = FieldKind.ofTag e.tag := ⟨_, rfl⟩
    dsimp only
    rw [← hkind, Except.ok.injEq]
    constructor
    · rintro rfl
      exact ⟨rfl, hnamed, rfl, hkind, rfl⟩
    · obtain ⟨name, label, kind', group'⟩ := f
      rintro ⟨rfl, _, hlabel, hkind', rfl⟩
      dsimp only at hlabel hkind' ⊢
      rw [hlabel, hkind', hkind]

/-- An entry of a group is accepted for what it `Defines`, with all its fields. -/
theorem GroupEntry.define_eq_ok_iff {e : GroupEntry} {g : PropertyGroup} :
    e.define = .ok g ↔ e.Defines g := by
  unfold define
  cases hname : Text.nonBlank? e.name with
  | none =>
    refine iff_of_false (fun h => nomatch h) fun h => ?_
    rw [Text.nonBlank?_eq_some_iff.mpr ⟨h.name_eq, h.named⟩] at hname
    cases hname
  | some name =>
    obtain ⟨rfl, hnamed⟩ := Text.nonBlank?_eq_some_iff.mp hname
    have hfields : ∀ fields, e.fields.mapM (FieldEntry.define (Text.trimmed e.name)) = .ok fields ↔
        List.Forall₂ (FieldEntry.Defines (Text.trimmed e.name)) e.fields fields := fun fields => by
      simp only [mapM_eq_ok_iff, FieldEntry.define_eq_ok_iff]
    dsimp only
    constructor
    · intro hdefine
      cases hmap : e.fields.mapM (FieldEntry.define (Text.trimmed e.name)) with
      | error fault =>
        rw [hmap] at hdefine
        cases hdefine
      | ok fields =>
        rw [hmap] at hdefine
        cases hdefine
        exact ⟨rfl, hnamed, rfl, (hfields fields).mp hmap⟩
    · obtain ⟨name, label, fields⟩ := g
      rintro ⟨rfl, _, hlabel, hdefines⟩
      dsimp only at hlabel
      rw [(hfields fields).mpr hdefines, hlabel]
      rfl

/-- What is matched item by item is matched by some item. -/
theorem exists_of_mem_forall₂ {α β : Type} {R : α → β → Prop} {l : List α} {m : List β}
    (h : List.Forall₂ R l m)
    {b : β} (hb : b ∈ m) : ∃ a ∈ l, R a b := by
  induction h with
  | nil => cases hb
  | cons hab _ ih =>
    rcases List.mem_cons.mp hb with rfl | hb
    · exact ⟨_, .head _, hab⟩
    · obtain ⟨a, ha, hab⟩ := ih hb
      exact ⟨a, .tail _ ha, hab⟩

/-- The names of the fields, group by group, are those of the document without the blanks around
them. -/
theorem map_name_of_defines {entries : List GroupEntry} {groups : List PropertyGroup}
    (h : List.Forall₂ GroupEntry.Defines entries groups) :
    (allFields groups).map (·.name) = (entries.flatMap (·.fields)).map fun e =>
    Text.trimmed e.name := by
  have hfields : ∀ {group : String} {es : List FieldEntry} {fs : List FieldDefinition},
      List.Forall₂ (FieldEntry.Defines group) es fs →
        fs.map (·.name) = es.map fun e => Text.trimmed e.name := by
    intro group es fs hdefines
    induction hdefines with
    | nil => rfl
    | cons hfirst _ ih => rw [List.map_cons, List.map_cons, ih, hfirst.name_eq]
  induction h with
  | nil => rfl
  | cons hfirst _ ih =>
    rw [allFields, List.flatMap_cons, List.map_append, List.flatMap_cons, List.map_append,
      hfields hfirst.fields, ← ih, allFields]

end SchemaDocument

open SchemaDocument

namespace Schema

/-- A document is accepted with the schema of the groups that it states, in their order. -/
theorem parse_eq_ok_iff {body : String} {s : Schema} :
    parse body = .ok s ↔
      ∃ entries, entries? body = some entries ∧
      List.Forall₂ GroupEntry.Defines entries s.groups := by
  unfold parse
  cases hentries : entries? body with
  | none => simp
  | some entries =>
    have hgroups : ∀ groups, entries.mapM GroupEntry.define = .ok groups ↔
        List.Forall₂ GroupEntry.Defines entries groups := fun groups => by
      simp only [mapM_eq_ok_iff, GroupEntry.define_eq_ok_iff]
    simp only [Option.some.injEq, exists_eq_left', ← hgroups]
    cases entries.mapM GroupEntry.define with
    | error fault => simp [Except.bind]
    | ok groups =>
      rw [Except.bind, ofGroups_eq_ok_iff, Except.ok.injEq]
      exact eq_comm

/-- A name that is not blank and has no blanks around it. -/
def IsName (name : String) : Prop := name ≠ "" ∧ Text.trimmed name = name

theorem isName_of_eq_trimmed {name stated : String} (h : name = Text.trimmed stated)
    (hne : name ≠ "") :
    IsName name := by
  refine ⟨hne, ?_⟩
  rw [← String.toList_inj, Text.toList_trimmed, h, Text.toList_trimmed, Text.trim_trim]

/-- What the groups and a document state of a schema:
* Groups are refused iff two fields have the same name (`PropertyGroup.RepeatName`), and then for
  the first field in reading order whose name was used before.
* Otherwise they are the groups of the schema, which gives for a name the only field that has it, or
  nothing if there is none, and counts all fields.  The table of the fields can be filled, and
  whatever place it leads to is that of the field for the name.
* A document is accepted with the groups and fields that it states, one by one.  Then all names are
  trimmed and not empty, no two names of fields are the same once they are trimmed, and each field
  has the name of the group that it is in. -/
theorem stated_by_groups_and_document :
    (∀ groups : List PropertyGroup,
      ((∃ fault, ofGroups groups = .error fault) ↔ RepeatName groups) ∧
      (∀ fault, ofGroups groups = .error fault ↔
        ∃ before f after, allFields groups = before ++ f :: after ∧ (before.map (·.name)).Nodup ∧
          f.name ∈ before.map (·.name) ∧ fault = .duplicateField f.name) ∧
      ∀ s, ofGroups groups = .ok s → s.groups = groups ∧
        (∀ name f, s.field? name = some f ↔ IsOnlyNamed groups name f) ∧
        (∀ name, s.field? name = none ↔ ∀ p f, fieldAt? groups p = some f → f.name ≠ name) ∧
        s.fieldCount = (groups.map (·.fields.length)).sum ∧
        ∃ table, FieldTable.ofGroups groups = .ok table ∧ table.size = s.fieldCount ∧
          ∀ name, (table.get? name).map (fieldAt? groups) = (s.field? name).map some) ∧
    ∀ body s,
      (parse body = .ok s ↔
        ∃ entries, entries? body = some entries ∧
          List.Forall₂ GroupEntry.Defines entries s.groups) ∧
      (parse body = .ok s →
        (∀ g ∈ s.groups, IsName g.name ∧ ∀ f ∈ g.fields, IsName f.name ∧ f.group = g.name) ∧
        ∀ entries, entries? body = some entries →
          ((entries.flatMap (·.fields)).map fun e => Text.trimmed e.name).Nodup) := by
  refine ⟨fun groups => ⟨exists_error_iff, fun fault => ofGroups_eq_error_iff_exists, ?_⟩, ?_⟩
  · intro s hs
    obtain rfl := ofGroups_eq_ok_iff.mp hs
    refine ⟨rfl, fun _ _ => field?_eq_some_iff, fun _ => field?_eq_none_iff, s.fieldCount_eq, ?_⟩
    cases htable : FieldTable.ofGroups s.groups with
    | error name =>
      rw [FieldTable.ofGroups_eq_error_iff.mp htable] at hs
      cases hs
    | ok table =>
      have hholds := FieldTable.holds_ofGroups htable
      exact ⟨table, rfl, hholds.size_eq, hholds.map_fieldAt?⟩
  · intro body s
    refine ⟨parse_eq_ok_iff, fun hparse => ?_⟩
    obtain ⟨entries, hentries, hdefines⟩ := parse_eq_ok_iff.mp hparse
    constructor
    · intro g hg
      obtain ⟨e, _, hgroup⟩ := exists_of_mem_forall₂ hdefines hg
      refine ⟨isName_of_eq_trimmed hgroup.name_eq hgroup.named, fun f hf => ?_⟩
      obtain ⟨_, _, hfield⟩ := exists_of_mem_forall₂ hgroup.fields hf
      exact ⟨isName_of_eq_trimmed hfield.name_eq hfield.named, hfield.group_eq⟩
    · intro entries' hentries'
      obtain rfl := Option.some.inj (hentries.symm.trans hentries')
      exact map_name_of_defines hdefines ▸ s.distinct

/-! ### Contracts -/

/-- A group of two fields and one of one field. -/
def contractGroups : List PropertyGroup :=
  [⟨"contract", "Contract", [⟨"contract:party", "Party", .textInput, "contract"⟩,
      ⟨"contract:signed", "contract:signed", .dateInput, "contract"⟩]⟩,
    ⟨"invoice", "invoice", [⟨"invoice:total", "Total", .other, "invoice"⟩]⟩]

/-- The schema of the `contractGroups`. -/
def contractSchema : Schema := ⟨contractGroups, by decide⟩

/-- The `contractGroups` and one whose fields have names that were used before. -/
def repeatingGroups : List PropertyGroup :=
  contractGroups ++ [⟨"late", "late", [⟨"invoice:total", "Total", .other, "late"⟩,
    ⟨"contract:party", "Party", .textInput, "late"⟩]⟩]

/-- A document that states the `contractGroups`, with blanks around some names. -/
def contractDocument : String :=
  "[[group]]\nname = ' contract'\nlabel = 'Contract'\n" ++
  "[[group.field]]\nname = 'contract:party '\nlabel = 'Party'\ntype = 'input'\n" ++
  "[[group.field]]\nname = 'contract:signed'\ntype = 'Date'\n" ++
  "[[group]]\nname = 'invoice'\n[[group.field]]\nname = ' invoice:total'\nlabel = 'Total'\ntype = 'sum'\n"

/-- The `repeatingGroups` are refused for the total of the invoice.  Without the group that repeats
names, and as the document states them, the groups make a schema of three fields, of which only one
has the name of the total and none another name. -/
theorem stated_by_groups_and_document_contracts :
    ofGroups repeatingGroups = .error (.duplicateField "invoice:total") ∧
    ofGroups contractGroups = .ok contractSchema ∧
    IsOnlyNamed contractGroups "invoice:total" ⟨"invoice:total", "Total", .other, "invoice"⟩ ∧
    (∀ p f, fieldAt? contractGroups p = some f → f.name ≠ "invoice:paid") ∧
    contractSchema.fieldCount = 3 ∧
    parse contractDocument = .ok contractSchema ∧ ∀ g ∈ contractSchema.groups, IsName g.name := by
  obtain ⟨hgroups, hdocument⟩ := stated_by_groups_and_document
  have hrefused : ofGroups repeatingGroups = .error (.duplicateField "invoice:total") :=
    ((hgroups repeatingGroups).2.1 _).mpr
      ⟨allFields contractGroups, ⟨"invoice:total", "Total", .other, "late"⟩,
      [⟨"contract:party", "Party", .textInput, "late"⟩], rfl, by decide, by decide, rfl⟩
  have hs : ofGroups contractGroups = .ok contractSchema := ofGroups_eq_ok_iff.mpr rfl
  have hparse : parse contractDocument = .ok contractSchema := by decide +kernel
  obtain ⟨_, hfield, hnone, hcount, _⟩ := (hgroups contractGroups).2.2 _ hs
  refine ⟨hrefused, hs, (hfield _ _).mp (by decide), (hnone _).mp (by decide), hcount, hparse,
    fun g hg => ?_⟩
  exact (((hdocument _ _).2 hparse).1 g hg).1

end Schema

end DocSearch
