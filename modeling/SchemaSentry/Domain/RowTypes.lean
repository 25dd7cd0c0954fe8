import SchemaSentry.Domain.Capacity
import SchemaSentry.Domain.Diff
import SchemaSentry.Domain.TypeNames
/-!
# Schema Sentry — the types of rows

`PostgresSchemaCollector._to_column`, and which changes of a column's
PostgreSQL type it makes invisible: those from one array to another, and
those between a user-defined type and a type spelled like it
(`type_told_iff`).
-/

namespace SchemaSentry

/-! ## The collector's rows -/

/-- A row of `information_schema.columns`, as the collector selects it. -/
structure ColumnRow extends TypeRow where
  tableSchema : String
  tableName : String
  columnName : String
  ordinalPosition : ℤ
  isNullable : String
  columnDefault : Option String

/-- The column a row is of. -/
def ColumnRow.ref (row : ColumnRow) : ColumnRef := ⟨⟨row.tableSchema, row.tableName⟩, row.columnName⟩

section Rows

variable [PyText]

/-- `_to_column`. -/
def toColumn (row : ColumnRow) : ColumnDefinition :=
  { dataset := { schema := row.tableSchema, table := row.tableName }
    name := row.columnName
    dataType := canonicalizePostgresType row.dataType row.udtName row.characterMaximumLength
      row.numericPrecision row.numericScale
    nullable := row.isNullable = "YES"
    default := row.columnDefault
    ordinal := row.ordinalPosition }

/-- The built-in scalar types of a PostgreSQL, each with its `data_type` and
its `udt_name`: the one tells the other, and the first is the type's long
name in lower case. -/
structure BuiltinTypes where
  names : List (String × String)
  paired : ∀ t ∈ names, ∀ u ∈ names, t.1 = u.1 ↔ t.2 = u.2
  normal : ∀ t ∈ names, NormalName t.1
  scalar : ∀ t ∈ names, t.1 ≠ "array"

/-- What PostgreSQL reports: a built-in scalar type, an array or a
user-defined type. -/
inductive TypeRow.Reported (types : BuiltinTypes) (row : TypeRow) : Prop
  | builtin : (row.dataType, row.udtName) ∈ types.names → row.Reported types
  | array : row.dataType = "ARRAY" → row.Reported types
  | userDefined : row.dataType = "USER-DEFINED" → row.Reported types

/-! ## Types that are told apart -/

/-- Two rows tell of one PostgreSQL type. -/
structure SameType (row row' : TypeRow) : Prop where
  udtName : row.udtName = row'.udtName
  character : row.dataType ∈ characterTypes →
    row.characterMaximumLength = row'.characterMaximumLength
  numeric : row.dataType = "numeric" →
    row.numericPrecision = row'.numericPrecision ∧ row.numericScale = row'.numericScale

/-- **No change of the type is invisible**: equal types are of one
PostgreSQL type, and a diff between others lists the column's type change. -/
structure TypeTold (row row' : ColumnRow) : Prop where
  told : (toColumn row).dataType = (toColumn row').dataType → SameType row.toTypeRow row'.toTypeRow
  listed : ¬ SameType row.toTypeRow row'.toTypeRow →
    ∀ (expected observed : List ColumnDefinition) (dependencies : List ColumnRef),
      columnAt expected row.ref = some (toColumn row) →
      columnAt observed row.ref = some (toColumn row') →
      ∃ c ∈ diffColumns expected observed dependencies, c.ref = row.ref ∧
        c.changeType = .typeChange

/-- The name a type is read from. -/
def TypeRow.typeName (row : TypeRow) : String :=
  if row.dataType ≠ "USER-DEFINED" then row.dataType else row.udtName

/-- What a name that is spelled like a character type or `numeric` makes the
type keep of the modifiers is the same in two rows. -/
def SameModifiers (row row' : TypeRow) : Prop :=
  ((∃ name ∈ characterTypes, SpelledAlike row.typeName name) →
    row.characterMaximumLength = row'.characterMaximumLength) ∧
  (SpelledAlike row.typeName "numeric" →
    row.numericPrecision = row'.numericPrecision ∧ row.numericScale = row'.numericScale)

/-- Two arrays, not of one type. -/
def ArraysDiffer (row row' : TypeRow) : Prop :=
  row.dataType = "ARRAY" ∧ row'.dataType = "ARRAY" ∧ row.udtName ≠ row'.udtName

/-- A user-defined type and another type whose names differ in letter case,
white space and aliases only. -/
def Mistaken (row row' : TypeRow) : Prop :=
  (row.dataType = "USER-DEFINED" ∨ row'.dataType = "USER-DEFINED") ∧ row.udtName ≠ row'.udtName ∧
    SpelledAlike row.typeName row'.typeName ∧ SameModifiers row row'

section Told

variable [PyText.Lawful] {row row' : TypeRow} {types : BuiltinTypes}

theorem normalizeName_array : normalizeName "ARRAY" = "array" := by
  have htext : typeText "ARRAY" = "array" :=
    String.toList_injective ((toList_typeText (by decide)).trans (by decide +kernel))
  rw [normalizeName_eq, htext]
  rfl

omit [PyText.Lawful] in
/-- A name is spelled like a normal one where that is its normal form. -/
theorem NormalName.spelledAlike_iff {name other : String} (h : NormalName name) :
    SpelledAlike other name ↔ normalizeName other = name := by
  rw [← normalizeName_eq_iff, h.normalizeName_eq_self]

/-- The type of a normal name with what it keeps of a row's modifiers. -/
def TypeRow.named (row : TypeRow) (name : String) : CanonicalType :=
  if name ∈ characterTypes then { name := name, length := row.characterMaximumLength }
  else if name = "numeric" then
    { name := name, precision := row.numericPrecision, scale := row.numericScale }
  else { name := name }

omit [PyText] [PyText.Lawful] in
theorem name_named (name : String) : (row.named name).name = name := by
  unfold TypeRow.named
  split
  · rfl
  · split <;> rfl

omit [PyText.Lawful] in
/-- A row's type is that of its name. -/
theorem canonicalizePostgresType_eq (row : TypeRow) :
    canonicalizePostgresType row.dataType row.udtName row.characterMaximumLength
      row.numericPrecision row.numericScale = row.named (normalizeName row.typeName) := by
  unfold canonicalizePostgresType TypeRow.named TypeRow.typeName characterTypes
  rfl

omit [PyText.Lawful] in
theorem dataType_toColumn (row : ColumnRow) :
    (toColumn row).dataType = row.named (normalizeName row.typeName) := by
  simp only [toColumn, canonicalizePostgresType_eq]

/-- **Two rows have one type** where their names are spelled alike and what
is kept of the modifiers is the same. -/
theorem named_eq_iff :
    row.named (normalizeName row.typeName) = row'.named (normalizeName row'.typeName) ↔
      SpelledAlike row.typeName row'.typeName ∧ SameModifiers row row' := by
  have hcharacter : (∃ name ∈ characterTypes, SpelledAlike row.typeName name) ↔
      normalizeName row.typeName ∈ characterTypes := by
    constructor
    · rintro ⟨name, hname, halike⟩
      rwa [(normalName_characterType hname).spelledAlike_iff.1 halike]
    · intro h
      exact ⟨_, h, (normalName_characterType h).spelledAlike_iff.2 rfl⟩
  rw [← normalizeName_eq_iff, SameModifiers, hcharacter, normalName_numeric.spelledAlike_iff]
  generalize normalizeName row.typeName = name
  generalize normalizeName row'.typeName = name'
  by_cases hname : name = name'
  · subst hname
    by_cases hchar : name ∈ characterTypes
    · have hnot : name ≠ "numeric" := by
        rintro rfl
        exact absurd hchar (by decide)
      simp [TypeRow.named, hchar, hnot]
    · by_cases hnumeric : name = "numeric"
      · subst hnumeric
        simp [TypeRow.named, hchar]
      · simp [TypeRow.named, hchar, hnumeric]
  · refine iff_of_false (fun h => hname ?_) fun h => hname h.1
    have hnames := congrArg CanonicalType.name h
    rwa [name_named, name_named] at hnames

theorem dataType_eq_iff {row row' : ColumnRow} :
    (toColumn row).dataType = (toColumn row').dataType ↔
      SpelledAlike row.typeName row'.typeName ∧ SameModifiers row.toTypeRow row'.toTypeRow := by
  rw [dataType_toColumn, dataType_toColumn, named_eq_iff]

/-- An array is spelled like no scalar type. -/
theorem Reported.spelledAlike (hrow : row.Reported types) (hrow' : row'.Reported types)
    (hscalar : row.dataType ≠ "USER-DEFINED") (hscalar' : row'.dataType ≠ "USER-DEFINED")
    (halike : SpelledAlike row.typeName row'.typeName) :
    row.udtName = row'.udtName ∨ ArraysDiffer row row' := by
  rw [TypeRow.typeName, TypeRow.typeName, if_pos hscalar, if_pos hscalar',
    ← normalizeName_eq_iff] at halike
  rcases hrow with hmem | harray | huser
  · rcases hrow' with hmem' | harray' | huser'
    · rw [(types.normal _ hmem).normalizeName_eq_self,
        (types.normal _ hmem').normalizeName_eq_self] at halike
      exact Or.inl ((types.paired _ hmem _ hmem').1 halike)
    · rw [(types.normal _ hmem).normalizeName_eq_self, harray', normalizeName_array] at halike
      exact absurd halike (types.scalar _ hmem)
    · exact absurd huser' hscalar'
  · rcases hrow' with hmem' | harray' | huser'
    · rw [(types.normal _ hmem').normalizeName_eq_self, harray, normalizeName_array] at halike
      exact absurd halike.symm (types.scalar _ hmem')
    · by_cases hudt : row.udtName = row'.udtName
      · exact Or.inl hudt
      · exact Or.inr ⟨harray, harray', hudt⟩
    · exact absurd huser' hscalar'
  · exact absurd huser hscalar

/-- Rows of one type that are no such pair tell of one PostgreSQL type. -/
theorem sameType_of_eq (hrow : row.Reported types) (hrow' : row'.Reported types)
    (hsame : SpelledAlike row.typeName row'.typeName ∧ SameModifiers row row')
    (harrays : ¬ ArraysDiffer row row') (hmistaken : ¬ Mistaken row row') :
    SameType row row' := by
  obtain ⟨halike, hmodifiers⟩ := hsame
  have hname : ∀ name, NormalName name → name ≠ "USER-DEFINED" → row.dataType = name →
      SpelledAlike row.typeName name := by
    intro name _ hne heq
    rw [TypeRow.typeName, heq, if_pos hne]
    exact Or.inl rfl
  refine ⟨?_, fun hchar => ?_, fun hnumeric => ?_⟩
  · by_cases huser : row.dataType = "USER-DEFINED" ∨ row'.dataType = "USER-DEFINED"
    · by_contra hudt
      exact hmistaken ⟨huser, hudt, halike, hmodifiers⟩
    · rw [not_or] at huser
      exact (Reported.spelledAlike hrow hrow' huser.1 huser.2 halike).resolve_right harrays
  · refine hmodifiers.1 ⟨_, hchar, hname _ (normalName_characterType hchar) ?_ rfl⟩
    intro huser
    rw [huser] at hchar
    exact absurd hchar (by decide)
  · exact hmodifiers.2 (hname _ normalName_numeric (by decide) hnumeric)

/-- Arrays all have one type. -/
theorem dataType_eq_of_arrays {row row' : ColumnRow}
    (h : ArraysDiffer row.toTypeRow row'.toTypeRow) :
    (toColumn row).dataType = (toColumn row').dataType := by
  have harray : ∀ row : ColumnRow, row.dataType = "ARRAY" →
      (toColumn row).dataType = { name := "array" } := by
    intro row hrow
    have hname : row.typeName = "ARRAY" := by
      rw [TypeRow.typeName, hrow, if_pos (by decide)]
    rw [dataType_toColumn, hname, normalizeName_array]
    rfl
  rw [harray row h.1, harray row' h.2.1]

/-- **A change of a column's type is told** exactly where it is neither one
of arrays nor one between a user-defined type and a type spelled alike. -/
theorem type_told_iff {row row' : ColumnRow} (hrow : row.Reported types)
    (hrow' : row'.Reported types) :
    TypeTold row row' ↔
      ¬ (ArraysDiffer row.toTypeRow row'.toTypeRow ∨ Mistaken row.toTypeRow row'.toTypeRow) := by
  constructor
  · rintro ⟨htold, -⟩ (harrays | ⟨-, hudt, hsame⟩)
    · exact harrays.2.2 (htold (dataType_eq_of_arrays harrays)).udtName
    · exact hudt (htold (dataType_eq_iff.2 hsame)).udtName
  · intro hnot
    rw [not_or] at hnot
    have htold : (toColumn row).dataType = (toColumn row').dataType →
        SameType row.toTypeRow row'.toTypeRow :=
      fun heq => sameType_of_eq hrow hrow' (dataType_eq_iff.1 heq) hnot.1 hnot.2
    refine ⟨htold, fun hchanged expected observed dependencies hb ha => ?_⟩
    have htypes : (toColumn row).dataType ≠ (toColumn row').dataType :=
      fun heq => hchanged (htold heq)
    refine ⟨.retype (toColumn row) (toColumn row'), mem_diffColumns_iff_exists.2 ⟨row.ref, ?_⟩,
      rfl, rfl⟩
    have hcolumn : (toColumn row).ref = row.ref := rfl
    rw [hb, ha, compareColumn_both hcolumn, if_pos htypes]
    exact List.mem_append_left _ (List.mem_singleton_self _)

end Told

end Rows

/-! ## Types that are not -/

section Sample

attribute [local instance] asciiText asciiText_lawful

def sampleRow (dataType udtName : String) (length : Option ℤ) : ColumnRow :=
  { dataType := dataType, udtName := udtName, characterMaximumLength := length
    numericPrecision := none, numericScale := none
    tableSchema := "public", tableName := "customers", columnName := "state"
    ordinalPosition := 1, isNullable := "YES", columnDefault := none }

theorem sampleNames_normal : ∀ t ∈ [("integer", "int4"), ("character varying", "varchar"),
    ("timestamp with time zone", "timestamptz"), ("numeric", "numeric"), ("date", "date")],
    NormalName t.1 := by
  have hall : ∀ t ∈ [("integer", "int4"), ("character varying", "varchar"),
      ("timestamp with time zone", "timestamptz"), ("numeric", "numeric"), ("date", "date")],
      IsAscii t.1 ∧ [' '].intercalate (nameWords t.1) = t.1.toList ∧ typeAlias t.1 = t.1 := by
    decide +kernel
  intro t ht
  obtain ⟨hascii, hwords, hlong⟩ := hall t ht
  exact normalName_of_words hascii hwords hlong

def sampleTypes : BuiltinTypes where
  names := [("integer", "int4"), ("character varying", "varchar"),
    ("timestamp with time zone", "timestamptz"), ("numeric", "numeric"), ("date", "date")]
  paired := by decide
  normal := sampleNames_normal
  scalar := by decide

/-- A text that becomes longer is told. -/
theorem longer_text_told : TypeTold (sampleRow "character varying" "varchar" (some 20))
    (sampleRow "character varying" "varchar" (some 40)) := by
  have hbuiltin : ∀ n, (sampleRow "character varying" "varchar" n).Reported sampleTypes :=
    fun n => .builtin (List.mem_cons_of_mem _ List.mem_cons_self)
  refine (type_told_iff (hbuiltin (some 20)) (hbuiltin (some 40))).2 ?_
  rintro (⟨harray, -⟩ | ⟨huser | huser, -⟩)
  · exact absurd harray (by decide)
  · exact absurd huser (by decide)
  · exact absurd huser (by decide)

/-- Integers that become texts are not told within arrays, nor is a type
from one of its name in lower case. -/
theorem type_not_told :
    (sampleRow "ARRAY" "_int4" none).Reported sampleTypes ∧
    (sampleRow "ARRAY" "_text" none).Reported sampleTypes ∧
    ¬ TypeTold (sampleRow "ARRAY" "_int4" none) (sampleRow "ARRAY" "_text" none) ∧
    (sampleRow "USER-DEFINED" "State" none).Reported sampleTypes ∧
    (sampleRow "USER-DEFINED" "state" none).Reported sampleTypes ∧
    ¬ TypeTold (sampleRow "USER-DEFINED" "State" none) (sampleRow "USER-DEFINED" "state" none) := by
  have hlower : SpelledAlike "State" "state" := by
    refine Or.inl (String.toList_injective ?_)
    rw [toList_typeText (by decide), toList_typeText (by decide)]
    decide +kernel
  have hname : ∀ name, (sampleRow "USER-DEFINED" name none).typeName = name :=
    fun _ => if_neg (not_not_intro rfl)
  refine ⟨.array rfl, .array rfl, fun ⟨htold, _⟩ => ?_, .userDefined rfl, .userDefined rfl,
    fun ⟨htold, _⟩ => ?_⟩
  · have harrays : ArraysDiffer (sampleRow "ARRAY" "_int4" none).toTypeRow
        (sampleRow "ARRAY" "_text" none).toTypeRow := ⟨rfl, rfl, by decide⟩
    exact harrays.2.2 (htold (dataType_eq_of_arrays harrays)).udtName
  · have hsame : (toColumn (sampleRow "USER-DEFINED" "State" none)).dataType =
        (toColumn (sampleRow "USER-DEFINED" "state" none)).dataType := by
      rw [dataType_eq_iff, hname, hname]
      exact ⟨hlower, fun _ => rfl, fun _ => ⟨rfl, rfl⟩⟩
    exact absurd (htold hsame).udtName (by decide)

end Sample

end SchemaSentry
