import SchemaSentry.Domain.Models
/-!
# Schema Sentry — the type policy

`canonicalize_postgres_type`: the canonical type of a row of the
information schema. `classify_type_change`: which changes of a canonical
type keep every value readable and which do not (`warning_iff_widens`).
-/

namespace SchemaSentry

/-! ## Canonical types of rows -/

/-- What `str` methods take from the Unicode tables: a text in lower case
and the white space characters. -/
class PyText where
  lower : String → String
  isSpace : Char → Bool

section Canonical

variable [PyText]

/-- `str.strip()`. -/
def pyStrip (s : String) : String :=
  String.ofList ((s.toList.dropWhile PyText.isSpace).reverse.dropWhile PyText.isSpace).reverse

/-- `str.split()`. -/
def pySplit (s : String) : List String :=
  ((s.toList.splitOnP PyText.isSpace).filter fun word => word ≠ []).map String.ofList

/-- `_ALIASES.get(name, name)`. -/
def typeAlias : String → String
  | "bool" => "boolean"
  | "decimal" => "numeric"
  | "float8" => "double precision"
  | "int2" => "smallint"
  | "int4" => "integer"
  | "int8" => "bigint"
  | "timestamp" => "timestamp without time zone"
  | "timestamptz" => "timestamp with time zone"
  | "varchar" => "character varying"
  | name => name

/-- `_normalize_name`. -/
def normalizeName (name : String) : String :=
  typeAlias (String.intercalate " " (pySplit (PyText.lower (pyStrip name))))

def canonicalizePostgresType (dataType udtName : String)
    (characterMaximumLength numericPrecision numericScale : Option ℤ) : CanonicalType :=
  let name := normalizeName (if dataType ≠ "USER-DEFINED" then dataType else udtName)
  if name ∈ ["character", "character varying", "bit", "bit varying"] then
    { name := name, length := characterMaximumLength }
  else if name = "numeric" then
    { name := name, precision := numericPrecision, scale := numericScale }
  else { name := name }

end Canonical

/-! ## Changes of a type -/

structure TypeChangeAssessment where
  severity : Severity
  reason : String
  deriving DecidableEq, Repr

/-- `_INTEGER_RANK`. -/
def integerRank : String → Option ℕ
  | "smallint" => some 0
  | "integer" => some 1
  | "bigint" => some 2
  | _ => none

/-- Two `character varying` types: the one after holds what the one before
does where it has no length or one at least as large. -/
def classifyCharacterChange (before after : CanonicalType) : TypeChangeAssessment :=
  match before.length, after.length with
  | _, none => ⟨.warning, "character capacity widened"⟩
  | some b, some a =>
    if b ≤ a then ⟨.warning, "character capacity widened"⟩
    else ⟨.breaking, "character capacity narrowed"⟩
  | none, some _ => ⟨.breaking, "character capacity narrowed"⟩

/-- Two `numeric` types. -/
def classifyNumericChange (before after : CanonicalType) : TypeChangeAssessment :=
  match before.precision, after.precision with
  | _, none => ⟨.warning, "numeric constraint removed"⟩
  | none, some _ => ⟨.breaking, "numeric constraint added"⟩
  | some b, some a =>
    if before.scale = after.scale ∧ b ≤ a then ⟨.warning, "numeric precision widened"⟩
    else ⟨.breaking, "numeric precision or scale narrowed"⟩

def classifyTypeChange (before after : CanonicalType) : TypeChangeAssessment :=
  if before = after then ⟨.info, "unchanged"⟩
  else
    match integerRank before.name, integerRank after.name with
    | some b, some a =>
      if b < a then ⟨.warning, "integer widened"⟩ else ⟨.breaking, "integer narrowed"⟩
    | _, _ =>
      if before.name = "character varying" ∧ after.name = "character varying" then
        classifyCharacterChange before after
      else if before.name = "character varying" ∧ after.name = "text" then
        ⟨.warning, "character capacity widened"⟩
      else if before.name = "text" ∧ after.name = "character varying" then
        ⟨.breaking, "character capacity constrained"⟩
      else if before.name = "numeric" ∧ after.name = "numeric" then
        classifyNumericChange before after
      else ⟨.breaking, "incompatible type families"⟩

/-- A type of the policy holds what another one does: a greater rank of
integers, a length or none, text, a precision of the same scale or none. -/
inductive Widens (before after : CanonicalType) : Prop
  | integer {b a : ℕ} : integerRank before.name = some b → integerRank after.name = some a →
      b < a → Widens before after
  | character : before.name = "character varying" → after.name = "character varying" →
      before ≠ after → (∀ a ∈ after.length, ∃ b ∈ before.length, b ≤ a) → Widens before after
  | text : before.name = "character varying" → after.name = "text" → Widens before after
  | numeric : before.name = "numeric" → after.name = "numeric" → before ≠ after →
      (∀ a ∈ after.precision, before.scale = after.scale ∧ ∃ b ∈ before.precision, b ≤ a) →
      Widens before after

variable {before after : CanonicalType}

theorem integerRank_eq_some {name : String} {rank : ℕ} (h : integerRank name = some rank) :
    name = "smallint" ∧ rank = 0 ∨ name = "integer" ∧ rank = 1 ∨ name = "bigint" ∧ rank = 2 := by
  unfold integerRank at h
  split at h
  · exact Or.inl ⟨rfl, (Option.some.inj h).symm⟩
  · exact Or.inr (Or.inl ⟨rfl, (Option.some.inj h).symm⟩)
  · exact Or.inr (Or.inr ⟨rfl, (Option.some.inj h).symm⟩)
  · cases h

theorem classifyCharacterChange_eq : (classifyCharacterChange before after).severity =
    if ∀ a ∈ after.length, ∃ b ∈ before.length, b ≤ a then .warning else .breaking := by
  unfold classifyCharacterChange
  cases before.length <;> cases after.length <;> simp
  split <;> rfl

theorem classifyNumericChange_eq : (classifyNumericChange before after).severity =
    if ∀ a ∈ after.precision, before.scale = after.scale ∧ ∃ b ∈ before.precision, b ≤ a then
      .warning
    else .breaking := by
  unfold classifyNumericChange
  cases before.precision <;> cases after.precision <;> simp
  split <;> rfl

/-- **What the policy says of a change**: nothing where the types are one,
a warning where the type after holds what the one before does, and
otherwise that it breaks. -/
theorem severity_classifyTypeChange (before after : CanonicalType) :
    (classifyTypeChange before after).severity = .info ∧ before = after ∨
    (classifyTypeChange before after).severity = .warning ∧ before ≠ after ∧
      Widens before after ∨
    (classifyTypeChange before after).severity = .breaking ∧ before ≠ after ∧
      ¬ Widens before after := by
  by_cases heq : before = after
  · exact Or.inl ⟨by rw [classifyTypeChange, if_pos heq], heq⟩
  right
  rw [classifyTypeChange, if_neg heq]
  -- the names say which rule of `Widens` can apply
  have hchar : integerRank "character varying" = none := rfl
  have htext : integerRank "text" = none := rfl
  have hnum : integerRank "numeric" = none := rfl
  rcases hb : integerRank before.name with _ | b <;> rcases ha : integerRank after.name with _ | a
  case some.some =>
    simp only
    split
    · exact Or.inl ⟨rfl, heq, .integer hb ha ‹_›⟩
    · refine Or.inr ⟨rfl, heq, fun h => ?_⟩
      rcases h with ⟨hb', ha', hlt⟩ | ⟨hname, -, -, -⟩ | ⟨hname, -⟩ | ⟨hname, -, -, -⟩
      · rw [hb] at hb'
        rw [ha] at ha'
        cases hb'
        cases ha'
        exact absurd hlt ‹_›
      all_goals simp [hname, hchar, hnum] at hb
  all_goals
    simp only
    split
    · rename_i hnames
      rw [classifyCharacterChange_eq]
      split
      · exact Or.inl ⟨rfl, heq, .character hnames.1 hnames.2 heq ‹_›⟩
      · refine Or.inr ⟨rfl, heq, fun h => ?_⟩
        rcases h with ⟨hb', ha', -⟩ | ⟨-, -, -, hlength⟩ | ⟨-, hname⟩ | ⟨hname, -, -, -⟩
        · simp_all
        · exact absurd hlength ‹_›
        · simp_all
        · simp_all
    · split
      · rename_i hnames
        exact Or.inl ⟨rfl, heq, .text hnames.1 hnames.2⟩
      · split
        · refine Or.inr ⟨rfl, heq, fun h => ?_⟩
          rcases h with ⟨hb', ha', -⟩ | ⟨hname, -, -, -⟩ | ⟨hname, -⟩ | ⟨hname, -, -, -⟩ <;> simp_all
        · split
          · rename_i hnames
            rw [classifyNumericChange_eq]
            split
            · exact Or.inl ⟨rfl, heq, .numeric hnames.1 hnames.2 heq ‹_›⟩
            · refine Or.inr ⟨rfl, heq, fun h => ?_⟩
              rcases h with ⟨hb', ha', -⟩ | ⟨hname, -, -, -⟩ | ⟨hname, -⟩ | ⟨-, -, -, hprecision⟩
              · simp_all
              · simp_all
              · simp_all
              · exact absurd hprecision ‹_›
          · refine Or.inr ⟨rfl, heq, fun h => ?_⟩
            rcases h with ⟨hb', ha', -⟩ | ⟨hname, hname', -, -⟩ | ⟨hname, hname'⟩ |
              ⟨hname, hname', -, -⟩ <;> simp_all

theorem Widens.ne (h : Widens before after) : before ≠ after := by
  intro heq
  rcases h with ⟨hb, ha, hlt⟩ | ⟨-, -, hne, -⟩ | ⟨hb, ha⟩ | ⟨-, -, hne, -⟩
  · rw [heq, ha] at hb
    cases hb
    exact lt_irrefl _ hlt
  · exact hne heq
  · rw [heq, ha] at hb
    exact absurd hb (by decide)
  · exact hne heq

theorem info_iff : (classifyTypeChange before after).severity = .info ↔ before = after := by
  rcases severity_classifyTypeChange before after with ⟨hsev, heq⟩ | ⟨hsev, hne, -⟩ | ⟨hsev, hne, -⟩
  · exact iff_of_true hsev heq
  · simp [hsev, hne]
  · simp [hsev, hne]

/-- **A change is a warning where the type after holds what the one before
does.** -/
theorem warning_iff_widens :
    (classifyTypeChange before after).severity = .warning ↔ Widens before after := by
  rcases severity_classifyTypeChange before after with ⟨hsev, heq⟩ | ⟨hsev, -, hw⟩ | ⟨hsev, -, hw⟩
  · rw [hsev]
    exact ⟨fun h => (by cases h), fun h => absurd heq h.ne⟩
  · simp [hsev, hw]
  · simp [hsev, hw]

theorem breaking_iff_not_widens :
    (classifyTypeChange before after).severity = .breaking ↔
      before ≠ after ∧ ¬ Widens before after := by
  rcases severity_classifyTypeChange before after with ⟨hsev, heq⟩ | ⟨hsev, -, hw⟩ | ⟨hsev, hne, hw⟩
  · rw [hsev]
    exact ⟨fun h => (by cases h), fun h => absurd heq h.1⟩
  · simp [hsev, hw]
  · simp [hsev, hne, hw]

end SchemaSentry
