import SchemaSentry.Domain.TypeRules
import SchemaSentry.Lib.Decimals
import Mathlib.Data.Int.ConditionallyCompleteOrder
import Mathlib.Logic.Relation
/-!
# Schema Sentry — what the type policy says of values

The values a canonical type holds. A change the policy warns of keeps every
value (`type_change_keeps_values`), and such changes are ordered strictly
(`widening_ordered`). The converse fails: a change that keeps every value
breaks where text becomes unbounded `character varying`, or where a decimal
gets more digits behind the point (`widening_not_breaking_iff`).
-/

namespace SchemaSentry

open Lib

/-! ## Values -/

/-- A value of a column. -/
inductive PgValue where
  | int (n : ℤ)
  | str (s : String)
  | num (q : ℚ)

/-- The integers of so many bits, with a sign. -/
def signedRange (bits : ℕ) : Set PgValue :=
  Set.image .int (Set.Ico (-(2 : ℤ) ^ (bits - 1)) (2 ^ (bits - 1)))

/-- The texts of at most a length, or all of them. -/
def texts (length : Option ℤ) : Set PgValue :=
  Set.image .str {s | ∀ n ∈ length, (s.length : ℤ) ≤ n}

/-- The decimals of a precision and a scale, which is zero where it is not
given, or all of them. -/
def numbers (precision scale : Option ℤ) : Set PgValue :=
  Set.image .num (match precision with
    | none => allDecimals
    | some p => decimals p (scale.getD 0))

/-- The values a type holds, given those that the types the policy does not
compare hold. -/
def CanonicalType.values (others : CanonicalType → Set PgValue) (t : CanonicalType) :
    Set PgValue :=
  match t.name with
  | "smallint" => signedRange 16
  | "integer" => signedRange 32
  | "bigint" => signedRange 64
  | "character varying" => texts t.length
  | "text" => texts none
  | "numeric" => numbers t.precision t.scale
  | _ => others t

variable {others : CanonicalType → Set PgValue} {t a b c : CanonicalType}

theorem values_character (h : t.name = "character varying") : t.values others = texts t.length := by
  simp [CanonicalType.values, h]

theorem values_text (h : t.name = "text") : t.values others = texts none := by
  simp [CanonicalType.values, h]

theorem values_numeric (h : t.name = "numeric") :
    t.values others = numbers t.precision t.scale := by
  simp [CanonicalType.values, h]

/-- An integer type of rank `k` has `16 * 2 ^ k` bits. -/
theorem values_integer {k : ℕ} (h : integerRank t.name = some k) :
    t.values others = signedRange (16 * 2 ^ k) := by
  rcases integerRank_eq_some h with ⟨hname, rfl⟩ | ⟨hname, rfl⟩ | ⟨hname, rfl⟩ <;>
    simp [CanonicalType.values, hname]

theorem signedRange_subset_iff {m n : ℕ} : signedRange m ⊆ signedRange n ↔ m - 1 ≤ n - 1 := by
  have hinj : Function.Injective PgValue.int := fun _ _ h => PgValue.int.inj h
  have hpos : ∀ k : ℕ, (0 : ℤ) < 2 ^ k := fun k => pow_pos (by norm_num) k
  rw [signedRange, signedRange, Set.image_subset_image_iff hinj]
  constructor
  · intro h
    have hlow : -(2 : ℤ) ^ (m - 1) ∈ Set.Ico (-(2 : ℤ) ^ (m - 1)) (2 ^ (m - 1)) := by
      have := hpos (m - 1)
      exact ⟨le_refl _, by omega⟩
    exact (pow_le_pow_iff_right₀ (by norm_num : (1 : ℤ) < 2)).1 (neg_le_neg_iff.1 (h hlow).1)
  · intro h
    have hle : (2 : ℤ) ^ (m - 1) ≤ 2 ^ (n - 1) := pow_le_pow_right₀ (by norm_num) h
    exact Set.Ico_subset_Ico (neg_le_neg hle) hle

theorem texts_subset_of {m n : Option ℤ} (h : ∀ j ∈ n, ∃ i ∈ m, i ≤ j) : texts m ⊆ texts n := by
  refine Set.image_mono fun s hs j hj => ?_
  obtain ⟨i, hi, hij⟩ := h j hj
  exact (hs i hi).trans hij

theorem numbers_subset_of {p s p' s' : Option ℤ}
    (h : ∀ j ∈ p', s = s' ∧ ∃ i ∈ p, i ≤ j) : numbers p s ⊆ numbers p' s' := by
  refine Set.image_mono ?_
  rcases p' with _ | j
  · rcases p with _ | i
    · exact subset_rfl
    · exact decimals_subset_allDecimals _ _
  · obtain ⟨rfl, i, rfl, hij⟩ := h j rfl
    exact decimals_subset_of_le hij

/-! ## A warning keeps every value -/

/-- **A type that widens another holds its values.** -/
theorem Widens.values_subset (h : Widens a b) : a.values others ⊆ b.values others := by
  rcases h with ⟨ha, hb, hlt⟩ | ⟨ha, hb, -, hlength⟩ | ⟨ha, hb⟩ | ⟨ha, hb, -, hprecision⟩
  · rw [values_integer ha, values_integer hb, signedRange_subset_iff]
    have hpow := Nat.pow_le_pow_right (n := 2) (by omega) hlt.le
    omega
  · rw [values_character ha, values_character hb]
    exact texts_subset_of hlength
  · rw [values_character ha, values_text hb]
    exact texts_subset_of fun j hj => by cases hj
  · rw [values_numeric ha, values_numeric hb]
    exact numbers_subset_of hprecision

/-- **A type change that does not break loses no value**, and it is nothing
only where the types are equal. -/
theorem type_change_keeps_values (others : CanonicalType → Set PgValue) (before after : CanonicalType) :
    ((classifyTypeChange before after).severity = .warning →
      before.values others ⊆ after.values others) ∧
    ((classifyTypeChange before after).severity = .info ↔ before = after) :=
  ⟨fun h => (warning_iff_widens.1 h).values_subset, info_iff⟩

/-! ## Widening, the other way round -/

theorem texts_subset_iff {m n : Option ℕ} :
    texts (m.map Int.ofNat) ⊆ texts (n.map Int.ofNat) ↔ ∀ j ∈ n, ∃ i ∈ m, i ≤ j := by
  have hinj : Function.Injective PgValue.str := fun _ _ h => PgValue.str.inj h
  constructor
  · intro h j hj
    rw [texts, texts, Set.image_subset_image_iff hinj] at h
    -- a text as long as `m` allows, or longer than `j`
    have htext : ∀ k : ℕ, (∀ i ∈ m, k ≤ i) → k ≤ j := by
      intro k hk
      have hmem : String.ofList (List.replicate k 'a') ∈
          {s : String | ∀ i ∈ m.map Int.ofNat, (s.length : ℤ) ≤ i} := by
        intro n hn
        obtain ⟨i, hi, rfl⟩ := Option.map_eq_some_iff.1 hn
        have hle := hk i hi
        simpa using hle
      have hlength := h hmem j (by rw [hj]; rfl)
      simpa using hlength
    rcases m with _ | i
    · exact absurd (htext (j + 1) (by simp)) (by omega)
    · exact ⟨i, rfl, htext i (by simp)⟩
  · intro h
    refine texts_subset_of fun k hk => ?_
    obtain ⟨j, hj, rfl⟩ := Option.map_eq_some_iff.1 hk
    obtain ⟨i, hi, hij⟩ := h j hj
    exact ⟨i, by rw [hi]; rfl, by simpa using hij⟩

/-- `smallint`, `integer` and `bigint`. -/
def IsInteger (t : CanonicalType) : Prop :=
  t = { name := "smallint" } ∨ t = { name := "integer" } ∨ t = { name := "bigint" }

/-- `character varying`, with a length or without, and `text`. -/
def IsCharacter (t : CanonicalType) : Prop :=
  (∃ length : Option ℕ, t = { name := "character varying", length := length.map Int.ofNat }) ∨
    t = { name := "text" }

/-- `numeric(p,s)`. -/
def numericType (p s : ℤ) : CanonicalType :=
  { name := "numeric", precision := some p, scale := some s }

/-- `numeric`, with a precision and a scale or without. -/
def IsNumeric (t : CanonicalType) : Prop :=
  (∃ p s, 0 ≤ s ∧ s ≤ p ∧ t = numericType p s) ∨ t = { name := "numeric" }

/-- Two types of one family. -/
def SameFamily (a b : CanonicalType) : Prop :=
  IsInteger a ∧ IsInteger b ∨ IsCharacter a ∧ IsCharacter b ∨ IsNumeric a ∧ IsNumeric b

/-- The widenings the policy calls breaking: from text to unbounded
`character varying`, and from one scale to another with as many digits on
either side of the point. -/
inductive Unseen (a b : CanonicalType) : Prop
  | text : a = { name := "text" } → b = { name := "character varying" } → Unseen a b
  | scale {p s p' s' : ℤ} : a = numericType p s → b = numericType p' s' → s ≠ s' →
      (p = 0 ∨ s ≤ s' ∧ p - s ≤ p' - s') → Unseen a b

theorem IsInteger.name_ne (h : IsInteger t) : t.name ≠ "numeric" := by
  rcases h with rfl | rfl | rfl <;> decide

theorem IsCharacter.name_ne (h : IsCharacter t) : t.name ≠ "numeric" := by
  rcases h with ⟨length, rfl⟩ | rfl
  · simp
  · decide

theorem IsInteger.exists_rank (h : IsInteger t) : ∃ k, integerRank t.name = some k := by
  rcases h with rfl | rfl | rfl
  exacts [⟨0, rfl⟩, ⟨1, rfl⟩, ⟨2, rfl⟩]

theorem IsInteger.eq_of_rank (ha : IsInteger a) (hb : IsInteger b)
    (h : integerRank a.name = integerRank b.name) : a = b := by
  rcases ha with rfl | rfl | rfl <;> rcases hb with rfl | rfl | rfl <;>
    first | rfl | exact absurd h (by decide)

/-- Integers that hold others widen them. -/
theorem widens_of_integer (ha : IsInteger a) (hb : IsInteger b) (hne : a ≠ b)
    (h : a.values others ⊆ b.values others) : Widens a b := by
  obtain ⟨i, hi⟩ := ha.exists_rank
  obtain ⟨j, hj⟩ := hb.exists_rank
  rw [values_integer hi, values_integer hj, signedRange_subset_iff] at h
  refine .integer hi hj (lt_of_le_of_ne ?_ ?_)
  · have hpos : 0 < 2 ^ i := Nat.pow_pos (by omega)
    exact (Nat.pow_le_pow_iff_right (by omega : 1 < 2)).1 (by omega)
  · rintro rfl
    exact hne (ha.eq_of_rank hb (hi.trans hj.symm))

/-- Texts that hold others widen them, unless they are unbounded
`character varying` after text. -/
theorem widens_of_character (ha : IsCharacter a) (hb : IsCharacter b) (hne : a ≠ b)
    (hseen : ¬ Unseen a b) (h : a.values others ⊆ b.values others) : Widens a b := by
  rcases ha with ⟨m, rfl⟩ | rfl <;> rcases hb with ⟨n, rfl⟩ | rfl
  · rw [values_character rfl, values_character rfl, texts_subset_iff] at h
    refine .character rfl rfl hne fun k hk => ?_
    obtain ⟨j, hj, rfl⟩ := Option.map_eq_some_iff.1 hk
    obtain ⟨i, hi, hij⟩ := h j hj
    exact ⟨i, by rw [hi]; rfl, by simpa using hij⟩
  · exact .text rfl rfl
  · rcases n with _ | n
    · exact absurd (.text rfl rfl) hseen
    · rw [values_text rfl, values_character rfl] at h
      obtain ⟨i, hi, -⟩ := (texts_subset_iff (m := none) (n := some n)).1 h n rfl
      cases hi
  · exact absurd rfl hne

/-- Decimals that hold others widen them, unless the scale differs. -/
theorem widens_of_numeric (ha : IsNumeric a) (hb : IsNumeric b) (hne : a ≠ b)
    (hseen : ¬ Unseen a b) (h : a.values others ⊆ b.values others) : Widens a b := by
  have hinj : Function.Injective PgValue.num := fun _ _ h => PgValue.num.inj h
  rcases hb with ⟨p', s', hs', hsp', rfl⟩ | rfl
  · rcases ha with ⟨p, s, hs, hsp, rfl⟩ | rfl
    · rw [values_numeric rfl, values_numeric rfl] at h
      have h := (Set.image_subset_image_iff hinj).1 h
      have hdigits := (decimals_subset_iff (hs.trans hsp)).1 h
      by_cases hscale : s = s'
      · refine .numeric rfl rfl hne fun j hj => ⟨congrArg some hscale, p, rfl, ?_⟩
        cases hj
        omega
      · exact absurd (.scale rfl rfl hscale hdigits) hseen
    · rw [values_numeric rfl, values_numeric rfl] at h
      have h := (Set.image_subset_image_iff hinj).1 h
      exact absurd h (not_allDecimals_subset _ _)
  · have hname : a.name = "numeric" := by
      rcases ha with ⟨p, s, -, -, rfl⟩ | rfl <;> rfl
    exact .numeric hname rfl hne fun j hj => by cases hj

/-- The types after hold what those before do all the same. -/
theorem Unseen.values_subset (hfam : SameFamily a b) (h : Unseen a b) :
    a.values others ⊆ b.values others ∧ ¬ Widens a b := by
  rcases h with ⟨rfl, rfl⟩ | ⟨rfl, rfl, hscale, hdigits⟩
  · rw [values_text rfl, values_character rfl]
    refine ⟨subset_rfl, fun hw => ?_⟩
    rcases hw with ⟨hrank, -, -⟩ | ⟨hname, -, -, -⟩ | ⟨hname, -⟩ | ⟨hname, -, -, -⟩
    · cases hrank
    all_goals exact absurd hname (by decide)
  · rename_i p s p' s'
    have hp : 0 ≤ p := by
      rcases hfam with ⟨h, -⟩ | ⟨h, -⟩ | ⟨h, -⟩
      · exact absurd rfl h.name_ne
      · exact absurd rfl h.name_ne
      · rcases h with ⟨p₀, s₀, hs, hsp, heq⟩ | heq
        · have hprecision : p = p₀ := Option.some.inj (congrArg CanonicalType.precision heq)
          omega
        · cases congrArg CanonicalType.precision heq
    rw [values_numeric rfl, values_numeric rfl]
    refine ⟨Set.image_mono ((decimals_subset_iff hp).2 hdigits), fun hw => ?_⟩
    have hname : (numericType p s).name ≠ "character varying" := by simp [numericType]
    rcases hw with ⟨hrank, -, -⟩ | ⟨h, -, -, -⟩ | ⟨h, -⟩ | ⟨-, -, -, hprecision⟩
    · cases hrank
    · exact absurd h hname
    · exact absurd h hname
    · exact hscale (Option.some.inj (hprecision p' rfl).1)

/-- **A widening of one family is not called breaking**, but where the
policy does not see it. -/
theorem widening_not_breaking_iff (others : CanonicalType → Set PgValue) (hfam : SameFamily a b)
    (hne : a ≠ b) :
    (a.values others ⊆ b.values others → (classifyTypeChange a b).severity ≠ .breaking) ↔
      ¬ Unseen a b := by
  constructor
  · intro h hunseen
    obtain ⟨hsub, hw⟩ : a.values others ⊆ b.values others ∧ ¬ Widens a b :=
      hunseen.values_subset hfam
    exact h hsub (breaking_iff_not_widens.2 ⟨hne, hw⟩)
  · intro hseen hsub hbreaking
    refine (breaking_iff_not_widens.1 hbreaking).2 ?_
    rcases hfam with ⟨ha, hb⟩ | ⟨ha, hb⟩ | ⟨ha, hb⟩
    · exact widens_of_integer ha hb hne hsub
    · exact widens_of_character ha hb hne hseen hsub
    · exact widens_of_numeric ha hb hne hseen hsub

theorem widening_not_breaking_iff_sample :
    (CanonicalType.values (fun _ => ∅) (numericType 10 2) ⊆
        CanonicalType.values (fun _ => ∅) (numericType 12 2) →
      (classifyTypeChange (numericType 10 2) (numericType 12 2)).severity ≠ .breaking) ↔
      ¬ Unseen (numericType 10 2) (numericType 12 2) :=
  widening_not_breaking_iff (fun _ => ∅)
    (Or.inr (Or.inr ⟨Or.inl ⟨10, 2, by decide, by decide, rfl⟩,
      Or.inl ⟨12, 2, by decide, by decide, rfl⟩⟩)) (by decide)

/-- **Two more digits behind the point break**, though none is lost before
it. -/
theorem scale_widening_breaks : SameFamily (numericType 10 2) (numericType 12 4) ∧
    numericType 10 2 ≠ numericType 12 4 ∧
    CanonicalType.values (fun _ => ∅) (numericType 10 2) ⊆
      CanonicalType.values (fun _ => ∅) (numericType 12 4) ∧
    (classifyTypeChange (numericType 10 2) (numericType 12 4)).severity = .breaking := by
  have hfam : SameFamily (numericType 10 2) (numericType 12 4) :=
    Or.inr (Or.inr ⟨Or.inl ⟨10, 2, by decide, by decide, rfl⟩,
      Or.inl ⟨12, 4, by decide, by decide, rfl⟩⟩)
  have hunseen : Unseen (numericType 10 2) (numericType 12 4) :=
    .scale rfl rfl (by decide) (Or.inr (by decide))
  exact ⟨hfam, by decide, (hunseen.values_subset hfam).1, by decide⟩

/-! ## The order of the warnings -/

/-- A row of the information schema, as far as its type goes. -/
structure TypeRow where
  dataType : String
  udtName : String
  characterMaximumLength : Option ℤ
  numericPrecision : Option ℤ
  numericScale : Option ℤ

/-- A row with a precision and a scale, or without both. -/
def PairedRow : Type :=
  {row : TypeRow // row.numericPrecision.isSome = row.numericScale.isSome}

section Ordered

variable [PyText]

/-- The type of a row. -/
def PairedRow.canonical (row : PairedRow) : CanonicalType :=
  canonicalizePostgresType row.1.dataType row.1.udtName row.1.characterMaximumLength
    row.1.numericPrecision row.1.numericScale

/-- The change from one row's type to another's is a warning. -/
def Warns (x y : PairedRow) : Prop :=
  (classifyTypeChange x.canonical y.canonical).severity = .warning

/-- The types of rows: `character varying` has a length at most, and
`numeric` a precision and a scale at most, both or none. -/
structure CanonicalType.OfRow (t : CanonicalType) : Prop where
  character : t.name = "character varying" → t = { name := t.name, length := t.length }
  numeric : t.name = "numeric" →
    t = { name := t.name, precision := t.precision, scale := t.scale } ∧
      t.precision.isSome = t.scale.isSome

theorem PairedRow.ofRow (row : PairedRow) : row.canonical.OfRow := by
  have hcases : ∀ (name : String) (length precision scale : Option ℤ),
      precision.isSome = scale.isSome →
      CanonicalType.OfRow (if name ∈ ["character", "character varying", "bit", "bit varying"] then
        { name := name, length := length }
      else if name = "numeric" then { name := name, precision := precision, scale := scale }
      else { name := name }) := by
    intro name length precision scale hpaired
    split
    · rename_i hmem
      refine ⟨fun _ => rfl, fun hname => ?_⟩
      subst hname
      exact absurd hmem (by decide)
    · split
      · rename_i hnumeric
        exact ⟨fun hname => absurd (hname.symm.trans hnumeric) (by decide), fun _ => ⟨rfl, hpaired⟩⟩
      · exact ⟨fun _ => rfl, fun _ => ⟨rfl, rfl⟩⟩
  exact hcases _ _ _ _ row.2

omit [PyText] in
/-- No two types widen each other. -/
theorem Widens.asymm (ha : a.OfRow) (hb : b.OfRow) (h : Widens a b) : ¬ Widens b a := by
  intro h'
  have hchar : integerRank "character varying" = none := rfl
  have hnum : integerRank "numeric" = none := rfl
  rcases h with ⟨hi, hj, hlt⟩ | ⟨hna, hnb, hne, hlength⟩ | ⟨hna, hnb⟩ |
    ⟨hna, hnb, hne, hprecision⟩ <;>
  rcases h' with ⟨hj', hi', hlt'⟩ | ⟨hnb', hna', -, hlength'⟩ | ⟨hnb', hna'⟩ |
    ⟨hnb', hna', -, hprecision'⟩
  case integer.integer =>
    rw [hi] at hi'
    rw [hj] at hj'
    cases hi'
    cases hj'
    omega
  case character.character =>
    refine hne ?_
    have hsame : a.length = b.length := by
      rcases hal : a.length with _ | i <;> rcases hbl : b.length with _ | j
      · rfl
      · obtain ⟨y, hy, -⟩ := hlength j hbl
        rw [hal] at hy
        cases hy
      · obtain ⟨y, hy, -⟩ := hlength' i hal
        rw [hbl] at hy
        cases hy
      · obtain ⟨y, hy, hle⟩ := hlength j hbl
        obtain ⟨z, hz, hle'⟩ := hlength' i hal
        rw [hal] at hy
        rw [hbl] at hz
        cases hy
        cases hz
        rw [le_antisymm hle hle']
    rw [ha.character hna, hb.character hnb, hna, hnb, hsame]
  case numeric.numeric =>
    refine hne ?_
    obtain ⟨haEq, haPaired⟩ := ha.numeric hna
    obtain ⟨hbEq, hbPaired⟩ := hb.numeric hnb
    have hsame : a.precision = b.precision ∧ a.scale = b.scale := by
      rcases hap : a.precision with _ | i <;> rcases hbp : b.precision with _ | j
      · rw [hap] at haPaired
        rw [hbp] at hbPaired
        exact ⟨rfl, (Option.isNone_iff_eq_none.1 (by simpa using haPaired.symm)).trans
          (Option.isNone_iff_eq_none.1 (by simpa using hbPaired.symm)).symm⟩
      · obtain ⟨-, y, hy, -⟩ := hprecision j hbp
        rw [hap] at hy
        cases hy
      · obtain ⟨-, y, hy, -⟩ := hprecision' i hap
        rw [hbp] at hy
        cases hy
      · obtain ⟨hscale, y, hy, hle⟩ := hprecision j hbp
        obtain ⟨-, z, hz, hle'⟩ := hprecision' i hap
        rw [hap] at hy
        rw [hbp] at hz
        cases hy
        cases hz
        rw [le_antisymm hle hle']
        exact ⟨rfl, hscale⟩
    rw [haEq, hbEq, hna, hnb, hsame.1, hsame.2]
  all_goals simp_all

omit [PyText] in
/-- Widening twice is widening. -/
theorem Widens.trans (ha : a.OfRow) (hb : b.OfRow) (hab : Widens a b) (hbc : Widens b c) :
    Widens a c := by
  have hne : a ≠ c := by
    rintro rfl
    exact hab.asymm ha hb hbc
  have hchar : integerRank "character varying" = none := rfl
  have htext : integerRank "text" = none := rfl
  have hnum : integerRank "numeric" = none := rfl
  rcases hab with ⟨hi, hj, hlt⟩ | ⟨hna, hnb, -, hlength⟩ | ⟨hna, hnb⟩ |
    ⟨hna, hnb, -, hprecision⟩ <;>
  rcases hbc with ⟨hj', hk, hlt'⟩ | ⟨hnb', hnc, -, hlength'⟩ | ⟨hnb', hnc⟩ |
    ⟨hnb', hnc, -, hprecision'⟩
  case integer.integer =>
    rw [hj] at hj'
    cases hj'
    exact .integer hi hk (by omega)
  case character.character =>
    refine .character hna hnc hne fun k hk => ?_
    obtain ⟨j, hj, hjk⟩ := hlength' k hk
    obtain ⟨i, hi, hij⟩ := hlength j hj
    exact ⟨i, hi, by omega⟩
  case character.text => exact .text hna hnc
  case numeric.numeric =>
    refine .numeric hna hnc hne fun k hk => ?_
    obtain ⟨hscale', j, hj, hjk⟩ := hprecision' k hk
    obtain ⟨hscale, i, hi, hij⟩ := hprecision j hj
    exact ⟨hscale.trans hscale', i, hi, by omega⟩
  all_goals simp_all

/-- **The changes the policy warns of order the types of rows strictly**:
none goes from a type to itself, none is undone by another, which breaks,
and two in turn are one. So no change that breaks is made of changes that
do not. -/
theorem widening_ordered :
    (∀ x : PairedRow, ¬ Warns x x) ∧
    (∀ x y : PairedRow, Warns x y → ¬ Warns y x ∧
      (classifyTypeChange y.canonical x.canonical).severity = .breaking) ∧
    (∀ x y z : PairedRow, Warns x y → Warns y z → Warns x z) ∧
    ∀ x y : PairedRow, Relation.TransGen Warns x y →
      (classifyTypeChange x.canonical y.canonical).severity ≠ .breaking := by
  have htrans : ∀ x y z : PairedRow, Warns x y → Warns y z → Warns x z := by
    intro x y z hxy hyz
    exact warning_iff_widens.2 ((warning_iff_widens.1 hxy).trans x.ofRow y.ofRow
      (warning_iff_widens.1 hyz))
  refine ⟨fun x hx => (warning_iff_widens.1 hx).ne rfl, fun x y hxy => ?_, htrans,
    fun x y hchain => ?_⟩
  · have hw := warning_iff_widens.1 hxy
    have hnot := hw.asymm x.ofRow y.ofRow
    exact ⟨fun hyx => hnot (warning_iff_widens.1 hyx),
      breaking_iff_not_widens.2 ⟨hw.ne.symm, hnot⟩⟩
  · have hwarns : Warns x y := by
      induction hchain with
      | single h => exact h
      | tail _ h ih => exact htrans _ _ _ ih h
    rw [hwarns]
    exact fun h => (by cases h)

end Ordered

end SchemaSentry
