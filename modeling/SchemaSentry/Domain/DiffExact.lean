import SchemaSentry.Domain.Diff
import SchemaSentry.Lib.Sorted
/-!
# Schema Sentry — the diff is exact

Of two lists of columns that name no column twice the diff lists, once and
in the order of its sort key, the addition of every column only observed,
the removal of every column only expected, and of every column on both
sides the change of its type and the change of its nullability where there
is one (`diff_exact`). What order the columns come in, and what ordinals
and defaults they have, does not matter to it.
-/

namespace SchemaSentry

open Lib

variable {expected observed expected' observed' : List ColumnDefinition}
variable {dependencies dependencies' : List ColumnRef} {c d : SchemaChange}

/-- What the diff compares of a column: all but its default and its
ordinal. -/
def ColumnDefinition.shape (column : ColumnDefinition) : ColumnRef × CanonicalType × Bool :=
  (column.ref, column.dataType, column.nullable)

/-- What a difference says, of its columns their shapes only. -/
def SchemaChange.outline (c : SchemaChange) : ColumnRef × ChangeType × Severity ×
    Option (ColumnRef × CanonicalType × Bool) × Option (ColumnRef × CanonicalType × Bool) :=
  (c.ref, c.changeType, c.severity, c.before.map ColumnDefinition.shape,
    c.after.map ColumnDefinition.shape)

/-- What the diff of two lists lists, and in which order. -/
structure DiffExact (expected observed : List ColumnDefinition)
    (dependencies : List ColumnRef) : Prop where
  mem : ∀ c, c ∈ diffColumns expected observed dependencies ↔
    (∃ a ∈ observed, (∀ b ∈ expected, b.ref ≠ a.ref) ∧ c = .add a) ∨
    (∃ b ∈ expected, (∀ a ∈ observed, a.ref ≠ b.ref) ∧ c = .drop b dependencies) ∨
    (∃ b ∈ expected, ∃ a ∈ observed, a.ref = b.ref ∧ b.dataType ≠ a.dataType ∧
      c = .retype b a) ∨
    (∃ b ∈ expected, ∃ a ∈ observed, a.ref = b.ref ∧ b.nullable ≠ a.nullable ∧
      c = .renull b a dependencies)
  unique : ((diffColumns expected observed dependencies).map fun c =>
    (c.dataset, c.columnName, c.changeType)).Nodup
  increasing : (diffColumns expected observed dependencies).Pairwise fun c d =>
    changeSortKey c < changeSortKey d
  order : ∀ expected' observed' dependencies', expected.Perm expected' → observed.Perm observed' →
    (∀ ref, ref ∈ dependencies ↔ ref ∈ dependencies') →
      diffColumns expected' observed' dependencies' = diffColumns expected observed dependencies
  attributes : ∀ expected' observed',
    (expected.map ColumnDefinition.shape).Perm (expected'.map ColumnDefinition.shape) →
    (observed.map ColumnDefinition.shape).Perm (observed'.map ColumnDefinition.shape) →
      (diffColumns expected' observed' dependencies).map SchemaChange.outline =
        (diffColumns expected observed dependencies).map SchemaChange.outline
  empty : diffColumns expected observed dependencies = [] ↔
    ∀ shape, shape ∈ expected.map ColumnDefinition.shape ↔
      shape ∈ observed.map ColumnDefinition.shape

/-! ## What is listed -/

section Listed

variable (he : DistinctRefs expected) (ho : DistinctRefs observed)

include he ho

/-- **What the diff lists**, by membership in the two lists. -/
theorem mem_diffColumns_iff : c ∈ diffColumns expected observed dependencies ↔
    (∃ a ∈ observed, (∀ b ∈ expected, b.ref ≠ a.ref) ∧ c = .add a) ∨
    (∃ b ∈ expected, (∀ a ∈ observed, a.ref ≠ b.ref) ∧ c = .drop b dependencies) ∨
    (∃ b ∈ expected, ∃ a ∈ observed, a.ref = b.ref ∧ b.dataType ≠ a.dataType ∧
      c = .retype b a) ∨
    (∃ b ∈ expected, ∃ a ∈ observed, a.ref = b.ref ∧ b.nullable ≠ a.nullable ∧
      c = .renull b a dependencies) := by
  rw [mem_diffColumns_iff_exists]
  simp only [mem_compareColumn ref_of_columnAt, columnAt_eq_none_iff he, columnAt_eq_none_iff ho,
    columnAt_eq_some_iff he, columnAt_eq_some_iff ho]
  constructor
  · rintro ⟨ref, ⟨a, hnone, ⟨ha, rfl⟩, hc⟩ | ⟨b, ⟨hb, rfl⟩, hnone, hc⟩ |
      ⟨b, a, ⟨hb, rfl⟩, ⟨ha, href⟩, hne, hc⟩ | ⟨b, a, ⟨hb, rfl⟩, ⟨ha, href⟩, hne, hc⟩⟩
    · exact Or.inl ⟨a, ha, hnone, hc⟩
    · exact Or.inr (Or.inl ⟨b, hb, hnone, hc⟩)
    · exact Or.inr (Or.inr (Or.inl ⟨b, hb, a, ha, href, hne, hc⟩))
    · exact Or.inr (Or.inr (Or.inr ⟨b, hb, a, ha, href, hne, hc⟩))
  · rintro (⟨a, ha, hnone, hc⟩ | ⟨b, hb, hnone, hc⟩ | ⟨b, hb, a, ha, href, hne, hc⟩ |
      ⟨b, hb, a, ha, href, hne, hc⟩)
    · exact ⟨a.ref, Or.inl ⟨a, hnone, ⟨ha, rfl⟩, hc⟩⟩
    · exact ⟨b.ref, Or.inr (Or.inl ⟨b, ⟨hb, rfl⟩, hnone, hc⟩)⟩
    · exact ⟨b.ref, Or.inr (Or.inr (Or.inl ⟨b, a, ⟨hb, rfl⟩, ⟨ha, href⟩, hne, hc⟩))⟩
    · exact ⟨b.ref, Or.inr (Or.inr (Or.inr ⟨b, a, ⟨hb, rfl⟩, ⟨ha, href⟩, hne, hc⟩))⟩

/-- The diff is empty where the two sides agree on what it compares. -/
theorem diffColumns_eq_nil_iff : diffColumns expected observed dependencies = [] ↔
    ∀ shape, shape ∈ expected.map ColumnDefinition.shape ↔
      shape ∈ observed.map ColumnDefinition.shape := by
  simp only [List.eq_nil_iff_forall_not_mem, mem_diffColumns_iff he ho, List.mem_map]
  constructor
  · intro hnone shape
    constructor
    · rintro ⟨b, hb, rfl⟩
      -- no removal: the column is observed too, and nothing of it changed
      obtain ⟨a, ha, href⟩ : ∃ a ∈ observed, a.ref = b.ref := by
        by_contra hcon
        push Not at hcon
        exact hnone _ (Or.inr (Or.inl ⟨b, hb, hcon, rfl⟩))
      have htype : b.dataType = a.dataType := by
        by_contra hne
        exact hnone _ (Or.inr (Or.inr (Or.inl ⟨b, hb, a, ha, href, hne, rfl⟩)))
      have hnull : b.nullable = a.nullable := by
        by_contra hne
        exact hnone _ (Or.inr (Or.inr (Or.inr ⟨b, hb, a, ha, href, hne, rfl⟩)))
      exact ⟨a, ha, by rw [ColumnDefinition.shape, ColumnDefinition.shape, href, htype, hnull]⟩
    · rintro ⟨a, ha, rfl⟩
      obtain ⟨b, hb, href⟩ : ∃ b ∈ expected, b.ref = a.ref := by
        by_contra hcon
        push Not at hcon
        exact hnone _ (Or.inl ⟨a, ha, hcon, rfl⟩)
      have htype : b.dataType = a.dataType := by
        by_contra hne
        exact hnone _ (Or.inr (Or.inr (Or.inl ⟨b, hb, a, ha, href.symm, hne, rfl⟩)))
      have hnull : b.nullable = a.nullable := by
        by_contra hne
        exact hnone _ (Or.inr (Or.inr (Or.inr ⟨b, hb, a, ha, href.symm, hne, rfl⟩)))
      exact ⟨b, hb, by rw [ColumnDefinition.shape, ColumnDefinition.shape, href, htype, hnull]⟩
  · intro hsame c
    have hright : ∀ b ∈ expected, ∃ a ∈ observed, a.shape = b.shape :=
      fun b hb => (hsame b.shape).1 ⟨b, hb, rfl⟩
    have hleft : ∀ a ∈ observed, ∃ b ∈ expected, b.shape = a.shape :=
      fun a ha => (hsame a.shape).2 ⟨a, ha, rfl⟩
    -- a column on both sides is one observation and looks alike
    have hboth : ∀ b ∈ expected, ∀ a ∈ observed, a.ref = b.ref → a.shape = b.shape := by
      intro b hb a ha href
      obtain ⟨a', ha', hshape⟩ := hright b hb
      obtain rfl := List.inj_on_of_nodup_map ho ha ha' (href.trans (congrArg Prod.fst hshape).symm)
      exact hshape
    rintro (⟨a, ha, hnone, -⟩ | ⟨b, hb, hnone, -⟩ | ⟨b, hb, a, ha, href, hne, -⟩ |
      ⟨b, hb, a, ha, href, hne, -⟩)
    · obtain ⟨b, hb, hshape⟩ := hleft a ha
      exact hnone b hb (congrArg Prod.fst hshape)
    · obtain ⟨a, ha, hshape⟩ := hright b hb
      exact hnone a ha (congrArg Prod.fst hshape)
    · exact hne (congrArg (fun s => s.2.1) (hboth b hb a ha href)).symm
    · exact hne (congrArg (fun s => s.2.2) (hboth b hb a ha href)).symm

end Listed

/-! ## In which order -/

/-- The sort key is the column and the kind of the difference. -/
theorem changeSortKey_inj (h : changeSortKey c = changeSortKey d) :
    c.ref = d.ref ∧ c.changeType = d.changeType := by
  simp only [changeSortKey, EmbeddingLike.apply_eq_iff_eq, Prod.mk.injEq] at h
  obtain ⟨hschema, htable, hname, htype⟩ := h
  refine ⟨?_, ChangeType.value_inj htype⟩
  rw [SchemaChange.ref, SchemaChange.ref, hname]
  congr 1
  cases hc : c.dataset
  cases hd : d.dataset
  simp_all

/-- **The diff is strictly increasing** in its sort key. -/
theorem increasing_diffColumns (expected observed : List ColumnDefinition)
    (dependencies : List ColumnRef) :
    (diffColumns expected observed dependencies).Pairwise fun c d =>
      changeSortKey c < changeSortKey d := by
  have hnodup : (diffColumns expected observed dependencies).Nodup := nodup_diffColumns
  have hsorted : (diffColumns expected observed dependencies).Pairwise fun c d =>
      changeSortKey c ≤ changeSortKey d := pairwise_sort _
  refine (hsorted.and hnodup).imp_of_mem ?_
  intro c d hc hd hcd
  refine lt_of_le_of_ne hcd.1 fun heq => hcd.2 ?_
  obtain ⟨href, htype⟩ := changeSortKey_inj heq
  exact eq_of_mem_diffColumns hc hd href htype

/-- Two diffs that list the same differences are one list. -/
theorem diffColumns_eq_of_mem_iff (h : ∀ c, c ∈ diffColumns expected observed dependencies ↔
      c ∈ diffColumns expected' observed' dependencies') :
    diffColumns expected observed dependencies = diffColumns expected' observed' dependencies' :=
  eq_of_increasing (increasing_diffColumns _ _ _) (increasing_diffColumns _ _ _) h

/-! ## What does not matter -/

theorem DistinctRefs.perm (h : expected.Perm expected') (he : DistinctRefs expected) :
    DistinctRefs expected' :=
  (h.map ColumnDefinition.ref).nodup_iff.1 he

/-- The references a list names are those of its shapes. -/
theorem distinctRefs_iff_shape :
    DistinctRefs expected ↔ ((expected.map ColumnDefinition.shape).map Prod.fst).Nodup := by
  rw [List.map_map]
  rfl

/-- **Order does not matter**, of the columns or of the dependencies. -/
theorem diffColumns_congr (he : DistinctRefs expected) (ho : DistinctRefs observed)
    (hexpected : expected.Perm expected') (hobserved : observed.Perm observed')
    (hdeps : ∀ ref, ref ∈ dependencies ↔ ref ∈ dependencies') :
    diffColumns expected' observed' dependencies' =
      diffColumns expected observed dependencies := by
  refine diffColumns_eq_of_mem_iff fun c => ?_
  have hdrop : ∀ b : ColumnDefinition,
      SchemaChange.drop b dependencies' = .drop b dependencies := by
    intro b
    simp only [SchemaChange.drop, hdeps]
  have hrenull : ∀ b a : ColumnDefinition,
      SchemaChange.renull b a dependencies' = .renull b a dependencies := by
    intro b a
    simp only [SchemaChange.renull, hdeps]
  rw [mem_diffColumns_iff (he.perm hexpected) (ho.perm hobserved), mem_diffColumns_iff he ho]
  simp only [hexpected.mem_iff, hobserved.mem_iff, hdrop, hrenull]

theorem shape_eq_iff {a a' : ColumnDefinition} : a.shape = a'.shape ↔
    a.ref = a'.ref ∧ a.dataType = a'.dataType ∧ a.nullable = a'.nullable := by
  simp [ColumnDefinition.shape]

theorem outline_add {a a' : ColumnDefinition} (h : a.shape = a'.shape) :
    (SchemaChange.add a).outline = (SchemaChange.add a').outline := by
  obtain ⟨href, -, hnull⟩ := shape_eq_iff.1 h
  change (a.ref, ChangeType.addColumn, if a.nullable then Severity.info else .warning,
    none, some a.shape) = (a'.ref, ChangeType.addColumn,
    if a'.nullable then Severity.info else .warning, none, some a'.shape)
  rw [href, hnull, h]

theorem outline_drop {b b' : ColumnDefinition} (h : b.shape = b'.shape) :
    (SchemaChange.drop b dependencies).outline =
      (SchemaChange.drop b' dependencies).outline := by
  obtain ⟨href, -, -⟩ := shape_eq_iff.1 h
  change (b.ref, ChangeType.dropColumn,
    if b.ref ∈ dependencies then Severity.breaking else .warning, some b.shape, none) =
    (b'.ref, ChangeType.dropColumn,
      if b'.ref ∈ dependencies then Severity.breaking else .warning, some b'.shape, none)
  rw [href, h]

theorem outline_retype {b b' a a' : ColumnDefinition} (hb : b.shape = b'.shape)
    (ha : a.shape = a'.shape) :
    (SchemaChange.retype b a).outline = (SchemaChange.retype b' a').outline := by
  obtain ⟨href, hbt, -⟩ := shape_eq_iff.1 hb
  obtain ⟨-, hat, -⟩ := shape_eq_iff.1 ha
  change (b.ref, ChangeType.typeChange, (classifyTypeChange b.dataType a.dataType).severity,
    some b.shape, some a.shape) = (b'.ref, ChangeType.typeChange,
    (classifyTypeChange b'.dataType a'.dataType).severity, some b'.shape, some a'.shape)
  rw [href, hbt, hat, hb, ha]

theorem outline_renull {b b' a a' : ColumnDefinition} (hb : b.shape = b'.shape)
    (ha : a.shape = a'.shape) :
    (SchemaChange.renull b a dependencies).outline =
      (SchemaChange.renull b' a' dependencies).outline := by
  obtain ⟨href, -, hbn⟩ := shape_eq_iff.1 hb
  obtain ⟨-, -, han⟩ := shape_eq_iff.1 ha
  have hseverity : (SchemaChange.renull b a dependencies).severity =
      (SchemaChange.renull b' a' dependencies).severity := by
    rw [SchemaChange.renull, SchemaChange.renull, href, hbn, han]
  change (b.ref, ChangeType.nullabilityChange, (SchemaChange.renull b a dependencies).severity,
    some b.shape, some a.shape) = (b'.ref, ChangeType.nullabilityChange,
    (SchemaChange.renull b' a' dependencies).severity, some b'.shape, some a'.shape)
  rw [href, hseverity, hb, ha]

/-- A difference of two lists is, up to defaults and ordinals, one of any
two lists of the same shapes. -/
theorem exists_outline (he : DistinctRefs expected) (ho : DistinctRefs observed)
    (he' : DistinctRefs expected') (ho' : DistinctRefs observed')
    (hexpected : ∀ s, s ∈ expected.map ColumnDefinition.shape ↔
      s ∈ expected'.map ColumnDefinition.shape)
    (hobserved : ∀ s, s ∈ observed.map ColumnDefinition.shape ↔
      s ∈ observed'.map ColumnDefinition.shape)
    (hc : c ∈ diffColumns expected observed dependencies) :
    ∃ d ∈ diffColumns expected' observed' dependencies, d.outline = c.outline := by
  have hleft : ∀ b ∈ expected, ∃ b' ∈ expected', b'.shape = b.shape :=
    fun b hb => List.mem_map.1 ((hexpected b.shape).1 (List.mem_map_of_mem hb))
  have hright : ∀ a ∈ observed, ∃ a' ∈ observed', a'.shape = a.shape :=
    fun a ha => List.mem_map.1 ((hobserved a.shape).1 (List.mem_map_of_mem ha))
  simp only [mem_diffColumns_iff he' ho']
  rcases (mem_diffColumns_iff he ho).1 hc with ⟨a, ha, hnone, rfl⟩ | ⟨b, hb, hnone, rfl⟩ |
    ⟨b, hb, a, ha, href, hne, rfl⟩ | ⟨b, hb, a, ha, href, hne, rfl⟩
  · obtain ⟨a', ha', hshape⟩ := hright a ha
    refine ⟨.add a', Or.inl ⟨a', ha', ?_, rfl⟩, outline_add hshape⟩
    intro b' hb' href
    obtain ⟨b, hb, hbs⟩ := List.mem_map.1 ((hexpected b'.shape).2 (List.mem_map_of_mem hb'))
    exact hnone b hb (((congrArg Prod.fst hbs).trans href).trans (congrArg Prod.fst hshape))
  · obtain ⟨b', hb', hshape⟩ := hleft b hb
    refine ⟨.drop b' dependencies, Or.inr (Or.inl ⟨b', hb', ?_, rfl⟩), outline_drop hshape⟩
    intro a' ha' href
    obtain ⟨a, ha, has⟩ := List.mem_map.1 ((hobserved a'.shape).2 (List.mem_map_of_mem ha'))
    exact hnone a ha (((congrArg Prod.fst has).trans href).trans (congrArg Prod.fst hshape))
  · obtain ⟨b', hb', hbs⟩ := hleft b hb
    obtain ⟨a', ha', has⟩ := hright a ha
    refine ⟨.retype b' a', Or.inr (Or.inr (Or.inl ⟨b', hb', a', ha', ?_, ?_, rfl⟩)),
      outline_retype hbs has⟩
    · exact ((congrArg Prod.fst has).trans href).trans (congrArg Prod.fst hbs).symm
    · rw [show b'.dataType = b.dataType from congrArg (fun s => s.2.1) hbs,
        show a'.dataType = a.dataType from congrArg (fun s => s.2.1) has]
      exact hne
  · obtain ⟨b', hb', hbs⟩ := hleft b hb
    obtain ⟨a', ha', has⟩ := hright a ha
    refine ⟨.renull b' a' dependencies, Or.inr (Or.inr (Or.inr ⟨b', hb', a', ha', ?_, ?_, rfl⟩)),
      outline_renull hbs has⟩
    · exact ((congrArg Prod.fst has).trans href).trans (congrArg Prod.fst hbs).symm
    · rw [show b'.nullable = b.nullable from congrArg (fun s => s.2.2) hbs,
        show a'.nullable = a.nullable from congrArg (fun s => s.2.2) has]
      exact hne

/-- The sort key of an outline. -/
def outlineSortKey (o : ColumnRef × ChangeType × Severity ×
      Option (ColumnRef × CanonicalType × Bool) × Option (ColumnRef × CanonicalType × Bool)) :
    String ×ₗ (String ×ₗ (String ×ₗ String)) :=
  toLex (o.1.dataset.schema, toLex (o.1.dataset.table, toLex (o.1.name, o.2.1.value)))

theorem increasing_outlines (expected observed : List ColumnDefinition)
    (dependencies : List ColumnRef) :
    ((diffColumns expected observed dependencies).map SchemaChange.outline).Pairwise fun o o' =>
      outlineSortKey o < outlineSortKey o' :=
  List.pairwise_map.2 (increasing_diffColumns expected observed dependencies)

/-- **Defaults and ordinals do not matter**: lists of the same shapes have
the same differences, up to them. -/
theorem outline_diffColumns_congr (he : DistinctRefs expected) (ho : DistinctRefs observed)
    (hexpected : (expected.map ColumnDefinition.shape).Perm (expected'.map ColumnDefinition.shape))
    (hobserved : (observed.map ColumnDefinition.shape).Perm
      (observed'.map ColumnDefinition.shape)) :
    (diffColumns expected' observed' dependencies).map SchemaChange.outline =
      (diffColumns expected observed dependencies).map SchemaChange.outline := by
  have he' : DistinctRefs expected' :=
    distinctRefs_iff_shape.2 ((hexpected.map Prod.fst).nodup_iff.1 (distinctRefs_iff_shape.1 he))
  have ho' : DistinctRefs observed' :=
    distinctRefs_iff_shape.2 ((hobserved.map Prod.fst).nodup_iff.1 (distinctRefs_iff_shape.1 ho))
  refine eq_of_increasing (increasing_outlines _ _ _) (increasing_outlines _ _ _) fun o => ?_
  simp only [List.mem_map]
  constructor
  · rintro ⟨c, hc, rfl⟩
    exact exists_outline he' ho' he ho (fun s => hexpected.mem_iff.symm)
      (fun s => hobserved.mem_iff.symm) hc
  · rintro ⟨c, hc, rfl⟩
    exact exists_outline he ho he' ho' (fun s => hexpected.mem_iff) (fun s => hobserved.mem_iff) hc

/-! ## The diff -/

/-- **The diff is exact**: it lists what differs between two lists of
columns and nothing else, each difference once and in the order of its
sort key, whatever the order of the columns and of the dependencies and
whatever the columns' ordinals and defaults. -/
theorem diff_exact (he : DistinctRefs expected) (ho : DistinctRefs observed) :
    DiffExact expected observed dependencies where
  mem _ := mem_diffColumns_iff he ho
  unique := by
    refine List.Nodup.map_on ?_ nodup_diffColumns
    intro c hc d hd heq
    simp only [Prod.mk.injEq] at heq
    obtain ⟨hdataset, hname, htype⟩ := heq
    exact eq_of_mem_diffColumns hc hd (by rw [SchemaChange.ref, hdataset, hname]; rfl) htype
  increasing := increasing_diffColumns _ _ _
  order _ _ _ hexpected hobserved hdeps := diffColumns_congr he ho hexpected hobserved hdeps
  attributes _ _ hexpected hobserved := outline_diffColumns_congr he ho hexpected hobserved
  empty := diffColumns_eq_nil_iff he ho

/-- A column dropped, one retyped and made nullable, and one added. -/
theorem diff_exact_sample :
    DiffExact
      [⟨⟨"public", "orders"⟩, "id", ⟨"integer", none, none, none⟩, false, none, 1⟩,
       ⟨⟨"public", "orders"⟩, "total", ⟨"integer", none, none, none⟩, false, none, 2⟩]
      [⟨⟨"public", "orders"⟩, "total", ⟨"bigint", none, none, none⟩, true, none, 1⟩,
       ⟨⟨"public", "orders"⟩, "note", ⟨"text", none, none, none⟩, true, none, 2⟩]
      [⟨⟨"public", "orders"⟩, "total"⟩] :=
  diff_exact (by decide) (by decide)

end SchemaSentry
