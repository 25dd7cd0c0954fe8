import SchemaSentry.Domain.DiffExact
/-!
# Schema Sentry — promoting a difference

What accepting a difference makes of its column, as a function of the
definition the baseline gives it. Whatever the difference is, no difference
of its column is left afterwards (`mem_diffColumns_promoted`): a column
whose type and nullability both changed loses both differences by the
acceptance of either. So each difference can still be promoted after others
of its column, and then changes nothing the diff compares
(`shape_promote`).
-/

namespace SchemaSentry

/-- What accepting a change makes of its column: an addition is put where
nothing is, a removal leaves nothing, and any other change writes the type,
the nullability and the default it saw. -/
def SchemaChange.promote (c : SchemaChange) (column : Option ColumnDefinition) :
    Option ColumnDefinition :=
  match c.changeType with
  | .addColumn => column <|> c.after
  | .dropColumn => none
  | _ => column.bind fun b => c.after.map fun a =>
      { b with dataType := a.dataType, nullable := a.nullable, default := a.default }

variable {expected expected' observed : List ColumnDefinition} {dependencies : List ColumnRef}
variable {c e : SchemaChange}

/-- **What a promotion writes** is what the change saw. -/
theorem written_of_promote {a p : ColumnDefinition} {column : Option ColumnDefinition}
    (ha : c.after = some a) (hadd : c.changeType = .addColumn → column = none)
    (h : c.promote column = some p) :
    p.dataType = a.dataType ∧ p.nullable = a.nullable ∧ p.default = a.default := by
  rw [SchemaChange.promote] at h
  split at h
  · rename_i htype
    rw [hadd htype, ha] at h
    cases h
    exact ⟨rfl, rfl, rfl⟩
  · cases h
  · obtain ⟨b, -, hb⟩ := Option.bind_eq_some_iff.1 h
    rw [ha] at hb
    cases hb
    exact ⟨rfl, rfl, rfl⟩

/-- A column has no difference once one of its differences is promoted. -/
theorem compareColumn_promote (he : e ∈ diffColumns expected observed dependencies) :
    compareColumn e.ref (e.promote (columnAt expected e.ref)) (columnAt observed e.ref)
      dependencies = [] := by
  have hsame : ∀ b a : ColumnDefinition, b.ref = e.ref → b.dataType = a.dataType →
      b.nullable = a.nullable → compareColumn e.ref (some b) (some a) dependencies = [] := by
    intro b a hb htype hnull
    rw [compareColumn_both hb]
    simp [htype, hnull]
  rcases (mem_compareColumn ref_of_columnAt).1 (mem_diffColumns.1 he) with
    ⟨a, hb, ha, heq⟩ | ⟨b, hb, ha, heq⟩ | ⟨b, a, hb, ha, -, heq⟩ | ⟨b, a, hb, ha, -, heq⟩
  · have hpromote : e.promote none = some a := by rw [heq]; rfl
    rw [hb, ha, hpromote]
    exact hsame a a (ref_of_columnAt a ha) rfl rfl
  · have hpromote : e.promote (some b) = none := by rw [heq]; rfl
    rw [hb, ha, hpromote, compareColumn_neither]
  all_goals
    have hpromote : e.promote (some b) = some
        { b with dataType := a.dataType, nullable := a.nullable, default := a.default } := by
      rw [heq]
      rfl
    rw [hb, ha, hpromote]
    exact hsame _ a (ref_of_columnAt b hb) rfl rfl

/-- **Promoting a difference settles its column** and no other. -/
theorem mem_diffColumns_promoted
    (hpromoted : ∀ ref, columnAt expected' ref =
      if ref = e.ref then e.promote (columnAt expected ref) else columnAt expected ref)
    (he : e ∈ diffColumns expected observed dependencies) :
    c ∈ diffColumns expected' observed dependencies ↔
      c ∈ diffColumns expected observed dependencies ∧ c.ref ≠ e.ref := by
  rw [mem_diffColumns, mem_diffColumns, hpromoted]
  by_cases href : c.ref = e.ref
  · rw [if_pos href, href, compareColumn_promote he]
    simp
  · rw [if_neg href]
    exact (and_iff_left href).symm

/-- The column a difference is of differs both in type and in nullability. -/
def DiffersTwice (expected observed : List ColumnDefinition) (ref : ColumnRef) : Prop :=
  ∃ b a, columnAt expected ref = some b ∧ columnAt observed ref = some a ∧
    b.dataType ≠ a.dataType ∧ b.nullable ≠ a.nullable

/-- **A column has a second difference** exactly where it differs both in
type and in nullability. -/
theorem exists_other_iff (he : e ∈ diffColumns expected observed dependencies) :
    (∃ c ∈ diffColumns expected observed dependencies, c.ref = e.ref ∧ c ≠ e) ↔
      DiffersTwice expected observed e.ref := by
  constructor
  · rintro ⟨c, hc, href, hne⟩
    have hc' := mem_diffColumns.1 hc
    rw [href] at hc'
    rcases (mem_compareColumn ref_of_columnAt).1 (mem_diffColumns.1 he) with
      ⟨a, hb, ha, heq⟩ | ⟨b, hb, ha, heq⟩ | ⟨b, a, hb, ha, htype, heq⟩ |
      ⟨b, a, hb, ha, hnull, heq⟩ <;>
    rcases (mem_compareColumn ref_of_columnAt).1 hc' with
      ⟨a', hb', ha', heq'⟩ | ⟨b', hb', ha', heq'⟩ | ⟨b', a', hb', ha', htype', heq'⟩ |
      ⟨b', a', hb', ha', hnull', heq'⟩ <;>
    simp_all [DiffersTwice]
  · rintro ⟨b, a, hb, ha, htype, hnull⟩
    have hbref := ref_of_columnAt b hb
    have hmem : ∀ c, c ∈ compareColumn e.ref (some b) (some a) dependencies → c.ref = e.ref →
        c ∈ diffColumns expected observed dependencies := by
      intro c hc href
      rw [mem_diffColumns, href, hb, ha]
      exact hc
    have hretype : SchemaChange.retype b a ∈ diffColumns expected observed dependencies :=
      hmem _ (by rw [compareColumn_both hbref]; simp [htype]) hbref
    have hrenull : SchemaChange.renull b a dependencies ∈
        diffColumns expected observed dependencies :=
      hmem _ (by rw [compareColumn_both hbref]; simp [hnull]) hbref
    by_cases hkind : e = .retype b a
    · refine ⟨_, hrenull, hbref, fun h => ?_⟩
      have := congrArg SchemaChange.changeType (h.trans hkind)
      cases this
    · exact ⟨_, hretype, hbref, fun h => hkind h.symm⟩

/-! ## Promoting the differences one by one -/

/-- What the diff compares of a list's definition of a reference. -/
def shapeAt (columns : List ColumnDefinition) (ref : ColumnRef) :
    Option (ColumnRef × CanonicalType × Bool) :=
  (columnAt columns ref).map ColumnDefinition.shape

/-- Two definitions of a reference differ exactly in what is compared. -/
theorem compareColumn_eq_nil_iff {ref : ColumnRef} {before after : Option ColumnDefinition}
    (hbefore : ∀ b ∈ before, b.ref = ref) (hafter : ∀ a ∈ after, a.ref = ref) :
    compareColumn ref before after dependencies = [] ↔
      before.map ColumnDefinition.shape = after.map ColumnDefinition.shape := by
  cases before with
  | none => cases after <;> simp
  | some b =>
    have hb := hbefore b rfl
    cases after with
    | none => simp [compareColumn_drop hb]
    | some a =>
      have ha := hafter a rfl
      simp only [compareColumn_both hb, ColumnDefinition.shape, Option.map_some, hb, ha]
      by_cases htype : b.dataType = a.dataType <;> by_cases hnull : b.nullable = a.nullable <;>
        simp [htype, hnull]

/-- **A reference has a difference** exactly where the lists' definitions of
it differ in what is compared. -/
theorem exists_difference_iff {ref : ColumnRef} :
    (∃ e ∈ diffColumns expected observed dependencies, e.ref = ref) ↔
      shapeAt expected ref ≠ shapeAt observed ref := by
  rw [shapeAt, shapeAt, Ne,
    ← compareColumn_eq_nil_iff ref_of_columnAt ref_of_columnAt]
  constructor
  · rintro ⟨e, he, rfl⟩ hnil
    have hmem := mem_diffColumns.1 he
    rw [hnil] at hmem
    cases hmem
  · intro hne
    obtain ⟨e, he⟩ := List.exists_mem_of_ne_nil _ hne
    have href := (of_mem_compareColumn ref_of_columnAt ref_of_columnAt he).1
    exact ⟨e, mem_diffColumns.2 (by rw [href]; exact he), href⟩

/-- Lists that give every reference one shape have no differences. -/
theorem diffColumns_eq_nil_of_shapeAt (h : ∀ ref, shapeAt expected ref = shapeAt observed ref) :
    diffColumns expected observed dependencies = [] := by
  by_contra hne
  obtain ⟨e, he⟩ := List.exists_mem_of_ne_nil _ hne
  exact exists_difference_iff.1 ⟨e, he, rfl⟩ (h e.ref)

/-- **A difference promoted** after others of its column leaves the shape
observed, as it does when it is promoted first. -/
theorem shape_promote (he : e ∈ diffColumns expected observed dependencies)
    {column : Option ColumnDefinition}
    (hcolumn : column = columnAt expected e.ref ∨
      column.map ColumnDefinition.shape = shapeAt observed e.ref) :
    (e.promote column).map ColumnDefinition.shape = shapeAt observed e.ref := by
  rw [shapeAt] at hcolumn ⊢
  rcases (mem_compareColumn ref_of_columnAt).1 (mem_diffColumns.1 he) with
    ⟨a, hb, ha, heq⟩ | ⟨b, hb, ha, heq⟩ | ⟨b, a, hb, ha, -, heq⟩ | ⟨b, a, hb, ha, -, heq⟩
  · have hpromote : ∀ x, e.promote x = (x <|> some a) := by
      rw [heq]
      exact fun x => rfl
    rw [hpromote, ha]
    rw [hb, ha] at hcolumn
    cases column with
    | none => rfl
    | some x => exact hcolumn.resolve_left (by simp)
  · have hpromote : ∀ x, e.promote x = none := by
      rw [heq]
      exact fun x => rfl
    rw [hpromote, ha, Option.map_none]
  all_goals
    have hpromote : ∀ x, e.promote (some x) = some
        { x with dataType := a.dataType, nullable := a.nullable, default := a.default } := by
      rw [heq]
      exact fun x => rfl
    -- before or after the column's other difference, there is a definition to change
    obtain ⟨x, rfl, href⟩ : ∃ x, column = some x ∧ x.ref = a.ref := by
      have hrefs : b.ref = a.ref := (ref_of_columnAt b hb).trans (ref_of_columnAt a ha).symm
      rw [hb, ha] at hcolumn
      rcases hcolumn with rfl | hshape
      · exact ⟨b, rfl, hrefs⟩
      · obtain ⟨x, rfl, hx⟩ := Option.map_eq_some_iff.1 hshape
        exact ⟨x, rfl, congrArg Prod.fst hx⟩
    rw [hpromote, ha]
    exact congrArg (fun ref => some (ref, a.dataType, a.nullable)) href

end SchemaSentry
