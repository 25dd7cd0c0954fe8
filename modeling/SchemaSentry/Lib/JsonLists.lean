import SchemaSentry.Lib.Json
/-!
# Lists of JSON objects

A list of objects, as `json.dumps` writes it, is read in one way
(`itemsText_append_inj`): an object's text ends with the brace that closes
it, so a comma after it is the list's own.
-/

namespace Lib.Json

/-! ## Lists of objects -/

/-- **An object's text is read in one way**, whatever follows it. -/
theorem renderObj_append_inj {fs gs : JsonObject} {s t : List Char}
    (h : render (.obj fs) ++ s = render (.obj gs) ++ t) : fs = gs ∧ s = t := by
  rcases fs with _ | ⟨f, fs⟩
  · rcases gs with _ | ⟨⟨key, value⟩, gs⟩
    · simpa [render] using h
    · simp [render, renderField, quote] at h
  · rcases gs with _ | ⟨g, gs⟩
    · obtain ⟨key, value⟩ := f
      simp [render, renderField, quote] at h
    · simp only [render, List.cons_append, List.append_assoc, List.cons.injEq, true_and] at h
      obtain ⟨hfg, hrest⟩ :=
        renderField_append_inj f g (stops_renderRest fs s) (stops_renderRest gs t) h
      obtain ⟨hfs, hst⟩ := renderRest_append_inj fs gs hrest
      exact ⟨by rw [hfg, hfs], hst⟩

/-- An object's text opens with a brace. -/
theorem renderObj_eq_cons (fs : JsonObject) : ∃ l, render (.obj fs) = '\x7b' :: l := by
  rcases fs with _ | ⟨f, fs⟩
  · exact ⟨_, rfl⟩
  · exact ⟨_, rfl⟩

/-- The objects of a list, up to its bracket. -/
def itemsText (items : List JsonObject) : List Char :=
  List.intercalate [','] (items.map fun fields => render (.obj fields)) ++ [']']

theorem itemsText_cons_cons (x y : JsonObject) (rest : List JsonObject) :
    itemsText (x :: y :: rest) = render (.obj x) ++ ',' :: itemsText (y :: rest) := by
  unfold itemsText
  simp only [List.map_cons, List.intercalate_cons_cons, List.append_assoc, List.cons_append,
    List.nil_append]

/-- **A list of objects is read in one way.** -/
theorem itemsText_append_inj {xs ys : List JsonObject} {s t : List Char}
    (h : itemsText xs ++ s = itemsText ys ++ t) : xs = ys ∧ s = t := by
  have hone : ∀ x : JsonObject, itemsText [x] = render (.obj x) ++ [']'] := fun x => by
    unfold itemsText
    rw [List.map_singleton, List.intercalate_singleton]
  have hbracket : ∀ (ys : List JsonObject) (y : JsonObject) (t : List Char),
      ∃ l, itemsText (y :: ys) ++ t = '\x7b' :: l := by
    intro ys y t
    obtain ⟨l, hl⟩ := renderObj_eq_cons y
    rcases ys with _ | ⟨y', ys⟩
    · rw [hone, hl]
      exact ⟨_, rfl⟩
    · rw [itemsText_cons_cons, hl]
      exact ⟨_, rfl⟩
  induction xs generalizing ys with
  | nil =>
    rcases ys with _ | ⟨y, ys⟩
    · exact ⟨rfl, (List.cons.inj h).2⟩
    · obtain ⟨l, hl⟩ := hbracket ys y t
      rw [hl] at h
      exact absurd (List.cons.inj h).1 (by decide)
  | cons x xs ih =>
    rcases ys with _ | ⟨y, ys⟩
    · obtain ⟨l, hl⟩ := hbracket xs x s
      rw [hl] at h
      exact absurd (List.cons.inj h).1 (by decide)
    · -- the first objects are the same, and what follows tells whether there are more
      rcases xs with _ | ⟨x', xs⟩
      · rcases ys with _ | ⟨y', ys⟩
        · rw [hone, hone, List.append_assoc, List.append_assoc] at h
          obtain ⟨rfl, hrest⟩ := renderObj_append_inj h
          exact ⟨rfl, (List.cons.inj hrest).2⟩
        · rw [hone, itemsText_cons_cons, List.append_assoc, List.append_assoc] at h
          obtain ⟨-, hrest⟩ := renderObj_append_inj h
          exact absurd (List.cons.inj hrest).1 (by decide)
      · rcases ys with _ | ⟨y', ys⟩
        · rw [hone, itemsText_cons_cons, List.append_assoc, List.append_assoc] at h
          obtain ⟨-, hrest⟩ := renderObj_append_inj h
          exact absurd (List.cons.inj hrest).1 (by decide)
        · rw [itemsText_cons_cons, itemsText_cons_cons, List.append_assoc, List.append_assoc] at h
          obtain ⟨rfl, hrest⟩ := renderObj_append_inj h
          obtain ⟨heq, hst⟩ := ih (List.cons.inj hrest).2
          exact ⟨by rw [heq], hst⟩

/-! ## Objects with sorted keys -/

/-- The fields of an entry in the order of their keys. -/
def sortedFields (fields : JsonObject) : JsonObject :=
  (sortFields fields).insertionSort fun f g => f.1 ≤ g.1

/-- What a key's text is in both of two objects that are one up to order. -/
theorem str_of_sortedFields {fs gs : JsonObject} (hf : (Dict.keys fs).Nodup)
    (hg : (Dict.keys gs).Nodup) (h : sortedFields fs = sortedFields gs) (key : String)
    {a b : String} (ha : Dict.get? key fs = some (.str a)) (hb : Dict.get? key gs = some (.str b)) :
    a = b := by
  have hsorted : sortKeys (.obj fs) = sortKeys (.obj gs) := congrArg Json.obj h
  have hget := get?_of_sortKeys_eq hf hg hsorted key
  rw [ha, hb] at hget
  simpa [sortKeys] using hget

end Lib.Json
