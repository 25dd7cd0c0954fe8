import Mathlib.Data.List.Basic
/-!
# HTML text

What `html.escape` writes of a text, and how lines so written with `<br>`
between them are read. The `<br>`s are the only tags, whatever the lines say
(`pieces_render`), and the lines are read as they were (`lines_render`).
-/

namespace Lib.Html

/-! ## Escapes -/

/-- What `html.escape` writes of a character. -/
def escapeChar (c : Char) : List Char :=
  if c = '&' then ['&', 'a', 'm', 'p', ';']
  else if c = '<' then ['&', 'l', 't', ';']
  else if c = '>' then ['&', 'g', 't', ';']
  else if c = '"' then ['&', 'q', 'u', 'o', 't', ';']
  else if c = '\'' then ['&', '#', 'x', '2', '7', ';']
  else [c]

def escape (text : List Char) : List Char := text.flatMap escapeChar

/-- A text with the references `html.escape` writes read. -/
def unescape : List Char → List Char
  | '&' :: 'a' :: 'm' :: 'p' :: ';' :: rest => '&' :: unescape rest
  | '&' :: 'l' :: 't' :: ';' :: rest => '<' :: unescape rest
  | '&' :: 'g' :: 't' :: ';' :: rest => '>' :: unescape rest
  | '&' :: 'q' :: 'u' :: 'o' :: 't' :: ';' :: rest => '"' :: unescape rest
  | '&' :: '#' :: 'x' :: '2' :: '7' :: ';' :: rest => '\'' :: unescape rest
  | c :: rest => c :: unescape rest
  | [] => []

/-- The characters of markup and of attributes' quotes. -/
def IsMarkup (c : Char) : Prop := c = '<' ∨ c = '>' ∨ c = '"' ∨ c = '\''

instance (c : Char) : Decidable (IsMarkup c) :=
  inferInstanceAs (Decidable (c = '<' ∨ c = '>' ∨ c = '"' ∨ c = '\''))

theorem not_isMarkup_of_mem_escapeChar {c d : Char} (h : d ∈ escapeChar c) : ¬ IsMarkup d := by
  unfold escapeChar at h
  split_ifs at h with hamp hlt hgt hquot hapos
  · exact (by simp [IsMarkup] : ∀ e ∈ ['&', 'a', 'm', 'p', ';'], ¬ IsMarkup e) d h
  · exact (by simp [IsMarkup] : ∀ e ∈ ['&', 'l', 't', ';'], ¬ IsMarkup e) d h
  · exact (by simp [IsMarkup] : ∀ e ∈ ['&', 'g', 't', ';'], ¬ IsMarkup e) d h
  · exact (by simp [IsMarkup] : ∀ e ∈ ['&', 'q', 'u', 'o', 't', ';'], ¬ IsMarkup e) d h
  · exact (by simp [IsMarkup] : ∀ e ∈ ['&', '#', 'x', '2', '7', ';'], ¬ IsMarkup e) d h
  · obtain rfl := List.mem_singleton.1 h
    rintro (hmarkup | hmarkup | hmarkup | hmarkup)
    · exact hlt hmarkup
    · exact hgt hmarkup
    · exact hquot hmarkup
    · exact hapos hmarkup

/-- **No markup is left** in an escaped text. -/
theorem not_isMarkup_of_mem_escape {text : List Char} {d : Char} (h : d ∈ escape text) :
    ¬ IsMarkup d := by
  obtain ⟨c, -, hd⟩ := List.mem_flatMap.1 h
  exact not_isMarkup_of_mem_escapeChar hd

theorem unescape_cons_of_ne {c : Char} (h : c ≠ '&') (rest : List Char) :
    unescape (c :: rest) = c :: unescape rest := by
  rw [unescape]
  all_goals
    intros
    simp_all

/-- **An escaped text is read as it was.** -/
theorem unescape_escape (text : List Char) : unescape (escape text) = text := by
  induction text with
  | nil => rfl
  | cons c rest ih =>
    show unescape (escapeChar c ++ escape rest) = c :: rest
    unfold escapeChar
    split_ifs with hamp hlt hgt hquot hapos
    · subst hamp
      exact congrArg _ ih
    · subst hlt
      exact congrArg _ ih
    · subst hgt
      exact congrArg _ ih
    · subst hquot
      exact congrArg _ ih
    · subst hapos
      exact congrArg _ ih
    · show unescape (c :: escape rest) = c :: rest
      rw [unescape_cons_of_ne hamp, ih]

/-! ## Lines -/

/-- Lines escaped, with `<br>` between them. -/
def render (lines : List (List Char)) : List Char :=
  List.intercalate ['<', 'b', 'r', '>'] (lines.map escape)

/-- The lines between tags of four characters. -/
def lines (html : List Char) : List (List Char) :=
  match html.splitOn '<' with
  | [] => []
  | first :: rest => unescape first :: rest.map fun piece => unescape (piece.drop 3)

theorem splitOn_append {α : Type} [DecidableEq α] {a : α} {front : List α} (h : a ∉ front)
    (back : List α) : (front ++ back).splitOn a = (back.splitOn a).modifyHead (front ++ ·) := by
  induction front with
  | nil =>
    rw [List.nil_append]
    rcases back.splitOn a with _ | ⟨head, tail⟩
    · rfl
    · rfl
  | cons x front ih =>
    have hx : ¬ (x == a) = true := fun hx => h (beq_iff_eq.1 hx ▸ List.mem_cons_self)
    rw [List.cons_append, List.splitOn_cons_eq_if_modifyHead, if_neg hx,
      ih fun hmem => h (List.mem_cons_of_mem _ hmem)]
    rcases back.splitOn a with _ | ⟨head, tail⟩
    · rfl
    · rfl

theorem not_mem_escape (text : List Char) : '<' ∉ escape text :=
  fun h => not_isMarkup_of_mem_escape h (Or.inl rfl)

/-- **The tags are the ones between the lines.** -/
theorem pieces_render (first : List Char) (rest : List (List Char)) :
    (render (first :: rest)).splitOn '<' =
      escape first :: rest.map fun line => ['b', 'r', '>'] ++ escape line := by
  induction rest generalizing first with
  | nil =>
    show (List.intercalate _ [escape first]).splitOn '<' = _
    rw [List.intercalate_singleton, List.splitOn_eq_singleton (not_mem_escape first)]
    rfl
  | cons line rest ih =>
    have hrender : render (first :: line :: rest) =
        escape first ++ '<' :: (['b', 'r', '>'] ++ render (line :: rest)) := by
      unfold render
      rw [List.map_cons, List.map_cons, List.intercalate_cons_cons, List.append_assoc]
      rfl
    -- the first `<` opens the tag, as there is none in the line before it
    have hfront : '<' ∉ ['b', 'r', '>'] := by decide
    rw [hrender, List.splitOn_append_cons_self_of_not_mem (not_mem_escape first),
      splitOn_append hfront, ih]
    rfl

/-- **Lines are read as they were.** -/
theorem lines_render {texts : List (List Char)} (h : texts ≠ []) : lines (render texts) = texts := by
  obtain ⟨first, rest, rfl⟩ := List.exists_cons_of_ne_nil h
  unfold lines
  rw [pieces_render]
  simp only [List.map_map, unescape_escape]
  congr 1
  conv_rhs => rw [← List.map_id rest]
  refine List.map_congr_left fun line _ => ?_
  exact unescape_escape line

end Lib.Html
