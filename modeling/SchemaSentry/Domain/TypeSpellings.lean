import SchemaSentry.Domain.RowTypes
import SchemaSentry.Domain.TypeText
/-!
# Schema Sentry — types as they are declared

Spellings of the types that have aliases, and the row PostgreSQL reports of
a column declared with one. The text and the row are taken for one type but
where `numeric` has its precision alone, or white space stands behind a
minus sign (`spelling_agrees_iff`).
-/

namespace SchemaSentry

open Lib

/-! ## Spellings -/

def Blank (l : List Char) : Prop := ∀ c ∈ l, asciiSpace c = true

instance (l : List Char) : Decidable (Blank l) := inferInstanceAs (Decidable (∀ c ∈ _, _))

/-- A modifier as it is written. -/
structure ModifierText where
  front : List Char
  negative : Bool
  gap : List Char
  digits : List Char
  back : List Char
  front_blank : Blank front
  gap_blank : Blank gap
  back_blank : Blank back
  digits_ne : digits ≠ []
  digits_isDigit : ∀ c ∈ digits, c.isDigit = true

/-- The sign and the digits. -/
def ModifierText.core (m : ModifierText) : List Char :=
  if m.negative then '-' :: (m.gap ++ m.digits) else m.digits

def ModifierText.text (m : ModifierText) : List Char := m.front ++ (m.core ++ m.back)

def ModifierText.value (m : ModifierText) : ℤ :=
  if m.negative then -(Nat.ofDigitChars 10 m.digits 0 : ℤ) else Nat.ofDigitChars 10 m.digits 0

/-- White space stands behind the minus sign. -/
def ModifierText.Apart (m : ModifierText) : Prop := m.negative = true ∧ m.gap ≠ []

/-- A type of the table of aliases as it is written: its short or its long
name in any letter case, white space around and between its words, and the
modifiers it may have. -/
structure Spelling where
  entry : String × String
  name : List Char
  modifiers : List ModifierText
  back : List Char
  entry_mem : entry ∈ typeAliases
  ascii : ∀ c ∈ name, c.toNat < 128
  words : nameWords (String.ofList name) ∈ [nameWords entry.1, nameWords entry.2]
  back_blank : Blank back
  valid : modifiers = [] ∨ entry.2 = "character varying" ∧ modifiers.length = 1 ∨
    entry.2 = "numeric" ∧ modifiers.length ∈ [1, 2]

/-- What stands between the brackets. -/
def Spelling.inner (sp : Spelling) : List Char :=
  [','].intercalate (sp.modifiers.map ModifierText.text)

def Spelling.text (sp : Spelling) : String :=
  String.ofList (if sp.modifiers = [] then sp.name
    else sp.name ++ ('(' :: (sp.inner ++ [')']) ++ sp.back))

/-- What PostgreSQL reports of a column declared so. -/
structure Spelling.Reports (sp : Spelling) (row : TypeRow) : Prop where
  dataType : row.dataType = sp.entry.2
  length : sp.entry.2 = "character varying" →
    row.characterMaximumLength = (sp.modifiers.map ModifierText.value).head?
  numeric : sp.entry.2 = "numeric" → (row.numericPrecision, row.numericScale) =
    match sp.modifiers.map ModifierText.value with
    | [] => (none, none)
    | [p] => (some p, some 0)
    | p :: s :: _ => (some p, some s)

/-- `numeric` with its precision alone. -/
def Spelling.PrecisionAlone (sp : Spelling) : Prop :=
  sp.entry.2 = "numeric" ∧ sp.modifiers.length = 1

/-! ## Modifiers -/

section Modifiers

variable {m : ModifierText} {c : Char}

/-- What white space is not. -/
theorem blankChar (h : asciiSpace c = true) : c.toNat < 128 ∧ c.toLower = c ∧
    notParen c = true ∧ c ≠ ',' ∧ c ≠ '_' ∧ c.isDigit = false := by
  simp only [asciiSpace, List.mem_cons, List.not_mem_nil, or_false, decide_eq_true_eq] at h
  rcases h with rfl | rfl | rfl | rfl | rfl | rfl | rfl | rfl | rfl | rfl <;> decide

theorem ModifierText.mem_core (h : c ∈ m.core) :
    asciiSpace c = true ∨ c = '-' ∨ c.isDigit = true := by
  unfold ModifierText.core at h
  split at h
  · rcases List.mem_cons.1 h with rfl | h
    · exact Or.inr (Or.inl rfl)
    · rcases List.mem_append.1 h with h | h
      · exact Or.inl (m.gap_blank c h)
      · exact Or.inr (Or.inr (m.digits_isDigit c h))
  · exact Or.inr (Or.inr (m.digits_isDigit c h))

/-- What a modifier's characters are. -/
theorem ModifierText.char (h : c ∈ m.text) :
    c.toNat < 128 ∧ c.toLower = c ∧ notParen c = true ∧ c ≠ ',' := by
  have hcases : asciiSpace c = true ∨ c = '-' ∨ c.isDigit = true := by
    rcases List.mem_append.1 h with h | h
    · exact Or.inl (m.front_blank c h)
    · rcases List.mem_append.1 h with h | h
      · exact m.mem_core h
      · exact Or.inl (m.back_blank c h)
  rcases hcases with hblank | hsigned
  · obtain ⟨hascii, hlower, hparen, hcomma, -⟩ := blankChar hblank
    exact ⟨hascii, hlower, hparen, hcomma⟩
  · obtain ⟨hascii, hlower, -, hparen, hcomma⟩ := signedChar hsigned
    exact ⟨hascii, hlower, hparen, hcomma⟩

theorem natLiteral_eq_none {text : List Char} (hc : c ∈ text) (hblank : asciiSpace c = true) :
    natLiteral text = none := by
  obtain ⟨-, -, -, -, hscore, hdigit⟩ := blankChar hblank
  obtain ⟨w, hw, hcw⟩ := exists_mem_words (p := (· = '_')) hc (by simpa using hscore)
  rw [natLiteral, if_neg]
  intro hall
  have hd := (hall w (List.mem_of_mem_filter hw)).2 c hcw
  rw [hdigit] at hd
  cases hd

/-- **A modifier's value is read** where its sign does not stand apart. -/
theorem ModifierText.intOfText_core_iff {n : ℤ} :
    intOfText m.core = .ok n ↔ ¬ m.Apart ∧ m.value = n := by
  have hnat := natLiteral_digits m.digits_ne m.digits_isDigit
  by_cases hneg : m.negative = true
  · by_cases hgap : m.gap = []
    · have hread : intLiteral m.core = some m.value := by
        rw [ModifierText.core, ModifierText.value, if_pos hneg, if_pos hneg, hgap, List.nil_append,
          intLiteral, hnat]
        rfl
      rw [intOfText, hread, Except.ok.injEq, and_iff_right fun h => h.2 hgap]
    · obtain ⟨c, rest, hcons⟩ := List.exists_cons_of_ne_nil hgap
      have hread : intLiteral m.core = none := by
        have hmem : c ∈ m.gap ++ m.digits := by simp [hcons]
        rw [ModifierText.core, if_pos hneg, intLiteral,
          natLiteral_eq_none hmem (m.gap_blank c (by simp [hcons]))]
        rfl
      rw [intOfText, hread]
      refine iff_of_false (fun h => ?_) fun h => h.1 ⟨hneg, hgap⟩
      cases h
  · have hread : intLiteral m.core = some m.value := by
      rw [ModifierText.core, ModifierText.value, if_neg hneg, if_neg hneg,
        intLiteral_digits m.digits_ne m.digits_isDigit]
    rw [intOfText, hread, Except.ok.injEq, and_iff_right fun h => hneg h.1]

/-- A modifier begins with its sign or a digit and ends with a digit. -/
theorem ModifierText.ends : (∀ c ∈ m.core.head?, asciiSpace c = false) ∧
    ∀ c ∈ m.core.getLast?, asciiSpace c = false := by
  have hlast : m.core.getLast? = m.digits.getLast? := by
    rw [ModifierText.core]
    split
    · rw [List.getLast?_cons_of_ne_nil (by simp [m.digits_ne]), List.getLast?_append_of_ne_nil _ m.digits_ne]
    · rfl
  refine ⟨fun c hc => ?_, fun c hc => ?_⟩
  · rw [ModifierText.core] at hc
    split at hc
    · rw [← Option.some.inj hc]
      rfl
    · exact (signedChar (Or.inr (m.digits_isDigit c (List.mem_of_mem_head? hc)))).2.2.1
  · rw [hlast] at hc
    exact (signedChar (Or.inr (m.digits_isDigit c (List.mem_of_getLast? hc)))).2.2.1

variable [PyText] [PyText.Lawful]

theorem ModifierText.strip_text : strip PyText.isSpace m.text = m.core := by
  rw [strip_congr fun c hc => PyText.Lawful.isSpace_ascii c (m.char hc).1, ModifierText.text]
  exact strip_append m.front_blank m.back_blank m.ends.1 m.ends.2

end Modifiers

/-! ## Names -/

section Names

variable {sp : Spelling} {f name b : List Char}

/-- Case and white space around a name do not change its words. -/
theorem words_lower (h : sp.name = f ++ (name ++ b)) (hf : Blank f) (hb : Blank b) :
    nameWords (String.ofList (name.map Char.toLower)) = nameWords (String.ofList sp.name) := by
  have hlower : ∀ l, Blank l → Blank (l.map Char.toLower) := by
    intro l hl c hc
    obtain ⟨d, hd, rfl⟩ := List.mem_map.1 hc
    rw [(blankChar (hl d hd)).2.1]
    exact hl d hd
  have hidem : (name.map Char.toLower).map Char.toLower = name.map Char.toLower := by
    rw [List.map_map]
    refine List.map_congr_left fun c hc => (toLower_ascii (sp.ascii c ?_)).2.1
    rw [h]
    exact List.mem_append_right _ (List.mem_append_left _ hc)
  rw [nameWords, nameWords, String.toList_ofList, String.toList_ofList, hidem, h, List.map_append,
    List.map_append, words_seps_append (hlower f hf), words_append_seps (hlower b hb)]

/-- The words of the table's names hold no bracket. -/
theorem aliases_plain : ∀ entry ∈ typeAliases, ∀ words ∈ [nameWords entry.1, nameWords entry.2],
    words ≠ [] ∧ ∀ w ∈ words, ∀ c ∈ w, notParen c = true := by
  decide +kernel

theorem name_ne_nil (h : sp.name = f ++ (name ++ b)) (hf : Blank f) (hb : Blank b) :
    name ≠ [] := by
  rintro rfl
  have hwords := words_lower h hf hb
  refine (aliases_plain _ sp.entry_mem _ sp.words).1 (hwords.symm.trans ?_)
  rfl

theorem notParen_name {c : Char} (hc : c ∈ sp.name) : notParen c.toLower = true := by
  by_cases hblank : asciiSpace c = true
  · obtain ⟨-, hlower, hparen, -⟩ := blankChar hblank
    rwa [hlower]
  · have hmem : c.toLower ∈ sp.name.map Char.toLower := List.mem_map_of_mem hc
    have hlower : asciiSpace c.toLower = false := by
      rw [(toLower_ascii (sp.ascii c hc)).2.2.1]
      exact eq_false_of_ne_true hblank
    obtain ⟨w, hw, hcw⟩ := exists_mem_words hmem hlower
    refine (aliases_plain _ sp.entry_mem _ sp.words).2 w ?_ _ hcw
    rwa [nameWords, String.toList_ofList]

variable [PyText] [PyText.Lawful]

/-- **The long name is read** of a spelling's name. -/
theorem normalizeName_of_spelling (h : sp.name = f ++ (name ++ b)) (hf : Blank f) (hb : Blank b) :
    normalizeName (String.ofList (name.map Char.toLower)) = sp.entry.2 := by
  have hjoined : ∀ entry ∈ typeAliases,
      [' '].intercalate (nameWords entry.1) = entry.1.toList ∧
      [' '].intercalate (nameWords entry.2) = entry.2.toList ∧
      typeAlias entry.1 = entry.2 ∧ typeAlias entry.2 = entry.2 := by
    decide +kernel
  obtain ⟨hshort, hlong, halias, hself⟩ := hjoined _ sp.entry_mem
  have hascii : IsAscii (String.ofList (name.map Char.toLower)) := by
    intro c hc
    rw [String.toList_ofList] at hc
    obtain ⟨d, hd, rfl⟩ := List.mem_map.1 hc
    refine (toLower_ascii (sp.ascii d ?_)).1
    rw [h]
    exact List.mem_append_right _ (List.mem_append_left _ hd)
  have htext := toList_typeText hascii
  rw [words_lower h hf hb] at htext
  have hwords := sp.words
  rw [List.mem_cons, List.mem_singleton] at hwords
  rw [normalizeName_eq]
  rcases hwords with hwords | hwords
  · rw [hwords, hshort] at htext
    rw [String.toList_injective htext, halias]
  · rw [hwords, hlong] at htext
    rw [String.toList_injective htext, hself]

end Names

/-! ## Texts -/

section Texts

variable [PyText] [PyText.Lawful] (sp : Spelling)

omit [PyText] [PyText.Lawful] in
theorem inner_char {c : Char} (h : c ∈ sp.inner) :
    c.toNat < 128 ∧ c.toLower = c ∧ notParen c = true := by
  rcases mem_intercalate h with rfl | ⟨w, hw, hc⟩
  · decide
  · obtain ⟨m, -, rfl⟩ := List.mem_map.1 hw
    obtain ⟨hascii, hlower, hparen, -⟩ := m.char hc
    exact ⟨hascii, hlower, hparen⟩

omit [PyText] [PyText.Lawful] in
theorem isAscii_text : IsAscii sp.text := by
  intro c hc
  rw [Spelling.text, String.toList_ofList] at hc
  split at hc
  · exact sp.ascii c hc
  · rcases List.mem_append.1 hc with hc | hc
    · exact sp.ascii c hc
    · rcases List.mem_append.1 hc with hc | hc
      · rcases List.mem_cons.1 hc with rfl | hc
        · decide
        · rcases List.mem_append.1 hc with hc | hc
          · exact (inner_char sp hc).1
          · rw [List.mem_singleton.1 hc]
            decide
      · exact (blankChar (sp.back_blank c hc)).1

/-- **What the parser makes of a spelling**: its long name and its
modifiers. -/
theorem typeParts_spelling : ∃ name, normalizeName (String.ofList name) = sp.entry.2 ∧
    typeParts (PyText.lower (pyStrip sp.text)).toList =
      some (name, if sp.modifiers = [] then none else some sp.inner) := by
  rw [lower_pyStrip_ascii (isAscii_text sp), toList_asciiLower, toList_pyStrip_ascii,
    Spelling.text, String.toList_ofList]
  have hparen : ∀ {f name b : List Char}, sp.name = f ++ (name ++ b) →
      ∀ c ∈ name.map Char.toLower, notParen c = true := by
    intro f name b h c hc
    obtain ⟨d, hd, rfl⟩ := List.mem_map.1 hc
    have hmem : d ∈ sp.name := by
      rw [h]
      exact List.mem_append_right _ (List.mem_append_left _ hd)
    exact notParen_name hmem
  by_cases hmods : sp.modifiers = []
  · obtain ⟨f, b, heq, hf, hb⟩ := exists_strip asciiSpace sp.name
    have hall := hparen heq
    refine ⟨_, normalizeName_of_spelling heq hf hb, ?_⟩
    rw [if_pos hmods, if_pos hmods, typeParts, List.takeWhile_eq_self_iff.2 hall,
      List.dropWhile_eq_nil_iff.2 hall, if_neg (by simpa using name_ne_nil heq hf hb)]
  · have heq : sp.name = sp.name.takeWhile asciiSpace ++ (sp.name.dropWhile asciiSpace ++ []) := by
      rw [List.append_nil, List.takeWhile_append_dropWhile]
    have hf : Blank (sp.name.takeWhile asciiSpace) := fun c hc => List.mem_takeWhile_imp hc
    have hb : Blank [] := by
      intro c hc
      cases hc
    have hall := hparen heq
    have hne := name_ne_nil heq hf hb
    generalize hfront : sp.name.takeWhile asciiSpace = front at heq hf
    generalize hname : sp.name.dropWhile asciiSpace = name at heq hall hne
    refine ⟨_, normalizeName_of_spelling heq hf hb, ?_⟩
    have hstrip : strip asciiSpace (sp.name ++ ('(' :: (sp.inner ++ [')']) ++ sp.back)) =
        name ++ '(' :: (sp.inner ++ [')']) := by
      have hshape : sp.name ++ ('(' :: (sp.inner ++ [')']) ++ sp.back) =
          front ++ ((name ++ '(' :: (sp.inner ++ [')'])) ++ sp.back) := by
        rw [heq]
        simp
      rw [hshape]
      refine strip_append hf sp.back_blank (fun c hc => ?_) fun c hc => ?_
      · rw [List.head?_append_of_ne_nil _ hne, ← hname] at hc
        have hnot := List.head?_dropWhile_not asciiSpace sp.name
        rw [hc] at hnot
        exact hnot
      · have hlast : name ++ '(' :: (sp.inner ++ [')']) = (name ++ '(' :: sp.inner) ++ [')'] := by
          simp
        rw [hlast, List.getLast?_concat] at hc
        rw [← Option.some.inj hc]
        rfl
    have hinner : (sp.inner ++ [')']).map Char.toLower = sp.inner ++ [')'] := by
      rw [List.map_append, List.map_congr_left fun c hc => (inner_char sp hc).2.1, List.map_id']
      rfl
    have hplain : ∀ c ∈ sp.inner, notParen c = true := fun c hc => (inner_char sp hc).2.2
    rw [if_neg hmods, if_neg hmods, hstrip, List.map_append, List.map_cons, hinner, typeParts,
      List.takeWhile_append_of_pos hall, List.takeWhile_cons_of_neg (by decide), List.append_nil,
      List.dropWhile_append_of_pos hall, List.dropWhile_cons_of_neg (by decide),
      if_neg (by simpa using hne)]
    have hclose : (sp.inner ++ [')']).dropWhile notParen = [')'] := by
      rw [List.dropWhile_append_of_pos hplain, List.dropWhile_cons_of_neg (by decide)]
    have hargs : (sp.inner ++ [')']).takeWhile notParen = sp.inner := by
      rw [List.takeWhile_append_of_pos hplain, List.takeWhile_cons_of_neg (by decide),
        List.append_nil]
    simp only [hclose, hargs, and_true]
    rfl

/-- The modifiers are read where no sign stands apart. -/
theorem typeArguments_spelling (hmods : sp.modifiers ≠ []) {values : List ℤ} :
    typeArguments sp.inner = .ok values ↔
      (∀ m ∈ sp.modifiers, ¬ m.Apart) ∧ values = sp.modifiers.map ModifierText.value := by
  have hcomma : ∀ text ∈ sp.modifiers.map ModifierText.text, ',' ∉ text := by
    intro text htext hc
    obtain ⟨m, -, rfl⟩ := List.mem_map.1 htext
    exact (m.char hc).2.2.2 rfl
  rw [Spelling.inner, typeArguments_eq_ok_iff (by simpa using hmods) hcomma,
    List.forall₂_map_left_iff]
  simp only [ModifierText.strip_text, ModifierText.intOfText_core_iff]
  clear hcomma hmods
  induction sp.modifiers generalizing values with
  | nil => simp
  | cons m rest ih =>
    rw [List.forall₂_cons_left_iff]
    constructor
    · rintro ⟨n, values, ⟨happart, rfl⟩, hrest, rfl⟩
      obtain ⟨hall, rfl⟩ := ih.1 hrest
      exact ⟨List.forall_mem_cons.2 ⟨happart, hall⟩, rfl⟩
    · rintro ⟨hall, rfl⟩
      obtain ⟨happart, hrest⟩ := List.forall_mem_cons.1 hall
      exact ⟨_, _, ⟨happart, rfl⟩, ih.2 ⟨hrest, rfl⟩, rfl⟩

/-! ## The text and the row -/

/-- The type of a row of a declared column. -/
theorem canonical_of_reports {row : TypeRow} (h : sp.Reports row) :
    canonicalizePostgresType row.dataType row.udtName row.characterMaximumLength
      row.numericPrecision row.numericScale = row.named sp.entry.2 := by
  have hlong : ∀ entry ∈ typeAliases, entry.2 ≠ "USER-DEFINED" ∧ IsAscii entry.2 ∧
      [' '].intercalate (nameWords entry.2) = entry.2.toList ∧ typeAlias entry.2 = entry.2 := by
    decide +kernel
  obtain ⟨huser, hascii, hwords, hself⟩ := hlong _ sp.entry_mem
  have hname : normalizeName row.typeName = sp.entry.2 := by
    rw [TypeRow.typeName, h.dataType, if_pos huser]
    exact (normalName_of_words hascii hwords hself).normalizeName_eq_self
  rw [canonicalizePostgresType_eq, hname]

/-- What a spelling is parsed as. -/
theorem parse_spelling_iff {t : CanonicalType} : parsePostgresType sp.text = .ok t ↔
    if sp.modifiers = [] then t = { name := sp.entry.2 }
    else (∀ m ∈ sp.modifiers, ¬ m.Apart) ∧
      typeOfValues sp.entry.2 (sp.modifiers.map ModifierText.value) = some t := by
  obtain ⟨name, hname, hparts⟩ := typeParts_spelling sp
  rw [parsePostgresType_eq_ok_iff, hparts]
  by_cases hmods : sp.modifiers = []
  · rw [if_pos hmods, if_pos hmods]
    constructor
    · rintro ⟨_, _, heq, ht⟩
      obtain ⟨rfl, rfl⟩ := Prod.mk.inj (Option.some.inj heq)
      rw [ht, hname]
    · intro ht
      exact ⟨name, none, rfl, by rw [ht, hname]⟩
  · rw [if_neg hmods, if_neg hmods]
    constructor
    · rintro ⟨_, _, heq, ht⟩
      obtain ⟨rfl, rfl⟩ := Prod.mk.inj (Option.some.inj heq)
      obtain ⟨values, hvalues, ht⟩ := ht
      obtain ⟨happart, rfl⟩ := (typeArguments_spelling sp hmods).1 hvalues
      rw [hname] at ht
      exact ⟨happart, ht⟩
    · rintro ⟨happart, ht⟩
      refine ⟨name, some sp.inner, rfl, _, (typeArguments_spelling sp hmods).2 ⟨happart, rfl⟩, ?_⟩
      rw [hname]
      exact ht

omit [PyText] [PyText.Lawful] in
/-- A declared column without modifiers has its type's name alone. -/
theorem named_of_no_modifiers {row : TypeRow} (h : sp.Reports row) (hmods : sp.modifiers = []) :
    row.named sp.entry.2 = { name := sp.entry.2 } := by
  have hcharacter : ∀ entry ∈ typeAliases, entry.2 ∈ characterTypes →
      entry.2 = "character varying" := by decide
  have hlength := h.length
  have hnumeric := h.numeric
  rw [hmods, List.map_nil] at hlength hnumeric
  rw [TypeRow.named]
  split
  · rename_i hmem
    rw [hlength (hcharacter _ sp.entry_mem hmem)]
    rfl
  · split
    · rename_i hname
      obtain ⟨hprecision, hscale⟩ := Prod.mk.inj (hnumeric hname)
      rw [hprecision, hscale]
    · rfl

/-- **The parser agrees with the row** but on `numeric` with its precision
alone, and where a minus sign stands apart. -/
theorem spelling_agrees_iff {row : TypeRow} (h : sp.Reports row) :
    parsePostgresType sp.text = .ok (canonicalizePostgresType row.dataType row.udtName
        row.characterMaximumLength row.numericPrecision row.numericScale) ↔
      ¬ sp.PrecisionAlone ∧ ∀ m ∈ sp.modifiers, ¬ m.Apart := by
  have hlength := h.length
  have hnumeric := h.numeric
  rw [canonical_of_reports sp h, parse_spelling_iff]
  rcases sp.valid with hmods | ⟨hname, hone⟩ | ⟨hname, hcount⟩
  · rw [if_pos hmods]
    refine iff_of_true (named_of_no_modifiers sp h hmods) ⟨fun halone => ?_, fun m hm => ?_⟩
    · have hone := halone.2
      rw [hmods] at hone
      cases hone
    · rw [hmods] at hm
      cases hm
  · obtain ⟨m, hm⟩ := List.length_eq_one_iff.1 hone
    have halone : ¬ sp.PrecisionAlone := fun halone => absurd (hname.symm.trans halone.1) (by decide)
    rw [hm, List.map_singleton] at hlength
    rw [hm, if_neg (List.cons_ne_nil _ _), List.map_singleton, and_comm,
      and_congr_left_iff.2 fun _ => iff_of_true ?_ halone]
    rw [TypeRow.named, hlength hname, hname]
    rfl
  · rw [List.mem_cons, List.mem_singleton] at hcount
    rcases hcount with hone | htwo
    · obtain ⟨m, hm⟩ := List.length_eq_one_iff.1 hone
      rw [hm, List.map_singleton] at hnumeric
      obtain ⟨hprecision, hscale⟩ := Prod.mk.inj (hnumeric hname)
      refine iff_of_false ?_ fun hboth => hboth.1 ⟨hname, hone⟩
      -- the row has a scale, which the text has not
      rw [hm, if_neg (List.cons_ne_nil _ _), List.map_singleton, TypeRow.named, hprecision, hscale,
        hname]
      rintro ⟨-, htype⟩
      exact absurd (congrArg CanonicalType.scale (Option.some.inj htype)) (by simp [characterTypes])
    · obtain ⟨m, m', hm⟩ := List.length_eq_two.1 htwo
      have halone : ¬ sp.PrecisionAlone := fun halone => by
        have hone := halone.2
        omega
      rw [hm, List.map_cons, List.map_singleton] at hnumeric
      obtain ⟨hprecision, hscale⟩ := Prod.mk.inj (hnumeric hname)
      rw [hm, if_neg (List.cons_ne_nil _ _), List.map_cons, List.map_singleton, and_comm,
        and_congr_left_iff.2 fun _ => iff_of_true ?_ halone]
      rw [TypeRow.named, hprecision, hscale, hname]
      rfl

end Texts

section Sample

attribute [local instance] asciiText asciiText_lawful

/-- A modifier of digits alone. -/
def sampleModifier (digits : List Char) (hne : digits ≠ [])
    (hdigits : ∀ c ∈ digits, c.isDigit = true) : ModifierText where
  front := [' ']
  negative := false
  gap := []
  digits := digits
  back := []
  front_blank := by decide
  gap_blank := by decide
  back_blank := by decide
  digits_ne := hne
  digits_isDigit := hdigits

/-- `VarChar ( 50)` -/
def sampleVarchar : Spelling where
  entry := ("varchar", "character varying")
  name := "VarChar ".toList
  modifiers := [sampleModifier ['5', '0'] (by decide) (by decide)]
  back := []
  entry_mem := by decide
  ascii := by decide
  words := by decide +kernel
  back_blank := by decide
  valid := Or.inr (Or.inl ⟨rfl, rfl⟩)

/-- `numeric( 10)` -/
def sampleNumeric : Spelling where
  entry := ("decimal", "numeric")
  name := "numeric".toList
  modifiers := [sampleModifier ['1', '0'] (by decide) (by decide)]
  back := []
  entry_mem := by decide
  ascii := by decide
  words := by decide +kernel
  back_blank := by decide
  valid := Or.inr (Or.inr ⟨rfl, by decide⟩)

/-- The text and the row of a `varchar` of a length agree. -/
theorem varchar_agrees : parsePostgresType sampleVarchar.text =
    .ok (canonicalizePostgresType "character varying" "varchar" (some 50) none none) := by
  have hreports : sampleVarchar.Reports ⟨"character varying", "varchar", some 50, none, none⟩ :=
    ⟨rfl, fun _ => rfl, fun h => absurd h (by decide)⟩
  refine (spelling_agrees_iff sampleVarchar hreports).2 ⟨fun h => absurd h.1 (by decide), ?_⟩
  intro m hm
  rw [List.mem_singleton.1 hm]
  exact fun h => absurd h.1 (by decide)

/-- **`numeric` with its precision alone** has no scale as text, and the scale
0 in the row. -/
theorem precision_alone_differs :
    sampleNumeric.text = "numeric( 10)" ∧
    sampleNumeric.Reports ⟨"numeric", "numeric", none, some 10, some 0⟩ ∧
    parsePostgresType sampleNumeric.text ≠
      .ok (canonicalizePostgresType "numeric" "numeric" none (some 10) (some 0)) := by
  have htext : sampleNumeric.text = "numeric( 10)" := by decide +kernel
  refine ⟨htext, ⟨rfl, fun h => absurd h (by decide), fun _ => rfl⟩, ?_⟩
  rw [htext]
  decide +kernel

end Sample

end SchemaSentry
