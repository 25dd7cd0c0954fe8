import SchemaSentry.Domain.TypeRules
import SchemaSentry.Lib.Words
/-!
# Schema Sentry — names of types

What `_normalize_name` takes for one name: two texts whose words are the
same in lower case, or stand for one type in the table of aliases
(`normalizeName_eq_iff`). On ASCII texts, where `str.lower` and
`str.isspace` are known, a normalized name is its own normal form
(`normalName_normalizeName`).
-/

namespace SchemaSentry

open Lib

/-! ## ASCII texts -/

/-- What is asked of a text's characters is asked of each of them, not of
every character there is. -/
instance (priority := high) decidableForallMemChar {P : Char → Prop} [DecidablePred P]
    (l : List Char) : Decidable (∀ c ∈ l, P c) := List.decidableBAll P l

/-- `str.isspace` of an ASCII character. -/
def asciiSpace (c : Char) : Bool :=
  c ∈ [' ', '\t', '\n', '\x0b', '\x0c', '\r', '\x1c', '\x1d', '\x1e', '\x1f']

/-- `str.lower` of an ASCII text. -/
def asciiLower (s : String) : String := String.ofList (s.toList.map Char.toLower)

/-- The Unicode tables without what is beyond ASCII. -/
@[reducible] def asciiText : PyText := ⟨asciiLower, asciiSpace⟩

def IsAscii (s : String) : Prop := ∀ c ∈ s.toList, c.toNat < 128

instance (s : String) : Decidable (IsAscii s) := inferInstanceAs (Decidable (∀ c ∈ _, _))

/-- The tables say of ASCII what Python's documentation does. -/
class PyText.Lawful [PyText] : Prop where
  lower_ascii : ∀ s, IsAscii s → PyText.lower s = asciiLower s
  isSpace_ascii : ∀ c : Char, c.toNat < 128 → PyText.isSpace c = asciiSpace c

theorem asciiText_lawful : @PyText.Lawful asciiText :=
  @PyText.Lawful.mk asciiText (fun _ _ => rfl) fun _ _ => rfl

section Names

variable [PyText] {a b : String}

theorem toList_pyStrip (s : String) : (pyStrip s).toList = strip PyText.isSpace s.toList := by
  rw [pyStrip, String.toList_ofList, strip]

theorem pySplit_eq (s : String) :
    pySplit s = (words PyText.isSpace s.toList).map String.ofList := rfl

/-- A name in lower case, its words parted by single blanks. -/
def typeText (name : String) : String :=
  String.intercalate " " (pySplit (PyText.lower (pyStrip name)))

theorem normalizeName_eq (name : String) : normalizeName name = typeAlias (typeText name) := rfl

/-! ## Aliases -/

omit [PyText] in
/-- A short name and the long one it stands for. -/
def typeAliases : List (String × String) :=
  [("bool", "boolean"), ("decimal", "numeric"), ("float8", "double precision"),
   ("int2", "smallint"), ("int4", "integer"), ("int8", "bigint"),
   ("timestamp", "timestamp without time zone"), ("timestamptz", "timestamp with time zone"),
   ("varchar", "character varying")]

omit [PyText] in
theorem typeAlias_cases (x : String) : (x, typeAlias x) ∈ typeAliases ∨
    typeAlias x = x ∧ x ∉ typeAliases.map Prod.fst := by
  unfold typeAlias
  split
  case h_10 =>
    right
    refine ⟨rfl, ?_⟩
    simp only [typeAliases, List.map_cons, List.map_nil, List.mem_cons, List.not_mem_nil, or_false]
    tauto
  all_goals exact Or.inl (by simp [typeAliases])

omit [PyText] in
/-- **Two names are taken for one type** where they are one or a short and a
long name of the same. -/
theorem typeAlias_eq_iff {x y : String} : typeAlias x = typeAlias y ↔
    x = y ∨ ∃ entry ∈ typeAliases, x ∈ [entry.1, entry.2] ∧ y ∈ [entry.1, entry.2] := by
  have hlong : (typeAliases.map Prod.snd).Nodup := by decide
  have hself : ∀ entry ∈ typeAliases, typeAlias entry.1 = entry.2 ∧ typeAlias entry.2 = entry.2 := by
    decide
  constructor
  · intro h
    rcases typeAlias_cases x with hx | ⟨hx, -⟩ <;> rcases typeAlias_cases y with hy | ⟨hy, -⟩
    · exact Or.inl (congrArg Prod.fst (List.inj_on_of_nodup_map hlong hx hy h))
    · exact Or.inr ⟨_, hx, by simp, by simp [h, hy]⟩
    · exact Or.inr ⟨_, hy, by simp [← h, hx], by simp⟩
    · exact Or.inl (hx.symm.trans (h.trans hy))
  · rintro (rfl | ⟨entry, hentry, hx, hy⟩)
    · rfl
    · obtain ⟨hshort, hlong⟩ := hself entry hentry
      have hone : ∀ z ∈ [entry.1, entry.2], typeAlias z = entry.2 := by
        simp [hshort, hlong]
      rw [hone x hx, hone y hy]

/-- Names that differ in letter case, white space and aliases only. -/
def SpelledAlike (a b : String) : Prop :=
  typeText a = typeText b ∨
    ∃ entry ∈ typeAliases, typeText a ∈ [entry.1, entry.2] ∧ typeText b ∈ [entry.1, entry.2]

/-- **A normal form is shared by the names spelled alike.** -/
theorem normalizeName_eq_iff : normalizeName a = normalizeName b ↔ SpelledAlike a b :=
  typeAlias_eq_iff

end Names

/-! ## Names in ASCII -/

section Ascii

variable {s : String} {c : Char}

/-- What holds of every number below 128 holds of every ASCII character. -/
theorem forall_ascii {P : Char → Prop} (h : ∀ n < 128, P (Char.ofNat n)) (hc : c.toNat < 128) :
    P c := by
  have hp := h c.toNat hc
  rwa [Char.ofNat_toNat] at hp

theorem toLower_ascii (h : c.toNat < 128) : c.toLower.toNat < 128 ∧ c.toLower.toLower = c.toLower ∧
    asciiSpace c.toLower = asciiSpace c ∧ (c.toLower = '(' ↔ c = '(') ∧ (c.toLower = ')' ↔ c = ')') :=
  forall_ascii (P := fun c => c.toLower.toNat < 128 ∧ c.toLower.toLower = c.toLower ∧
    asciiSpace c.toLower = asciiSpace c ∧ (c.toLower = '(' ↔ c = '(') ∧
      (c.toLower = ')' ↔ c = ')')) (by decide +kernel) h

theorem isAscii_pyStrip [PyText] (h : IsAscii s) : IsAscii (pyStrip s) := by
  intro c hc
  rw [toList_pyStrip] at hc
  obtain ⟨front, back, heq, -, -⟩ := exists_strip PyText.isSpace s.toList
  refine h c ?_
  rw [heq]
  exact List.mem_append_right _ (List.mem_append_left _ hc)

theorem isAscii_asciiLower (h : IsAscii s) : IsAscii (asciiLower s) := by
  intro c hc
  rw [asciiLower, String.toList_ofList] at hc
  obtain ⟨d, hd, rfl⟩ := List.mem_map.1 hc
  exact (toLower_ascii (h d hd)).1

theorem toList_pyStrip_ascii (s : String) :
    (@pyStrip asciiText s).toList = strip asciiSpace s.toList := @toList_pyStrip asciiText s

theorem toList_asciiLower (s : String) : (asciiLower s).toList = s.toList.map Char.toLower :=
  String.toList_ofList

/-- The types that may have a length. -/
def characterTypes : List String := ["character", "character varying", "bit", "bit varying"]

/-- The words of an ASCII name, in lower case. -/
def nameWords (s : String) : List (List Char) := words asciiSpace (s.toList.map Char.toLower)

section Lawful

variable [PyText] [PyText.Lawful]

theorem pyStrip_ascii (h : IsAscii s) : pyStrip s = @pyStrip asciiText s := by
  refine String.toList_injective ?_
  rw [toList_pyStrip, toList_pyStrip_ascii]
  exact strip_congr fun c hc => PyText.Lawful.isSpace_ascii c (h c hc)

theorem lower_pyStrip_ascii (h : IsAscii s) :
    PyText.lower (pyStrip s) = asciiLower (@pyStrip asciiText s) := by
  rw [PyText.Lawful.lower_ascii _ (isAscii_pyStrip h), pyStrip_ascii h]

theorem pySplit_ascii (h : IsAscii s) :
    pySplit s = (words asciiSpace s.toList).map String.ofList := by
  rw [pySplit_eq, words_congr fun c hc => PyText.Lawful.isSpace_ascii c (h c hc)]

/-- **On ASCII a name's text is that of its words.** -/
theorem toList_typeText (h : IsAscii s) :
    (typeText s).toList = [' '].intercalate (nameWords s) := by
  obtain ⟨front, back, heq, hfront, hback⟩ := exists_strip asciiSpace s.toList
  have hspace : ∀ l : List Char, (∀ c ∈ l, c ∈ s.toList) → (∀ c ∈ l, asciiSpace c = true) →
      ∀ c ∈ l.map Char.toLower, asciiSpace c = true := by
    intro l hl hall c hc
    obtain ⟨d, hd, rfl⟩ := List.mem_map.1 hc
    rw [(toLower_ascii (h d (hl d hd))).2.2.1]
    exact hall d hd
  have hwords : words asciiSpace ((strip asciiSpace s.toList).map Char.toLower) = nameWords s := by
    rw [nameWords]
    conv_rhs => rw [heq]
    rw [List.map_append, List.map_append, words_seps_append, words_append_seps]
    · refine hspace back (fun c hc => ?_) hback
      rw [heq]
      exact List.mem_append_right _ (List.mem_append_right _ hc)
    · refine hspace front (fun c hc => ?_) hfront
      rw [heq]
      exact List.mem_append_left _ hc
  have hascii : IsAscii (asciiLower (@pyStrip asciiText s)) :=
    isAscii_asciiLower (@isAscii_pyStrip s asciiText h)
  rw [typeText, lower_pyStrip_ascii h, pySplit_ascii hascii, String.toList_intercalate,
    List.map_map, toList_asciiLower, toList_pyStrip_ascii, hwords]
  have hid : String.toList ∘ String.ofList = id := funext fun l => String.toList_ofList
  rw [hid, List.map_id]
  rfl

theorem mem_typeText (h : IsAscii s) (hc : c ∈ (typeText s).toList) :
    c = ' ' ∨ ∃ d ∈ s.toList, c = d.toLower := by
  rw [toList_typeText h] at hc
  rcases mem_intercalate hc with hblank | ⟨w, hw, hcw⟩
  · exact Or.inl hblank
  · obtain ⟨d, hd, heq⟩ := List.mem_map.1 ((mem_words hw).2 c hcw).2
    exact Or.inr ⟨d, hd, heq.symm⟩

theorem isAscii_typeText (h : IsAscii s) : IsAscii (typeText s) := by
  intro c hc
  rcases mem_typeText h hc with rfl | ⟨d, hd, rfl⟩
  · decide
  · exact (toLower_ascii (h d hd)).1

theorem toLower_of_mem_typeText (h : IsAscii s) (hc : c ∈ (typeText s).toList) : c.toLower = c := by
  rcases mem_typeText h hc with rfl | ⟨d, hd, rfl⟩
  · decide
  · exact (toLower_ascii (h d hd)).2.1

theorem nameWords_typeText (h : IsAscii s) : nameWords (typeText s) = nameWords s := by
  have hlower : (typeText s).toList.map Char.toLower = (typeText s).toList :=
    (List.map_congr_left fun c hc => toLower_of_mem_typeText h hc).trans (List.map_id _)
  rw [nameWords, hlower, toList_typeText h]
  exact words_intercalate (by decide) fun w hw =>
    ⟨(mem_words hw).1, fun c hc => ((mem_words hw).2 c hc).1⟩

theorem typeText_typeText (h : IsAscii s) : typeText (typeText s) = typeText s := by
  refine String.toList_injective ?_
  rw [toList_typeText (isAscii_typeText h), nameWords_typeText h, toList_typeText h]

/-- The names `_normalize_name` gives: in lower case, with single blanks,
and long. -/
structure NormalName (name : String) : Prop where
  ascii : IsAscii name
  text : typeText name = name
  long : typeAlias name = name

/-- A name that is its own words is normal. -/
theorem normalName_of_words (h : IsAscii s)
    (hwords : [' '].intercalate (nameWords s) = s.toList) (hlong : typeAlias s = s) :
    NormalName s :=
  ⟨h, String.toList_injective ((toList_typeText h).trans hwords), hlong⟩

/-- **A normalized name is normal.** -/
theorem normalName_normalizeName (h : IsAscii s) : NormalName (normalizeName s) := by
  have hlong : ∀ entry ∈ typeAliases, IsAscii entry.2 ∧
      [' '].intercalate (nameWords entry.2) = entry.2.toList ∧ typeAlias entry.2 = entry.2 := by
    decide +kernel
  rw [normalizeName_eq]
  rcases typeAlias_cases (typeText s) with hentry | ⟨hsame, -⟩
  · obtain ⟨hascii, hwords, halias⟩ := hlong _ hentry
    exact normalName_of_words hascii hwords halias
  · rw [hsame]
    exact ⟨isAscii_typeText h, typeText_typeText h, hsame⟩

omit [PyText.Lawful] in
theorem NormalName.normalizeName_eq_self {name : String} (h : NormalName name) :
    normalizeName name = name := by
  rw [normalizeName_eq, h.text, h.long]

/-! ## Names with modifiers -/

/-- A character type's name is normal. -/
theorem normalName_characterType {name : String} (h : name ∈ characterTypes) :
    NormalName name := by
  have hall : ∀ name ∈ characterTypes, IsAscii name ∧
      [' '].intercalate (nameWords name) = name.toList ∧ typeAlias name = name := by
    decide +kernel
  obtain ⟨hascii, hwords, hlong⟩ := hall name h
  exact normalName_of_words hascii hwords hlong

theorem normalName_numeric : NormalName "numeric" :=
  normalName_of_words (by decide) (by decide +kernel) (by decide)

end Lawful

end Ascii

end SchemaSentry
