import SchemaSentry.Domain.TypeNames
import SchemaSentry.Lib.Excepts
import SchemaSentry.Lib.Json
import SchemaSentry.Lib.Regex
/-!
# Schema Sentry — types as text

`parse_postgres_type`: a name, and in brackets the modifiers a type has. On
ASCII texts parsing undoes rendering (`parse_render`).
-/

namespace SchemaSentry

open Lib

/-! ## The pattern -/

/-- `[^()]`. -/
def notParen (c : Char) : Bool := c ≠ '(' && c ≠ ')'

/-- `\(([^()]*)\)`. -/
def argumentsPattern : Regex Char :=
  .seq (.char (· = '(')) (.seq (.group "2" (.many notParen)) (.char (· = ')')))

/-- `_TYPE_PATTERN`. -/
def typePattern : Regex Char :=
  .seq .start (.seq (.group "1" (.lazyPlus notParen))
    (.seq (.optional argumentsPattern) (.stop (· = '\n'))))

/-- The name of a type's text, and what its brackets hold. -/
def typeParts (text : List Char) : Option (List Char × Option (List Char)) :=
  let name := text.takeWhile notParen
  if name = [] then none
  else
    match text.dropWhile notParen with
    | [] => some (name, none)
    | c :: inner =>
      if c = '(' ∧ inner.dropWhile notParen = [')'] then
        some (name, some (inner.takeWhile notParen))
      else none

section Pattern

variable {text inner before rest : List Char} {c : Char}

/-- The end of the pattern's match and of the text. -/
def typeEnd : Regex Char := .seq (.stop (· = '\n')) (.stop fun _ => false)

theorem found_argumentsPattern_seq_cons :
    (Regex.seq argumentsPattern typeEnd).found before (c :: inner) =
      if c = '(' ∧ inner.dropWhile notParen = [')'] then
        [⟨c :: inner, [("2", inner.takeWhile notParen)]⟩]
      else [] := by
  have hrefuses : Regex.Refuses notParen ((Regex.char (· = ')')).seq typeEnd) := by
    refine (Regex.refuses_char fun x hx => ?_).seq
    simp only [notParen, Bool.and_eq_true, decide_eq_true_eq] at hx
    simpa using hx.2
  by_cases hc : c = '('
  · subst hc
    have hrun := Regex.readsRun_many notParen ('(' :: before) inner
    rw [argumentsPattern, Regex.found_seq_assoc, Regex.found_char_seq_cons (by rfl),
      Regex.found_seq_assoc, Regex.found_group_run_seq hrun hrefuses]
    have hwhole := List.takeWhile_append_dropWhile (p := notParen) (l := inner)
    cases hrest : inner.dropWhile notParen with
    | nil => simp [Regex.found]
    | cons d tail =>
      rw [hrest] at hwhole
      by_cases hd : d = ')'
      · subst hd
        rw [Regex.found_char_seq_cons (by rfl), typeEnd, Regex.found_stop_whole]
        by_cases htail : tail = []
        · subst htail
          simp [Match.append, hwhole]
        · simp [htail]
      · rw [Regex.found_seq_of_nil (Regex.found_char_of_not (by simpa using hd))]
        simp [hd]
  · rw [if_neg fun h => hc h.1, argumentsPattern, Regex.found_seq_assoc,
      Regex.found_seq_of_nil (Regex.found_char_of_not (by simpa using hc))]

/-- What follows the name takes no character of a name. -/
theorem refuses_typeRest :
    Regex.Refuses notParen (.seq (.seq (.optional argumentsPattern) (.stop (· = '\n')))
      (.stop fun _ => false)) := by
  intro before x rest hx
  have hparen : x ≠ '(' := by
    simp only [notParen, Bool.and_eq_true, decide_eq_true_eq] at hx
    exact hx.1
  rw [Regex.found_seq_assoc, Regex.optional, Regex.found_alt_seq, ← typeEnd,
    found_argumentsPattern_seq_cons, if_neg fun h => hparen h.1, List.nil_append,
    Regex.found_seq_of_empty rfl, typeEnd, Regex.found_stop_whole, if_neg (List.cons_ne_nil _ _)]

/-- **The pattern matches a name and its brackets**, and nothing else. -/
theorem fullmatch_typePattern (text : List Char) :
    Regex.fullmatch typePattern text = (typeParts text).map fun parts =>
      ⟨text, ("1", parts.1) :: (parts.2.map (Prod.mk "2")).toList⟩ := by
  rw [Regex.fullmatch, Regex.matchAt, typePattern, Regex.found_seq_assoc,
    Regex.found_seq_of_empty rfl, Regex.found_seq_assoc]
  cases text with
  | nil => rfl
  | cons x text =>
    by_cases hx : notParen x = true
    · have hrun : Regex.ReadsRun notParen (.lazyPlus notParen) [] (x :: text) :=
        Regex.readsRun_lazyPlus hx [] text
      have hwhole := List.takeWhile_append_dropWhile (p := notParen) (l := x :: text)
      have hname : (x :: text).takeWhile notParen = x :: text.takeWhile notParen :=
        List.takeWhile_cons_of_pos hx
      rw [Regex.found_group_run_seq hrun refuses_typeRest, Regex.found_seq_assoc, Regex.optional,
        Regex.found_alt_seq, ← typeEnd, typeParts, hname, if_neg (List.cons_ne_nil _ _)]
      rw [hname] at hwhole
      cases hrest : (x :: text).dropWhile notParen with
      | nil =>
        rw [hrest, List.append_nil] at hwhole
        simp [hwhole, argumentsPattern, Regex.found, Match.append, typeEnd]
      | cons c inner =>
        rw [hrest] at hwhole
        rw [found_argumentsPattern_seq_cons, Regex.found_seq_of_empty (s := typeEnd) rfl, typeEnd,
          Regex.found_stop_whole, if_neg (List.cons_ne_nil _ _), List.append_nil]
        by_cases hargs : c = '(' ∧ inner.dropWhile notParen = [')']
        · simp [hargs, Match.append, ← hwhole]
        · simp [hargs]
    · have hnone : (Regex.group "1" (.lazyPlus notParen)).found [] (x :: text) = [] := by
        rw [Regex.found, Regex.lazyPlus, Regex.found_seq_of_nil (Regex.found_char_of_not ?_)]
        · rfl
        · simpa using hx
      rw [Regex.found_seq_of_nil hnone, typeParts, List.takeWhile_cons_of_neg hx]
      rfl

end Pattern

/-! ## Integers -/

/-- Digits, single underscores between them. -/
def natLiteral (text : List Char) : Option ℕ :=
  let groups := text.splitOnP (· = '_')
  if ∀ group ∈ groups, group ≠ [] ∧ ∀ c ∈ group, c.isDigit then
    some (Nat.ofDigitChars 10 groups.flatten 0)
  else none

/-- What `int` reads of an ASCII text without white space around it. -/
def intLiteral : List Char → Option ℤ
  | '-' :: digits => (natLiteral digits).map fun n => -(n : ℤ)
  | '+' :: digits => (natLiteral digits).map fun n => (n : ℤ)
  | digits => (natLiteral digits).map fun n => (n : ℤ)

/-- A character of an ASCII text in its `repr`. -/
def reprChar (quote c : Char) : List Char :=
  if c = '\\' ∨ c = quote then ['\\', c]
  else if c = '\n' then ['\\', 'n']
  else if c = '\r' then ['\\', 'r']
  else if c = '\t' then ['\\', 't']
  else if c.toNat < 0x20 ∨ c.toNat = 0x7f then
    ['\\', 'x', Json.hexDigit (c.toNat / 16), Json.hexDigit (c.toNat % 16)]
  else [c]

/-- `repr` of an ASCII text. -/
def pyRepr (text : List Char) : String :=
  let quote := if '\'' ∈ text ∧ '"' ∉ text then '"' else '\''
  String.ofList (quote :: text.flatMap (reprChar quote) ++ [quote])

/-- `int`, or the message of its `ValueError`. -/
def intOfText (text : List Char) : Except String ℤ :=
  match intLiteral text with
  | some n => .ok n
  | none => .error s!"invalid literal for int() with base 10: {pyRepr text}"

/-- Digits are read. -/
theorem natLiteral_digits {ds : List Char} (hne : ds ≠ []) (hdigits : ∀ c ∈ ds, c.isDigit = true) :
    natLiteral ds = some (Nat.ofDigitChars 10 ds 0) := by
  have hsplit : ds.splitOnP (· = '_') = [ds] := by
    refine List.splitOnP_eq_singleton fun c hc => ?_
    have hscore : c ≠ '_' := by
      rintro rfl
      exact absurd (hdigits _ hc) (by decide)
    simpa using hscore
  rw [natLiteral, hsplit, if_pos]
  · rw [List.flatten_singleton]
  · intro group hgroup
    rw [List.mem_singleton.1 hgroup]
    exact ⟨hne, hdigits⟩

/-- Digits have no sign. -/
theorem intLiteral_digits {ds : List Char} (hne : ds ≠ []) (hdigits : ∀ c ∈ ds, c.isDigit = true) :
    intLiteral ds = some (Nat.ofDigitChars 10 ds 0 : ℤ) := by
  obtain ⟨d, rest, rfl⟩ := List.exists_cons_of_ne_nil hne
  have hdigit := hdigits d List.mem_cons_self
  have hminus : d ≠ '-' := by
    rintro rfl
    exact absurd hdigit (by decide)
  have hplus : d ≠ '+' := by
    rintro rfl
    exact absurd hdigit (by decide)
  have hunsigned : intLiteral (d :: rest) = (natLiteral (d :: rest)).map fun n => (n : ℤ) := by
    simp [intLiteral, hminus, hplus]
  rw [hunsigned, natLiteral_digits hne hdigits]
  rfl

/-- **A rendered integer is read again.** -/
theorem intOfText_decimal (n : ℤ) : intOfText (Json.decimal n) = .ok n := by
  have hread : intLiteral (Json.decimal n) = some n := by
    cases n with
    | ofNat n =>
      rw [Json.decimal, intLiteral_digits Nat.toDigits_ne_nil (Json.isDigit_toDigits n),
        Nat.ofDigitChars_ten_toDigits]
      rfl
    | negSucc n =>
      rw [Json.decimal, intLiteral,
        natLiteral_digits Nat.toDigits_ne_nil (Json.isDigit_toDigits (n + 1)),
        Nat.ofDigitChars_ten_toDigits]
      rfl
  rw [intOfText, hread]

theorem toList_repr_int (n : ℤ) : n.repr.toList = Json.decimal n := by
  cases n with
  | ofNat n => exact Nat.toList_repr
  | negSucc n =>
    have h : (Int.negSucc n).repr = "-" ++ (n + 1).repr := rfl
    rw [h, String.toList_append, Nat.toList_repr]
    rfl

/-! ## Parsing -/

section Parse

variable [PyText]

omit [PyText] in
/-- The type of a name and its modifiers, where it has such. -/
def typeOfValues (name : String) : List ℤ → Option CanonicalType
  | [n] =>
    if name ∈ characterTypes then some { name := name, length := some n }
    else if name = "numeric" then some { name := name, precision := some n }
    else none
  | [p, s] =>
    if name = "numeric" then some { name := name, precision := some p, scale := some s } else none
  | _ => none

/-- `tuple(int(value.strip()) for value in arguments.split(","))`. -/
def typeArguments (arguments : List Char) : Except String (List ℤ) :=
  (arguments.splitOnP (· = ',')).mapM fun value => intOfText (strip PyText.isSpace value)

/-- `parse_postgres_type`, or the message of its `ValueError`. -/
def parsePostgresType (typeSpec : String) : Except String CanonicalType :=
  match Regex.fullmatch typePattern (PyText.lower (pyStrip typeSpec)).toList with
  | none => .error s!"invalid PostgreSQL type: {typeSpec}"
  | some m =>
    let name := normalizeName (String.ofList ((m.group? "1").getD []))
    match m.group? "2" with
    | none => .ok { name := name }
    | some arguments => do
      let values ← typeArguments arguments
      match typeOfValues name values with
      | some t => .ok t
      | none => .error s!"unsupported PostgreSQL type modifiers: {typeSpec}"

/-- The modifiers' integers are read one by one. -/
theorem typeArguments_eq_ok_iff {texts : List (List Char)} {values : List ℤ} (hne : texts ≠ [])
    (hcomma : ∀ text ∈ texts, ',' ∉ text) :
    typeArguments ([','].intercalate texts) = .ok values ↔
      List.Forall₂ (fun text n => intOfText (strip PyText.isSpace text) = .ok n) texts values := by
  have hsplit : ([','].intercalate texts).splitOnP (· = ',') = texts := by
    refine splitOnP_intercalate (by rfl) hne fun text htext c hc => ?_
    have hnot : c ≠ ',' := fun h => hcomma text htext (h ▸ hc)
    simpa using hnot
  rw [typeArguments, hsplit, mapM_ok_iff]

/-- **What is parsed**: a name, and the type of its modifiers where there
are brackets. -/
theorem parsePostgresType_eq_ok_iff {typeSpec : String} {t : CanonicalType} :
    parsePostgresType typeSpec = .ok t ↔
      ∃ name arguments, typeParts (PyText.lower (pyStrip typeSpec)).toList = some (name, arguments) ∧
        match arguments with
        | none => t = { name := normalizeName (String.ofList name) }
        | some arguments => ∃ values, typeArguments arguments = .ok values ∧
            typeOfValues (normalizeName (String.ofList name)) values = some t := by
  rw [parsePostgresType, fullmatch_typePattern]
  cases hparts : typeParts (PyText.lower (pyStrip typeSpec)).toList with
  | none => simp
  | some parts =>
    obtain ⟨name, arguments⟩ := parts
    cases arguments with
    | none =>
      have hgroup : List.lookup "2" [("1", name)] = none := rfl
      simp [Match.group?, hgroup, eq_comm]
    | some arguments =>
      have hgroup : List.lookup "2" [("1", name), ("2", arguments)] = some arguments := rfl
      simp only [Option.map_some, Match.group?, Option.toList_some, hgroup]
      cases hvalues : typeArguments arguments with
      | error e => simp [hvalues, bind, Except.bind]
      | ok values =>
        cases htype : typeOfValues (normalizeName (String.ofList name)) values with
        | none => simp [hvalues, htype, bind, Except.bind]
        | some t' => simp [hvalues, htype, bind, Except.bind]

end Parse

/-! ## What is parsed is rendered -/

section Render

variable [PyText] [PyText.Lawful] {name s : String} {t : CanonicalType}

/-- The names of types that are parsed: normal, and without brackets. -/
structure PlainName (name : String) : Prop where
  normal : NormalName name
  nonempty : name ≠ ""
  noParen : ∀ c ∈ name.toList, notParen c = true

/-- A type that has its name alone, or modifiers that its name takes. -/
inductive Parsed : CanonicalType → Prop
  | named {name : String} : PlainName name → Parsed { name := name }
  | modified {name : String} {values : List ℤ} {t : CanonicalType} :
      PlainName name → typeOfValues name values = some t → Parsed t

omit [PyText] [PyText.Lawful] in
theorem name_of_typeParts {text name : List Char} {arguments : Option (List Char)}
    (h : typeParts text = some (name, arguments)) :
    name = text.takeWhile notParen ∧ name ≠ [] := by
  rw [typeParts] at h
  by_cases hname : text.takeWhile notParen = []
  · rw [if_pos hname] at h
    cases h
  · rw [if_neg hname] at h
    have hfirst : name = text.takeWhile notParen := by
      split at h
      · exact (congrArg Prod.fst (Option.some.inj h)).symm
      · split at h
        · exact (congrArg Prod.fst (Option.some.inj h)).symm
        · cases h
    exact ⟨hfirst, hfirst ▸ hname⟩

/-- **A parsed name is plain.** -/
theorem plainName_of_parts (h : IsAscii s) {name : List Char} {arguments : Option (List Char)}
    (hparts : typeParts (PyText.lower (pyStrip s)).toList = some (name, arguments)) :
    PlainName (normalizeName (String.ofList name)) := by
  obtain ⟨hname, hne⟩ := name_of_typeParts hparts
  rw [lower_pyStrip_ascii h, toList_asciiLower, toList_pyStrip_ascii] at hname
  have hstripped : IsAscii (@pyStrip asciiText s) := @isAscii_pyStrip s asciiText h
  have hmem : ∀ c ∈ name, notParen c = true ∧ ∃ d ∈ strip asciiSpace s.toList, c = d.toLower := by
    intro c hc
    rw [hname] at hc
    obtain ⟨d, hd, heq⟩ := List.mem_map.1 ((List.takeWhile_prefix _).subset hc)
    exact ⟨List.mem_takeWhile_imp hc, d, hd, heq.symm⟩
  have hascii : IsAscii (String.ofList name) := by
    intro c hc
    rw [String.toList_ofList] at hc
    obtain ⟨-, d, hd, rfl⟩ := hmem c hc
    refine (toLower_ascii (hstripped d ?_)).1
    rwa [toList_pyStrip_ascii]
  have hlong : ∀ entry ∈ typeAliases, entry.2 ≠ "" ∧ ∀ c ∈ entry.2.toList, notParen c = true := by
    decide
  have htext : typeText (String.ofList name) ≠ "" := by
    obtain ⟨c, tail, hcons⟩ := List.exists_cons_of_ne_nil hne
    have hspace : asciiSpace c = false := by
      cases hfirst : strip asciiSpace s.toList with
      | nil =>
        rw [hfirst, hcons] at hname
        cases hname
      | cons e rest =>
        have he : asciiSpace e = false := head?_strip (by rw [hfirst]; rfl)
        have hc : c = e.toLower := by
          have hhead := congrArg List.head? hname
          rw [hcons, hfirst, List.map_cons, List.takeWhile_cons] at hhead
          split at hhead
          · exact Option.some.inj hhead
          · cases hhead
        rw [hc, (toLower_ascii (hstripped e (by simp [toList_pyStrip_ascii, hfirst]))).2.2.1, he]
    have hwords : nameWords (String.ofList name) ≠ [] := by
      rw [nameWords, String.toList_ofList, hcons, List.map_cons]
      refine words_cons_ne_nil ?_
      rw [(toLower_ascii (hascii c (by simp [hcons]))).2.2.1, hspace]
    intro hnil
    have hlist := toList_typeText hascii
    rw [hnil] at hlist
    exact intercalate_ne_nil hwords (fun w hw => (mem_words hw).1) hlist.symm
  have hparen : ∀ c ∈ (typeText (String.ofList name)).toList, notParen c = true := by
    intro c hc
    rcases mem_typeText hascii hc with rfl | ⟨d, hd, rfl⟩
    · rfl
    · rw [String.toList_ofList] at hd
      obtain ⟨hnot, e, he, rfl⟩ := hmem d hd
      rwa [(toLower_ascii (hstripped e (by rwa [toList_pyStrip_ascii]))).2.1]
  rw [normalizeName_eq]
  have hnormal := normalName_normalizeName hascii
  rw [normalizeName_eq] at hnormal
  rcases typeAlias_cases (typeText (String.ofList name)) with hentry | ⟨hsame, -⟩
  · exact ⟨hnormal, (hlong _ hentry).1, (hlong _ hentry).2⟩
  · rw [hsame] at hnormal ⊢
    exact ⟨hnormal, htext, hparen⟩

/-! ## What is rendered is parsed -/

/-- A text in lower case without white space around it is read as it is. -/
theorem lower_pyStrip_eq_self (h : IsAscii s) (hlower : ∀ c ∈ s.toList, c.toLower = c)
    (hhead : ∀ c ∈ s.toList.head?, asciiSpace c = false)
    (hlast : ∀ c ∈ s.toList.getLast?, asciiSpace c = false) : PyText.lower (pyStrip s) = s := by
  refine String.toList_injective ?_
  rw [lower_pyStrip_ascii h, toList_asciiLower, toList_pyStrip_ascii, strip_eq_self hhead hlast]
  exact (List.map_congr_left hlower).trans (List.map_id _)

/-- A normal name begins and ends with a character of a word. -/
theorem NormalName.ends (h : NormalName name) :
    (∀ c ∈ name.toList.head?, asciiSpace c = false) ∧
      ∀ c ∈ name.toList.getLast?, asciiSpace c = false := by
  have hwords : ∀ w ∈ nameWords name, w ≠ [] ∧ ∀ c ∈ w, asciiSpace c = false :=
    fun w hw => ⟨(mem_words hw).1, fun c hc => ((mem_words hw).2 c hc).1⟩
  have hlist := toList_typeText h.ascii
  rw [h.text] at hlist
  rw [hlist]
  refine ⟨fun c hc => ?_, fun c hc => ?_⟩
  · obtain ⟨w, hw, hcw⟩ := head?_intercalate (fun w hw => (hwords w hw).1) hc
    exact (hwords w hw).2 c hcw
  · obtain ⟨w, hw, hcw⟩ := getLast?_intercalate (fun w hw => (hwords w hw).1) hc
    exact (hwords w hw).2 c hcw

theorem NormalName.toLower (h : NormalName name) : ∀ c ∈ name.toList, c.toLower = c := by
  intro c hc
  rw [← h.text] at hc
  exact toLower_of_mem_typeText h.ascii hc

/-- **A plain name is parsed as itself.** -/
theorem parse_name (h : PlainName name) : parsePostgresType name = .ok { name := name } := by
  have hread := lower_pyStrip_eq_self h.normal.ascii h.normal.toLower h.normal.ends.1
    h.normal.ends.2
  refine parsePostgresType_eq_ok_iff.2 ⟨name.toList, none, ?_, ?_⟩
  · have htake : name.toList.takeWhile notParen = name.toList :=
      List.takeWhile_eq_self_iff.2 h.noParen
    have hdrop : name.toList.dropWhile notParen = [] := List.dropWhile_eq_nil_iff.2 h.noParen
    have hne : name.toList ≠ [] := fun hnil => h.nonempty (String.toList_injective hnil)
    rw [hread, typeParts, htake, hdrop, if_neg hne]
  · rw [String.ofList_toList, h.normal.normalizeName_eq_self]

omit [PyText] [PyText.Lawful] in
theorem mem_decimal {n : ℤ} {c : Char} (h : c ∈ Json.decimal n) : c = '-' ∨ c.isDigit = true := by
  cases n with
  | ofNat n => exact Or.inr (Json.isDigit_toDigits n c h)
  | negSucc n => exact (List.mem_cons.1 h).imp_right (Json.isDigit_toDigits _ c)

omit [PyText] [PyText.Lawful] in
/-- What a sign and digits are not. -/
theorem signedChar {c : Char} (h : c = '-' ∨ c.isDigit = true) :
    c.toNat < 128 ∧ c.toLower = c ∧ asciiSpace c = false ∧ notParen c = true ∧ c ≠ ',' := by
  rcases h with rfl | hdigit
  · decide
  · have hascii : c.toNat < 128 := by
      simp only [Char.isDigit, Bool.and_eq_true, decide_eq_true_eq] at hdigit
      have hle : c.val.toNat ≤ 57 := hdigit.2
      have hval : c.toNat = c.val.toNat := rfl
      omega
    have hall := forall_ascii (P := fun c => c.isDigit = true →
      c.toLower = c ∧ asciiSpace c = false ∧ notParen c = true ∧ c ≠ ',') (by decide +kernel) hascii
    exact ⟨hascii, hall hdigit⟩

omit [PyText] [PyText.Lawful] in
theorem modifierChar {values : List ℤ} {c : Char}
    (h : c ∈ [','].intercalate (values.map Json.decimal)) :
    c.toNat < 128 ∧ c.toLower = c ∧ notParen c = true := by
  rcases mem_intercalate h with rfl | ⟨w, hw, hc⟩
  · decide
  · obtain ⟨n, -, rfl⟩ := List.mem_map.1 hw
    obtain ⟨hascii, hlower, -, hparen, -⟩ := signedChar (mem_decimal hc)
    exact ⟨hascii, hlower, hparen⟩

/-- **Rendered modifiers are read again.** -/
theorem typeArguments_decimal {values : List ℤ} (h : values ≠ []) :
    typeArguments ([','].intercalate (values.map Json.decimal)) = .ok values := by
  have hstrip : ∀ n, strip PyText.isSpace (Json.decimal n) = Json.decimal n := by
    intro n
    have hspace : ∀ c ∈ Json.decimal n, PyText.isSpace c = false := by
      intro c hc
      obtain ⟨hascii, -, hnot, -⟩ := signedChar (mem_decimal hc)
      rw [PyText.Lawful.isSpace_ascii c hascii, hnot]
    exact strip_eq_self (fun c hc => hspace c (List.mem_of_mem_head? hc))
      fun c hc => hspace c (List.mem_of_getLast? hc)
  refine (typeArguments_eq_ok_iff (by simpa using h) fun text htext => ?_).2 ?_
  · obtain ⟨n, -, rfl⟩ := List.mem_map.1 htext
    exact fun hc => (signedChar (mem_decimal hc)).2.2.2.2 rfl
  · rw [List.forall₂_map_left_iff, List.forall₂_same]
    exact fun n _ => by rw [hstrip, intOfText_decimal]

/-- A name with the modifiers it takes, as text. -/
def modifiedText (name : String) (values : List ℤ) : List Char :=
  name.toList ++ '(' :: ([','].intercalate (values.map Json.decimal) ++ [')'])

/-- **A plain name with modifiers is parsed as their type.** -/
theorem parse_modified (h : PlainName name) {values : List ℤ}
    (htype : typeOfValues name values = some t) :
    parsePostgresType (String.ofList (modifiedText name values)) = .ok t := by
  have hvalues : values ≠ [] := by
    rintro rfl
    cases htype
  have hchar : ∀ c ∈ modifiedText name values, c.toNat < 128 ∧ c.toLower = c := by
    intro c hc
    rcases List.mem_append.1 hc with hc | hc
    · exact ⟨h.normal.ascii c hc, h.normal.toLower c hc⟩
    · rcases List.mem_cons.1 hc with rfl | hc
      · decide
      · rcases List.mem_append.1 hc with hc | hc
        · exact ⟨(modifierChar hc).1, (modifierChar hc).2.1⟩
        · rw [List.mem_singleton.1 hc]
          decide
  have hne : name.toList ≠ [] := fun hnil => h.nonempty (String.toList_injective hnil)
  have hread : PyText.lower (pyStrip (String.ofList (modifiedText name values))) =
      String.ofList (modifiedText name values) := by
    refine lower_pyStrip_eq_self ?_ ?_ ?_ ?_
    · intro c hc
      rw [String.toList_ofList] at hc
      exact (hchar c hc).1
    · intro c hc
      rw [String.toList_ofList] at hc
      exact (hchar c hc).2
    · rw [String.toList_ofList, modifiedText, List.head?_append_of_ne_nil _ hne]
      exact h.normal.ends.1
    · intro c hc
      have hshape : modifiedText name values =
          (name.toList ++ '(' :: [','].intercalate (values.map Json.decimal)) ++ [')'] := by
        simp [modifiedText]
      rw [String.toList_ofList, hshape, List.getLast?_concat] at hc
      rw [← Option.some.inj hc]
      rfl
  refine parsePostgresType_eq_ok_iff.2 ⟨name.toList, some ([','].intercalate
    (values.map Json.decimal)), ?_, values, typeArguments_decimal hvalues, ?_⟩
  · have htake : (modifiedText name values).takeWhile notParen = name.toList := by
      rw [modifiedText, List.takeWhile_append_of_pos h.noParen, List.takeWhile_cons_of_neg (by decide),
        List.append_nil]
    have hdrop : (modifiedText name values).dropWhile notParen =
        '(' :: ([','].intercalate (values.map Json.decimal) ++ [')']) := by
      rw [modifiedText, List.dropWhile_append_of_pos h.noParen, List.dropWhile_cons_of_neg (by decide)]
    have hinner : ([','].intercalate (values.map Json.decimal) ++ [')']).takeWhile notParen =
        [','].intercalate (values.map Json.decimal) := by
      rw [List.takeWhile_append_of_pos fun c hc => (modifierChar hc).2.2,
        List.takeWhile_cons_of_neg (by decide), List.append_nil]
    have hclose : ([','].intercalate (values.map Json.decimal) ++ [')']).dropWhile notParen =
        [')'] := by
      rw [List.dropWhile_append_of_pos fun c hc => (modifierChar hc).2.2,
        List.dropWhile_cons_of_neg (by decide)]
    rw [hread, String.toList_ofList, typeParts, htake, hdrop, if_neg hne]
    simp only [hinner, hclose, and_self, if_true]
  · rw [String.ofList_toList, h.normal.normalizeName_eq_self, htype]

omit [PyText] [PyText.Lawful] in
/-- What a type with modifiers is rendered as. -/
theorem render_modified {values : List ℤ} (htype : typeOfValues name values = some t) :
    t.render = String.ofList (modifiedText name values) := by
  refine String.toList_injective ?_
  rw [String.toList_ofList]
  have htext : ∀ s : String, toString s = s := fun _ => rfl
  unfold typeOfValues at htype
  split at htype
  · split at htype
    · obtain rfl := Option.some.inj htype
      simp [CanonicalType.render, modifiedText, toList_repr_int, htext]
    · split at htype
      · obtain rfl := Option.some.inj htype
        simp [CanonicalType.render, modifiedText, toList_repr_int, htext]
      · cases htype
  · split at htype
    · obtain rfl := Option.some.inj htype
      simp [CanonicalType.render, modifiedText, toList_repr_int, htext]
    · cases htype
  · cases htype

/-- **A type that is parsed is parsed again from its rendering.** -/
theorem Parsed.parse_eq (h : Parsed t) : parsePostgresType t.render = .ok t := by
  cases h with
  | named hname => exact parse_name hname
  | modified hname htype =>
    rw [render_modified htype]
    exact parse_modified hname htype

theorem parsed_of_ok (h : IsAscii s) (ht : parsePostgresType s = .ok t) : Parsed t := by
  obtain ⟨name, arguments, hparts, hrest⟩ := parsePostgresType_eq_ok_iff.1 ht
  have hname := plainName_of_parts h hparts
  cases arguments with
  | none =>
    obtain rfl := hrest
    exact .named hname
  | some arguments =>
    obtain ⟨values, -, htype⟩ := hrest
    exact .modified hname htype

/-- **Parsing undoes rendering**: what an ASCII text is parsed as is what its
rendering is parsed as, and the results of two texts are told apart by their
renderings. -/
theorem parse_render (h : IsAscii s) (ht : parsePostgresType s = .ok t) :
    parsePostgresType t.render = .ok t ∧
      ∀ (s' : String) (t' : CanonicalType), IsAscii s' → parsePostgresType s' = .ok t' →
        (t = t' ↔ t.render = t'.render) := by
  have hback := (parsed_of_ok h ht).parse_eq
  refine ⟨hback, fun s' t' h' ht' => ⟨congrArg _, fun hrender => ?_⟩⟩
  have hback' := (parsed_of_ok h' ht').parse_eq
  rw [← hrender, hback] at hback'
  exact Except.ok.inj hback'

end Render

section Sample

attribute [local instance] asciiText asciiText_lawful

def sampleDecimal : CanonicalType := { name := "numeric", precision := some 10, scale := some (-2) }

/-- Two spellings of one type, and its rendering. -/
theorem parse_render_sample :
    parsePostgresType "numeric(10,-2)" = .ok sampleDecimal ∧
      (sampleDecimal = sampleDecimal ↔ sampleDecimal.render = sampleDecimal.render) := by
  have hone : parsePostgresType " DECIMAL ( 10 , -2 ) " = .ok sampleDecimal := by decide +kernel
  have hother : parsePostgresType "numeric(0_10,-02)" = .ok sampleDecimal := by decide +kernel
  have hrender : sampleDecimal.render = "numeric(10,-2)" := by decide +kernel
  obtain ⟨hback, htold⟩ := parse_render (by decide) hone
  exact ⟨hrender ▸ hback, htold _ _ (by decide) hother⟩

end Sample

end SchemaSentry
