import SchemaSentry.Domain.TypeNames
import SchemaSentry.Lib.Substitution
/-!
# Schema Sentry — secrets in a text

The patterns `logging.py` finds secrets by, and the three passes of
`_redact_string`. What each pattern matches is read off as an opener and
what stands behind it (`urlCredential_iff`, `hidesRun_inlineSecret`,
`hidesRun_authorization`).
-/

namespace SchemaSentry

open Lib

/-- `\w`, taken from the Unicode tables. -/
class PyWord where
  isWord : Char → Bool

def REDACTED : String := "[REDACTED]"

/-! ## Characters -/

/-- The letter a character stands for under `re.IGNORECASE`. -/
def foldCase (c : Char) : Char :=
  if c = '\u0130' ∨ c = '\u0131' then 'i'
  else if c = '\u017f' then 's'
  else if c = '\u212a' then 'k'
  else c.toLower

/-- `[a-z]`. -/
def isLetter (c : Char) : Bool := (foldCase c).isLower

/-- `[a-z0-9+.-]`. -/
def schemeChar (c : Char) : Bool := isLetter c || c.isDigit || c ∈ ['+', '.', '-']

/-- `[A-Za-z0-9._~+/=-]`. -/
def credentialChar (c : Char) : Bool :=
  isLetter c || c.isDigit || c ∈ ['.', '_', '~', '+', '/', '=', '-']

section Patterns

variable [PyText] [PyWord]

/-- `[^:/@\s]`. -/
def userChar (c : Char) : Bool := c ∉ [':', '/', '@'] && !PyText.isSpace c

/-- `[^@\s]`. -/
def passwordChar (c : Char) : Bool := c ≠ '@' && !PyText.isSpace c

/-- `[^\s,;&]`. -/
def valueChar (c : Char) : Bool := c ∉ [',', ';', '&'] && !PyText.isSpace c

/-! ## Patterns -/

/-- A word in lower case. -/
def literal (word : String) : Regex Char := .chars (word.toList.map fun c x => foldCase x == c)

/-- `api[_-]?key`. -/
def apiKey : Regex Char :=
  .seq (literal "api") (.seq (.optional (.char (· ∈ ['_', '-']))) (literal "key"))

/-- `password|passwd|pwd|secret|token|api[_-]?key`. -/
def secretNames : List (Regex Char) :=
  [literal "password", literal "passwd", literal "pwd", literal "secret", literal "token", apiKey]

/-- `_SENSITIVE_FIELD`. -/
def sensitiveField : Regex Char :=
  .anyOf (secretNames ++ [literal "authorization", literal "webhook"])

/-- `[a-z][a-z0-9+.-]*://[^:/@\s]+:`. -/
def urlPrefix : Regex Char :=
  .seq (.char isLetter) (.seq (.many schemeChar) (.seq (literal "://")
    (.seq (.plus userChar) (.char (· = ':')))))

/-- `_URL_CREDENTIAL`. -/
def urlCredential : Regex Char :=
  .seq (.group "prefix" urlPrefix)
    (.seq (.group "secret" (.plus passwordChar)) (.group "suffix" (.char (· = '@'))))

/-- `(?:password|passwd|pwd|secret|token|api[_-]?key)\s*[=:]\s*`. -/
def inlinePrefix : Regex Char :=
  .seq (.anyOf secretNames) (.seq (.many PyText.isSpace)
    (.seq (.char (· ∈ ['=', ':'])) (.many PyText.isSpace)))

/-- `_INLINE_SECRET`. -/
def inlineSecret : Regex Char :=
  .seq (.group "prefix" inlinePrefix) (.group "secret" (.plus valueChar))

/-- `\b(?:Basic|Bearer)\s+`. -/
def authorizationPrefix : Regex Char :=
  .seq (.boundary PyWord.isWord) (.seq (.anyOf [literal "basic", literal "bearer"])
    (.plus PyText.isSpace))

/-- `_AUTHORIZATION`. -/
def authorization : Regex Char :=
  .seq (.group "prefix" authorizationPrefix) (.plus credentialChar)

/-! ## Redaction of a text -/

/-- What the group of a match holds. -/
def groupText (m : Match Char) (name : String) : List Char := (m.group? name).getD []

/-- `\g<prefix>[REDACTED]\g<suffix>`. -/
def redactedUrl (m : Match Char) : List Char :=
  groupText m "prefix" ++ (REDACTED.toList ++ groupText m "suffix")

/-- `\g<prefix>[REDACTED]`. -/
def redactedSecret (m : Match Char) : List Char := groupText m "prefix" ++ REDACTED.toList

def redactUrls (text : List Char) : List Char := urlCredential.sub redactedUrl text

def redactInline (text : List Char) : List Char := inlineSecret.sub redactedSecret text

def redactAuthorization (text : List Char) : List Char := authorization.sub redactedSecret text

/-- `_redact_string`. -/
def redactString (value : String) : String :=
  String.ofList (redactAuthorization (redactInline (redactUrls value.toList)))

/-- `_SENSITIVE_FIELD.search(field_name)` finds something. -/
def isSensitive (fieldName : String) : Bool := (sensitiveField.search [] fieldName.toList).isSome

end Patterns

/-! ## Openers -/

section Openers

variable [PyText] [PyWord]

/-- The names of an inline secret. -/
def secretKeys : List (List Char) :=
  ["password", "passwd", "pwd", "secret", "token", "apikey", "api_key", "api-key"].map String.toList

def authorizationWords : List (List Char) := ["basic", "bearer"].map String.toList

/-- `scheme://user:`. -/
def UrlOpener (pre : List Char) : Prop :=
  ∃ c scheme user, pre = c :: scheme ++ (':' :: '/' :: '/' :: (user ++ [':'])) ∧
    isLetter c = true ∧ (∀ x ∈ scheme, schemeChar x = true) ∧
      user ≠ [] ∧ ∀ x ∈ user, userChar x = true

/-- A name of a secret with `=` or `:` behind it. -/
def InlineOpener (pre : List Char) : Prop :=
  ∃ key gap sep gap', pre = key ++ (gap ++ sep :: gap') ∧ key.map foldCase ∈ secretKeys ∧
    (∀ x ∈ gap, PyText.isSpace x = true) ∧ (sep = '=' ∨ sep = ':') ∧
      ∀ x ∈ gap', PyText.isSpace x = true

/-- `Basic` or `Bearer` and white space. -/
def CredentialOpener (pre : List Char) : Prop :=
  ∃ word gap, pre = word ++ gap ∧ word.map foldCase ∈ authorizationWords ∧
    gap ≠ [] ∧ ∀ x ∈ gap, PyText.isSpace x = true

/-- The same, and not in the middle of a word. -/
def AuthorizationOpener (before pre : List Char) : Prop :=
  CredentialOpener pre ∧ ∀ x ∈ before.head?, PyWord.isWord x = false

end Openers

/-! ## What characters are -/

/-- The tables say of letters and white space what Python's documentation does. -/
class PyWord.Lawful [PyText] [PyWord] : Prop where
  isWord_letter : ∀ c : Char, isLetter c = true → PyWord.isWord c = true
  not_isSpace : ∀ c : Char, PyWord.isWord c = true → PyText.isSpace c = false

section Characters

variable {c d : Char} {l : List Char}

theorem toLower_eq_or (c : Char) : c.toLower = c ∨ c.toLower.isLower = true := by
  by_cases hc : c.toNat < 128
  · exact forall_ascii (P := fun c => c.toLower = c ∨ c.toLower.isLower = true)
      (by decide +kernel) hc
  · refine Or.inl (dif_neg ?_)
    rintro ⟨-, hle⟩
    have hle : c.toNat ≤ 90 := UInt32.le_iff_toNat_le.1 hle
    omega

theorem foldCase_eq_or (c : Char) : foldCase c = c ∨ (foldCase c).isLower = true := by
  rw [foldCase]
  split
  · exact Or.inr rfl
  · split
    · exact Or.inr rfl
    · split
      · exact Or.inr rfl
      · exact toLower_eq_or c

/-- What is no letter stands for itself only. -/
theorem eq_of_foldCase_eq (h : foldCase c = d) (hd : d.isLower = false) : c = d := by
  rcases foldCase_eq_or c with hc | hc
  · rw [← hc, h]
  · rw [h, hd] at hc
    cases hc

/-- Letters, digits and the signs a secret is told by. -/
def plainChar (c : Char) : Bool :=
  isLetter c || c.isDigit || c ∈ ['+', '.', '-', '_', '~', '/', '=', ':', '@', '[', ']']

theorem plainChar_of_schemeChar (h : schemeChar c = true) : plainChar c = true := by
  simp only [schemeChar, plainChar, Bool.or_eq_true, decide_eq_true_eq, List.mem_cons] at h ⊢
  tauto

theorem plainChar_of_credentialChar (h : credentialChar c = true) : plainChar c = true := by
  simp only [credentialChar, plainChar, Bool.or_eq_true, decide_eq_true_eq, List.mem_cons] at h ⊢
  tauto

/-- The characters of the names of secrets. -/
def keyChar (c : Char) : Bool := isLetter c || c ∈ ['_', '-']

theorem plainChar_of_keyChar (h : keyChar c = true) : plainChar c = true := by
  simp only [keyChar, plainChar, Bool.or_eq_true, decide_eq_true_eq, List.mem_cons] at h ⊢
  tauto

variable [PyText] [PyWord] [PyText.Lawful] [PyWord.Lawful]

/-- None of these characters is white space. -/
theorem isSpace_of_plainChar (h : plainChar c = true) : PyText.isSpace c = false := by
  by_cases hletter : isLetter c = true
  · exact PyWord.Lawful.not_isSpace c (PyWord.Lawful.isWord_letter c hletter)
  · -- the others are ASCII characters
    have hc : c.toNat < 128 := by
      simp only [plainChar, hletter, Bool.false_or, Bool.or_eq_true, decide_eq_true_eq] at h
      rcases h with h | h
      · simp only [Char.isDigit, Bool.and_eq_true, decide_eq_true_eq] at h
        have hle : c.toNat ≤ 57 := UInt32.le_iff_toNat_le.1 h.2
        omega
      · clear hletter
        revert c
        decide
    have hall : plainChar c = true → asciiSpace c = false :=
      forall_ascii (P := fun c => plainChar c = true → asciiSpace c = false) (by decide +kernel) hc
    rw [PyText.Lawful.isSpace_ascii c hc, hall h]

theorem passwordChar_of_plainChar (h : plainChar c = true) (hc : c ≠ '@') :
    passwordChar c = true := by
  simp [passwordChar, isSpace_of_plainChar h, hc]

theorem valueChar_of_plainChar (h : plainChar c = true) : valueChar c = true := by
  have hc : c ∉ [',', ';', '&'] := by
    intro hmem
    revert h
    revert c
    decide
  simp [valueChar, isSpace_of_plainChar h, hc]

end Characters

/-! ## What the openers take -/

section Openers

variable {before t tail : List Char}

theorem takes_literal {word : String} :
    (literal word).Takes before t tail ↔ t.map foldCase = word.toList := by
  have hmap : t.map foldCase = word.toList ↔
      List.Forall₂ (· = ·) word.toList (t.map foldCase) := by
    rw [List.forall₂_eq_eq_eq]
    exact eq_comm
  have hclass : ∀ c x : Char, (foldCase x == c) = true ↔ c = foldCase x := by
    intro c x
    rw [beq_iff_eq, eq_comm]
  rw [hmap, literal, Regex.takes_chars, List.forall₂_map_left_iff, List.forall₂_map_right_iff]
  simp only [hclass]

theorem takes_apiKey : apiKey.Takes before t tail ↔
    t.map foldCase ∈ ["apikey", "api_key", "api-key"].map String.toList := by
  have hsplit : ∀ mid : List Char, t.map foldCase = "api".toList ++ (mid ++ "key".toList) →
      ∃ u v w, t = u ++ (v ++ w) ∧ u.map foldCase = "api".toList ∧ v.map foldCase = mid ∧
        w.map foldCase = "key".toList := by
    intro mid h
    obtain ⟨u, t', rfl, hu, ht'⟩ := List.map_eq_append_iff.1 h
    obtain ⟨v, w, rfl, hv, hw⟩ := List.map_eq_append_iff.1 ht'
    exact ⟨u, v, w, rfl, hu, hv, hw⟩
  have hsign : ∀ c : Char, c ∈ ['_', '-'] → ∀ v : List Char, v.map foldCase = [c] → v = [c] := by
    intro c hc v h
    obtain ⟨x, rfl, hx⟩ := List.map_eq_singleton_iff.1 h
    have hlower : c.isLower = false := by
      clear hx h
      revert c
      decide
    rw [eq_of_foldCase_eq hx hlower]
  constructor
  · intro h
    obtain ⟨u, v, rfl, hu, hv⟩ := Regex.takes_seq.1 h
    obtain ⟨v, w, rfl, hv, hw⟩ := Regex.takes_seq.1 hv
    rw [List.map_append, List.map_append, takes_literal.1 hu, takes_literal.1 hw]
    rcases Regex.takes_alt.1 hv with hv | hv
    · obtain ⟨x, rfl, hx⟩ := Regex.takes_char.1 hv
      rcases (by simpa using hx : x = '_' ∨ x = '-') with rfl | rfl
      · decide
      · decide
    · rw [Regex.takes_empty.1 hv]
      decide
  · intro h
    have hmid : ∃ mid : List Char, t.map foldCase = "api".toList ++ (mid ++ "key".toList) ∧
        (mid = [] ∨ ∃ c ∈ ['_', '-'], mid = [c]) := by
      rcases List.mem_map.1 h with ⟨word, hword, heq⟩
      rcases (by simpa using hword : word = "apikey" ∨ word = "api_key" ∨ word = "api-key") with
        rfl | rfl | rfl
      · exact ⟨[], heq.symm, Or.inl rfl⟩
      · exact ⟨['_'], heq.symm, Or.inr ⟨'_', by decide, rfl⟩⟩
      · exact ⟨['-'], heq.symm, Or.inr ⟨'-', by decide, rfl⟩⟩
    obtain ⟨mid, ht, hmid⟩ := hmid
    obtain ⟨u, v, w, rfl, hu, hv, hw⟩ := hsplit mid ht
    refine Regex.takes_seq.2 ⟨u, v ++ w, rfl, takes_literal.2 hu,
      Regex.takes_seq.2 ⟨v, w, rfl, Regex.takes_alt.2 ?_, takes_literal.2 hw⟩⟩
    rcases hmid with rfl | ⟨c, hc, rfl⟩
    · exact Or.inr (Regex.takes_empty.2 (List.map_eq_nil_iff.1 hv))
    · exact Or.inl (Regex.takes_char.2 ⟨c, hsign c hc v hv, by simpa using hc⟩)

theorem takes_secretNames : (Regex.anyOf secretNames).Takes before t tail ↔
    t.map foldCase ∈ secretKeys := by
  rw [Regex.takes_anyOf, secretNames, secretKeys]
  simp only [List.mem_cons, List.not_mem_nil, or_false, or_and_right, exists_or, exists_eq_left,
    takes_literal, takes_apiKey, List.map_cons, List.map_nil]

/-- A name of a secret is made of its characters. -/
theorem keyChar_of_secretKeys (h : t.map foldCase ∈ secretKeys) :
    t ≠ [] ∧ ∀ x ∈ t, keyChar x = true := by
  have hkeys : ∀ key ∈ secretKeys, key ≠ [] ∧
      ∀ c ∈ key, c.isLower = true ∨ c.isLower = false ∧ keyChar c = true := by
    decide +kernel
  obtain ⟨hne, hall⟩ := hkeys _ h
  refine ⟨fun hnil => hne (by rw [hnil]; rfl), fun x hx => ?_⟩
  rcases hall _ (List.mem_map_of_mem hx) with hlower | ⟨hlower, hkey⟩
  · rw [keyChar, isLetter, hlower, Bool.true_or]
  · rwa [eq_of_foldCase_eq rfl hlower]

theorem isLetter_of_authorizationWords (h : t.map foldCase ∈ authorizationWords) :
    t ≠ [] ∧ ∀ x ∈ t, isLetter x = true := by
  have hwords : ∀ word ∈ authorizationWords, word ≠ [] ∧ ∀ c ∈ word, c.isLower = true := by
    decide +kernel
  obtain ⟨hne, hall⟩ := hwords _ h
  exact ⟨fun hnil => hne (by rw [hnil]; rfl), fun x hx => hall _ (List.mem_map_of_mem hx)⟩

variable [PyText]

theorem takes_urlPrefix : urlPrefix.Takes before t tail ↔ UrlOpener t := by
  have hmark : ∀ u : List Char, u.map foldCase = "://".toList ↔ u = [':', '/', '/'] := by
    intro u
    refine ⟨fun h => ?_, fun h => by rw [h]; decide⟩
    have hsign : ∀ c ∈ u, c = foldCase c := by
      intro c hc
      have hmem : foldCase c ∈ "://".toList := h ▸ List.mem_map_of_mem hc
      refine eq_of_foldCase_eq rfl ?_
      generalize foldCase c = d at hmem
      revert d
      decide
    have hu : u.map foldCase = u := (List.map_congr_left fun c hc => (hsign c hc).symm).trans
      (List.map_id u)
    rw [← hu, h]
    rfl
  simp only [urlPrefix, Regex.takes_seq, Regex.takes_char, Regex.takes_many, Regex.takes_plus,
    takes_literal, hmark]
  constructor
  · rintro ⟨_, _, rfl, ⟨c, rfl, hc⟩, scheme, _, rfl, hscheme, _, _, rfl, rfl, user, _, rfl,
      ⟨hne, huser⟩, x, rfl, hx⟩
    obtain rfl : x = ':' := by simpa using hx
    exact ⟨c, scheme, user, by simp, hc, hscheme, hne, huser⟩
  · rintro ⟨c, scheme, user, rfl, hc, hscheme, hne, huser⟩
    refine ⟨[c], scheme ++ ([':', '/', '/'] ++ (user ++ [':'])), by simp, ⟨c, rfl, hc⟩, scheme,
      _, rfl, hscheme, [':', '/', '/'], _, rfl, rfl, user, [':'], rfl, ⟨hne, huser⟩, ':', rfl, ?_⟩
    simp

theorem takes_inlinePrefix : inlinePrefix.Takes before t tail ↔ InlineOpener t := by
  simp only [inlinePrefix, Regex.takes_seq, Regex.takes_char, Regex.takes_many, takes_secretNames]
  constructor
  · rintro ⟨key, _, rfl, hkey, gap, _, rfl, hgap, _, gap', rfl, ⟨sep, rfl, hsep⟩, hgap'⟩
    exact ⟨key, gap, sep, gap', rfl, hkey, hgap, by simpa using hsep, hgap'⟩
  · rintro ⟨key, gap, sep, gap', rfl, hkey, hgap, hsep, hgap'⟩
    exact ⟨key, _, rfl, hkey, gap, _, rfl, hgap, [sep], gap', rfl, ⟨sep, rfl, by simpa using hsep⟩,
      hgap'⟩

theorem takes_authorizationPrefix [PyWord] [PyWord.Lawful] :
    authorizationPrefix.Takes before t tail ↔ AuthorizationOpener before t := by
  have hwords : ∀ before u tail, (Regex.anyOf [literal "basic", literal "bearer"]).Takes before u
      tail ↔ u.map foldCase ∈ authorizationWords := by
    intro before u tail
    rw [Regex.takes_anyOf, authorizationWords]
    simp [takes_literal]
  -- a word character follows, so none stands before
  have hedge : ∀ {word gap : List Char}, word.map foldCase ∈ authorizationWords →
      (before.head?.any PyWord.isWord ≠ ((word ++ gap) ++ tail).head?.any PyWord.isWord ↔
        ∀ x ∈ before.head?, PyWord.isWord x = false) := by
    intro word gap hword
    obtain ⟨hne, hall⟩ := isLetter_of_authorizationWords hword
    obtain ⟨c, word, rfl⟩ := List.exists_cons_of_ne_nil hne
    have hc := PyWord.Lawful.isWord_letter c (hall c List.mem_cons_self)
    rw [List.cons_append, List.cons_append, List.head?_cons, Option.any_some, hc]
    cases before with
    | nil => simp
    | cons x before => simp
  simp only [authorizationPrefix, Regex.takes_seq, Regex.takes_boundary, Regex.takes_plus, hwords]
  constructor
  · rintro ⟨_, _, rfl, ⟨rfl, hb⟩, word, gap, rfl, hword, hne, hgap⟩
    exact ⟨⟨word, gap, rfl, hword, hne, hgap⟩, (hedge hword).1 hb⟩
  · rintro ⟨⟨word, gap, rfl, hword, hne, hgap⟩, hb⟩
    exact ⟨[], word ++ gap, rfl, ⟨rfl, (hedge hword).2 hb⟩, word, gap, rfl, hword, hne, hgap⟩

end Openers

/-! ## What the patterns match -/

section Readings

variable [PyText] [PyWord] {before text pre pre' tail tail' : List Char} {m : Match Char} {c : Char}

omit [PyText] [PyWord] in
theorem plain_literal (word : String) : (literal word).Plain := Regex.plain_chars _

omit [PyWord] in
/-- An opener is told by the colons in it. -/
theorem UrlOpener.inj (h : UrlOpener pre) (h' : UrlOpener pre') (heq : pre ++ tail = pre' ++ tail') :
    pre = pre' := by
  have hfront : ∀ {c : Char} {scheme : List Char}, isLetter c = true →
      (∀ x ∈ scheme, schemeChar x = true) → ∀ x ∈ c :: scheme, schemeChar x = true := by
    intro c scheme hc hscheme
    refine List.forall_mem_cons.2 ⟨?_, hscheme⟩
    rw [schemeChar, hc, Bool.true_or, Bool.true_or]
  have hcolon : userChar ':' = false := by simp [userChar]
  obtain ⟨c, scheme, user, rfl, hc, hscheme, -, huser⟩ := h
  obtain ⟨c', scheme', user', rfl, hc', hscheme', -, huser'⟩ := h'
  have hsplit : c :: scheme ++ ':' :: '/' :: '/' :: (user ++ ':' :: tail) =
      c' :: scheme' ++ ':' :: '/' :: '/' :: (user' ++ ':' :: tail') := by
    simpa using heq
  obtain ⟨hscheme, hrest⟩ := append_inj_of_class (hfront hc hscheme) (ends_cons (by decide))
    (hfront hc' hscheme') (ends_cons (by decide)) hsplit
  simp only [List.cons.injEq, true_and] at hrest
  obtain ⟨huser, -⟩ := append_inj_of_class huser (ends_cons hcolon) huser' (ends_cons hcolon) hrest
  rw [hscheme, huser]

omit [PyWord] in
/-- **`_URL_CREDENTIAL`** matches an opener, a password and `@`. -/
theorem urlCredential_iff : urlCredential.matchAt before text = some m ↔
    ∃ pre secret rest, text = pre ++ (secret ++ '@' :: rest) ∧ UrlOpener pre ∧ secret ≠ [] ∧
      (∀ x ∈ secret, passwordChar x = true) ∧
        m = ⟨pre ++ (secret ++ ['@']), [("prefix", pre), ("secret", secret), ("suffix", ['@'])]⟩ := by
  have hplain : urlPrefix.Plain :=
    ⟨trivial, trivial, plain_literal _, ⟨trivial, trivial⟩, trivial⟩
  have hat : ∀ x, passwordChar x = true → decide (x = '@') = false := by
    intro x hx
    simp only [passwordChar, Bool.and_eq_true, decide_eq_true_eq] at hx
    exact decide_eq_false hx.1
  rw [urlCredential, Regex.matchAt_group_seq_iff hplain fun heq h h' _ _ =>
    (takes_urlPrefix.1 h).inj (takes_urlPrefix.1 h') heq]
  simp only [Regex.matchAt_run_char hat, takes_urlPrefix]
  constructor
  · rintro ⟨pre, _, _, rfl, hpre, ⟨secret, x, rest, rfl, hne, hall, hx, rfl⟩, rfl⟩
    obtain rfl : x = '@' := by simpa using hx
    exact ⟨pre, secret, rest, rfl, hpre, hne, hall, rfl⟩
  · rintro ⟨pre, secret, rest, rfl, hpre, hne, hall, rfl⟩
    exact ⟨pre, _, _, rfl, hpre, ⟨secret, '@', rest, rfl, hne, hall, by simp, rfl⟩, rfl⟩

variable [PyText.Lawful] [PyWord.Lawful]

theorem InlineOpener.inj (h : InlineOpener pre) (h' : InlineOpener pre')
    (heq : pre ++ tail = pre' ++ tail') (htail : ∀ x ∈ tail.head?, PyText.isSpace x = false)
    (htail' : ∀ x ∈ tail'.head?, PyText.isSpace x = false) : pre = pre' := by
  -- neither white space nor the sign behind a name is one of its characters
  have hmid : ∀ {gap gap' : List Char} {sep : Char}, (∀ x ∈ gap, PyText.isSpace x = true) →
      (sep = '=' ∨ sep = ':') → ∀ x ∈ (gap ++ sep :: gap').head?, keyChar x = false := by
    intro gap gap' sep hgap hsep
    cases gap with
    | nil => exact ends_cons (by rcases hsep with rfl | rfl <;> decide)
    | cons y gap =>
      refine ends_cons ?_
      by_contra hkey
      have hspace := isSpace_of_plainChar (plainChar_of_keyChar (by simpa using hkey))
      rw [hgap y List.mem_cons_self] at hspace
      cases hspace
  have hsign : ∀ {sep : Char}, sep = '=' ∨ sep = ':' → PyText.isSpace sep = false := by
    rintro sep (rfl | rfl)
    · exact isSpace_of_plainChar (by decide)
    · exact isSpace_of_plainChar (by decide)
  obtain ⟨key, gap, sep, mid, rfl, hkey, hgap, hsep, hmidgap⟩ := h
  obtain ⟨key', gap', sep', mid', rfl, hkey', hgap', hsep', hmidgap'⟩ := h'
  have hsplit : key ++ (gap ++ sep :: (mid ++ tail)) = key' ++ (gap' ++ sep' :: (mid' ++ tail')) := by
    simpa using heq
  obtain ⟨hkeys, hrest⟩ := append_inj_of_class (keyChar_of_secretKeys hkey).2 (hmid hgap hsep)
    (keyChar_of_secretKeys hkey').2 (hmid hgap' hsep') hsplit
  obtain ⟨hgaps, hrest⟩ := append_inj_of_class hgap (ends_cons (hsign hsep)) hgap'
    (ends_cons (hsign hsep')) hrest
  obtain ⟨hseps, hrest⟩ := List.cons.inj hrest
  obtain ⟨hmids, -⟩ := append_inj_of_class hmidgap htail hmidgap' htail' hrest
  rw [hkeys, hgaps, hseps, hmids]

omit [PyText.Lawful] in
theorem CredentialOpener.inj (h : CredentialOpener pre) (h' : CredentialOpener pre')
    (heq : pre ++ tail = pre' ++ tail') (htail : ∀ x ∈ tail.head?, PyText.isSpace x = false)
    (htail' : ∀ x ∈ tail'.head?, PyText.isSpace x = false) : pre = pre' := by
  have hspace : ∀ {gap tail : List Char}, gap ≠ [] → (∀ x ∈ gap, PyText.isSpace x = true) →
      ∀ x ∈ (gap ++ tail).head?, isLetter x = false := by
    intro gap tail hne hgap
    obtain ⟨y, gap, rfl⟩ := List.exists_cons_of_ne_nil hne
    refine ends_cons ?_
    by_contra hletter
    have hnot := PyWord.Lawful.not_isSpace y
      (PyWord.Lawful.isWord_letter y (by simpa using hletter))
    rw [hgap y List.mem_cons_self] at hnot
    cases hnot
  obtain ⟨word, gap, rfl, hword, hne, hgap⟩ := h
  obtain ⟨word', gap', rfl, hword', hne', hgap'⟩ := h'
  rw [List.append_assoc, List.append_assoc] at heq
  obtain ⟨hwords, hrest⟩ := append_inj_of_class (isLetter_of_authorizationWords hword).2
    (hspace hne hgap) (isLetter_of_authorizationWords hword').2 (hspace hne' hgap') heq
  obtain ⟨hgaps, -⟩ := append_inj_of_class hgap htail hgap' htail' hrest
  rw [hwords, hgaps]

/-- **`_INLINE_SECRET`** matches an opener and the longest value behind it. -/
theorem hidesRun_inlineSecret : Regex.HidesRun inlineSecret redactedSecret
    (fun _ => InlineOpener) valueChar REDACTED.toList := by
  have hplain : inlinePrefix.Plain := by
    refine ⟨Regex.plain_anyOf ?_, trivial, trivial, trivial⟩
    have hkey : apiKey.Plain := ⟨plain_literal _, ⟨trivial, trivial⟩, plain_literal _⟩
    simp [secretNames, plain_literal, hkey]
  have hvalue : ∀ {text : List Char}, (∀ x ∈ text.head?, valueChar x = true) →
      ∀ x ∈ text.head?, PyText.isSpace x = false := by
    intro text h x hx
    have hx := h x hx
    simp only [valueChar, Bool.and_eq_true, Bool.not_eq_true'] at hx
    exact hx.2
  refine .of_group (g := fun run => [("secret", run)]) hplain takes_inlinePrefix ?_
    (fun h h' heq ht ht' => h.inj h' heq (hvalue ht) (hvalue ht')) fun pre run => rfl
  intro before text k
  rw [Regex.matchAt_group, Option.map_eq_some_iff]
  constructor
  · rintro ⟨l, hl, rfl⟩
    obtain ⟨run, rest, rfl, hrun, rfl⟩ := Regex.matchAt_plus.1 hl
    exact ⟨run, rest, rfl, hrun, rfl⟩
  · rintro ⟨run, rest, rfl, hrun, rfl⟩
    exact ⟨⟨run, []⟩, Regex.matchAt_plus.2 ⟨run, rest, rfl, hrun, rfl⟩, rfl⟩

/-- **`_AUTHORIZATION`** matches an opener and the longest credential behind it. -/
theorem hidesRun_authorization : Regex.HidesRun authorization redactedSecret
    AuthorizationOpener credentialChar REDACTED.toList := by
  have hplain : authorizationPrefix.Plain :=
    ⟨trivial, Regex.plain_anyOf (by simp [plain_literal]), trivial, trivial⟩
  have hcredential : ∀ {text : List Char}, (∀ x ∈ text.head?, credentialChar x = true) →
      ∀ x ∈ text.head?, PyText.isSpace x = false := fun h x hx =>
    isSpace_of_plainChar (plainChar_of_credentialChar (h x hx))
  exact .of_group (g := fun _ => []) hplain takes_authorizationPrefix Regex.matchAt_plus
    (fun h h' heq ht ht' => h.1.inj h'.1 heq (hcredential ht) (hcredential ht')) fun pre run => rfl

end Readings

end SchemaSentry
