import SchemaSentry.Lib.Dict
import Mathlib.Data.List.Sort
import Mathlib.Data.String.Basic
import Mathlib.Tactic.IntervalCases
/-!
# JSON text, canonically

JSON values without arrays or floats, and the text `json.dumps` writes for
them with `sort_keys=True`, `separators=(",", ":")` and its default
`ensure_ascii`. The text determines the value up to the order of object
keys (`sortKeys_eq_of_dumps_eq`): every token ends where the next one can
be told from it, so a text is read back in one way only.
-/

namespace Lib

/-- A JSON value: `None`, a `bool`, an `int`, a `str` or a `dict`, whose
fields are in the order the dict was built in. -/
inductive Json where
  | null
  | bool (b : Bool)
  | int (n : ℤ)
  | str (s : String)
  | obj (fields : List (String × Json))

/-- The fields of a JSON object. -/
abbrev JsonObject := List (String × Json)

namespace Json

/-! ## Equality -/

mutual

/-- Whether two values are the same. -/
def same : Json → Json → Bool
  | .null, .null => true
  | .bool a, .bool b => a = b
  | .int m, .int n => m = n
  | .str s, .str t => s = t
  | .obj fs, .obj gs => sameFields fs gs
  | _, _ => false

/-- Whether two lists of fields are the same. -/
def sameFields : List (String × Json) → List (String × Json) → Bool
  | [], [] => true
  | (key, value) :: fs, (key', value') :: gs =>
    key = key' && same value value' && sameFields fs gs
  | _, _ => false

end

mutual

theorem same_iff : ∀ a b : Json, same a b ↔ a = b
  | .null, b => by cases b <;> simp [same]
  | .bool a, b => by cases b <;> simp [same]
  | .int m, b => by cases b <;> simp [same]
  | .str s, b => by cases b <;> simp [same]
  | .obj fs, b => by
    cases b with
    | obj gs => simp [same, sameFields_iff fs gs]
    | null | bool | int | str => simp [same]

theorem sameFields_iff : ∀ fs gs : JsonObject, sameFields fs gs ↔ fs = gs
  | [], gs => by cases gs <;> simp [sameFields]
  | (key, value) :: fs, gs => by
    cases gs with
    | nil => simp [sameFields]
    | cons g gs =>
      obtain ⟨key', value'⟩ := g
      simp [sameFields, same_iff value value', sameFields_iff fs gs, and_assoc]

end

instance : DecidableEq Json := fun a b => decidable_of_iff _ (same_iff a b)

/-! ## Strings -/

/-- A lower-case hexadecimal digit. -/
def hexDigit (n : ℕ) : Char :=
  if n < 10 then Char.ofNat (0x30 + n) else Char.ofNat (0x57 + n)

/-- The value of a lower-case hexadecimal digit. -/
def hexValue (c : Char) : ℕ :=
  if c.toNat < 0x3a then c.toNat - 0x30 else c.toNat - 0x57

theorem hexValue_hexDigit {n : ℕ} (h : n < 16) : hexValue (hexDigit n) = n := by
  interval_cases n <;> decide

/-- `\uXXXX`. -/
def unicodeEscape (n : ℕ) : List Char :=
  ['\\', 'u', hexDigit (n / 4096 % 16), hexDigit (n / 256 % 16), hexDigit (n / 16 % 16),
    hexDigit (n % 16)]

/-- The short escapes: the letter after the backslash. -/
def shortCode (c : Char) : Option Char :=
  if c = '"' then some '"'
  else if c = '\\' then some '\\'
  else if c = '\n' then some 'n'
  else if c = '\r' then some 'r'
  else if c = '\t' then some 't'
  else if c = '\x0c' then some 'f'
  else if c = '\x08' then some 'b'
  else none

/-- One character as `ensure_ascii` writes it: a short escape, a printable
ASCII character as it is, and `\uXXXX` for the others, as a surrogate pair
beyond the basic plane. -/
def escapeChar (c : Char) : List Char :=
  match shortCode c with
  | some code => ['\\', code]
  | none =>
    if 0x20 ≤ c.toNat ∧ c.toNat ≤ 0x7e then [c]
    else if c.toNat < 0x10000 then unicodeEscape c.toNat
    else
      unicodeEscape (0xd800 + (c.toNat - 0x10000) / 0x400) ++
        unicodeEscape (0xdc00 + (c.toNat - 0x10000) % 0x400)

/-- The number four hexadecimal digits write. -/
def hexNumber (a b c d : Char) : ℕ :=
  hexValue a * 4096 + hexValue b * 256 + hexValue c * 16 + hexValue d

/-- The character a short escape stands for. -/
def shortEscape (code : Char) : Char :=
  if code = 'n' then '\n'
  else if code = 'r' then '\r'
  else if code = 't' then '\t'
  else if code = 'f' then '\x0c'
  else if code = 'b' then '\x08'
  else code

/-- The first character an escaped text writes, and the text after it. -/
def unescape : List Char → Option (Char × List Char)
  | '\\' :: 'u' :: a :: b :: c :: d :: rest =>
    let n := hexNumber a b c d
    if 0xd800 ≤ n ∧ n < 0xdc00 then
      match rest with
      | _ :: _ :: a' :: b' :: c' :: d' :: rest =>
        some (Char.ofNat (0x10000 + (n - 0xd800) * 0x400 + (hexNumber a' b' c' d' - 0xdc00)), rest)
      | _ => none
    else some (Char.ofNat n, rest)
  | '\\' :: c :: rest => some (shortEscape c, rest)
  | c :: rest => some (c, rest)
  | [] => none

theorem hexNumber_hexDigit {n : ℕ} (h : n < 65536) :
    hexNumber (hexDigit (n / 4096 % 16)) (hexDigit (n / 256 % 16)) (hexDigit (n / 16 % 16))
      (hexDigit (n % 16)) = n := by
  simp only [hexNumber, hexValue_hexDigit (Nat.mod_lt _ (by omega : 16 > 0))]
  omega

theorem unescape_unicodeEscape {n : ℕ} (h : n < 65536) (hlow : ¬ (0xd800 ≤ n ∧ n < 0xdc00))
    (rest : List Char) :
    unescape (unicodeEscape n ++ rest) = some (Char.ofNat n, rest) := by
  simp only [unicodeEscape, List.cons_append, List.nil_append, unescape]
  rw [hexNumber_hexDigit h, if_neg hlow]

theorem unescape_surrogates {n m : ℕ} (hn : 0xd800 ≤ n ∧ n < 0xdc00) (hm : m < 65536)
    (rest : List Char) :
    unescape (unicodeEscape n ++ (unicodeEscape m ++ rest)) =
      some (Char.ofNat (0x10000 + (n - 0xd800) * 0x400 + (m - 0xdc00)), rest) := by
  simp only [unicodeEscape, List.cons_append, List.nil_append, unescape]
  rw [hexNumber_hexDigit (by omega), hexNumber_hexDigit hm, if_pos hn]

/-- A short escape is read back, and is not taken for `\uXXXX`. -/
theorem shortEscape_of_shortCode {c code : Char} (h : shortCode c = some code) :
    shortEscape code = c ∧ code ≠ 'u' := by
  unfold shortCode at h
  repeat'
    split at h
    · rename_i hc
      obtain rfl := Option.some.inj h
      subst hc
      decide
  cases h

theorem ne_of_shortCode {c : Char} (h : shortCode c = none) : c ≠ '"' ∧ c ≠ '\\' := by
  constructor <;> rintro rfl <;> exact absurd h (by decide)

theorem unescape_short {code : Char} (h : code ≠ 'u') (rest : List Char) :
    unescape ('\\' :: code :: rest) = some (shortEscape code, rest) := by
  rw [unescape]
  rintro a b c d rest' rfl
  exact absurd rfl h

/-- A character that is no backslash stands for itself. -/
theorem unescape_plain {c : Char} (h : c ≠ '\\') (rest : List Char) :
    unescape (c :: rest) = some (c, rest) := by
  rw [unescape]
  · intro _ _ _ _ _ hc _
    exact absurd hc h
  · intro _ _ hc _
    exact absurd hc h

/-- A character's code point is outside the surrogates and below the end
of Unicode. -/
theorem toNat_valid (c : Char) : c.toNat < 0xd800 ∨ (0xdfff < c.toNat ∧ c.toNat < 0x110000) :=
  c.valid

/-- **An escaped character is read back.** -/
theorem unescape_escapeChar (c : Char) (rest : List Char) :
    unescape (escapeChar c ++ rest) = some (c, rest) := by
  have hvalid := toNat_valid c
  unfold escapeChar
  cases hs : shortCode c with
  | some code =>
    obtain ⟨hcode, hu⟩ := shortEscape_of_shortCode hs
    exact hcode ▸ unescape_short hu rest
  | none =>
    dsimp only
    split
    · exact unescape_plain (ne_of_shortCode hs).2 rest
    · split
      · rw [unescape_unicodeEscape (by omega) (by omega), Char.ofNat_toNat]
      · rw [List.append_assoc, unescape_surrogates (by omega) (by omega)]
        have : 0x10000 + (0xd800 + (c.toNat - 0x10000) / 0x400 - 0xd800) * 0x400 +
            (0xdc00 + (c.toNat - 0x10000) % 0x400 - 0xdc00) = c.toNat := by omega
        rw [this, Char.ofNat_toNat]

/-- An escaped character does not look like the end of its string. -/
theorem escapeChar_head (c : Char) : ∃ a l, escapeChar c = a :: l ∧ a ≠ '"' := by
  unfold escapeChar unicodeEscape
  cases hs : shortCode c with
  | some code => exact ⟨_, _, rfl, by decide⟩
  | none =>
    dsimp only
    split
    · exact ⟨_, _, rfl, (ne_of_shortCode hs).1⟩
    · split <;> exact ⟨_, _, rfl, by decide⟩

/-- A string's characters and the quote that ends it. -/
def quoteTail : List Char → List Char
  | [] => ['"']
  | c :: cs => escapeChar c ++ quoteTail cs

/-- A string as JSON writes it. -/
def quote (s : String) : List Char := '"' :: quoteTail s.toList

theorem quoteTail_append_inj : ∀ {cs ds s t : List Char},
    quoteTail cs ++ s = quoteTail ds ++ t → cs = ds ∧ s = t := by
  intro cs
  induction cs with
  | nil =>
    intro ds s t h
    cases ds with
    | nil => exact ⟨rfl, by simpa [quoteTail] using h⟩
    | cons d ds =>
      obtain ⟨a, l, he, ha⟩ := escapeChar_head d
      simp only [quoteTail, he, List.cons_append, List.append_assoc, List.cons.injEq] at h
      exact absurd h.1.symm ha
  | cons c cs ih =>
    intro ds s t h
    cases ds with
    | nil =>
      obtain ⟨a, l, he, ha⟩ := escapeChar_head c
      simp only [quoteTail, he, List.cons_append, List.append_assoc, List.cons.injEq] at h
      exact absurd h.1 ha
    | cons d ds =>
      simp only [quoteTail, List.append_assoc] at h
      have hread := congrArg unescape h
      rw [unescape_escapeChar, unescape_escapeChar] at hread
      obtain ⟨hc, hrest⟩ := Prod.mk.inj (Option.some.inj hread)
      obtain ⟨hcs, hst⟩ := ih hrest
      exact ⟨by rw [hc, hcs], hst⟩

theorem quote_append_inj {a b : String} {s t : List Char}
    (h : quote a ++ s = quote b ++ t) : a = b ∧ s = t := by
  obtain ⟨hl, hst⟩ := quoteTail_append_inj (List.cons.inj h).2
  exact ⟨String.toList_injective hl, hst⟩

/-! ## Integers -/

/-- An integer in decimal. -/
def decimal : ℤ → List Char
  | .ofNat n => Nat.toDigits 10 n
  | .negSucc n => '-' :: Nat.toDigits 10 (n + 1)

/-- A text that goes on with a comma or a closing brace, or ends: what can
follow a value. -/
def Stops (s : List Char) : Prop := ∀ c ∈ s.head?, c = ',' ∨ c = '}'

/-- Digits end where the value does. -/
theorem digits_append_inj {ds es s t : List Char} (hd : ∀ c ∈ ds, c.isDigit)
    (he : ∀ c ∈ es, c.isDigit) (hs : Stops s) (ht : Stops t) (h : ds ++ s = es ++ t) :
    ds = es ∧ s = t := by
  have span : ∀ {ds s : List Char}, (∀ c ∈ ds, c.isDigit) → Stops s →
      (ds ++ s).takeWhile Char.isDigit = ds := by
    intro ds s hd hs
    rw [List.takeWhile_append_of_pos hd]
    cases s with
    | nil => simp
    | cons c s =>
      rcases hs c rfl with rfl | rfl
      · rw [List.takeWhile_cons_of_neg (by decide), List.append_nil]
      · rw [List.takeWhile_cons_of_neg (by decide), List.append_nil]
  have hds : ds = es := by rw [← span hd hs, h, span he ht]
  subst hds
  exact ⟨rfl, List.append_cancel_left h⟩

theorem toDigits_inj {m n : ℕ} (h : Nat.toDigits 10 m = Nat.toDigits 10 n) : m = n := by
  rw [← Nat.ofDigitChars_ten_toDigits (n := m), h, Nat.ofDigitChars_ten_toDigits]

theorem isDigit_toDigits (n : ℕ) : ∀ c ∈ Nat.toDigits 10 n, c.isDigit :=
  fun _ hc => Nat.isDigit_of_mem_toDigits (by decide) (by decide) hc

/-- A number's digits do not open with any other character. -/
theorem toDigits_ne_cons {n : ℕ} {c : Char} {s l : List Char} (hc : c.isDigit = false) :
    Nat.toDigits 10 n ++ s ≠ c :: l := by
  intro h
  cases hds : Nat.toDigits 10 n with
  | nil => exact absurd hds Nat.toDigits_ne_nil
  | cons d ds =>
    have hd : d.isDigit := isDigit_toDigits n d (by rw [hds]; exact List.mem_cons_self)
    rw [hds, List.cons_append] at h
    rw [(List.cons.inj h).1, hc] at hd
    exact absurd hd (by decide)

theorem decimal_append_inj {m n : ℤ} {s t : List Char} (hs : Stops s) (ht : Stops t)
    (h : decimal m ++ s = decimal n ++ t) : m = n ∧ s = t := by
  cases m with
  | ofNat m =>
    cases n with
    | ofNat n =>
      obtain ⟨hd, hst⟩ := digits_append_inj (isDigit_toDigits m) (isDigit_toDigits n) hs ht h
      exact ⟨by rw [toDigits_inj hd], hst⟩
    | negSucc n => exact absurd h (toDigits_ne_cons (by decide))
  | negSucc m =>
    cases n with
    | ofNat n => exact absurd h.symm (toDigits_ne_cons (by decide))
    | negSucc n =>
      obtain ⟨hd, hst⟩ := digits_append_inj (isDigit_toDigits (m + 1)) (isDigit_toDigits (n + 1))
        hs ht (List.cons.inj h).2
      have := toDigits_inj hd
      exact ⟨by rw [show m = n by omega], hst⟩

/-! ## Values -/

mutual

/-- A value as `json.dumps` writes it, fields in the order they have. -/
def render : Json → List Char
  | .null => ['n', 'u', 'l', 'l']
  | .bool true => ['t', 'r', 'u', 'e']
  | .bool false => ['f', 'a', 'l', 's', 'e']
  | .int n => decimal n
  | .str s => quote s
  | .obj [] => ['{', '}']
  | .obj (field :: rest) => '{' :: (renderField field ++ renderRest rest)

/-- A key and its value. -/
def renderField : String × Json → List Char
  | (key, value) => quote key ++ ':' :: render value

/-- The fields after the first, up to the closing brace. -/
def renderRest : List (String × Json) → List Char
  | [] => ['}']
  | field :: rest => ',' :: (renderField field ++ renderRest rest)

end

theorem stops_renderRest (fields : JsonObject) (s : List Char) : Stops (renderRest fields ++ s) := by
  cases fields with
  | nil => intro c hc; exact Or.inr (by simpa [renderRest] using hc.symm)
  | cons field rest => intro c hc; exact Or.inl (by simpa [renderRest] using hc.symm)

/-- A number's text is no other value's: it opens with a digit or a sign. -/
theorem decimal_append_ne {n : ℤ} {c : Char} {s l : List Char} (hc : c.isDigit = false)
    (hsign : c ≠ '-') : decimal n ++ s ≠ c :: l := by
  cases n with
  | ofNat n => exact toDigits_ne_cons hc
  | negSucc n =>
    intro h
    exact hsign (List.cons.inj h).1.symm

mutual

/-- **A value's text is read in one way**, whatever follows it. -/
theorem render_append_inj : ∀ (a b : Json) {s t : List Char}, Stops s → Stops t →
    render a ++ s = render b ++ t → a = b ∧ s = t
  | .null, b, s, t, hs, ht, h => by
    cases b with
    | null => simpa [render] using h
    | bool b => cases b <;> simp [render] at h
    | int n => exact absurd h.symm (decimal_append_ne (by decide) (by decide))
    | str b => simp [render, quote] at h
    | obj fields => cases fields <;> simp [render] at h
  | .bool a, b, s, t, hs, ht, h => by
    cases b with
    | null => cases a <;> simp [render] at h
    | bool b => cases a <;> cases b <;> simp [render] at h ⊢ <;> exact h
    | int n => cases a <;> exact absurd h.symm (decimal_append_ne (by decide) (by decide))
    | str b => cases a <;> simp [render, quote] at h
    | obj fields => cases a <;> cases fields <;> simp [render] at h
  | .int m, b, s, t, hs, ht, h => by
    cases b with
    | null => exact absurd h (decimal_append_ne (by decide) (by decide))
    | bool b => cases b <;> exact absurd h (decimal_append_ne (by decide) (by decide))
    | int n =>
      obtain ⟨hmn, hst⟩ := decimal_append_inj hs ht h
      exact ⟨by rw [hmn], hst⟩
    | str b => exact absurd h (decimal_append_ne (by decide) (by decide))
    | obj fields => cases fields <;> exact absurd h (decimal_append_ne (by decide) (by decide))
  | .str a, b, s, t, hs, ht, h => by
    cases b with
    | null => simp [render, quote] at h
    | bool b => cases b <;> simp [render, quote] at h
    | int n => exact absurd h.symm (decimal_append_ne (by decide) (by decide))
    | str b =>
      obtain ⟨hab, hst⟩ := quote_append_inj h
      exact ⟨by rw [hab], hst⟩
    | obj fields => cases fields <;> simp [render, quote] at h
  | .obj [], b, s, t, hs, ht, h => by
    cases b with
    | null => simp [render] at h
    | bool b => cases b <;> simp [render] at h
    | int n => exact absurd h.symm (decimal_append_ne (by decide) (by decide))
    | str b => simp [render, quote] at h
    | obj gs =>
      cases gs with
      | nil => simpa [render] using h
      | cons g gs => obtain ⟨key, value⟩ := g; simp [render, renderField, quote] at h
  | .obj (f :: fs), b, s, t, hs, ht, h => by
    cases b with
    | null => simp [render] at h
    | bool b => cases b <;> simp [render] at h
    | int n => exact absurd h.symm (decimal_append_ne (by decide) (by decide))
    | str b => simp [render, quote] at h
    | obj gs =>
      cases gs with
      | nil => obtain ⟨key, value⟩ := f; simp [render, renderField, quote] at h
      | cons g gs =>
        simp only [render, List.cons_append, List.append_assoc, List.cons.injEq, true_and] at h
        obtain ⟨hfg, hrest⟩ :=
          renderField_append_inj f g (stops_renderRest fs s) (stops_renderRest gs t) h
        obtain ⟨hfs, hst⟩ := renderRest_append_inj fs gs hrest
        exact ⟨by rw [hfg, hfs], hst⟩

theorem renderField_append_inj : ∀ (f g : String × Json) {s t : List Char}, Stops s → Stops t →
    renderField f ++ s = renderField g ++ t → f = g ∧ s = t
  | (key, value), (key', value'), s, t, hs, ht, h => by
    simp only [renderField, List.append_assoc, List.cons_append] at h
    obtain ⟨hkey, hrest⟩ := quote_append_inj h
    obtain ⟨hvalue, hst⟩ := render_append_inj value value' hs ht (List.cons.inj hrest).2
    exact ⟨by rw [hkey, hvalue], hst⟩

theorem renderRest_append_inj : ∀ (fs gs : JsonObject) {s t : List Char},
    renderRest fs ++ s = renderRest gs ++ t → fs = gs ∧ s = t
  | [], [], s, t, h => ⟨rfl, by simpa [renderRest] using h⟩
  | [], g :: gs, s, t, h => by simp [renderRest] at h
  | f :: fs, [], s, t, h => by simp [renderRest] at h
  | f :: fs, g :: gs, s, t, h => by
    simp only [renderRest, List.cons_append, List.append_assoc, List.cons.injEq, true_and] at h
    obtain ⟨hfg, hrest⟩ :=
      renderField_append_inj f g (stops_renderRest fs s) (stops_renderRest gs t) h
    obtain ⟨hfs, hst⟩ := renderRest_append_inj fs gs hrest
    exact ⟨by rw [hfg, hfs], hst⟩

end

/-! ## Sorted keys -/

mutual

/-- The value with every object's fields in the order of their keys. -/
def sortKeys : Json → Json
  | .null => .null
  | .bool b => .bool b
  | .int n => .int n
  | .str s => .str s
  | .obj fields => .obj ((sortFields fields).insertionSort fun f g => f.1 ≤ g.1)

/-- The fields with their values' keys sorted. -/
def sortFields : List (String × Json) → List (String × Json)
  | [] => []
  | (key, value) :: rest => (key, sortKeys value) :: sortFields rest

end

/-- `json.dumps(value, sort_keys=True, separators=(",", ":"))`. -/
def dumps (value : Json) : String := String.ofList (render (sortKeys value))

/-- **A text determines its value**, up to the order of keys. -/
theorem sortKeys_eq_of_dumps_eq {a b : Json} (h : dumps a = dumps b) : sortKeys a = sortKeys b := by
  have hr : render (sortKeys a) = render (sortKeys b) := by
    simpa [dumps] using congrArg String.toList h
  have hnil : Stops [] := by intro c hc; cases hc
  exact (render_append_inj _ _ hnil hnil (by rw [hr])).1

theorem keys_sortFields (fields : JsonObject) :
    Dict.keys (sortFields fields) = Dict.keys fields := by
  induction fields with
  | nil => rfl
  | cons field rest ih =>
    obtain ⟨key, value⟩ := field
    simpa [sortFields, Dict.keys] using ih

theorem get?_sortFields (key : String) (fields : JsonObject) :
    Dict.get? key (sortFields fields) = (Dict.get? key fields).map sortKeys := by
  induction fields with
  | nil => rfl
  | cons field rest ih =>
    obtain ⟨k, value⟩ := field
    by_cases hk : k = key
    · subst hk
      simp [sortFields]
    · rw [sortFields, Dict.get?_cons_ne hk, Dict.get?_cons_ne hk, ih]

/-- **Two objects that agree up to the order of keys agree field by
field.** -/
theorem get?_of_sortKeys_eq {fs gs : JsonObject} (hf : (Dict.keys fs).Nodup)
    (hg : (Dict.keys gs).Nodup) (h : sortKeys (.obj fs) = sortKeys (.obj gs)) (key : String) :
    (Dict.get? key fs).map sortKeys = (Dict.get? key gs).map sortKeys := by
  have look : ∀ {l : JsonObject}, (Dict.keys l).Nodup →
      Dict.get? key ((sortFields l).insertionSort fun f g => f.1 ≤ g.1) =
        (Dict.get? key l).map sortKeys := by
    intro l hl
    rw [← get?_sortFields]
    exact (Dict.get?_eq_of_perm (List.perm_insertionSort _ _).symm
      (by rw [keys_sortFields]; exact hl) key).symm
  simp only [sortKeys, obj.injEq] at h
  rw [← look hf, ← look hg, h]

end Json

end Lib
