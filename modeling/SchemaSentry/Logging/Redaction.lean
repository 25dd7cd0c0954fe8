import SchemaSentry.Logging.Secrets
import Mathlib.Logic.Relation
/-!
# Schema Sentry — redaction of log events

`redact_sensitive_values` over events of any depth. Two events that differ
in secrets only are redacted alike, as long as every secret in a text
keeps apart from the others (`redactSensitiveValues_eq`).
-/

namespace SchemaSentry

open Lib

/-! ## Events -/

/-- What a log event holds: texts, dicts, tuples and lists of such, and
other values, which are logged as they are. -/
inductive LogValue (κ ω : Type) where
  | str (value : String)
  | dict (items : List (κ × LogValue κ ω))
  | tuple (items : List (LogValue κ ω))
  | list (items : List (LogValue κ ω))
  | other (value : ω)

/-- `str(key)` of the keys of a dict. -/
class PyStr (κ : Type) where
  str : κ → String

instance : PyStr String := ⟨id⟩

/-- The fields of an event. -/
abbrev EventDict (κ ω : Type) := List (String × LogValue κ ω)

section Redaction

variable [PyText] [PyWord] {κ ω : Type} [PyStr κ]

/-- `field_name and _SENSITIVE_FIELD.search(field_name)`. -/
def hidesField (fieldName : Option String) : Bool :=
  fieldName.any fun name => name ≠ "" && isSensitive name

mutual

/-- `_redact_value`. -/
def redactValue (fieldName : Option String) (value : LogValue κ ω) : LogValue κ ω :=
  if hidesField fieldName then .str REDACTED
  else
    match value with
    | .str value => .str (redactString value)
    | .dict items => .dict (redactItems items)
    | .tuple items => .tuple (redactAll items)
    | .list items => .list (redactAll items)
    | .other value => .other value

/-- The items of a dict, each under its key. -/
def redactItems : List (κ × LogValue κ ω) → List (κ × LogValue κ ω)
  | [] => []
  | (key, item) :: items => (key, redactValue (some (PyStr.str key)) item) :: redactItems items

/-- The items of a tuple or a list, without names. -/
def redactAll : List (LogValue κ ω) → List (LogValue κ ω)
  | [] => []
  | item :: items => redactValue none item :: redactAll items

end

/-- `redact_sensitive_values`. -/
def redactSensitiveValues (event : EventDict κ ω) : EventDict κ ω :=
  event.map fun (key, value) => (key, redactValue (some key) value)

/-! ## Secrets -/

inductive SecretKind where
  | password
  | credential
  | value

/-- What stands in front of a secret. -/
def SecretKind.Opens : SecretKind → List Char → Prop
  | .password => UrlOpener
  | .credential => CredentialOpener
  | .value => InlineOpener

/-- A secret, whole, in front of the rest of its text. -/
def SecretKind.Holds : SecretKind → List Char → List Char → Prop
  | .password, v, b => v ≠ [] ∧ (∀ x ∈ v, passwordChar x = true) ∧ b.head? = some '@'
  | .credential, v, b => IsRun credentialChar v b
  | .value, v, b => IsRun valueChar v b

/-- No pass takes the secret `v`, between `a` with its opener `p` and `b`,
together with other text. -/
def Apart : SecretKind → List Char → List Char → List Char → List Char → Prop
  | .password, _, _, _, _ => True
  | .credential, a, p, v, b =>
    -- `Basic` and `Bearer` begin a word, and no pass takes them into something else
    (∀ x ∈ a.getLast?, PyWord.isWord x = false) ∧
      Regex.Clear inlineSecret redactedSecret (redactUrls a) p ∧
      Regex.Clear authorization redactedSecret (redactInline (redactUrls a)) p ∧
      -- no other secret begins in this one
      ¬ UrlAcross (a ++ (p ++ v)) b ∧ Regex.Silent inlineSecret v (redactUrls b)
  | .value, a, p, v, b =>
    -- no pass takes the name into something else
    Regex.Clear inlineSecret redactedSecret (redactUrls a) p ∧ ¬ PasswordAcross a (p ++ v) ∧
      -- no URL goes over the end
      ¬ UrlAcross (a ++ (p ++ v)) b

/-- Two texts differ in one secret, at a place of which `apart` holds. -/
inductive Swap
    (apart : SecretKind → List Char → List Char → List Char → List Char → Prop) :
    String → String → Prop
  | mk {kind : SecretKind} {a p v v' b : List Char} (hopens : kind.Opens p)
      (hholds : kind.Holds v b) (hholds' : kind.Holds v' b)
      (hapart : apart kind a p v b) (hapart' : apart kind a p v' b) :
      Swap apart (String.ofList (a ++ (p ++ (v ++ b)))) (String.ofList (a ++ (p ++ (v' ++ b))))

mutual

/-- Two values of one shape differ in secrets only: in texts by `swap` after
`swap`, and in anything under a sensitive name. -/
inductive Alike (swap : String → String → Prop) : LogValue κ ω → LogValue κ ω → Prop
  | str {s t : String} : Relation.ReflTransGen swap s t → Alike swap (.str s) (.str t)
  | dict {xs ys : List (κ × LogValue κ ω)} : AlikeItems swap xs ys → Alike swap (.dict xs) (.dict ys)
  | tuple {xs ys : List (LogValue κ ω)} : AlikeAll swap xs ys → Alike swap (.tuple xs) (.tuple ys)
  | list {xs ys : List (LogValue κ ω)} : AlikeAll swap xs ys → Alike swap (.list xs) (.list ys)
  | other (value : ω) : Alike swap (.other value) (.other value)

inductive AlikeItems (swap : String → String → Prop) :
    List (κ × LogValue κ ω) → List (κ × LogValue κ ω) → Prop
  | nil : AlikeItems swap [] []
  | secret {key : κ} {v w : LogValue κ ω} {xs ys : List (κ × LogValue κ ω)} :
      isSensitive (PyStr.str key) = true → AlikeItems swap xs ys →
        AlikeItems swap ((key, v) :: xs) ((key, w) :: ys)
  | item {key : κ} {v w : LogValue κ ω} {xs ys : List (κ × LogValue κ ω)} :
      Alike swap v w → AlikeItems swap xs ys → AlikeItems swap ((key, v) :: xs) ((key, w) :: ys)

inductive AlikeAll (swap : String → String → Prop) :
    List (LogValue κ ω) → List (LogValue κ ω) → Prop
  | nil : AlikeAll swap [] []
  | item {v w : LogValue κ ω} {xs ys : List (LogValue κ ω)} :
      Alike swap v w → AlikeAll swap xs ys → AlikeAll swap (v :: xs) (w :: ys)

end

/-- Two events differ in secrets only. -/
def AlikeEvents (swap : String → String → Prop) : EventDict κ ω → EventDict κ ω → Prop :=
  List.Forall₂ fun x y => x.1 = y.1 ∧ (isSensitive x.1 = true ∨ Alike swap x.2 y.2)

/-! ## Redaction hides secrets -/

variable [PyText.Lawful] [PyWord.Lawful]

/-- **A secret apart from the others is hidden.** -/
theorem redactString_swap {s t : String} (h : Swap Apart s t) : redactString s = redactString t := by
  obtain ⟨hopens, hholds, hholds', hapart, hapart'⟩ := h
  rename_i kind a p v v' b
  rw [redactString, redactString, String.toList_ofList, String.toList_ofList]
  cases kind with
  | password =>
    obtain ⟨hne, hall, hb⟩ := hholds
    obtain ⟨hne', hall', -⟩ := hholds'
    obtain ⟨b, rfl⟩ := List.head?_eq_some_iff.1 hb
    rw [redactUrls_password hopens ⟨hne, hall⟩ ⟨hne', hall'⟩]
  | credential =>
    obtain ⟨hword, ⟨out, hinline⟩, ⟨out', hclear⟩, hurl, hsilent⟩ := hapart
    obtain ⟨-, -, -, hurl', hsilent'⟩ := hapart'
    have hp : AuthorizationOpener a.reverse p :=
      ⟨hopens, fun x hx => hword x (by rwa [List.head?_reverse] at hx)⟩
    rw [redactAuthorization_credential hp hholds hurl hinline hsilent hclear,
      redactAuthorization_credential hp hholds' hurl' hinline hsilent' hclear]
  | value =>
    obtain ⟨⟨out, hclear⟩, hpass, hurl⟩ := hapart
    obtain ⟨-, hpass', hurl'⟩ := hapart'
    rw [redactInline_value hopens hholds hurl hpass hclear,
      redactInline_value hopens hholds' hurl' hpass' hclear]

/-- A secret alone in its text keeps apart, if no name of another is in it. -/
theorem apart_alone {kind : SecretKind} {p v : List Char}
    (hv : ∀ x ∈ v, x ≠ '=' ∧ x ≠ ':') : Apart kind [] p v [] := by
  have hurl : ∀ front, ¬ UrlAcross front [] := by
    rintro front ⟨l, text, pre, secret, rest, -, -, -, hrest⟩
    exact absurd hrest (Nat.not_lt_zero _)
  cases kind with
  | password => trivial
  | credential =>
    refine ⟨fun x hx => (nomatch hx), ⟨[], .done _⟩, ⟨[], .done _⟩, hurl _, ?_⟩
    intro l t before hl ht
    by_contra hsome
    obtain ⟨m, hm⟩ := Option.ne_none_iff_exists'.1 hsome
    obtain ⟨pre, run, rest, htext, ⟨key, gap, sep, gap', rfl, -, -, hsep, -⟩, -⟩ :=
      hidesRun_inlineSecret.reads hm
    have hnil : redactUrls [] = [] := rfl
    rw [hnil, List.append_nil] at htext
    have hmem : sep ∈ v := by
      rw [hl, htext]
      simp
    obtain ⟨hne, hne'⟩ := hv sep hmem
    exact hsep.elim hne hne'
  | value =>
    refine ⟨⟨[], .done _⟩, ?_, hurl _⟩
    rintro ⟨l, text, pre, secret, rest, -, hcred, hlen, -⟩
    obtain ⟨c, scheme, user, rfl, -⟩ := hcred.opens
    simp at hlen

omit [PyText] [PyWord] [PyText.Lawful] [PyWord.Lawful] in
theorem hidesField_of_isSensitive {name : String} (h : isSensitive name = true) :
    hidesField (some name) = true := by
  have hne : name ≠ "" := by
    rintro rfl
    revert h
    decide +kernel
  simp [hidesField, h, hne]

omit [PyText.Lawful] [PyWord.Lawful]

theorem redactValue_of_isSensitive {name : String} (h : isSensitive name = true)
    (v : LogValue κ ω) : redactValue (some name) v = .str REDACTED := by
  rw [redactValue.eq_def, if_pos (hidesField_of_isSensitive h)]

section Congruence

variable {swap : String → String → Prop}

theorem redactString_eq (hswap : ∀ s t, swap s t → redactString s = redactString t) {s t : String}
    (h : Relation.ReflTransGen swap s t) : redactString s = redactString t := by
  induction h with
  | refl => rfl
  | tail _ hst ih => rw [ih, hswap _ _ hst]

mutual

/-- A value is redacted alike when its texts are. -/
theorem redactValue_eq (hswap : ∀ s t, swap s t → redactString s = redactString t)
    (name : Option String) {v w : LogValue κ ω} :
    Alike swap v w → redactValue name v = redactValue name w
  | .str h => by rw [redactValue, redactValue, redactString_eq hswap h]
  | .dict h => by rw [redactValue, redactValue, redactItems_eq hswap h]
  | .tuple h => by rw [redactValue, redactValue, redactAll_eq hswap h]
  | .list h => by rw [redactValue, redactValue, redactAll_eq hswap h]
  | .other value => rfl

theorem redactItems_eq (hswap : ∀ s t, swap s t → redactString s = redactString t)
    {xs ys : List (κ × LogValue κ ω)} : AlikeItems swap xs ys → redactItems xs = redactItems ys
  | .nil => rfl
  | .secret hkey h => by
    rw [redactItems, redactItems, redactItems_eq hswap h, redactValue_of_isSensitive hkey,
      redactValue_of_isSensitive hkey]
  | .item hv h => by
    rw [redactItems, redactItems, redactItems_eq hswap h, redactValue_eq hswap _ hv]

theorem redactAll_eq (hswap : ∀ s t, swap s t → redactString s = redactString t)
    {xs ys : List (LogValue κ ω)} : AlikeAll swap xs ys → redactAll xs = redactAll ys
  | .nil => rfl
  | .item hv h => by rw [redactAll, redactAll, redactAll_eq hswap h, redactValue_eq hswap _ hv]

end

end Congruence

/-- **Redaction hides secrets** that keep apart from each other: events that
differ in such secrets only are redacted alike. -/
theorem redactSensitiveValues_eq [PyText.Lawful] [PyWord.Lawful] {e e' : EventDict κ ω} (h : AlikeEvents (Swap Apart) e e') :
    redactSensitiveValues e = redactSensitiveValues e' := by
  induction h with
  | nil => rfl
  | @cons x y xs ys hxy _ ih =>
    obtain ⟨name, v⟩ := x
    obtain ⟨name', w⟩ := y
    obtain ⟨rfl, hvw⟩ := hxy
    have hvalue : redactValue (some name) v = redactValue (some name) w := by
      rcases hvw with hname | hvw
      · rw [redactValue_of_isSensitive hname, redactValue_of_isSensitive hname]
      · exact redactValue_eq (fun s t => redactString_swap) _ hvw
    have hcons : ∀ (v : LogValue κ ω) (event : EventDict κ ω), redactSensitiveValues
        ((name, v) :: event) = (name, redactValue (some name) v) :: redactSensitiveValues event :=
      fun _ _ => rfl
    rw [hcons, hcons, hvalue, ih]

end Redaction

/-! ## A sample -/

section Sample

/-- The word characters without what is beyond ASCII. -/
@[reducible] def asciiWord : PyWord := ⟨fun c => isLetter c || c.isDigit || c = '_'⟩

theorem asciiWord_lawful : @PyWord.Lawful asciiText asciiWord := by
  have hletter : ∀ c : Char, isLetter c = true →
      (isLetter c || c.isDigit || c = '_') = true := by
    intro c hc
    rw [hc, Bool.true_or, Bool.true_or]
  have hspaces : ∀ c ∈ [' ', '\t', '\n', '\x0b', '\x0c', '\r', '\x1c', '\x1d', '\x1e', '\x1f'],
      (isLetter c || c.isDigit || c = '_') = false := by
    decide +kernel
  have hspace : ∀ c : Char, (isLetter c || c.isDigit || c = '_') = true → asciiSpace c = false := by
    intro c hc
    by_contra hnot
    have hmem := of_decide_eq_true ((Bool.not_eq_false _).mp hnot)
    rw [hspaces c hmem] at hc
    cases hc
  exact @PyWord.Lawful.mk asciiText asciiWord hletter hspace

attribute [local instance] asciiText asciiText_lawful asciiWord asciiWord_lawful

/-- Behind the name of a secret, `Bearer` is the value: what follows stays. -/
theorem credential_left : ¬ ∀ e e' : EventDict String Unit,
    AlikeEvents (Swap fun _ _ _ _ _ => True) e e' →
      redactSensitiveValues e = redactSensitiveValues e' := by
  intro h
  have hopens : SecretKind.credential.Opens "Bearer ".toList :=
    ⟨"Bearer".toList, [' '], by decide, by decide +kernel, by simp, by decide⟩
  have hholds : ∀ v ∈ ["abc".toList, "xyz".toList], SecretKind.credential.Holds v [] := by
    intro v hv
    refine ⟨?_, ?_, fun x hx => nomatch hx⟩ <;> revert v <;> decide +kernel
  have hswap : Swap (fun _ _ _ _ _ => True) "token: Bearer abc" "token: Bearer xyz" :=
    Swap.mk (a := "token: ".toList) hopens (hholds "abc".toList (by simp))
      (hholds "xyz".toList (by simp)) trivial trivial
  have heq := h [("error", .str "token: Bearer abc")] [("error", .str "token: Bearer xyz")]
    (.cons ⟨rfl, Or.inr (.str (.single hswap))⟩ .nil)
  have habc : redactString "token: Bearer abc" = "token: [REDACTED] abc" := by decide +kernel
  have hxyz : redactString "token: Bearer xyz" = "token: [REDACTED] xyz" := by decide +kernel
  have hname : hidesField (some "error") = false := by decide +kernel
  simp [redactSensitiveValues, redactValue, hname, habc, hxyz] at heq

theorem redactSensitiveValues_sample :
    redactSensitiveValues ([("error", .str "http://reader:hunter@db"),
      ("nested", .dict [("api_key", .other ()), ("hints", .list [.str "token=abc"])]),
      ("message", .tuple [.str "Bearer abc"])] : EventDict String Unit) =
    redactSensitiveValues ([("error", .str "http://reader:secret@db"),
      ("nested", .dict [("api_key", .str "raw"), ("hints", .list [.str "token=xyz"])]),
      ("message", .tuple [.str "Bearer xyz"])] : EventDict String Unit) := by
  have hurl : SecretKind.password.Opens "http://reader:".toList :=
    ⟨'h', "ttp".toList, "reader".toList, by decide, by decide +kernel, by decide +kernel, by decide,
      by decide⟩
  have hpasswords : Swap Apart "http://reader:hunter@db" "http://reader:secret@db" :=
    Swap.mk (a := []) (b := "@db".toList) hurl
      (⟨by decide, by decide, rfl⟩ : SecretKind.password.Holds "hunter".toList _)
      (⟨by decide, by decide, rfl⟩ : SecretKind.password.Holds "secret".toList _) trivial trivial
  have hnil : ∀ q : Char → Bool, ∀ x ∈ ([] : List Char).head?, q x = false :=
    fun q x hx => nomatch hx
  have hname : SecretKind.value.Opens "token=".toList :=
    ⟨"token".toList, [], '=', [], by decide, by decide +kernel, by decide, by decide, by decide⟩
  have hvalues : Swap Apart "token=abc" "token=xyz" :=
    Swap.mk (a := []) (b := []) hname
      (⟨by decide, by decide, hnil _⟩ : SecretKind.value.Holds "abc".toList _)
      (⟨by decide, by decide, hnil _⟩ : SecretKind.value.Holds "xyz".toList _)
      (apart_alone (by decide)) (apart_alone (by decide))
  have hword : SecretKind.credential.Opens "Bearer ".toList :=
    ⟨"Bearer".toList, [' '], by decide, by decide +kernel, by simp, by decide⟩
  have hcredentials : Swap Apart "Bearer abc" "Bearer xyz" :=
    Swap.mk (a := []) (b := []) hword
      (⟨by decide, by decide +kernel, hnil _⟩ : SecretKind.credential.Holds "abc".toList _)
      (⟨by decide, by decide +kernel, hnil _⟩ : SecretKind.credential.Holds "xyz".toList _)
      (apart_alone (by decide)) (apart_alone (by decide))
  have hkey : isSensitive "api_key" = true := by decide +kernel
  refine redactSensitiveValues_eq (.cons ⟨rfl, Or.inr (.str (.single hpasswords))⟩
    (.cons ⟨rfl, Or.inr (.dict (.secret hkey (.item (.list (.item (.str (.single hvalues)) .nil))
      .nil)))⟩ (.cons ⟨rfl, Or.inr (.tuple (.item (.str (.single hcredentials)) .nil))⟩ .nil)))

end Sample

end SchemaSentry
