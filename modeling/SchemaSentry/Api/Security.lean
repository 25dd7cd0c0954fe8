import SchemaSentry.Application.Notifiers
/-!
# Schema Sentry — who may ask for what

`require_operator`, the dashboard's same-origin check and the settings both
read. The settings carry what `protect_production_authentication` has
checked, so that no server with the bypass in production is one.
-/

namespace SchemaSentry

open Lib

/-! ## Settings -/

inductive Environment where
  | development
  | test
  | production
  deriving DecidableEq, Repr

/-- The settings a server runs with, validated. -/
structure ServerSettings where
  environment : Environment := .development
  apiKey : String
  authDisabled : Bool := false
  trustProxyAuth : Bool := false
  alerts : Settings := {}
  smtp : SmtpSettings := {}
  dashboardBaseUrl : String := "http://localhost:8000/"
  authProtected : ¬ (environment = .production ∧ authDisabled = true)

/-- The notifiers of a server and the dashboard's address. -/
def ServerSettings.notifications (s : ServerSettings) (transport : Transport) : Notifications :=
  { notifiers := notifiers s.alerts s.smtp transport, dashboardBaseUrl := s.dashboardBaseUrl }

/-! ## Operators -/

/-- The headers of a request that say who sent it and from where. -/
structure Headers where
  apiKey : Option String := none
  authenticatedUser : Option String := none
  origin : Option String := none
  referer : Option String := none
  deriving DecidableEq, Repr

inductive Mechanism where
  | apiKey
  | proxy
  | bypass
  deriving DecidableEq, Repr

structure OperatorIdentity where
  subject : String
  mechanism : Mechanism
  deriving DecidableEq, Repr

/-- A text header that is there and not empty. -/
def given (value : Option String) : Option String := value.filter fun text => text ≠ ""

/-- `secrets.compare_digest` of texts, which takes ASCII only. -/
def compareDigest (a b : String) : Except PyException Bool :=
  if a.toList.all (fun c => c.val < 128) ∧ b.toList.all (fun c => c.val < 128) then .ok (a = b)
  else .error (.typeError "comparing strings with non-ASCII characters is not supported")

def requireOperator (s : ServerSettings) (headers : Headers) : Except PyException OperatorIdentity :=
  if s.environment = .development ∧ s.authDisabled = true then
    .ok { subject := "local-development", mechanism := .bypass }
  else do
    let matched ← match given headers.apiKey with
      | none => .ok false
      | some key => compareDigest key s.apiKey
    if matched then
      .ok { subject := "api-client", mechanism := .apiKey }
    else
      match (if s.trustProxyAuth then given headers.authenticatedUser else none) with
      | some user => .ok { subject := user, mechanism := .proxy }
      | none => .error (.httpException 401)

/-! ## Origins -/

/-- A character that may stand in a URL's scheme. -/
def isSchemeChar (c : Char) : Bool := c.val < 128 && (c.isAlphanum || c ∈ ['+', '-', '.'])

/-- `_splitnetloc`: up to the first delimiter. -/
def splitNetloc (rest : List Char) : List Char :=
  rest.takeWhile fun c => c ∉ ['/', '?', '#']

/-- The scheme of a URL and what follows it. -/
def splitScheme (url : List Char) : List Char × List Char :=
  let before := url.takeWhile fun c => c ≠ ':'
  match url.head?, url.dropWhile fun c => c ≠ ':' with
  | some first, _ :: rest =>
    if first.val < 128 && first.isAlpha && before.all isSchemeChar then
      (before.map Char.toLower, rest)
    else ([], url)
  | _, _ => ([], url)

/-- `urllib.parse.urlsplit`: the scheme and the authority, of a URL without
the leading blanks and without tabs and line ends. What the brackets of a
host hold is not checked. -/
def urlsplit (url : String) : Except PyException (String × String) :=
  let stripped := (url.toList.dropWhile fun c => c.val ≤ 32).filter fun c => c ∉ ['\t', '\r', '\n']
  let (scheme, rest) := splitScheme stripped
  match rest with
  | '/' :: '/' :: rest =>
    let netloc := splitNetloc rest
    if ('[' ∈ netloc) ≠ (']' ∈ netloc) then .error (.valueError "Invalid IPv6 URL")
    else .ok (String.ofList scheme, String.ofList netloc)
  | _ => .ok (String.ofList scheme, "")

/-- `origin or referer`. -/
def Headers.suppliedUrl (headers : Headers) : Option String :=
  match given headers.origin with
  | some origin => some origin
  | none => given headers.referer

def requireSameOrigin (s : ServerSettings) (headers : Headers) (identity : OperatorIdentity) :
    Except PyException Unit :=
  match headers.suppliedUrl with
  | some url => do
    let supplied ← urlsplit url
    let expected ← urlsplit s.dashboardBaseUrl
    if supplied = expected then .ok () else .error (.httpException 403)
  | none => if identity.mechanism = .apiKey then .ok () else .error (.httpException 403)

/-! ## What they let through -/

variable {s : ServerSettings} {headers : Headers} {identity : OperatorIdentity}

/-- A text that `compare_digest` takes. -/
def Ascii (text : String) : Prop := text.toList.all (fun c => c.val < 128) = true

theorem compareDigest_eq_ok {a b : String} {matched : Bool} :
    compareDigest a b = .ok matched ↔ Ascii a ∧ Ascii b ∧ matched = decide (a = b) := by
  unfold compareDigest Ascii
  split
  · rename_i h
    simp [h.1, h.2, eq_comm]
  · rename_i h
    simp only [reduceCtorEq, false_iff, not_and]
    exact fun ha hb => absurd ⟨ha, hb⟩ h

/-- The server's key, presented. -/
def Headers.PresentsKey (headers : Headers) (s : ServerSettings) : Prop :=
  headers.apiKey = some s.apiKey ∧ s.apiKey ≠ "" ∧ Ascii s.apiKey

/-- A user the proxy vouches for, where the server trusts it. -/
def Headers.Vouched (headers : Headers) (s : ServerSettings) (user : String) : Prop :=
  s.trustProxyAuth = true ∧ headers.authenticatedUser = some user ∧ user ≠ "" ∧
    ∀ key, given headers.apiKey = some key → Ascii key ∧ Ascii s.apiKey

theorem given_eq_some {value : Option String} {text : String} :
    given value = some text ↔ value = some text ∧ text ≠ "" := by
  simp [given, Option.filter_eq_some_iff]

/-- **Who is an operator**: the holder of the key, a user a trusted proxy
vouches for, and anyone in a development environment with the check off. -/
theorem requireOperator_eq_ok : requireOperator s headers = .ok identity ↔
    (s.environment = .development ∧ s.authDisabled = true ∧
        identity = ⟨"local-development", .bypass⟩) ∨
      ¬ (s.environment = .development ∧ s.authDisabled = true) ∧
        (headers.PresentsKey s ∧ identity = ⟨"api-client", .apiKey⟩ ∨
          ¬ headers.PresentsKey s ∧ headers.Vouched s identity.subject ∧
            identity.mechanism = .proxy) := by
  unfold requireOperator
  by_cases hbypass : s.environment = .development ∧ s.authDisabled = true
  · rw [if_pos hbypass]
    simp [hbypass.1, hbypass.2, eq_comm]
  · rw [if_neg hbypass]
    have hfirst : ¬ (s.environment = .development ∧ s.authDisabled = true ∧
        identity = ⟨"local-development", .bypass⟩) := fun h => hbypass ⟨h.1, h.2.1⟩
    simp only [hbypass, not_false_eq_true, true_and, hfirst, false_or]
    -- the proxy is asked where the key does not match
    have hproxy : (∀ key, given headers.apiKey = some key → Ascii key ∧ Ascii s.apiKey) →
        ¬ headers.PresentsKey s →
        ((match (if s.trustProxyAuth then given headers.authenticatedUser else none) with
          | some user => Except.ok { subject := user, mechanism := Mechanism.proxy }
          | none => .error (.httpException 401) : Except PyException OperatorIdentity) =
            .ok identity ↔ headers.PresentsKey s ∧ identity = ⟨"api-client", .apiKey⟩ ∨
              ¬ headers.PresentsKey s ∧ headers.Vouched s identity.subject ∧
                identity.mechanism = .proxy) := by
      intro hascii hnot
      simp only [hnot, false_and, not_false_eq_true, true_and, false_or]
      by_cases htrust : s.trustProxyAuth = true
      · simp only [htrust, if_true]
        rcases huser : given headers.authenticatedUser with _ | user
        · simp only [reduceCtorEq, false_iff, not_and]
          rintro ⟨-, huser', hne, -⟩
          rw [given_eq_some.2 ⟨huser', hne⟩] at huser
          cases huser
        · obtain ⟨huser', hne⟩ := given_eq_some.1 huser
          constructor
          · intro h
            cases h
            exact ⟨⟨htrust, huser', hne, hascii⟩, rfl⟩
          · rintro ⟨⟨-, hother, -, -⟩, hmechanism⟩
            rw [huser'] at hother
            obtain ⟨subject, mechanism⟩ := identity
            cases hother
            cases hmechanism
            rfl
      · simp only [htrust]
        simp [Headers.Vouched, htrust]
    rcases hkey : given headers.apiKey with _ | key
    · have hnot : ¬ headers.PresentsKey s := by
        rintro ⟨hpresented, hne, -⟩
        rw [given_eq_some.2 ⟨hpresented, hne⟩] at hkey
        cases hkey
      exact hproxy (fun key h => by rw [hkey] at h; cases h) hnot
    · obtain ⟨hpresented, hne⟩ := given_eq_some.1 hkey
      simp only
      rcases hcompare : compareDigest key s.apiKey with e | matched
      · -- a text that is not ASCII ends the request
        have hnot : ¬ (Ascii key ∧ Ascii s.apiKey) := by
          intro h
          rw [compareDigest_eq_ok.2 ⟨h.1, h.2, rfl⟩] at hcompare
          cases hcompare
        have hkeys : ¬ headers.PresentsKey s := by
          rintro ⟨hsame, -, hascii⟩
          rw [hpresented] at hsame
          cases hsame
          exact hnot ⟨hascii, hascii⟩
        have hvouched : ¬ headers.Vouched s identity.subject :=
          fun h => hnot (h.2.2.2 key hkey)
        simp only [hkeys, hvouched, false_and, and_false, or_false, iff_false]
        intro h
        cases h
      · obtain ⟨hkeyAscii, hownAscii, rfl⟩ := compareDigest_eq_ok.1 hcompare
        by_cases hsame : key = s.apiKey
        · subst hsame
          have hholds : headers.PresentsKey s := ⟨hpresented, hne, hownAscii⟩
          simp only [hholds, true_and, not_true_eq_false, false_and, or_false]
          constructor
          · intro h
            cases h
            rfl
          · rintro rfl
            rfl
        · have hnot : ¬ headers.PresentsKey s := by
            rintro ⟨hother, -, -⟩
            rw [hpresented] at hother
            exact hsame (Option.some.inj hother)
          have hrest := hproxy (fun key' h => by
            rw [hkey] at h
            cases h
            exact ⟨hkeyAscii, hownAscii⟩) hnot
          show (if decide (key = s.apiKey) = true then _ else _) = _ ↔ _
          rw [if_neg (by simpa using hsame)]
          exact hrest

end SchemaSentry
