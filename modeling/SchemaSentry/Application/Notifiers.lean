import SchemaSentry.Application.Delivery
import SchemaSentry.Application.ScanService
/-!
# Schema Sentry — the notifiers

`SlackNotifier` and `EmailNotifier` over what the network makes of what
they send, and `_notifiers`, which sets them up from the settings. A
notifier is set up for a channel exactly if the scans ask for deliveries
through it (`notifiers_isSome_iff`).
-/

namespace SchemaSentry

open Lib

/-! ## Slack -/

/-- `build_slack_blocks`: the texts of the blocks and the button's link. -/
structure SlackBlocks where
  text : String
  header : String
  body : String
  button : String
  url : String
  deriving DecidableEq, Repr

def buildSlackBlocks (message : AlertMessage) : SlackBlocks :=
  { text := message.subject, header := message.subject, body := message.text
    button := "Open Schema Sentry", url := message.dashboardUrl }

/-- What becomes of a POST to a webhook: a success response with the id in
its header, an `httpx.HTTPError`, which an error response is as well, or
another exception. -/
inductive PostOutcome where
  | answered (requestId : Option String)
  | httpError
  | raised (className : String)
  deriving DecidableEq, Repr

/-! ## Email -/

structure EmailMessage where
  subject : String
  sender : String
  recipients : String
  messageId : String
  text : String
  html : String
  deriving DecidableEq, Repr

/-- A character `str.splitlines` ends a line at. -/
def isLineBreak (c : Char) : Bool :=
  c ∈ ['\n', '\r', '\x0b', '\x0c', '\x1c', '\x1d', '\x1e', '\u0085', '\u2028', '\u2029']

/-- `len(text.splitlines()) > 1`: something follows a line break. -/
def severalLines : List Char → Bool
  | [] => false
  | c :: rest =>
    if isLineBreak c then
      decide (rest ≠ [] ∧ ¬ (c = '\r' ∧ rest = ['\n']))
    else severalLines rest

/-- `mime[...] = value`, which takes no value of several lines. -/
def header (value : String) : Except PyException String :=
  if severalLines value.toList then
    .error (.valueError "Header values may not contain linefeed or carriage return characters")
  else .ok value

def buildMultipartEmail (message : AlertMessage) (sender : String) (recipients : List String)
    (messageId : String) : Except PyException EmailMessage := do
  let subject ← header message.subject
  let sender ← header sender
  let recipients ← header (String.intercalate ", " recipients)
  return { subject := subject, sender := sender, recipients := recipients
           messageId := messageId, text := message.text, html := message.html }

/-- What becomes of a message handed to the SMTP server: it is sent but to
the recipients refused, an `OSError` or `SMTPException`, or another
exception. -/
inductive MailOutcome where
  | sent (refused : List String)
  | failed
  | raised (className : String)
  deriving DecidableEq, Repr

/-! ## Set up from the settings -/

/-- The settings of the email notifier. -/
structure SmtpSettings where
  smtpHost : String := "mailpit"
  smtpPort : ℕ := 1025
  emailFrom : String := "schema-sentry@localhost"
  deriving DecidableEq, Repr

/-- The network, and the id the next email gets. -/
structure Transport where
  post : String → SlackBlocks → PostOutcome
  sendMail : String → ℕ → EmailMessage → MailOutcome
  messageId : String

/-- `SlackNotifier.send`. -/
def slackNotifier (transport : Transport) (webhookUrl : String) : Notifier := fun message =>
  match transport.post webhookUrl (buildSlackBlocks message) with
  | .answered requestId => .accepted requestId
  | .httpError => .deliveryFailure "slack_delivery_failed"
  | .raised className => .raised className

/-- `EmailNotifier.send`. -/
def emailNotifier (transport : Transport) (smtp : SmtpSettings) (recipients : List String) :
    Notifier := fun message =>
  match buildMultipartEmail message smtp.emailFrom recipients transport.messageId with
  | .error e => .raised e.typeName
  | .ok mime =>
    match transport.sendMail smtp.smtpHost smtp.smtpPort mime with
    | .failed => .deliveryFailure "email_delivery_failed"
    | .raised className => .raised className
    | .sent refused =>
      if refused ≠ [] then .deliveryFailure "smtp_recipients_refused"
      else .accepted (some mime.messageId)

/-- `_notifiers`, by channel. -/
def notifiers (settings : Settings) (smtp : SmtpSettings) (transport : Transport) :
    AlertChannel → Option Notifier
  | .slack => (settings.slackWebhookUrl.filter fun url => url ≠ "").map (slackNotifier transport)
  | .email => if settings.emailTo ≠ [] then
      some (emailNotifier transport smtp settings.emailTo) else none

variable {settings : Settings} {smtp : SmtpSettings} {transport : Transport}
variable {channel : AlertChannel}

/-- **A channel has a notifier exactly if scans ask for deliveries through
it.** -/
theorem notifiers_isSome_iff :
    (notifiers settings smtp transport channel).isSome ↔ channel ∈ enabledChannels settings := by
  unfold enabledChannels
  rcases channel with _ | _
  · rcases hurl : settings.slackWebhookUrl with _ | url
    · by_cases hto : settings.emailTo = [] <;> simp [notifiers, hurl, hto]
    · by_cases hempty : url = ""
      · by_cases hto : settings.emailTo = [] <;> simp [notifiers, hurl, hempty, hto]
      · simp [notifiers, hurl, hempty]
  · by_cases hto : settings.emailTo = []
    · simp only [notifiers, hto]
      split <;> simp
    · simp [notifiers, hto]

/-- The network raises what its clients are documented to raise, and no
header is refused. -/
structure Transport.Regular (transport : Transport) (smtp : SmtpSettings) (settings : Settings) :
    Prop where
  post : ∀ url blocks className, transport.post url blocks ≠ .raised className
  mail : ∀ host port mime className, transport.sendMail host port mime ≠ .raised className
  sender : severalLines smtp.emailFrom.toList = false
  recipients : severalLines (String.intercalate ", " settings.emailTo).toList = false

/-- The texts a failed delivery's row may have. -/
def deliveryFailures : List String :=
  ["slack_delivery_failed", "email_delivery_failed", "smtp_recipients_refused"]

/-- **A notifier fails with one of three texts.** -/
theorem mem_deliveryFailures {notifier : Notifier} {message : AlertMessage} {text : String}
    (h : notifiers settings smtp transport channel = some notifier)
    (hfails : notifier message = .deliveryFailure text) : text ∈ deliveryFailures := by
  rcases channel with _ | _
  · obtain ⟨url, -, rfl⟩ := Option.map_eq_some_iff.1 h
    unfold slackNotifier at hfails
    split at hfails
    · cases hfails
    · cases hfails
      simp [deliveryFailures]
    · cases hfails
  · simp only [notifiers] at h
    split at h
    · cases h
      unfold emailNotifier at hfails
      split at hfails
      · cases hfails
      · split at hfails
        · cases hfails
          simp [deliveryFailures]
        · cases hfails
        · split at hfails
          · cases hfails
            simp [deliveryFailures]
          · cases hfails
    · cases h

/-- **A notifier raises nothing else** where the network does not and the
subject is one line. -/
theorem not_raised {notifier : Notifier} {message : AlertMessage} {className : String}
    (hregular : transport.Regular smtp settings)
    (h : notifiers settings smtp transport channel = some notifier)
    (hsubject : severalLines message.subject.toList = false) :
    notifier message ≠ .raised className := by
  rcases channel with _ | _
  · obtain ⟨url, -, rfl⟩ := Option.map_eq_some_iff.1 h
    unfold slackNotifier
    split
    · simp
    · simp
    · rename_i heq
      exact absurd heq (hregular.post _ _ _)
  · simp only [notifiers] at h
    split at h
    · cases h
      have hbuilt : buildMultipartEmail message smtp.emailFrom settings.emailTo
          transport.messageId = .ok
            { subject := message.subject, sender := smtp.emailFrom
              recipients := String.intercalate ", " settings.emailTo
              messageId := transport.messageId, text := message.text, html := message.html } := by
        unfold buildMultipartEmail header
        rw [hsubject, hregular.sender, hregular.recipients]
        rfl
      unfold emailNotifier
      rw [hbuilt]
      simp only
      split
      · simp
      · rename_i heq
        exact absurd heq (hregular.mail _ _ _ _)
      · split <;> simp
    · cases h

/-! ## Messages that are taken -/

theorem severalLines_append {line rest : List Char} (hline : ∀ c ∈ line, isLineBreak c = false) :
    severalLines (line ++ rest) = severalLines rest := by
  induction line with
  | nil => rfl
  | cons c line ih =>
    rw [List.cons_append, severalLines, hline c List.mem_cons_self]
    exact ih fun x hx => hline x (List.mem_cons_of_mem _ hx)

/-- The subject of an alert is one line where the source's key is. -/
theorem severalLines_subject {context : ScanAlertContext} {dashboardBaseUrl : String}
    (hkey : severalLines context.sourceKey.toList = false) :
    severalLines (buildAlertMessage context dashboardBaseUrl).subject.toList = false := by
  have hfailure : ∀ c ∈ "Schema Sentry source failure: ".toList, isLineBreak c = false := by decide
  have hdrift : ∀ c ∈ "Schema Sentry drift detected: ".toList, isLineBreak c = false := by decide
  unfold buildAlertMessage
  simp only
  split
  · rw [String.toList_append, severalLines_append hfailure, hkey]
  · rw [String.toList_append, severalLines_append hdrift, hkey]

/-- A network that is regular and whose receipts fit their column. -/
structure Transport.Answers (transport : Transport) (smtp : SmtpSettings) (settings : Settings) :
    Prop where
  regular : transport.Regular smtp settings
  receipt : ∀ url blocks receipt, transport.post url blocks = .answered (some receipt) →
    fits 250 receipt
  messageId : fits 250 transport.messageId

/-- A built email has the id it was given. -/
theorem messageId_of_built {message : AlertMessage} {sender messageId : String}
    {recipients : List String} {mime : EmailMessage}
    (h : buildMultipartEmail message sender recipients messageId = .ok mime) :
    mime.messageId = messageId := by
  unfold buildMultipartEmail at h
  obtain ⟨_, -, h⟩ := Lib.except_bind_ok.1 h
  obtain ⟨_, -, h⟩ := Lib.except_bind_ok.1 h
  obtain ⟨_, -, h⟩ := Lib.except_bind_ok.1 h
  cases h
  rfl

/-- Its receipts fit their column. -/
theorem receipt_fits {notifier : Notifier} {message : AlertMessage} {receipt : String}
    (hanswers : transport.Answers smtp settings)
    (h : notifiers settings smtp transport channel = some notifier)
    (hout : notifier message = .accepted (some receipt)) : fits 250 receipt := by
  rcases channel with _ | _
  · obtain ⟨url, -, rfl⟩ := Option.map_eq_some_iff.1 h
    unfold slackNotifier at hout
    split at hout
    · rename_i hpost
      cases hout
      exact hanswers.receipt _ _ _ hpost
    · cases hout
    · cases hout
  · simp only [notifiers] at h
    split at h
    · cases h
      unfold emailNotifier at hout
      split at hout
      · cases hout
      · rename_i mime hbuilt
        split at hout
        · cases hout
        · cases hout
        · split at hout
          · cases hout
          · cases hout
            rw [messageId_of_built hbuilt]
            exact hanswers.messageId
    · cases h

/-- **What such a network makes of a message is written down.** -/
theorem writable_of_answers {notifier : Notifier} {message : AlertMessage}
    (hanswers : transport.Answers smtp settings)
    (h : notifiers settings smtp transport channel = some notifier)
    (hsubject : severalLines message.subject.toList = false) : (notifier message).Writable := by
  rcases hout : notifier message with receipt | text | className
  · intro r hr
    cases hr
    exact receipt_fits hanswers h hout
  · trivial
  · exact absurd hout (not_raised hanswers.regular h hsubject)

end SchemaSentry
