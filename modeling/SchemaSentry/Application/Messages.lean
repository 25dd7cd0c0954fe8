import SchemaSentry.Application.NotificationService
import SchemaSentry.Lib.Html
/-!
# Schema Sentry — what a message says

The two parts of an alert's mail are made of the same lines. Names come from
the source database, where a quoted identifier may hold any character: the
HTML part reads back to the lines whatever they say, and the text part does
so exactly where no line holds a line's end (`message_exact`).
-/

namespace SchemaSentry

open Lib

variable (context : ScanAlertContext) (url : String)

/-- The lines of an alert: its subject, the scan, the error or a line for
each change, and the dashboard. -/
def alertLines : List String :=
  let dashboardUrl := stripSlashes url ++ "/"
  let failure := context.errorCode.filter fun code => code ≠ ""
  let subject :=
    if failure.isSome then "Schema Sentry source failure: " ++ context.sourceKey
    else "Schema Sentry drift detected: " ++ context.sourceKey
  [subject, "scan #" ++ toString context.scanId] ++
    (match failure with
    | some code => ["error: " ++ code]
    | none => context.changes.map AlertChangeContext.line) ++
    ["dashboard: " ++ dashboardUrl]

theorem text_buildAlertMessage :
    (buildAlertMessage context url).text = String.intercalate "\n" (alertLines context url) := rfl

theorem html_buildAlertMessage : (buildAlertMessage context url).html =
    String.intercalate "<br>" ((alertLines context url).map escapeHtml) := rfl

theorem head_alertLines :
    (alertLines context url).head? = some (buildAlertMessage context url).subject := rfl

theorem getLast_alertLines : (alertLines context url).getLast? =
    some ("dashboard: " ++ (buildAlertMessage context url).dashboardUrl) := List.getLast?_concat

theorem alertLines_ne_nil : alertLines context url ≠ [] := List.cons_ne_nil _ _

/-- `html.escape` on the characters. -/
theorem toList_escapeHtml (s : String) : (escapeHtml s).toList = Html.escape s.toList := by
  unfold escapeHtml Html.escape
  rw [String.toList_join, List.flatMap_map]
  congr 1
  funext c
  unfold Html.escapeChar
  split_ifs <;> simp

theorem toList_html : (buildAlertMessage context url).html.toList =
    Html.render ((alertLines context url).map String.toList) := by
  rw [html_buildAlertMessage, String.toList_intercalate, List.map_map]
  unfold Html.render
  rw [List.map_map]
  congr 1
  exact List.map_congr_left fun line _ => toList_escapeHtml line

/-- What is between two line ends has none. -/
theorem not_mem_of_mem_splitOn {α : Type} [DecidableEq α] {a : α} {text piece : List α}
    (h : piece ∈ text.splitOn a) : a ∉ piece := by
  induction text generalizing piece with
  | nil =>
    have hnil : piece = [] := by simpa using h
    rw [hnil]
    exact List.not_mem_nil
  | cons x rest ih =>
    rw [List.splitOn_cons_eq_if_modifyHead] at h
    split at h
    · rcases List.mem_cons.1 h with rfl | h
      · exact List.not_mem_nil
      · exact ih h
    · rename_i hx
      obtain ⟨head, tail, hsplit⟩ := List.exists_cons_of_ne_nil (List.splitOn_ne_nil a rest)
      rw [hsplit] at h ih
      rcases List.mem_cons.1 h with rfl | h
      · intro hmem
        rcases List.mem_cons.1 hmem with rfl | hmem
        · exact hx (beq_self_eq_true _)
        · exact ih List.mem_cons_self hmem
      · exact ih (List.mem_cons_of_mem _ h)

/-- What the parts of an alert's mail say. -/
structure MessageExact (context : ScanAlertContext) (url : String) : Prop where
  tags : ∀ piece ∈ ((buildAlertMessage context url).html.toList.splitOn '<').tail,
    ∃ text, piece = ['b', 'r', '>'] ++ text ∧ ∀ c ∈ text, ¬ Html.IsMarkup c
  html : (Html.lines (buildAlertMessage context url).html.toList).map String.ofList =
    alertLines context url
  joined : (buildAlertMessage context url).text = String.intercalate "\n"
    ((Html.lines (buildAlertMessage context url).html.toList).map String.ofList)
  text : ((buildAlertMessage context url).text.toList.splitOn '\n').map String.ofList =
      alertLines context url ↔ ∀ line ∈ alertLines context url, '\n' ∉ line.toList
  determined : ∀ context' url', (buildAlertMessage context' url').html =
      (buildAlertMessage context url).html →
    buildAlertMessage context' url' = buildAlertMessage context url

theorem html_reads_back : (Html.lines (buildAlertMessage context url).html.toList).map
    String.ofList = alertLines context url := by
  have hne : (alertLines context url).map String.toList ≠ [] := by
    simpa using alertLines_ne_nil context url
  rw [toList_html, Html.lines_render hne, List.map_map]
  conv_rhs => rw [← List.map_id (alertLines context url)]
  exact List.map_congr_left fun line _ => String.ofList_toList

/-- **An alert's HTML part is exact**, whatever the names in it: its only
tags are the ends of lines, its lines are read as they were, and it
determines the message. Its text part is exact where no line holds a line's
end, and not otherwise. -/
theorem message_exact : MessageExact context url := by
  refine ⟨fun piece hpiece => ?_, html_reads_back context url, ?_, ⟨fun h => ?_, fun h => ?_⟩,
    fun context' url' hhtml => ?_⟩
  · obtain ⟨first, rest, hlines⟩ := List.exists_cons_of_ne_nil (alertLines_ne_nil context url)
    rw [toList_html, hlines, List.map_cons, Html.pieces_render, List.tail_cons] at hpiece
    obtain ⟨line, -, rfl⟩ := List.mem_map.1 hpiece
    exact ⟨_, rfl, fun c hc => Html.not_isMarkup_of_mem_escape hc⟩
  · rw [html_reads_back, text_buildAlertMessage]
  · intro line hline
    rw [← h] at hline
    obtain ⟨piece, hpiece, rfl⟩ := List.mem_map.1 hline
    rw [String.toList_ofList]
    exact not_mem_of_mem_splitOn hpiece
  · have hnone : ∀ line ∈ (alertLines context url).map String.toList, '\n' ∉ line := by
      intro line hline
      obtain ⟨text, htext, rfl⟩ := List.mem_map.1 hline
      exact h text htext
    have hne : (alertLines context url).map String.toList ≠ [] := by
      simpa using alertLines_ne_nil context url
    have hnewline : "\n".toList = ['\n'] := rfl
    rw [text_buildAlertMessage, String.toList_intercalate, hnewline,
      List.splitOn_intercalate _ hnone hne, List.map_map]
    conv_rhs => rw [← List.map_id (alertLines context url)]
    exact List.map_congr_left fun line _ => String.ofList_toList
  · -- the lines give the subject, the text and the dashboard's address
    have hlines : alertLines context' url' = alertLines context url := by
      rw [← html_reads_back context' url', ← html_reads_back context url, hhtml]
    have hsubject := head_alertLines context' url'
    have hdashboard := getLast_alertLines context' url'
    rw [hlines, head_alertLines context url] at hsubject
    rw [hlines, getLast_alertLines context url] at hdashboard
    have hsuffix := (String.append_right_inj _).1 (Option.some.inj hdashboard)
    have htext : (buildAlertMessage context' url').text = (buildAlertMessage context url).text := by
      rw [text_buildAlertMessage, text_buildAlertMessage, hlines]
    have hmessage : ∀ a b : AlertMessage, a.subject = b.subject → a.text = b.text →
        a.html = b.html → a.dashboardUrl = b.dashboardUrl → a = b := by
      rintro ⟨_, _, _, _⟩ ⟨_, _, _, _⟩ rfl rfl rfl rfl
      rfl
    exact hmessage _ _ (Option.some.inj hsubject).symm htext hhtml hsuffix.symm

end SchemaSentry
