import SchemaSentry.System.Deliveries
/-!
# Schema Sentry — at most one successful delivery

A message a notifier has accepted is its delivery's last and leaves the
row SENT, in every run in which no attempt is made on a SENT row and no
call rolls back what a notifier has accepted (`sent_once`); `sent_twice`
is a retry after a dispatch.
-/

namespace SchemaSentry

open Lib DbM

/-! ## What goes right -/

/-- The row records that the message was accepted. -/
def Handed.SentAs (h : Handed) (row : AlertDeliveryModel) : Prop :=
  row.status = .sent ∧ row.sentAt = some h.handedAt ∧ h.outcome = .accepted row.providerMessageId

/-- **A message accepted is its delivery's last**, and the row says SENT with
its moment and receipt once the call has committed. -/
structure SentOnce (w : World) (id : Uuid) : Prop where
  last : ∀ before h after, w.logOf id = before ++ h :: after → h.Accepted → after = []
  stays : ∀ h ∈ w.logOf id, h.Accepted → (∃ n, w.InFlight n h) ∨
    ∃ row, w.db.delivery? id = some row ∧ h.SentAs row

/-- The step makes no attempt on a SENT row, and a call in which a message
was accepted goes on: the receipt fits, and no attempt after it raises. -/
def World.Guarded (w : World) : CallStep → Prop
  | .turn n => ∀ c id rest, w.calls n = some c → c.todo = id :: rest → w.Free n id →
      (∀ h ∈ w.db.hand? c.env c.now id, h.Accepted → h.outcome.Writable) ∧
      ((∃ h, w.db.hand? c.env c.now id = some h) →
        ∀ d ∈ w.db.delivery? id, d.status ≠ .sent) ∧
      ((∃ h ∈ c.session.handed, h.Accepted) → w.db.Passes c.env c.now id)
  | _ => True

instance (w : World) (e : CallStep) : Decidable (w.Guarded e) :=
  match e with
  | .enter _ _ _ _ => inferInstanceAs (Decidable True)
  | .turn _ => decidable_of_iff _ World.forall_next?
  | .leave _ => inferInstanceAs (Decidable True)

/-! ## Runs -/

variable {w : World} {id : Uuid}

/-- A call that has raised had no message accepted. -/
def World.Safe (w : World) : Prop :=
  ∀ n c e, w.calls n = some c → c.raised = some e → ∀ h ∈ c.session.handed, ¬ h.Accepted

theorem World.Safe.apply (hw : w.Consistent) (hsafe : w.Safe) {e : CallStep}
    (hguarded : w.Guarded e) : (World.apply e w).Safe := by
  rcases e with ⟨n, entry, env, now⟩ | n | n
  · simp only [World.apply]
    split
    · exact hsafe
    · intro m d x hd hx
      rcases calls_update hd with ⟨-, hd'⟩ | ⟨-, hd'⟩
      · obtain rfl := Option.some.inj hd'
        cases hx
      · exact hsafe m d x hd' hx
  · simp only [World.apply]
    split
    · exact hsafe
    rename_i c hcall
    split
    · exact hsafe
    rename_i id rest htodo
    split
    swap
    · exact hsafe
    rename_i hfree
    obtain ⟨hwritable, -, hgoes⟩ := hguarded c id rest hcall htodo hfree
    obtain ⟨c', handed, hturned, heq⟩ := attempted_cases hw hcall htodo
    rw [heq]
    intro m d x hd hx h hmem hacc
    rcases calls_update hd with ⟨-, hd'⟩ | ⟨-, hd'⟩
    · obtain rfl := Option.some.inj hd'
      rcases hturned with ⟨-, -⟩ | ⟨hhand, hnot⟩ | hhand
      · cases hx
      · rename_i message _
        rcases List.mem_append.1 hmem with hold | hnew
        · obtain ⟨g, hg, hw'⟩ := hgoes ⟨h, hold, hacc⟩
          obtain rfl : message = g := Option.some.inj (hhand.symm.trans hg)
          exact hnot hw'
        · obtain rfl := List.mem_singleton.1 hnew
          exact hnot (hwritable h hhand hacc)
      · obtain ⟨g, hg, -⟩ := hgoes ⟨h, hmem, hacc⟩
        rw [hhand] at hg
        cases hg
    · exact hsafe m d x hd' hx h hmem hacc
  · simp only [World.apply]
    split
    · exact hsafe
    rename_i c hcall
    split
    swap
    · exact hsafe
    intro m d x hd hx
    rcases calls_update hd with ⟨-, hd'⟩ | ⟨-, hd'⟩
    · cases hd'
    · exact hsafe m d x hd' hx

/-- On a delivery's track an accepted message is the last, in flight or in
the row; a row SENT from the start has none. -/
structure Track.SentOnce (first : AlertDeliveryModel) (τ : Track) : Prop where
  accepted : ∀ before h after, τ.log = before ++ h :: after → h.Accepted →
    after = [] ∧ (τ.inFlight = some h ∨ τ.inFlight = none ∧ h.SentAs τ.row)
  first : first.status = .sent → τ = ⟨first, none, []⟩

/-- An accepted outcome, once committed, is in the row. -/
theorem Handed.sentAs_written {h : Handed} (hacc : h.Accepted) (row : AlertDeliveryModel) :
    h.SentAs (h.written row) := by
  obtain ⟨receipt, hout⟩ := hacc
  have heq : h.written row = row.startAttempt.sent receipt h.handedAt := by
    unfold Handed.written
    rw [hout]
  rw [heq]
  exact ⟨rfl, rfl, hout⟩

theorem Track.SentOnce.step {first : AlertDeliveryModel} {τ τ' : Track} {e : CallStep}
    (hsafe : w.Safe) (hguarded : w.Guarded e) (hτ : w.Tracks id τ) (h : τ.SentOnce first)
    (hstep : TrackStep w e id τ τ') : τ'.SentOnce first := by
  rcases hstep with _ | ⟨he, hcall, htodo, hfree, hnone, hhand⟩ | hsome |
    ⟨hcall, hraised, hmem, hsome⟩
  · exact h
  · rename_i n c rest message
    subst he
    obtain ⟨-, hnot, -⟩ := hguarded c id rest hcall htodo hfree
    have hopen : τ.row.status ≠ .sent :=
      hnot ⟨message, hhand⟩ τ.row hτ.row
    -- so nothing was accepted before
    have hbefore : ∀ g ∈ τ.log, ¬ g.Accepted := by
      intro g hg hacc
      obtain ⟨before, after, hlog⟩ := List.append_of_mem hg
      rcases (h.accepted before g after hlog hacc).2 with hflight | ⟨-, hsent, -, -⟩
      · rw [hnone] at hflight
        cases hflight
      · exact hopen hsent
    refine ⟨fun before g after hlog hacc => ?_, fun hfirst => ?_⟩
    · rcases List.eq_nil_or_concat after with rfl | ⟨after', last, rfl⟩
      · obtain ⟨-, hsame⟩ := List.append_inj' hlog rfl
        obtain rfl : message = g := (List.cons.inj hsame).1
        exact ⟨rfl, Or.inl rfl⟩
      · have hlog' : τ.log ++ [message] = (before ++ g :: after') ++ [last] := by
          rw [show τ.log ++ [message] = before ++ g :: after'.concat last from hlog]
          simp
        obtain ⟨hold, -⟩ := List.append_inj' hlog' rfl
        refine absurd hacc (hbefore g ?_)
        rw [hold]
        exact List.mem_append_right _ List.mem_cons_self
    · rw [h.first hfirst] at hopen
      exact absurd hfirst hopen
  · rename_i message
    refine ⟨fun before g after hlog hacc => ?_, fun hfirst => ?_⟩
    · obtain ⟨hlast, hflight | ⟨hnone, -⟩⟩ := h.accepted before g after hlog hacc
      · obtain rfl : message = g := Option.some.inj (hsome.symm.trans hflight)
        exact ⟨hlast, Or.inr ⟨rfl, message.sentAs_written hacc τ.row⟩⟩
      · rw [hnone] at hsome
        cases hsome
    · rw [h.first hfirst] at hsome
      cases hsome
  · rename_i n c x message
    refine ⟨fun before g after hlog hacc => ?_, fun hfirst => ?_⟩
    · obtain ⟨-, hflight | ⟨hnone, -⟩⟩ := h.accepted before g after hlog hacc
      · obtain rfl : message = g := Option.some.inj (hsome.symm.trans hflight)
        exact absurd hacc (hsafe n c x hcall hraised message hmem)
      · rw [hnone] at hsome
        cases hsome
    · rw [h.first hfirst] at hsome
      cases hsome

/-- **In every run that makes no attempt on a SENT row and rolls no accepted
message back, no delivery is sent twice**, and a SENT row stays as it is. -/
theorem sent_once {start : DB} (hc : start.Constraints)
    (hkeys : (start.alertDeliveries.map AlertDeliveryModel.id).Nodup)
    (hpath : Lib.Path World.apply World.Guarded (World.init start) w) :
    ∀ d ∈ start.alertDeliveries, SentOnce w d.id ∧
      (d.status = .sent → w.db.delivery? d.id = some d ∧ w.logOf d.id = []) := by
  have hrun : (w.Consistent ∧ w.Safe) ∧
      ∀ d ∈ start.alertDeliveries, ∃ τ, w.Tracks d.id τ ∧ τ.SentOnce d := by
    refine hpath.invariant (P := fun w => (w.Consistent ∧ w.Safe) ∧
      ∀ d ∈ start.alertDeliveries, ∃ τ, w.Tracks d.id τ ∧ τ.SentOnce d) ⟨⟨?_, ?_⟩, ?_⟩ ?_
    · exact consistent_init hc hkeys
    · exact fun n c e hcall => (nomatch hcall)
    · intro d hd
      have hrow : start.delivery? d.id = some d := (find?_eq_some_of_nodup hkeys).2 ⟨hd, rfl⟩
      refine ⟨_, tracks_init hrow, fun before h after hlog => ?_, fun _ => rfl⟩
      exact absurd hlog (by simp)
    · rintro w e ⟨⟨hw, hsafe⟩, htracks⟩ hguarded
      refine ⟨⟨hw.apply e, hsafe.apply hw hguarded⟩, fun d hd => ?_⟩
      obtain ⟨τ, hτ, hsent⟩ := htracks d hd
      obtain ⟨τ', hτ', hstep⟩ := exists_trackStep hw hτ e
      exact ⟨τ', hτ', hsent.step hsafe hguarded hτ hstep⟩
  intro d hd
  obtain ⟨τ, hτ, hsent⟩ := hrun.2 d hd
  refine ⟨⟨fun before h after hlog hacc => ?_, fun h hmem hacc => ?_⟩, fun hfirst => ?_⟩
  · exact (hsent.accepted before h after (hτ.log ▸ hlog) hacc).1
  · have hid : h.deliveryId = d.id := of_decide_eq_true (List.mem_filter.1 hmem).2
    obtain ⟨before, after, hlog⟩ := List.append_of_mem hmem
    rcases (hsent.accepted before h after (hτ.log ▸ hlog) hacc).2 with hflight | ⟨-, hrow⟩
    · exact Or.inl ((hτ.inFlight h hid).2 hflight)
    · exact Or.inr ⟨τ.row, hτ.row, hrow⟩
  · have heq := hsent.first hfirst
    refine ⟨?_, ?_⟩
    · rw [hτ.row, heq]
    · rw [hτ.log, heq]

/-! ## A retry of a SENT delivery -/

/-- A dispatch that sends, and a retry after it. -/
def sampleRetryOfSent : List CallStep :=
  [.enter 0 (.dispatch 1) sampleBothAccept 0, .turn 0, .turn 0, .leave 0,
    .enter 1 (.retry 2) sampleBothAccept 1, .turn 1, .leave 1]

/-- **A retry sends again what was accepted.** -/
theorem sent_twice : ∃ w, Lib.Path World.apply (fun _ _ => True) (World.init sampleAlerted) w ∧
    ¬ SentOnce w 2 := by
  refine ⟨_, Lib.Path.of_events sampleRetryOfSent fun _ _ _ => trivial, fun h => ?_⟩
  have hlog : ((sampleRetryOfSent.foldl (fun w e => World.apply e w)
      (World.init sampleAlerted)).logOf 2).map Handed.outcome =
        [.accepted none, .accepted none] := by
    decide +kernel
  obtain ⟨first, hfirst⟩ : ∃ first second, (sampleRetryOfSent.foldl
      (fun w e => World.apply e w) (World.init sampleAlerted)).logOf 2 = [first, second] ∧
        first.outcome = .accepted none := by
    obtain ⟨first, rest, hcons, hfirst, hrest⟩ := List.map_eq_cons_iff.1 hlog
    obtain ⟨second, rest', rfl, -, hnil⟩ := List.map_eq_cons_iff.1 hrest
    rw [List.map_eq_nil_iff.1 hnil] at hcons
    exact ⟨first, second, hcons, hfirst⟩
  obtain ⟨second, hboth, hacc⟩ := hfirst
  exact absurd (h.last [] first [second] hboth ⟨none, hacc⟩) (by simp)

/-- In the sample's run the webhook is handed the message twice, once failing
and once accepting, and the mail once. -/
theorem sent_once_sample :
    (∀ d ∈ sampleAlerted.alertDeliveries, SentOnce (sampleRetried.foldl
      (fun w e => World.apply e w) (World.init sampleAlerted)) d.id) ∧
    (sampleRetried.foldl (fun w e => World.apply e w) (World.init sampleAlerted)).log.map
      (fun h => (h.deliveryId, h.outcome)) =
        [(2, .deliveryFailure "slack_delivery_failed"), (3, .accepted none),
          (2, .accepted none)] := by
  refine ⟨fun d hd => (sent_once (by decide) (by decide)
    (Lib.Path.of_along sampleRetried (by decide +kernel)) d hd).1, ?_⟩
  decide +kernel

end SchemaSentry
