import SchemaSentry.System.Deliveries
/-!
# Schema Sentry — bounded and spaced retries

The messages handed out of a delivery follow its row: three at most, each
when the row says it is due (`Followed`). `retries_bounded` gives it for
every run in which no message handed out is rolled back; `four_handed` is
a run in which one is.
-/

namespace SchemaSentry

open Lib DbM

/-! ## A row and its messages -/

/-- What a delivery's row is after a call. -/
structure AlertDeliveryModel.Regular (d : AlertDeliveryModel) : Prop where
  pending : d.status = .pending → d.attemptCount = 0 ∧ d.nextRetryAt = none
  failed : d.status = .failed → 1 ≤ d.attemptCount ∧ d.attemptCount ≤ maxAttempts ∧
    (d.nextRetryAt.isSome ↔ d.attemptCount < maxAttempts)
  sent : d.status = .sent → 1 ≤ d.attemptCount ∧ d.attemptCount ≤ maxAttempts ∧
    d.nextRetryAt = none

/-- Never attempted. -/
def AlertDeliveryModel.Untried (d : AlertDeliveryModel) : Prop :=
  d.status = .pending ∧ d.attemptCount = 0 ∧ d.nextRetryAt = none

instance (d : AlertDeliveryModel) : Decidable d.Untried :=
  inferInstanceAs (Decidable (_ ∧ _ ∧ _))

/-- A message may be handed out of the row now, and its outcome written. -/
structure Handed.Follows (h : Handed) (row : AlertDeliveryModel) : Prop where
  left : row.attemptCount < maxAttempts
  due : ∀ t ∈ row.nextRetryAt, t ≤ h.handedAt
  attempt : h.attempt = row.attemptCount + 1
  writable : h.outcome.Writable

/-- A row and the messages that made it what it is. -/
inductive Followed : List Handed → AlertDeliveryModel → Prop
  | untried {row : AlertDeliveryModel} : row.Untried → Followed [] row
  | tried {hs : List Handed} {row : AlertDeliveryModel} {h : Handed} : Followed hs row →
      h.Follows row → Followed (hs ++ [h]) (h.written row)

variable {hs : List Handed} {row : AlertDeliveryModel} {h : Handed}

/-- A message's number is the row's count after it. -/
theorem Handed.attemptCount_written (h : Handed) (row : AlertDeliveryModel) :
    (h.written row).attemptCount = row.attemptCount + 1 := by
  unfold Handed.written
  rcases h.outcome with receipt | error | className
  · rfl
  · rfl
  · rfl

/-- There are as many messages as attempts counted. -/
theorem Followed.length_eq (h : Followed hs row) : hs.length = row.attemptCount := by
  induction h with
  | untried hrow => exact hrow.2.1.symm
  | tried _ hfollows ih => rw [List.length_append, ih, Handed.attemptCount_written]; rfl

theorem Followed.attemptCount_le (h : Followed hs row) : row.attemptCount ≤ maxAttempts := by
  rcases h with hrow | ⟨-, hfollows⟩
  · rw [hrow.2.1]
    exact Nat.zero_le _
  · rw [Handed.attemptCount_written]
    exact hfollows.left

/-- The messages are numbered from one on. -/
theorem Followed.attempt_mem (h : Followed hs row) :
    ∀ message ∈ hs, 1 ≤ message.attempt ∧ message.attempt ≤ maxAttempts := by
  induction h with
  | untried _ => exact fun _ hmem => (nomatch hmem)
  | tried _ hfollows ih =>
    intro message hmem
    rcases List.mem_append.1 hmem with hold | hnew
    · exact ih message hold
    · obtain rfl := List.mem_singleton.1 hnew
      have hleft := hfollows.left
      have hnumber := hfollows.attempt
      omega

/-- Where an attempt is made again the delays have an entry for it. -/
theorem retryAt_eq (now : Timestamp) {n : ℕ} (hpos : 1 ≤ n) (hlt : n < maxAttempts) :
    ∃ delay, retryDelays[n - 1]? = some delay ∧ retryAt now n = some (now + delay) := by
  have hget := List.getElem?_eq_getElem (retryDelays_inRange hpos hlt)
  refine ⟨_, hget, ?_⟩
  unfold retryAt
  rw [if_pos hlt, hget]
  rfl

theorem retryAt_isSome (now : Timestamp) {n : ℕ} (hpos : 1 ≤ n) :
    (retryAt now n).isSome ↔ n < maxAttempts := by
  constructor
  · intro hsome
    by_contra hnot
    unfold retryAt at hsome
    rw [if_neg hnot] at hsome
    cases hsome
  · intro hlt
    obtain ⟨delay, -, heq⟩ := retryAt_eq now hpos hlt
    rw [heq]
    rfl

/-- **A row with its messages is regular.** -/
theorem Followed.regular (h : Followed hs row) : row.Regular := by
  rcases h with hrow | @⟨_, row, h, -, hfollows⟩
  · obtain ⟨hstatus, hcount, hnext⟩ := hrow
    refine ⟨fun _ => ⟨hcount, hnext⟩, fun hs => ?_, fun hs => ?_⟩
    · rw [hstatus] at hs
      cases hs
    · rw [hstatus] at hs
      cases hs
  · have hcount := h.attemptCount_written row
    have hleft := hfollows.left
    have hbounds : 1 ≤ (h.written row).attemptCount ∧
        (h.written row).attemptCount ≤ maxAttempts := by
      rw [hcount]
      omega
    rcases hout : h.outcome with receipt | error | className
    · have heq : h.written row = row.startAttempt.sent receipt h.handedAt := by
        unfold Handed.written
        rw [hout]
      refine ⟨fun hs => ?_, fun hs => ?_, fun _ => ⟨hbounds.1, hbounds.2, ?_⟩⟩
      · rw [heq] at hs
        cases hs
      · rw [heq] at hs
        cases hs
      · rw [heq]
        rfl
    · have heq : h.written row = row.startAttempt.unsent error (retryAt h.handedAt h.attempt) := by
        unfold Handed.written
        rw [hout]
      refine ⟨fun hs => ?_, fun _ => ⟨hbounds.1, hbounds.2, ?_⟩, fun hs => ?_⟩
      · rw [heq] at hs
        cases hs
      · have hnumber : h.attempt = (h.written row).attemptCount := by
          rw [hcount, hfollows.attempt]
        rw [← hnumber] at hbounds ⊢
        rw [heq]
        exact retryAt_isSome _ hbounds.1
      · rw [heq] at hs
        cases hs
    · have hw := hfollows.writable
      rw [hout] at hw
      exact hw.elim

/-- A failed message's row is due again only after the delay. -/
theorem Followed.spaced (hf : Followed hs row) : ∀ before message message' after,
    hs = before ++ message :: message' :: after →
    (∃ error, message.outcome = .deliveryFailure error) →
    ∃ delay, retryDelays[message.attempt - 1]? = some delay ∧
      message.handedAt + delay ≤ message'.handedAt := by
  have hlast : ∀ {hs row}, Followed hs row → ∀ before message, hs = before ++ [message] →
      (∃ error, message.outcome = .deliveryFailure error) → row.attemptCount < maxAttempts →
      ∃ delay, retryDelays[message.attempt - 1]? = some delay ∧
        row.nextRetryAt = some (message.handedAt + delay) := by
    intro hs row hf before message heq hfailed hleft
    rcases hf with hrow | @⟨hs, row, h, hprev, hfollows⟩
    · exact absurd heq (by simp)
    · obtain ⟨-, hsame⟩ := List.append_inj' heq rfl
      obtain rfl : h = message := (List.cons.inj hsame).1
      obtain ⟨error, hout⟩ := hfailed
      have hnumber := hfollows.attempt
      rw [Handed.attemptCount_written, ← hnumber] at hleft
      obtain ⟨delay, hdelay, hretry⟩ := retryAt_eq h.handedAt (by omega : 1 ≤ h.attempt) hleft
      refine ⟨delay, hdelay, ?_⟩
      unfold Handed.written
      rw [hout]
      exact hretry
  induction hf with
  | untried _ =>
    intro before message message' after heq
    exact absurd heq (by simp)
  | @tried hs row h hprev hfollows ih =>
    intro before message message' after heq hfailed
    rcases List.eq_nil_or_concat after with rfl | ⟨after', last, rfl⟩
    · -- the last two messages
      have heq' : hs ++ [h] = (before ++ [message]) ++ [message'] := by
        rw [heq, List.append_assoc]
        rfl
      obtain ⟨hhs, hsame⟩ := List.append_inj' heq' rfl
      obtain rfl : h = message' := (List.cons.inj hsame).1
      obtain ⟨delay, hdelay, hnext⟩ := hlast hprev before message hhs hfailed hfollows.left
      exact ⟨delay, hdelay, hfollows.due _ hnext⟩
    · have heq' : hs ++ [h] = (before ++ message :: message' :: after') ++ [last] := by
        rw [heq]
        simp
      obtain ⟨hhs, -⟩ := List.append_inj' heq' rfl
      exact ih before message message' after' hhs hfailed

/-! ## Runs that lose no message -/

/-- The step hands no message out of a call that will roll it back: an
outcome handed out can be written, and once a call has handed a message out
none of its attempts is refused. -/
def World.Kept (w : World) : CallStep → Prop
  | .turn n => ∀ c id rest, w.calls n = some c → c.todo = id :: rest → w.Free n id →
      (∀ h ∈ w.db.hand? c.env c.now id, h.outcome.Writable) ∧
      (c.session.handed ≠ [] → ∃ h, w.db.hand? c.env c.now id = some h)
  | _ => True

instance (w : World) (e : CallStep) : Decidable (w.Kept e) :=
  match e with
  | .enter _ _ _ _ => inferInstanceAs (Decidable True)
  | .turn _ => decidable_of_iff _ World.forall_next?
  | .leave _ => inferInstanceAs (Decidable True)

/-- A call that has raised has handed nothing out. -/
def World.Unharmed (w : World) : Prop :=
  ∀ n c e, w.calls n = some c → c.raised = some e → c.session.handed = []

variable {w : World}

theorem World.Unharmed.apply (hw : w.Consistent) (hun : w.Unharmed) {e : CallStep}
    (hkept : w.Kept e) : (World.apply e w).Unharmed := by
  rcases e with ⟨n, entry, env, now⟩ | n | n
  · simp only [World.apply]
    split
    · exact hun
    · intro m d x hd hx
      rcases calls_update hd with ⟨-, hd'⟩ | ⟨-, hd'⟩
      · obtain rfl := Option.some.inj hd'
        rfl
      · exact hun m d x hd' hx
  · simp only [World.apply]
    split
    · exact hun
    rename_i c hcall
    split
    · exact hun
    rename_i id rest htodo
    split
    swap
    · exact hun
    rename_i hfree
    obtain ⟨hwritable, hnext⟩ := hkept c id rest hcall htodo hfree
    obtain ⟨c', handed, hturned, heq⟩ := attempted_cases hw hcall htodo
    rw [heq]
    intro m d x hd hx
    rcases calls_update hd with ⟨-, hd'⟩ | ⟨-, hd'⟩
    · obtain rfl := Option.some.inj hd'
      rcases hturned with ⟨-, -⟩ | ⟨hhand, hnot⟩ | hhand
      · cases hx
      · exact absurd (hwritable _ hhand) hnot
      · -- a refused attempt is the call's first
        by_contra hne
        obtain ⟨h, hsome⟩ := hnext hne
        rw [hhand] at hsome
        cases hsome
    · exact hun m d x hd' hx
  · simp only [World.apply]
    split
    · exact hun
    rename_i c hcall
    split
    swap
    · exact hun
    intro m d x hd hx
    rcases calls_update hd with ⟨-, hd'⟩ | ⟨-, hd'⟩
    · cases hd'
    · exact hun m d x hd' hx

/-- A row with its messages, the last of which may be in flight. -/
def Track.Followed (τ : Track) : Prop :=
  ∃ hs, SchemaSentry.Followed hs τ.row ∧ (τ.inFlight = none ∧ τ.log = hs ∨
    ∃ h, τ.inFlight = some h ∧ τ.log = hs ++ [h] ∧ h.Follows τ.row)

theorem Track.Followed.step {id : Uuid} {τ τ' : Track} {e : CallStep} (hun : w.Unharmed)
    (hkept : w.Kept e) (hτ : w.Tracks id τ) (h : τ.Followed) (hstep : TrackStep w e id τ τ') :
    τ'.Followed := by
  obtain ⟨hs, hfollowed, hlog⟩ := h
  rcases hstep with _ | ⟨he, hcall, htodo, hfree, hnone, hhand⟩ | hsome | ⟨hcall, hraised, hmem, -⟩
  · exact ⟨hs, hfollowed, hlog⟩
  · rename_i n c rest h
    subst he
    obtain ⟨hwritable, -⟩ := hkept c id rest hcall htodo hfree
    have hlog' : τ.log = hs := by
      rcases hlog with ⟨-, hlog⟩ | ⟨g, hg, -, -⟩
      · exact hlog
      · rw [hnone] at hg
        cases hg
    obtain ⟨row, context, notifier, hready, rfl⟩ := exists_ready_of_hand? hhand
    obtain rfl : row = τ.row := Option.some.inj (hready.found.symm.trans hτ.row)
    exact ⟨hs, hfollowed, Or.inr ⟨_, rfl, by rw [hlog'],
      hready.left, hready.due, rfl, hwritable _ hhand⟩⟩
  · rename_i h
    rcases hlog with ⟨hnone, -⟩ | ⟨g, hg, hlog, hfollows⟩
    · rw [hnone] at hsome
      cases hsome
    · obtain rfl : g = h := Option.some.inj (hg.symm.trans hsome)
      exact ⟨hs ++ [g], hfollowed.tried hfollows, Or.inl ⟨rfl, hlog⟩⟩
  · rw [hun _ _ _ hcall hraised] at hmem
    cases hmem

/-! ## Bounded and spaced -/

/-- **The retries of a delivery are bounded and spaced**: it is handed out
three times at most, every index into the delays is in range, an attempt
after a failed one waits for its delay, and the committed row is regular. -/
structure RetriesBounded (w : World) (id : Uuid) : Prop where
  bounded : (w.logOf id).length ≤ maxAttempts
  inRange : ∀ h ∈ w.logOf id, 1 ≤ h.attempt ∧
    (h.attempt < maxAttempts → h.attempt - 1 < retryDelays.length)
  spaced : ∀ before h h' after, w.logOf id = before ++ h :: h' :: after →
    (∃ error, h.outcome = .deliveryFailure error) →
    ∃ delay, retryDelays[h.attempt - 1]? = some delay ∧ h.handedAt + delay ≤ h'.handedAt
  regular : ∃ row, w.db.delivery? id = some row ∧ row.Regular

/-- **A rejected attempt changes nothing**: it hands nothing out, and its
call, which ends there, commits what was there. -/
def RejectionsHarmless (w : World) : Prop :=
  (∀ n c id rest, w.calls n = some c → c.todo = id :: rest →
    w.db.hand? c.env c.now id = none →
    (World.apply (.turn n) w).log = w.log ∧ (World.apply (.turn n) w).db = w.db) ∧
  ∀ n c e, w.calls n = some c → c.raised = some e → (World.apply (.leave n) w).db = w.db

theorem Track.Followed.bounded {id : Uuid} {τ : Track} (hτ : w.Tracks id τ) (h : τ.Followed) :
    RetriesBounded w id := by
  obtain ⟨hs, hfollowed, hlog⟩ := h
  -- the message in flight may be counted in
  obtain ⟨row, hall⟩ : ∃ row, SchemaSentry.Followed (w.logOf id) row := by
    rw [hτ.log]
    rcases hlog with ⟨-, hlog⟩ | ⟨g, -, hlog, hfollows⟩
    · exact ⟨_, hlog ▸ hfollowed⟩
    · exact ⟨_, hlog ▸ hfollowed.tried hfollows⟩
  refine ⟨?_, fun h hmem => ?_, hall.spaced, τ.row, hτ.row, hfollowed.regular⟩
  · rw [hall.length_eq]
    exact hall.attemptCount_le
  · have hpos := (hall.attempt_mem h hmem).1
    exact ⟨hpos, retryDelays_inRange hpos⟩

theorem rejectionsHarmless (hw : w.Consistent) (hun : w.Unharmed) : RejectionsHarmless w := by
  refine ⟨fun n c id rest hcall htodo hnone => ?_, fun n c e hcall hraised => ?_⟩
  · simp only [World.apply, hcall, htodo]
    split
    · obtain ⟨c', handed, hturned, heq⟩ := attempted_cases hw hcall htodo
      rw [heq]
      rcases hturned with ⟨hhand, -⟩ | ⟨hhand, -⟩ | -
      · rw [hnone] at hhand
        cases hhand
      · rw [hnone] at hhand
        cases hhand
      · exact ⟨List.append_nil _, rfl⟩
    · exact ⟨rfl, rfl⟩
  · simp only [World.apply, hcall]
    split
    · show c.publish w.db = w.db
      rcases publish_cases hw hcall with heq | ⟨heq, -⟩
      · rw [heq, hun n c e hcall hraised]
        rfl
      · exact heq
    · rfl

/-- **In every run that loses no message handed out, the retries of every
delivery are bounded and spaced, and rejected calls change nothing.** -/
theorem retries_bounded {start : DB} (hc : start.Constraints)
    (hkeys : (start.alertDeliveries.map AlertDeliveryModel.id).Nodup)
    (huntried : ∀ d ∈ start.alertDeliveries, d.Untried)
    (hpath : Lib.Path World.apply World.Kept (World.init start) w) :
    (∀ d ∈ start.alertDeliveries, RetriesBounded w d.id) ∧ RejectionsHarmless w := by
  have hrun : (w.Consistent ∧ w.Unharmed) ∧
      ∀ d ∈ start.alertDeliveries, ∃ τ, w.Tracks d.id τ ∧ τ.Followed := by
    refine hpath.invariant (P := fun w => (w.Consistent ∧ w.Unharmed) ∧
      ∀ d ∈ start.alertDeliveries, ∃ τ, w.Tracks d.id τ ∧ τ.Followed) ⟨⟨?_, ?_⟩, ?_⟩ ?_
    · exact consistent_init hc hkeys
    · exact fun n c e hcall => (nomatch hcall)
    · intro d hd
      have hrow : start.delivery? d.id = some d :=
        (find?_eq_some_of_nodup hkeys).2 ⟨hd, rfl⟩
      exact ⟨_, tracks_init hrow, [], .untried (huntried d hd), Or.inl ⟨rfl, rfl⟩⟩
    · rintro w e ⟨⟨hw, hun⟩, htracks⟩ hkept
      refine ⟨⟨hw.apply e, hun.apply hw hkept⟩, fun d hd => ?_⟩
      obtain ⟨τ, hτ, hfollowed⟩ := htracks d hd
      obtain ⟨τ', hτ', hstep⟩ := exists_trackStep hw hτ e
      exact ⟨τ', hτ', hfollowed.step hun hkept hτ hstep⟩
  obtain ⟨⟨hw, hun⟩, htracks⟩ := hrun
  refine ⟨fun d hd => ?_, rejectionsHarmless hw hun⟩
  obtain ⟨τ, hτ, hfollowed⟩ := htracks d hd
  exact hfollowed.bounded hτ

/-! ## A run that loses messages -/

/-- The notifiers return or raise a `DeliveryFailure`. -/
def Notifications.Behave (env : Notifications) : Prop :=
  ∀ channel, ∀ notifier ∈ env.notifiers channel, ∀ message className,
    notifier message ≠ .raised className

/-- The step brings no other notifiers in. -/
def CallStep.Behaves : CallStep → Prop
  | .enter _ _ env _ => env.Behave
  | _ => True

/-- The webhook fails, and there is no mail. -/
def sampleHookFails : Notifications :=
  { notifiers := fun channel =>
      match channel with
      | .slack => some fun _ => .deliveryFailure "slack_delivery_failed"
      | .email => none
    dashboardBaseUrl := "http://localhost" }

/-- One dispatch, up to its end. -/
def sampleDispatch (n : ℕ) : List CallStep :=
  [.enter n (.dispatch 1) sampleHookFails 0, .turn n, .turn n, .leave n]

theorem sampleDispatch_behaves (n : ℕ) : ∀ e ∈ sampleDispatch n, e.Behaves := by
  have henv : sampleHookFails.Behave := by
    intro channel notifier hn message className hraised
    rcases channel with _ | _
    · obtain rfl := Option.some.inj hn
      cases hraised
    · cases hn
  intro e he
  simp only [sampleDispatch, List.mem_cons, List.not_mem_nil, or_false] at he
  rcases he with rfl | rfl | rfl | rfl
  · exact henv
  · trivial
  · trivial
  · trivial

/-- **Nothing bounds how often a delivery is handed out**: each dispatch loses
what it has handed out when it meets the channel without a notifier, so the
next finds the delivery as it was. -/
theorem handed_again (k : ℕ) :
    ∃ w, Lib.Path World.apply (fun _ e => e.Behaves) (World.init sampleAlerted) w ∧
      w.db = sampleAlerted ∧ w.calls = (fun _ => none) ∧ w.locks = [] ∧
      w.log.map Handed.deliveryId = List.replicate k 2 := by
  induction k with
  | zero => exact ⟨_, .refl, rfl, rfl, rfl, rfl⟩
  | succ k ih =>
    obtain ⟨w, hpath, hdb, hcalls, hlocks, hlog⟩ := ih
    have hw : w.Consistent := hpath.invariant (consistent_init (by decide) (by decide))
      fun _ e hs _ => hs.apply e
    -- the email has no notifier: the dispatch raises and rolls back
    have hpost : postDispatchScan sampleHookFails 1 0 sampleAlerted = sampleAlerted := by
      decide +kernel
    have hhanded : (handedByDispatch sampleHookFails 1 0 sampleAlerted).map Handed.deliveryId =
        [2] := by decide +kernel
    have hlisted : (w.db.dispatchable 1).length = 2 := by
      rw [hdb]
      decide +kernel
    -- a dispatch with no other call under way is the program run alone
    have halone := dispatch_alone (n := k) hw (congrFun hcalls k) hlocks sampleHookFails 1 0
    rw [hlisted, hdb, hpost] at halone
    have hdispatch : Lib.Path World.apply (fun _ e => e.Behaves) w
        ((sampleDispatch k).foldl (fun w e => World.apply e w) w) :=
      Lib.Path.of_events _ fun e he _ => sampleDispatch_behaves k e he
    rw [show (sampleDispatch k).foldl (fun w e => World.apply e w) w = _ from halone] at hdispatch
    refine ⟨_, hpath.trans hdispatch, rfl, hcalls, rfl, ?_⟩
    simp only [List.map_append, hlog, hhanded, List.replicate_succ']

/-- **A delivery is handed out a fourth time.** -/
theorem four_handed : ∃ w, Lib.Path World.apply (fun _ e => e.Behaves) (World.init sampleAlerted) w ∧
    ¬ RetriesBounded w 2 := by
  obtain ⟨w, hpath, -, -, -, hlog⟩ := handed_again 4
  refine ⟨w, hpath, fun h => ?_⟩
  have hids : ∀ x ∈ w.log, x.deliveryId = 2 := by
    intro x hx
    exact List.eq_of_mem_replicate (hlog ▸ List.mem_map_of_mem hx)
  have hfour : (w.logOf 2).length = 4 := by
    rw [World.logOf, List.filter_eq_self.2 fun x hx => decide_eq_true (hids x hx),
      ← List.length_map Handed.deliveryId, hlog, List.length_replicate]
  have hbounded := h.bounded
  rw [hfour] at hbounded
  exact absurd hbounded (by decide)

/-- In the sample's run the failed attempt is made good by a retry, and the
retry before it, which comes too early, changes nothing. -/
theorem retries_bounded_sample :
    (∀ d ∈ sampleAlerted.alertDeliveries, RetriesBounded (sampleRetried.foldl
      (fun w e => World.apply e w) (World.init sampleAlerted)) d.id) ∧
    RejectionsHarmless (sampleRetried.foldl
      (fun w e => World.apply e w) (World.init sampleAlerted)) :=
  retries_bounded (by decide) (by decide) (by decide)
    (Lib.Path.of_along sampleRetried (by decide +kernel))

end SchemaSentry
