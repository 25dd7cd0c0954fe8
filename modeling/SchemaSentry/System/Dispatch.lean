import SchemaSentry.Application.Delivery
import SchemaSentry.System.Runs
/-!
# Schema Sentry — one channel's delivery and the others'

The deliveries of a scan are attempted in one transaction, and what an
attempt raises ends it. `isolated_iff` says when the channels nevertheless
do not disturb one another.
-/

namespace SchemaSentry

open Lib DbM

/-! ## The deliveries of a dispatch -/

/-- The attempt on a delivery ends without an exception. -/
def DB.Passes (env : Notifications) (now : Timestamp) (db : DB) (id : Uuid) : Prop :=
  ∃ h ∈ db.hand? env now id, h.outcome.Writable

instance (env : Notifications) (now : Timestamp) (db : DB) (id : Uuid) :
    Decidable (db.Passes env now id) := inferInstanceAs (Decidable (∃ h ∈ _, _))

instance (env : Notifications) (now : Timestamp) (db : DB) (id : Uuid) :
    Decidable (∃ h, db.hand? env now id = some h) :=
  decidable_of_iff _ Option.isSome_iff_exists

/-- The delivery's channel has a notifier. -/
def DB.Configured (env : Notifications) (db : DB) (id : Uuid) : Prop :=
  ∃ d ∈ db.delivery? id, (env.notifiers d.channel).isSome

instance (env : Notifications) (db : DB) (id : Uuid) : Decidable (db.Configured env id) :=
  inferInstanceAs (Decidable (∃ d ∈ _, _))

variable {env : Notifications} {now : Timestamp} {db : DB} {scanId : Uuid} {s : AlertSession}

/-- The session after one message after another. -/
def AlertSession.afterAll (s : AlertSession) (hs : List Handed) : AlertSession :=
  hs.foldl AlertSession.after s

theorem handed_afterAll (hs : List Handed) : (s.afterAll hs).handed = s.handed ++ hs := by
  induction hs generalizing s with
  | nil => exact (List.append_nil _).symm
  | cons h rest ih =>
    rw [show s.afterAll (h :: rest) = (s.after h).afterAll rest from rfl, ih]
    exact List.append_assoc _ _ _

/-- An attempt that passes hands its message out. -/
theorem exec_attempt_passes {id : Uuid} (hc : (s.session.pending db).Constraints)
    (h : (s.session.pending db).Passes env now id) :
    ∃ handed r, (s.session.pending db).hand? env now id = some handed ∧
      AlertM.exec (attempt env id now) db s = (.ok r, s.after handed) := by
  obtain ⟨handed, hhand, hw⟩ := h
  obtain ⟨r, hr⟩ := Handed.exists_result_ok_iff.2 hw
  rcases exec_attempt env now id hc with ⟨h', hhand', hexec⟩ |
    ⟨hhand', -⟩
  · obtain rfl : h' = handed := Option.some.inj (hhand'.symm.trans hhand)
    exact ⟨h', r, hhand', hr ▸ hexec⟩
  · rw [hhand'] at hhand
    cases hhand

/-- An attempt that does not pass raises, its message handed out or not. -/
theorem exec_attempt_stops {id : Uuid} (hc : (s.session.pending db).Constraints)
    (h : ¬ (s.session.pending db).Passes env now id) :
    ∃ e t, AlertM.exec (attempt env id now) db s = (.error e, t) ∧
      t.handed = s.handed ++ ((s.session.pending db).hand? env now id).toList := by
  rcases exec_attempt env now id hc with ⟨handed, hhand, hexec⟩ |
    ⟨hhand, e, hexec⟩
  · rcases hr : handed.result with e | r
    · rw [hr] at hexec
      refine ⟨e, _, hexec, ?_⟩
      rw [hhand]
      rfl
    · exact absurd ⟨handed, hhand, Handed.exists_result_ok_iff.1 ⟨r, hr⟩⟩ h
  · refine ⟨e, s, hexec, ?_⟩
    rw [hhand]
    exact (List.append_nil _).symm

/-- **A dispatch attempts one delivery after another up to the first that
raises.** -/
theorem exec_attemptAll (env : Notifications) (now : Timestamp) (s : AlertSession)
    {ids : List Uuid} (hnodup : ids.Nodup)
    (hc : (s.session.pending db).Constraints) :
    (∀ id ∈ ids, (s.session.pending db).Passes env now id) ∧
      (∃ results, AlertM.exec (attemptAll env now ids) db s =
        (.ok results, s.afterAll (ids.filterMap ((s.session.pending db).hand? env now)))) ∨
    ∃ before id after, ids = before ++ id :: after ∧
      (∀ x ∈ before, (s.session.pending db).Passes env now x) ∧
      ¬ (s.session.pending db).Passes env now id ∧
      ∃ e t, AlertM.exec (attemptAll env now ids) db s = (.error e, t) ∧
        t.handed = s.handed ++ before.filterMap ((s.session.pending db).hand? env now) ++
          ((s.session.pending db).hand? env now id).toList := by
  induction ids generalizing s with
  | nil => exact Or.inl ⟨fun id hid => (nomatch hid), [], rfl⟩
  | cons id rest ih =>
    obtain ⟨hnew, hrest⟩ := List.nodup_cons.1 hnodup
    unfold attemptAll
    rw [AlertM.exec_bind]
    by_cases hfirst : (s.session.pending db).Passes env now id
    · obtain ⟨h, r, hhand, hexec⟩ := exec_attempt_passes hc hfirst
      have hid : h.deliveryId = id := deliveryId_of_hand? hhand
      have hc' : ((s.after h).session.pending db).Constraints :=
        constraints_updateDelivery hc h.keepsIdentity_written
      -- the deliveries still to come are as they were
      have hsame : ∀ x ∈ rest, ((s.after h).session.pending db).hand? env now x =
          (s.session.pending db).hand? env now x := by
        intro x hx
        exact hand?_updateDelivery_of_ne h.keepsIdentity_written
          (fun heq => hnew (hid ▸ heq ▸ hx))
      have hpasses : ∀ x ∈ rest, ((s.after h).session.pending db).Passes env now x ↔
          (s.session.pending db).Passes env now x := by
        intro x hx
        unfold DB.Passes
        rw [hsame x hx]
      have hmap : ∀ xs : List Uuid, (∀ x ∈ xs, x ∈ rest) →
          xs.filterMap (((s.after h).session.pending db).hand? env now) =
            xs.filterMap ((s.session.pending db).hand? env now) :=
        fun xs hxs => List.filterMap_congr fun x hx => hsame x (hxs x hx)
      rw [hexec]
      simp only [AlertM.exec_bind]
      rcases ih (s.after h) hrest hc' with ⟨hall, results, hres⟩ |
        ⟨before, x, after, rfl, hbefore, hx, e, t, hres, hhanded⟩
      · refine Or.inl ⟨?_, r :: results, ?_⟩
        · intro x hx
          rcases List.mem_cons.1 hx with rfl | hmem
          · exact hfirst
          · exact (hpasses x hmem).1 (hall x hmem)
        · rw [hres, hmap rest fun x hx => hx, List.filterMap_cons_some hhand]
          rfl
      · have hin : ∀ y ∈ before, y ∈ before ++ x :: after :=
          fun y hy => List.mem_append_left _ hy
        have hxin : x ∈ before ++ x :: after := List.mem_append_right _ List.mem_cons_self
        refine Or.inr ⟨id :: before, x, after, rfl, ?_, ?_, e, t, ?_, ?_⟩
        · intro y hy
          rcases List.mem_cons.1 hy with rfl | hmem
          · exact hfirst
          · exact (hpasses y (hin y hmem)).1 (hbefore y hmem)
        · rwa [← hpasses x hxin]
        · rw [hres]
        · rw [hhanded, hmap before hin, hsame x hxin, List.filterMap_cons_some hhand]
          show s.handed ++ [h] ++ _ ++ _ = s.handed ++ h :: _ ++ _
          simp only [List.append_assoc, List.cons_append, List.nil_append]
    · obtain ⟨e, t, hexec, hhanded⟩ := exec_attempt_stops hc hfirst
      refine Or.inr ⟨[], id, rest, rfl, fun y hy => (nomatch hy), hfirst, e, t, ?_, ?_⟩
      · rw [hexec]
      · rw [hhanded, List.filterMap_nil, List.append_nil]

/-! ## The listing -/

theorem mem_dispatchable {id : Uuid} : id ∈ db.dispatchable scanId ↔
    ∃ d ∈ db.alertDeliveries, d.id = id ∧ d.scanId = scanId ∧ d.status = .pending := by
  simp only [DB.dispatchable, List.mem_insertionSort, List.mem_map, List.mem_filter,
    decide_eq_true_eq]
  constructor
  · rintro ⟨d, ⟨hd, hscan, hstatus⟩, hid⟩
    exact ⟨d, hd, hid, hscan, hstatus⟩
  · rintro ⟨d, hd, hid, hscan, hstatus⟩
    exact ⟨d, ⟨hd, hscan, hstatus⟩, hid⟩

/-- No delivery is listed twice. -/
theorem nodup_dispatchable (hkeys : (db.alertDeliveries.map AlertDeliveryModel.id).Nodup) :
    (db.dispatchable scanId).Nodup := by
  have hsub : ((db.alertDeliveries.filter fun d =>
      d.scanId = scanId ∧ d.status = .pending).map AlertDeliveryModel.id).Sublist
        (db.alertDeliveries.map AlertDeliveryModel.id) := List.filter_sublist.map _
  exact (List.perm_insertionSort _ _).nodup_iff.2 (hkeys.sublist hsub)

/-- A delivery none of the messages is of keeps its row. -/
theorem delivery?_afterAll_of_not_mem {hs : List Handed} {id : Uuid}
    (hid : id ∉ hs.map Handed.deliveryId) :
    ((s.afterAll hs).session.pending db).delivery? id = (s.session.pending db).delivery? id := by
  induction hs generalizing s with
  | nil => rfl
  | cons h rest ih =>
    rw [List.map_cons, List.mem_cons, not_or] at hid
    show (((s.after h).afterAll rest).session.pending db).delivery? id = _
    rw [ih hid.2]
    exact delivery?_updateDelivery_of_ne h.keepsIdentity_written hid.1

/-- A delivery's row after all the messages of a dispatch. -/
theorem delivery?_afterAll {hs : List Handed} (hnodup : (hs.map Handed.deliveryId).Nodup)
    {h : Handed} (hmem : h ∈ hs) :
    ((s.afterAll hs).session.pending db).delivery? h.deliveryId =
      ((s.session.pending db).delivery? h.deliveryId).map h.written := by
  induction hs generalizing s with
  | nil => cases hmem
  | cons h' rest ih =>
    rw [List.map_cons, List.nodup_cons] at hnodup
    show (((s.after h').afterAll rest).session.pending db).delivery? h.deliveryId = _
    rcases List.mem_cons.1 hmem with rfl | hrest
    · rw [delivery?_afterAll_of_not_mem hnodup.1]
      exact delivery?_updateDelivery h.keepsIdentity_written
    · have hne : h.deliveryId ≠ h'.deliveryId := by
        intro heq
        exact hnodup.1 (heq ▸ List.mem_map_of_mem hrest)
      rw [ih hnodup.2 hrest]
      congr 1
      exact delivery?_updateDelivery_of_ne h'.keepsIdentity_written hne

/-- The messages of a list of deliveries are theirs. -/
theorem deliveryIds_hands {ids : List Uuid} :
    ∀ h ∈ ids.filterMap (db.hand? env now), h.deliveryId ∈ ids ∧
      db.hand? env now h.deliveryId = some h := by
  intro h hmem
  obtain ⟨id, hid, hhand⟩ := List.mem_filterMap.1 hmem
  obtain rfl : h.deliveryId = id := deliveryId_of_hand? hhand
  exact ⟨hid, hhand⟩

theorem nodup_hands {ids : List Uuid} (hnodup : ids.Nodup) :
    ((ids.filterMap (db.hand? env now)).map Handed.deliveryId).Nodup := by
  induction ids with
  | nil => exact List.nodup_nil
  | cons id rest ih =>
    obtain ⟨hnew, hrest⟩ := List.nodup_cons.1 hnodup
    rcases hhand : db.hand? env now id with _ | h
    · rw [List.filterMap_cons_none hhand]
      exact ih hrest
    · rw [List.filterMap_cons_some hhand, List.map_cons, List.nodup_cons,
        deliveryId_of_hand? hhand]
      refine ⟨fun hmem => ?_, ih hrest⟩
      obtain ⟨h', hh', rfl⟩ := List.mem_map.1 hmem
      exact hnew (deliveryIds_hands h' hh').1

/-! ## Isolation -/

/-- **The channels of a dispatch do not disturb one another**: every
delivery whose notifier accepted the message is committed as SENT with one
attempt more, and every delivery listed whose channel has a notifier was
attempted. -/
structure ChannelsIsolated (env : Notifications) (scanId : Uuid) (now : Timestamp) (db : DB) :
    Prop where
  sent : ∀ h ∈ handedByDispatch env scanId now db, h.Accepted →
    ∃ d ∈ db.delivery? h.deliveryId,
      ∃ d' ∈ (postDispatchScan env scanId now db).delivery? h.deliveryId,
        d'.status = .sent ∧ d'.attemptCount = d.attemptCount + 1
  attempted : ∀ id ∈ db.dispatchable scanId, db.Configured env id →
    ∃ h ∈ handedByDispatch env scanId now db, h.deliveryId = id

/-- Where a delivery is the first whose attempt raises, no message was
accepted up to it, and it and those listed after it are handed out or
without a notifier. -/
def DB.Undisturbed (env : Notifications) (scanId : Uuid) (now : Timestamp) (db : DB) : Prop :=
  ∀ before id after, db.dispatchable scanId = before ++ id :: after →
    (∀ x ∈ before, db.Passes env now x) → ¬ db.Passes env now id →
    (∀ x ∈ before ++ [id], ∀ h ∈ db.hand? env now x, ¬ h.Accepted) ∧
    (db.Configured env id → ∃ h, db.hand? env now id = some h) ∧
    ∀ x ∈ after, ¬ db.Configured env x

/-- What a dispatch does, run alone. -/
theorem exec_dispatchScan (env : Notifications) (scanId : Uuid) (now : Timestamp)
    (hc : db.Constraints) :
    AlertM.exec (dispatchScan env scanId now) db AlertSession.new =
      AlertM.exec (attemptAll env now (db.dispatchable scanId)) db AlertSession.new := by
  have hlist : exec (listDispatchableForScan scanId) db Session.new =
      (.ok (db.dispatchable scanId), Session.new) := exec_select_ok hc _
  unfold dispatchScan
  simp only [AlertM.exec_bind, AlertM.exec_ofDb]
  rw [show AlertSession.new.session = Session.new from rfl, hlist]
  rfl

/-- The first delivery that raises is one. -/
theorem eq_of_first_stop {before before' after after' : List Uuid} {id id' : Uuid}
    (heq : before ++ id :: after = before' ++ id' :: after')
    (hbefore : ∀ x ∈ before, db.Passes env now x) (hid : ¬ db.Passes env now id)
    (hbefore' : ∀ x ∈ before', db.Passes env now x) (hid' : ¬ db.Passes env now id') :
    before = before' ∧ id = id' ∧ after = after' := by
  have htake : ∀ (b : List Uuid) (x : Uuid) (a : List Uuid), (∀ y ∈ b, db.Passes env now y) →
      ¬ db.Passes env now x →
      (b ++ x :: a).takeWhile (fun y => decide (db.Passes env now y)) = b := by
    intro b x a hb hx
    rw [List.takeWhile_append_of_pos fun y hy => decide_eq_true (hb y hy),
      List.takeWhile_cons_of_neg (by simpa using hx), List.append_nil]
  have hsame : before = before' := by
    rw [← htake before id after hbefore hid, heq, htake before' id' after' hbefore' hid']
  subst hsame
  obtain ⟨hids, hafter⟩ := List.cons.inj (List.append_cancel_left heq)
  exact ⟨rfl, hids, hafter⟩

/-- An accepted message's delivery was SENT with one attempt more. -/
theorem Handed.written_accepted {h : Handed} (hacc : h.Accepted) (d : AlertDeliveryModel) :
    (h.written d).status = .sent ∧ (h.written d).attemptCount = d.attemptCount + 1 := by
  obtain ⟨receipt, hout⟩ := hacc
  unfold Handed.written
  rw [hout]
  exact ⟨rfl, rfl⟩

/-- What a dispatch hands out and commits: everything, or what there is up to
the first attempt that raises and nothing. -/
theorem dispatch_cases (env : Notifications) (scanId : Uuid) (now : Timestamp)
    (hc : db.Constraints) (hnodup : (db.dispatchable scanId).Nodup) :
    ((∀ id ∈ db.dispatchable scanId, db.Passes env now id) ∧
      handedByDispatch env scanId now db =
        (db.dispatchable scanId).filterMap (db.hand? env now) ∧
      postDispatchScan env scanId now db = (AlertSession.new.afterAll
        ((db.dispatchable scanId).filterMap (db.hand? env now))).session.pending db) ∨
    ∃ before id after, db.dispatchable scanId = before ++ id :: after ∧
      (∀ x ∈ before, db.Passes env now x) ∧ ¬ db.Passes env now id ∧
      postDispatchScan env scanId now db = db ∧
      ∀ h, h ∈ handedByDispatch env scanId now db ↔
        ∃ x ∈ before ++ [id], db.hand? env now x = some h := by
  have hexec := exec_dispatchScan env scanId now hc
  rcases exec_attemptAll env now AlertSession.new hnodup hc with
    ⟨hall, results, hrun⟩ | ⟨before, id, after, hsplit, hbefore, hid, e, t, hrun, hhanded⟩
  · left
    unfold handedByDispatch postDispatchScan scopePublish
    rw [hexec, hrun, handed_afterAll]
    exact ⟨hall, rfl, rfl⟩
  · right
    refine ⟨before, id, after, hsplit, hbefore, hid, ?_, fun h => ?_⟩
    · unfold postDispatchScan scopePublish
      rw [hexec, hrun]
    · have hhands : handedByDispatch env scanId now db =
          before.filterMap (db.hand? env now) ++ (db.hand? env now id).toList := by
        unfold handedByDispatch
        rw [hexec, hrun]
        exact hhanded
      rw [hhands, List.mem_append, List.mem_filterMap, Option.mem_toList]
      constructor
      · rintro (⟨x, hx, hhand⟩ | hhand)
        · exact ⟨x, List.mem_append_left _ hx, hhand⟩
        · exact ⟨id, List.mem_append_right _ List.mem_cons_self, hhand⟩
      · rintro ⟨x, hx, hhand⟩
        rcases List.mem_append.1 hx with hx | hx
        · exact Or.inl ⟨x, hx, hhand⟩
        · rw [List.mem_singleton.1 hx] at hhand
          exact Or.inr hhand

/-- Where nothing raises, everything is written. -/
theorem isolated_of_passes (hnodup : (db.dispatchable scanId).Nodup)
    (hall : ∀ id ∈ db.dispatchable scanId, db.Passes env now id)
    (hhands : handedByDispatch env scanId now db =
      (db.dispatchable scanId).filterMap (db.hand? env now))
    (hpost : postDispatchScan env scanId now db = (AlertSession.new.afterAll
      ((db.dispatchable scanId).filterMap (db.hand? env now))).session.pending db) :
    ChannelsIsolated env scanId now db := by
  constructor
  · intro h hh hacc
    rw [hhands] at hh
    obtain ⟨hmem, hhand⟩ := deliveryIds_hands h hh
    obtain ⟨d, _, _, hready, -⟩ := exists_ready_of_hand? hhand
    refine ⟨d, hready.found, h.written d, ?_, h.written_accepted hacc d⟩
    rw [hpost, delivery?_afterAll (nodup_hands hnodup) hh]
    show (db.delivery? h.deliveryId).map h.written = _
    rw [hready.found]
    rfl
  · intro id hmem _
    obtain ⟨h, hhand, -⟩ := hall id hmem
    rw [hhands]
    exact ⟨h, List.mem_filterMap.2 ⟨id, hmem, hhand⟩, deliveryId_of_hand? hhand⟩

section Stopped

variable {before after : List Uuid} {id : Uuid}
variable (hsplit : db.dispatchable scanId = before ++ id :: after)
variable (hhands : ∀ h, h ∈ handedByDispatch env scanId now db ↔
  ∃ x ∈ before ++ [id], db.hand? env now x = some h)

include hsplit hhands

/-- Isolated channels show that the first attempt that raises, at which the
transaction is rolled back, met no accepted message and no configured
channel. -/
theorem undisturbed_of_isolated (hnodup : (db.dispatchable scanId).Nodup)
    (hpost : postDispatchScan env scanId now db = db)
    (hiso : ChannelsIsolated env scanId now db) :
    (∀ x ∈ before ++ [id], ∀ h ∈ db.hand? env now x, ¬ h.Accepted) ∧
    (db.Configured env id → ∃ h, db.hand? env now id = some h) ∧
    ∀ x ∈ after, ¬ db.Configured env x := by
  have hassoc : before ++ id :: after = (before ++ [id]) ++ after := by
    rw [List.append_assoc]
    rfl
  rw [hsplit, hassoc] at hnodup
  have hlater : ∀ x ∈ after, x ∉ before ++ [id] :=
    fun x hx hmem => (List.nodup_append.1 hnodup).2.2 x hmem x hx rfl
  refine ⟨fun x hx h hhand hacc => ?_, fun hconf => ?_, fun x hx hconf => ?_⟩
  · -- an accepted message's row is as before, and not one attempt ahead
    obtain ⟨d, hd, d', hd', -, hcount⟩ := hiso.sent h ((hhands h).2 ⟨x, hx, hhand⟩) hacc
    rw [hpost] at hd'
    have hsame : d = d' := Option.some.inj (hd.symm.trans hd')
    rw [hsame] at hcount
    omega
  · have hmem : id ∈ db.dispatchable scanId := by
      rw [hsplit]
      exact List.mem_append_right _ List.mem_cons_self
    obtain ⟨h, hh, heq⟩ := hiso.attempted id hmem hconf
    obtain ⟨x, -, hhand⟩ := (hhands h).1 hh
    have hx : x = id := (deliveryId_of_hand? hhand).symm.trans heq
    exact ⟨h, hx ▸ hhand⟩
  · have hmem : x ∈ db.dispatchable scanId := by
      rw [hsplit]
      exact List.mem_append_right _ (List.mem_cons_of_mem _ hx)
    obtain ⟨h, hh, heq⟩ := hiso.attempted x hmem hconf
    obtain ⟨y, hy, hhand⟩ := (hhands h).1 hh
    have hxy : y = x := (deliveryId_of_hand? hhand).symm.trans heq
    exact hlater x hx (hxy ▸ hy)

/-- A stop that met neither leaves the channels isolated. -/
theorem isolated_of_undisturbed (hbefore : ∀ x ∈ before, db.Passes env now x)
    (hnone : ∀ x ∈ before ++ [id], ∀ h ∈ db.hand? env now x, ¬ h.Accepted)
    (hself : db.Configured env id → ∃ h, db.hand? env now id = some h)
    (hrest : ∀ x ∈ after, ¬ db.Configured env x) : ChannelsIsolated env scanId now db := by
  refine ⟨fun h hh hacc => ?_, fun x hx hconf => ?_⟩
  · obtain ⟨x, hx, hhand⟩ := (hhands h).1 hh
    exact absurd hacc (hnone x hx h hhand)
  · rw [hsplit] at hx
    rcases List.mem_append.1 hx with hx | hx
    · obtain ⟨h, hhand, -⟩ := hbefore x hx
      exact ⟨h, (hhands h).2 ⟨x, List.mem_append_left _ hx, hhand⟩, deliveryId_of_hand? hhand⟩
    · rcases List.mem_cons.1 hx with rfl | hx
      · obtain ⟨h, hhand⟩ := hself hconf
        exact ⟨h, (hhands h).2 ⟨x, List.mem_append_right _ List.mem_cons_self, hhand⟩,
          deliveryId_of_hand? hhand⟩
      · exact absurd hconf (hrest x hx)

end Stopped

/-- **The channels are isolated exactly where no exception meets an accepted
message or a configured channel.** -/
theorem channelsIsolated_iff (hc : db.Constraints)
    (hkeys : (db.alertDeliveries.map AlertDeliveryModel.id).Nodup) :
    ChannelsIsolated env scanId now db ↔ db.Undisturbed env scanId now := by
  have hnodup : (db.dispatchable scanId).Nodup := nodup_dispatchable hkeys
  rcases dispatch_cases env scanId now hc hnodup with
    ⟨hall, hhands, hpost⟩ | ⟨before, id, after, hsplit, hbefore, hid, hpost, hhands⟩
  · refine ⟨fun _ before id after hsplit _ hstop => ?_,
      fun _ => isolated_of_passes hnodup hall hhands hpost⟩
    refine absurd (hall id ?_) hstop
    rw [hsplit]
    exact List.mem_append_right _ List.mem_cons_self
  · constructor
    · intro hiso before' id' after' hsplit' hbefore' hid'
      obtain ⟨rfl, rfl, rfl⟩ :=
        eq_of_first_stop (hsplit.symm.trans hsplit') hbefore hid hbefore' hid'
      exact undisturbed_of_isolated hsplit hhands hnodup hpost hiso
    · intro hund
      obtain ⟨hnone, hself, hrest⟩ := hund before id after hsplit hbefore hid
      exact isolated_of_undisturbed hsplit hhands hbefore hnone hself hrest

section Sample

attribute [local instance] Hashlib.plain

/-- A scan of the source that fails with both channels on. -/
def sampleFailure (startedAt : Timestamp) : ScanRequest :=
  { sourceKey := "crm", settings := { slackWebhookUrl := some "hook", emailTo := ["ops"] }
    collected := .error (.psycopgError "OperationalError"), startedAt := startedAt }

/-- A failed scan's row. -/
def sampleFailedRun (id : Uuid) (startedAt : Timestamp) : ScanRunModel :=
  { id := id, sourceId := 0, trigger := .manual, status := .failed, startedAt := startedAt
    finishedAt := some 0, durationMs := some 0, errorCode := some "OperationalError"
    errorMessage := some "schema collection failed" }

/-- What the failed scan leaves: a delivery for each channel. -/
def sampleAlerted : DB :=
  { sources := [{ id := 0, key := "crm" }], scanRuns := [sampleFailedRun 1 0]
    alertDeliveries := [{ id := 2, scanId := 1, channel := .slack },
      { id := 3, scanId := 1, channel := .email }]
    nextId := 4 }

/-- The webhook accepts and the mail raises. -/
def sampleMailRaises : Notifications :=
  { notifiers := fun channel =>
      match channel with
      | .slack => some fun _ => .accepted none
      | .email => some fun _ => .raised "ValueError"
    dashboardBaseUrl := "http://localhost" }

/-- **An exception of one channel loses the other's message.** -/
theorem accepted_not_sent : ¬ ChannelsIsolated sampleMailRaises 1 0 sampleAlerted := by
  intro h
  have hpost : postDispatchScan sampleMailRaises 1 0 sampleAlerted = sampleAlerted := by
    decide +kernel
  obtain ⟨handed, hmem, hid, hacc⟩ : ∃ handed ∈ handedByDispatch sampleMailRaises 1 0
      sampleAlerted, handed.deliveryId = 2 ∧ handed.outcome = .accepted none := by
    decide +kernel
  obtain ⟨d, -, d', hd', hstatus, -⟩ := h.sent handed hmem ⟨none, hacc⟩
  rw [hpost, hid] at hd'
  obtain rfl : ({ id := 2, scanId := 1, channel := .slack } : AlertDeliveryModel) = d' :=
    Option.some.inj hd'
  cases hstatus

/-- The webhook fails and the mail is accepted. -/
def sampleHookDown : Notifications :=
  { notifiers := fun channel =>
      match channel with
      | .slack => some fun _ => .deliveryFailure "slack_delivery_failed"
      | .email => some fun _ => .accepted none
    dashboardBaseUrl := "http://localhost" }

/-- Both accept. -/
def sampleBothAccept : Notifications :=
  { notifiers := fun _ => some fun _ => .accepted none, dashboardBaseUrl := "http://localhost" }

theorem channelsIsolated_iff_sample : sampleAlerted.Constraints ∧
    (ChannelsIsolated sampleBothAccept 1 0 sampleAlerted ↔
      sampleAlerted.Undisturbed sampleBothAccept 1 0) :=
  ⟨by decide, channelsIsolated_iff (by decide) (by decide)⟩

end Sample

end SchemaSentry
