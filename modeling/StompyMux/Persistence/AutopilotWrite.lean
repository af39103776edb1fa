import StompyMux.Persistence.AutopilotSave

namespace StompyMux.Persistence

open Library Library.Fallible
open StompyMux.Autopilot
open StompyMux.World (ObjectId)

section Syncing

variable (current : ObjectId → Option AutopilotController) (id : ObjectId)
  (controller : Option AutopilotController) (hc : ∀ c ∈ controller, c.Valid ∧ Storable c)
  (w : AutopilotWriting)

theorem map_of_bothSame {A : Type} {same : AutopilotController → AutopilotController → Bool}
    (f : AutopilotController → A) (hf : ∀ c d, same c d → f c = f d)
    {a b : Option AutopilotController} (hsame : bothSame same a b) : a.map f = b.map f := by
  cases a with
  | none => contradiction
  | some c =>
      cases b with
      | none => contradiction
      | some d => exact congrArg some (hf c d hsame)

include hc

theorem syncControllerRow_ok (h : TableImage controllerImage current w.1.controllers) :
    ∃ controllers changed,
      syncControllerRow id w ((controller.map controllerImage).getD .empty) =
        .ok ({ w.1 with controllers := controllers }, changed) ∧
      TableImage controllerImage (Function.update current id controller) controllers := by
  have hentries : ∀ entry ∈ ((controller.map controllerImage).getD .empty).entries,
      (entry.2.map Prod.fst).Nodup ∧
        ∀ base, controllersCheck (id :: entry.1) (assign entry.2 base) := by
    intro entry hentry
    cases controller with
    | none => contradiction
    | some c => exact controllerEntries_ok c (hc c rfl).1 id hentry
  obtain ⟨rows, hrows, himage⟩ := tableImage_sync _ current w.1.controllers h id controller
    w.1.controllersSchema CONTROLLER_COLUMNS rfl (fun entry hentry => (hentries entry hentry).1)
    (fun entry hentry => (hentries entry hentry).2)
  exact ⟨rows.1, w.2 || rows.2, bind_ok hrows rfl, himage⟩

theorem syncOrders_ok (ho : TableImage orderImage current w.1.orders)
    (hw : TableImage waypointImage current w.1.waypoints) : ∃ orders waypoints changed,
    syncOrders id controller w =
      .ok ({ w.1 with orders := orders, waypoints := waypoints }, changed) ∧
    TableImage orderImage (Function.update current id controller) orders ∧
    TableImage waypointImage (Function.update current id controller) waypoints := by
  have hdesired : desiredOrders controller = .ok ((controller.map orderImage).getD .empty,
      (controller.map waypointImage).getD .empty) := by
    cases controller with
    | none => rfl
    | some c => exact desiredOrders_ok c (hc c rfl).1 (hc c rfl).2
  have horders : ∀ entry ∈ ((controller.map orderImage).getD .empty).entries,
      (entry.2.map Prod.fst).Nodup ∧ ∀ base, ordersCheck (id :: entry.1) (assign entry.2 base) := by
    intro entry hentry
    cases controller with
    | none => contradiction
    | some c => exact orderEntries_ok c (hc c rfl).1 id hentry
  have hwaypoints : ∀ entry ∈ ((controller.map waypointImage).getD .empty).entries,
      (entry.2.map Prod.fst).Nodup ∧
        ∀ base, waypointsCheck (id :: entry.1) (assign entry.2 base) := by
    intro entry hentry
    cases controller with
    | none => contradiction
    | some c => exact waypointEntries_ok c (hc c rfl).1 id hentry
  obtain ⟨orders, hordersOk, hordersImage⟩ := tableImage_sync _ current w.1.orders ho id
    controller w.1.ordersSchema ORDER_COLUMNS rfl (fun entry hentry => (horders entry hentry).1)
    (fun entry hentry => (horders entry hentry).2)
  obtain ⟨waypoints, hwaypointsOk, hwaypointsImage⟩ := tableImage_sync _ current w.1.waypoints
    hw id controller w.1.waypointsSchema WAYPOINT_COLUMNS rfl
    (fun entry hentry => (hwaypoints entry hentry).1)
    (fun entry hentry => (hwaypoints entry hentry).2)
  refine ⟨orders.1, waypoints.1, w.2 || orders.2 || waypoints.2, ?_, hordersImage, hwaypointsImage⟩
  refine bind_ok hdesired ?_
  exact bind_ok hordersOk (bind_ok hwaypointsOk rfl)

theorem syncFeedback_ok (h : TableImage feedbackImage current w.1.feedback) : ∃ feedback changed,
    syncFeedback id controller w = .ok ({ w.1 with feedback := feedback }, changed) ∧
    TableImage feedbackImage (Function.update current id controller) feedback := by
  have hdesired : desiredFeedback controller = .ok ((controller.map feedbackImage).getD .empty) := by
    cases controller with
    | none => rfl
    | some c => exact desiredFeedback_ok c (hc c rfl).1 (hc c rfl).2
  have hentries : ∀ entry ∈ ((controller.map feedbackImage).getD .empty).entries,
      (entry.2.map Prod.fst).Nodup ∧ ∀ base, feedbackCheck (id :: entry.1) (assign entry.2 base) := by
    intro entry hentry
    cases controller with
    | none => contradiction
    | some c => exact feedbackEntries_ok c (hc c rfl).1 id hentry
  obtain ⟨rows, hrows, himage⟩ := tableImage_sync _ current w.1.feedback h id controller
    w.1.feedbackSchema FEEDBACK_COLUMNS rfl (fun entry hentry => (hentries entry hentry).1)
    (fun entry hentry => (hentries entry hentry).2)
  refine ⟨rows.1, w.2 || rows.2, ?_, himage⟩
  exact bind_ok hdesired (bind_ok hrows rfl)

theorem writeOrders_ok (ho : TableImage orderImage current w.1.orders)
    (hw : TableImage waypointImage current w.1.waypoints) : ∃ orders waypoints changed,
    writeOrders id (current id) controller w =
      .ok ({ w.1 with orders := orders, waypoints := waypoints }, changed) ∧
    TableImage orderImage (Function.update current id controller) orders ∧
    TableImage waypointImage (Function.update current id controller) waypoints := by
  by_cases hsame : bothSame sameOrders (current id) controller
  · have horders : ∀ c d, sameOrders c d → orderImage c = orderImage d := fun c d h => by
      unfold orderImage
      rw [orderRecords_congr c h]
    have hwaypoints : ∀ c d, sameOrders c d → waypointImage c = waypointImage d := fun c d h => by
      unfold waypointImage
      rw [orderRecords_congr c h]
    refine ⟨w.1.orders, w.1.waypoints, w.2, if_pos hsame, ?_, ?_⟩
    · exact tableImage_same _ current _ ho id controller
        (map_of_bothSame _ horders hsame)
    · exact tableImage_same _ current _ hw id controller
        (map_of_bothSame _ hwaypoints hsame)
  · rw [writeOrders, if_neg hsame]
    exact syncOrders_ok current id controller hc w ho hw

theorem writeFeedback_ok (h : TableImage feedbackImage current w.1.feedback) : ∃ feedback changed,
    writeFeedback id (current id) controller w = .ok ({ w.1 with feedback := feedback }, changed) ∧
    TableImage feedbackImage (Function.update current id controller) feedback := by
  by_cases hsame : bothSame sameFeedback (current id) controller
  · refine ⟨w.1.feedback, w.2, if_pos hsame, ?_⟩
    exact tableImage_same _ current _ h id controller
      (map_of_bothSame _ feedbackImage_congr hsame)
  · rw [writeFeedback, if_neg hsame]
    exact syncFeedback_ok current id controller hc w h

theorem writeController_ok (c : AutopilotController) (hcontroller : controller = some c)
    (h : TableImage controllerImage current w.1.controllers) : ∃ controllers changed,
    writeController id (current id) controller w =
      .ok ({ w.1 with controllers := controllers }, changed) ∧
    TableImage controllerImage (Function.update current id controller) controllers := by
  subst hcontroller
  by_cases hsame : bothSame sameRow (current id) (some c)
  · refine ⟨w.1.controllers, w.2, if_pos hsame, ?_⟩
    exact tableImage_same _ current _ h id (some c)
      (map_of_bothSame _ controllerImage_congr hsame)
  · rw [writeController, if_neg hsame]
    obtain ⟨controllers, changed, hrow, himage⟩ := syncControllerRow_ok current id (some c) hc w h
    exact ⟨controllers, changed, bind_ok (encodeController_ok c (hc c rfl).2) hrow, himage⟩

-- The tables are written one after the other, each where its own part changed.
theorem syncController_ok (h : AutopilotImage current w.1) :
    ∃ w', syncController id (current id) controller w = .ok w' ∧
      AutopilotImage (Function.update current id controller) w'.1 := by
  cases hcontroller : controller with
  | some c =>
      obtain ⟨controllers, changed, hrow, hcontrollers⟩ :=
        writeController_ok current id controller hc w c hcontroller h.controllers
      obtain ⟨orders, waypoints, changed, hordersOk, horders, hwaypoints⟩ :=
        writeOrders_ok current id controller hc ({ w.1 with controllers := controllers }, changed)
          h.orders h.waypoints
      obtain ⟨feedback, changed, hfeedbackOk, hfeedback⟩ := writeFeedback_ok current id controller hc
        ({ w.1 with controllers := controllers, orders := orders, waypoints := waypoints }, changed)
        h.feedback
      subst hcontroller
      refine ⟨(⟨controllers, orders, waypoints, feedback, w.1.defaults⟩, changed),
        bind_ok hrow ?_, hcontrollers, horders, hwaypoints, hfeedback⟩
      exact bind_ok hordersOk (bind_ok hfeedbackOk rfl)
  | none =>
      obtain ⟨orders, waypoints, changed, hordersOk, horders, hwaypoints⟩ :=
        writeOrders_ok current id controller hc w h.orders h.waypoints
      obtain ⟨feedback, changed, hfeedbackOk, hfeedback⟩ := writeFeedback_ok current id controller hc
        ({ w.1 with orders := orders, waypoints := waypoints }, changed) h.feedback
      obtain ⟨controllers, changed, hrow, hcontrollers⟩ := syncControllerRow_ok current id controller
        hc ({ w.1 with orders := orders, waypoints := waypoints, feedback := feedback }, changed)
        h.controllers
      subst hcontroller
      refine ⟨(⟨controllers, orders, waypoints, feedback, w.1.defaults⟩, changed),
        bind_ok rfl ?_, hcontrollers, horders, hwaypoints, hfeedback⟩
      exact bind_ok hordersOk (bind_ok hfeedbackOk hrow)

end Syncing

section Saving

-- The controllers while a save has gone through some of them.
def between (before after : Controllers) (done : List ObjectId) (id : ObjectId) :
    Option AutopilotController := if id ∈ done then after.get? id else before.get? id

variable (before after : Controllers) (done : List ObjectId) (id : ObjectId)

theorem between_append : between before after (done ++ [id]) =
    Function.update (between before after done) id (after.get? id) := by
  funext other
  unfold between
  by_cases hother : other = id
  · rw [hother, Function.update_self, if_pos (by simp)]
  · rw [Function.update_of_ne hother]
    simp only [List.mem_append, List.mem_singleton, hother, or_false]

theorem between_same (h : between before after done id = after.get? id) :
    between before after (done ++ [id]) = between before after done := by
  rw [between_append, ← h, Function.update_eq_self]

-- A controller that saves alike needs no write.
theorem autopilotImage_same {current : ObjectId → Option AutopilotController} {t : AutopilotTables}
    (h : AutopilotImage current t) {old new : AutopilotController} (hold : current id = some old)
    (hsame : sameSavedState old new) :
    AutopilotImage (Function.update current id (some new)) t := by
  obtain ⟨hconfig, hstate, hreason, hrevision, horder, hactive, hqueue, hfeedback, hsequence⟩ :=
    of_decide_eq_true hsame
  have hrow : sameRow old new :=
    decide_eq_true ⟨hconfig, hstate, hreason, hrevision, horder, hsequence⟩
  have horders := orderRecords_congr old (decide_eq_true ⟨hactive, hqueue⟩)
  refine ⟨?_, ?_, ?_, ?_⟩
  · refine tableImage_same _ current _ h.controllers id (some new) ?_
    rw [hold, Option.map_some, Option.map_some, controllerImage_congr old hrow]
  · refine tableImage_same _ current _ h.orders id (some new) ?_
    rw [hold, Option.map_some, Option.map_some, orderImage, orderImage, horders]
  · refine tableImage_same _ current _ h.waypoints id (some new) ?_
    rw [hold, Option.map_some, Option.map_some, waypointImage, waypointImage, horders]
  · refine tableImage_same _ current _ h.feedback id (some new) ?_
    rw [hold, Option.map_some, Option.map_some,
      feedbackImage_congr old (decide_eq_true hfeedback)]

variable (sharing : Sharing before after) (w : AutopilotWriting)
  (h : AutopilotImage (between before after done) w.1) (c : AutopilotController)

include h

theorem saveController_ok (hnew : id ∉ done) (hafter : after.get? id = some c)
    (hc : c.Valid ∧ Storable c) :
    ∃ w', saveController before after sharing w (id, c) = .ok w' ∧
      AutopilotImage (between before after (done ++ [id])) w'.1 := by
  have hcurrent : between before after done id = before.get? id := if_neg hnew
  unfold saveController
  by_cases hshares : sharing.shares id
  · refine ⟨w, if_pos (Or.inl hshares), ?_⟩
    rw [between_same before after done id (hcurrent.trans (sharing.same id hshares))]
    exact h
  by_cases hsame : (before.get? id).any (fun old => sameSavedState old c)
  · refine ⟨w, if_pos (Or.inr hsame), ?_⟩
    obtain ⟨old, hold, hsame⟩ := (Option.any_eq_true _ _).mp hsame
    rw [between_append, hafter]
    exact autopilotImage_same id h (hcurrent.trans hold) hsame
  · rw [if_neg (not_or.mpr ⟨hshares, hsame⟩), between_append, hafter, ← hcurrent]
    refine syncController_ok _ id (some c) (fun d hd => ?_) w h
    rwa [← Option.some.inj hd]

theorem dropController_ok (hnew : id ∉ done ∨ (after.get? id).isSome)
    (hkeys : ∀ key ∈ after.keys, key ∈ done) (hbefore : before.get? id = some c) :
    ∃ w', dropController after w (id, c) = .ok w' ∧
      AutopilotImage (between before after (done ++ [id])) w'.1 := by
  unfold dropController
  by_cases hkept : (after.get? id).isSome
  · refine ⟨w, if_pos hkept, ?_⟩
    have hdone : id ∈ done := hkeys id ((after.mem_keys_iff id).mpr hkept)
    rw [between_same before after done id (if_pos hdone)]
    exact h
  · have hcurrent : between before after done id = some c :=
      (if_neg (hnew.resolve_right hkept)).trans hbefore
    rw [if_neg hkept, between_append, Option.not_isSome_iff_eq_none.mp hkept, ← hcurrent]
    exact syncController_ok _ id none (fun d hd => by contradiction) w h

end Saving

-- Skipped, changed, added and removed controllers all end up as they should.
theorem saveControllers_ok (before after : Controllers) (sharing : Sharing before after)
    (t : AutopilotTables) (h : AutopilotImage before.get? t)
    (hafter : ∀ entry ∈ after.entries, entry.2.Valid ∧ Storable entry.2) :
    ∃ w, saveControllers before after sharing t = .ok w ∧ AutopilotImage after.get? w.1 := by
  by_cases hempty : before.entries = [] ∧ after.entries = []
  · refine ⟨(t, false), if_pos hempty, ?_⟩
    have hsame : before.get? = after.get? := by
      funext id
      unfold OrderedMap.get?
      rw [hempty.1, hempty.2]
    rwa [← hsame]
  rw [saveControllers, if_neg hempty]
  have hwritten := foldlM_succeeds
    (fun done (w : AutopilotWriting) =>
      AutopilotImage (between before after (done.map Prod.fst)) w.1)
    (saveController before after sharing) after.entries ?_ (t, false) h
  · obtain ⟨w, hw, himage⟩ := hwritten
    have hdropped := foldlM_succeeds
      (fun done (w : AutopilotWriting) =>
        AutopilotImage (between before after (after.keys ++ done.map Prod.fst)) w.1)
      (dropController after) before.entries ?_ w ?_
    · obtain ⟨w', hw', himage'⟩ := hdropped
      refine ⟨w', bind_ok hw hw', ?_⟩
      have hdone : between before after (after.keys ++ before.keys) = after.get? := by
        funext id
        by_cases hid : id ∈ after.keys ++ before.keys
        · exact if_pos hid
        · have hout := not_or.mp (fun h => hid (List.mem_append.mpr h))
          refine (if_neg hid).trans ?_
          rw [(before.get?_eq_none_iff id).mpr hout.2, (after.get?_eq_none_iff id).mpr hout.1]
      rwa [← hdone]
    · rintro done ⟨id, c⟩ rest w hitems himage
      have hmem : (id, c) ∈ before.entries := by
        rw [hitems]
        exact List.mem_append_right _ List.mem_cons_self
      have hfresh := before.fresh_of_entries hitems
      rw [List.map_append, ← List.append_assoc]
      refine dropController_ok before after _ id w himage c ?_
        (fun key hkey => List.mem_append_left _ hkey) ((before.get?_eq_some_iff id c).mpr hmem)
      by_cases hkey : id ∈ after.keys
      · exact Or.inr ((after.mem_keys_iff id).mp hkey)
      · exact Or.inl (fun h => (List.mem_append.mp h).elim hkey hfresh)
    · rwa [List.map_nil, List.append_nil]
  · rintro done ⟨id, c⟩ rest w hitems himage
    have hmem : (id, c) ∈ after.entries := by
      rw [hitems]
      exact List.mem_append_right _ List.mem_cons_self
    have hfresh := after.fresh_of_entries hitems
    rw [List.map_append]
    exact saveController_ok before after _ id sharing w himage c hfresh
      ((after.get?_eq_some_iff id c).mpr hmem) (hafter _ hmem)

end StompyMux.Persistence
