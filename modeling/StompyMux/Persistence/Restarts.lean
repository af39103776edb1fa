import StompyMux.Autopilot.History
import StompyMux.Persistence.AutopilotRoundTrip

-- Games that run, are saved and start again from what was saved.
namespace StompyMux.Persistence

open Library Autopilot AutopilotController
open StompyMux.World (ObjectId)

-- A regular run of calls leads from one controller to the other, which can be stored.
def Ran (c d : AutopilotController) : Prop :=
  Storable d ∧ ∃ calls, (∀ x ∈ c.trace calls, x.Regular) ∧ d = calls.foldl (fun c call => (c.perform call).1) c

-- The controllers and tables that a game may start with. Units may come and go.
inductive Started : Controllers → AutopilotTables → Prop where
  | First : Started .empty .empty
  | Again (before after loaded : Controllers) (sharing : Sharing before after) (t : AutopilotTables)
      (w) (hstarted : Started before t)
      (hran : ∀ unit c, after.get? unit = some c → Ran ((before.get? unit).getD .new) c)
      (hsaved : saveControllers before after sharing t = .ok w) (hloaded : loadControllers w.1 = .ok loaded) :
      Started loaded w.1

theorem Ran.sound {c d : AutopilotController} (h : Ran c d) (hc : c.Sound) : d.Sound := by
  obtain ⟨-, calls, hregular, rfl⟩ := h
  induction calls generalizing c with
  | nil => exact hc
  | cons call calls ih =>
      obtain ⟨hfirst, hlater⟩ := List.forall_mem_cons.mp hregular
      exact ih (observed_exchange hc hfirst).sound hlater

theorem tableImage_forget {rowsOf : AutopilotController → Rows} {current : ObjectId → Option AutopilotController}
    {t : KeyedTable} (hforget : ∀ c, rowsOf (withoutSightings c) = rowsOf c) (h : TableImage rowsOf current t) :
    TableImage rowsOf (fun unit => (current unit).map withoutSightings) t := by
  intro key
  have hkey : imageAt rowsOf (fun unit => (current unit).map withoutSightings) key =
      imageAt rowsOf current key := by
    cases key with
    | nil => rfl
    | cons unit rest =>
        rw [imageAt_cons, imageAt_cons]
        cases current unit with
        | none => rfl
        | some c => exact congrArg (fun rows => OrderedMap.get? rows rest) (hforget c)
  rw [hkey]
  exact h key

theorem restart {before after : Controllers} {t : AutopilotTables} (sharing : Sharing before after)
    (himage : AutopilotImage before.get? t) (hsound : ∀ unit c, before.get? unit = some c → c.Sound)
    (hran : ∀ unit c, after.get? unit = some c → Ran ((before.get? unit).getD .new) c) :
    ∃ w loaded, saveControllers before after sharing t = .ok w ∧ loadControllers w.1 = .ok loaded ∧
      (∀ unit, loaded.get? unit = (after.get? unit).map withoutSightings) ∧
      AutopilotImage loaded.get? w.1 ∧ ∀ unit c, loaded.get? unit = some c → c.Sound := by
  have hafter : ∀ unit c, after.get? unit = some c → c.Sound := by
    intro unit c hget
    refine (hran unit c hget).sound ?_
    cases hbefore : before.get? unit with
    | none => exact sound_new
    | some d => exact hsound unit d hbefore
  have hvalid : ∀ unit c, after.get? unit = some c → c.Valid := fun unit c hget =>
    (hafter unit c hget).coherent.valid (hafter unit c hget).tickets (hafter unit c hget).history
  have hstored := fun unit c hget => (hran unit c hget).1
  obtain ⟨w, hsaved, hw⟩ := saveControllers_ok before after sharing t himage fun entry hentry =>
    have hget := (after.get?_eq_some_iff entry.1 entry.2).mpr hentry
    ⟨hvalid _ _ hget, hstored _ _ hget⟩
  obtain ⟨loaded, hloaded, hsame⟩ := loadControllers_ok after w.1 hw hvalid hstored
  refine ⟨w, loaded, hsaved, hloaded, hsame, ?_, fun unit c hget => ?_⟩
  · rw [funext hsame]
    exact ⟨tableImage_forget (fun _ => rfl) hw.controllers, tableImage_forget (fun _ => rfl) hw.orders,
      tableImage_forget (fun _ => rfl) hw.waypoints, tableImage_forget (fun _ => rfl) hw.feedback⟩
  · rw [hsame unit] at hget
    obtain ⟨d, hd, rfl⟩ := Option.map_eq_some_iff.mp hget
    obtain ⟨h, htickets, hhistory⟩ := hafter unit d hd
    exact ⟨{ h with sightings := fun sighting hmem => absurd hmem List.not_mem_nil }, htickets,
      hhistory.length_le, hhistory.numbers⟩

theorem Started.sound {before : Controllers} {t : AutopilotTables} (h : Started before t) :
    AutopilotImage before.get? t ∧ ∀ unit c, before.get? unit = some c → c.Sound := by
  induction h with
  | First => exact ⟨emptyTables_image, fun unit c hget => by contradiction⟩
  | Again before after loaded sharing t w hstarted hran hsaved hloaded ih =>
      obtain ⟨w', loaded', hsaved', hloaded', -, hsound⟩ := restart sharing ih.1 ih.2 hran
      cases hsaved.symm.trans hsaved'
      cases hloaded.symm.trans hloaded'
      exact hsound

-- However often a game is run, saved and started again, its controllers are saved without an error and
-- come back as they were, but for what they saw.
theorem Started.restarts {before after : Controllers} {t : AutopilotTables} (h : Started before t)
    (sharing : Sharing before after)
    (hran : ∀ unit c, after.get? unit = some c → Ran ((before.get? unit).getD .new) c) :
    ∃ w loaded, saveControllers before after sharing t = .ok w ∧ loadControllers w.1 = .ok loaded ∧
      (∀ unit, loaded.get? unit = (after.get? unit).map withoutSightings) ∧ Started loaded w.1 := by
  obtain ⟨w, loaded, hsaved, hloaded, hsame, -⟩ := restart sharing h.sound.1 h.sound.2 hran
  exact ⟨w, loaded, hsaved, hloaded, hsame, .Again before after loaded sharing t w h hran hsaved hloaded⟩

-- A unit sets out, the game is saved and started again, and then the unit arrives.
def outbound : AutopilotController :=
  [.resume none, .submit [.Move ⟨7, 3, 4⟩ 1] .Append none, .startNext 10].foldl
    (fun c call => (c.perform call).1) new

def posted : AutopilotController :=
  [.completeActive 40, .submit [.Hold] .Append none].foldl (fun c call => (c.perform call).1) outbound

theorem ran_outbound : Ran new outbound :=
  ⟨⟨by decide, by decide, by decide, by decide⟩, _, by decide, rfl⟩

theorem ran_posted : Ran outbound posted :=
  ⟨⟨by decide, by decide, by decide, by decide⟩, _, by decide, rfl⟩

theorem restarts_arrived : ∃ before t w loaded, Started before t ∧ before.get? 5 = some outbound ∧
    saveControllers before (roster posted) (.none _ _) t = .ok w ∧ loadControllers w.1 = .ok loaded ∧
    loaded.get? 5 = some posted ∧ Started loaded w.1 := by
  obtain ⟨w, before, -, -, hsame, hstarted⟩ := Started.First.restarts (.none _ (roster outbound))
    fun unit c hget => (get?_roster hget).2 ▸ ran_outbound
  have hbefore : before.get? 5 = some outbound := hsame 5
  obtain ⟨w', loaded, hsaved, hloaded, hsame', hagain⟩ := hstarted.restarts (.none _ (roster posted))
    fun unit c hget => by
      obtain ⟨rfl, rfl⟩ := get?_roster hget
      rw [hbefore]
      exact ran_posted
  exact ⟨before, w.1, w', loaded, hstarted, hbefore, hsaved, hloaded, hsame' 5, hagain⟩

end StompyMux.Persistence
