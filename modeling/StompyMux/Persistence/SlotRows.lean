import StompyMux.Persistence.SetRows

namespace StompyMux.Persistence

open Library Library.Fallible
open StompyMux.Macros
open StompyMux.World (ObjectId World)

def slotColumns : List String :=
  "curmac" :: (List.finRange SLOT_COUNT).map (fun slot => "macro_slot_" ++ toString slot.val)

theorem slotFields_columns (player : MacroSlots) : (slotFields player).map Prod.fst = slotColumns := by
  unfold slotFields slotColumns
  rw [List.map_cons, List.map_map]
  rfl

theorem slotFields_nodup (player : MacroSlots) : ((slotFields player).map Prod.fst).Nodup := by
  rw [slotFields_columns]
  decide +kernel

theorem slotFields_integer {player : MacroSlots} {field : String × Cell}
    (h : field ∈ slotFields player) : ∃ value, field.2 = .Integer value := by
  rcases List.mem_cons.mp h with rfl | h
  · exact ⟨_, rfl⟩
  · obtain ⟨slot, -, rfl⟩ := List.mem_map.mp h
    exact ⟨_, rfl⟩

theorem slotsSchema_check (db : Database) (who : ObjectId) (player : MacroSlots) (row : Row) :
    db.slotsSchema.check who (assign (slotFields player) row) := by
  have hvalue : ∀ column ∈ slotColumns, assign (slotFields player) row column ≠ .Null := by
    intro column hcolumn
    rw [← slotFields_columns player] at hcolumn
    cases hlookup : (slotFields player).lookup column with
    | none =>
        obtain ⟨field, hfield, hname⟩ := List.mem_map.mp hcolumn
        have hne := List.lookup_eq_none_iff.mp hlookup field hfield
        rw [hname] at hne
        simp at hne
    | some value =>
        obtain ⟨number, hnumber⟩ := slotFields_integer (mem_of_lookup _ _ _ hlookup)
        have hnumber : value = .Integer number := hnumber
        rw [assign_of_lookup _ _ _ _ hlookup, hnumber]
        exact fun h => by contradiction
  have hcolumns : slotColumns = ["curmac", "macro_slot_0", "macro_slot_1", "macro_slot_2",
      "macro_slot_3", "macro_slot_4"] := by decide +kernel
  show notNull _ _
  rw [← hcolumns]
  exact List.all_eq_true.mpr fun column hcolumn => decide_eq_true (hvalue column hcolumn)

theorem storedSlots_ok (held player : MacroSlots) (stored : Row) (h : Holds (slotFields held) stored) :
    ∃ fields, storedSlots stored player = .ok fields ∧ Holds fields stored := by
  have hinteger : ∀ field ∈ slotFields player,
      integerColumn stored field.1 = .ok (field.1, stored field.1) := by
    intro field hfield
    have hcolumn : field.1 ∈ (slotFields held).map Prod.fst := by
      rw [slotFields_columns, ← slotFields_columns player]
      exact List.mem_map.mpr ⟨field, hfield, rfl⟩
    have hvalue : ∃ value, (slotFields held).lookup field.1 = some value := by
      obtain ⟨other, hother, hname⟩ := List.mem_map.mp hcolumn
      cases hlookup : (slotFields held).lookup field.1 with
      | some value => exact ⟨value, rfl⟩
      | none =>
          have hne := List.lookup_eq_none_iff.mp hlookup other hother
          rw [hname] at hne
          simp at hne
    obtain ⟨value, hvalue⟩ := hvalue
    obtain ⟨number, hnumber⟩ := slotFields_integer (mem_of_lookup _ _ _ hvalue)
    have hstored : stored field.1 = .Integer number := by
      rw [← h, assign_of_lookup _ _ _ _ hvalue]
      exact hnumber
    rw [integerColumn, hstored]
  refine ⟨_, mapM_ok _ _ _ hinteger, ?_⟩
  refine holds_of_read _ stored fun field hfield => ?_
  obtain ⟨other, -, rfl⟩ := List.mem_map.mp hfield
  rfl

-- Rows of slots have been written, and nothing else.
structure SlotsOnly (before after : Database) : Prop where
  sets : after.macroSets = before.macroSets
  entries : after.macroEntries = before.macroEntries
  defaults : after.defaults = before.defaults

section Slots

variable (old new : PlayerMacros) (before : Database)
  (hplayers : ∀ who player, old.players.get? who = some player →
    Stores (some (slotFields player)) (before.commacEntries.get? who))
  (hothers : ∀ who stored, old.players.get? who = none → before.commacEntries.get? who = some stored →
    Holds (slotFields .default) stored)

def slotRow (db : Database) (who : ObjectId) (player : MacroSlots) : Row :=
  assign (slotFields player) ((db.commacEntries.get? who).getD db.slotsSchema.defaults)

include hplayers hothers

omit new in
theorem saveSlots_ok {w : Writing} {player : ObjectId × MacroSlots}
    (hw : w.1.commacEntries.get? player.1 = before.commacEntries.get? player.1)
    (honly : SlotsOnly before w.1) :
    ∃ after, saveSlots old w player = .ok after ∧ SlotsOnly before after.1 ∧
      ∀ who, after.1.commacEntries.get? who =
        if who = player.1 then some (slotRow before player.1 player.2)
        else w.1.commacEntries.get? who := by
  obtain ⟨who, slots⟩ := player
  have hdefaults : w.1.slotsSchema.defaults = before.slotsSchema.defaults :=
    congrFun honly.defaults "commac_entries"
  unfold saveSlots
  by_cases hsame : old.players.get? who = some slots
  · refine ⟨w, if_pos hsame, honly, fun other => ?_⟩
    split
    · rename_i heq
      have h := hplayers who slots hsame
      rw [heq, hw, slotRow]
      cases hget : before.commacEntries.get? who with
      | none =>
          rw [hget] at h
          exact h.elim
      | some stored =>
          rw [hget] at h
          rw [Option.getD_some, h]
    · rfl
  · rw [if_neg hsame]
    have hprevious : ∃ previous, previousSlots w.1 (who, slots) = .ok previous ∧
        Stores previous (w.1.commacEntries.get? who) := by
      unfold previousSlots
      cases hget : w.1.commacEntries.get? who with
      | none => exact ⟨none, rfl, trivial⟩
      | some stored =>
          have hheld : ∃ held, Holds (slotFields held) stored := by
            rw [hw] at hget
            cases hold : old.players.get? who with
            | none => exact ⟨_, hothers who stored hold hget⟩
            | some held =>
                have h := hplayers who held hold
                rw [hget] at h
                exact ⟨held, h⟩
          obtain ⟨held, hheld⟩ := hheld
          obtain ⟨fields, hfields, hstored⟩ := storedSlots_ok held slots stored hheld
          refine ⟨some fields, ?_, hstored⟩
          dsimp only
          rw [hfields]
          rfl
    obtain ⟨previous, hread, hstored⟩ := hprevious
    obtain ⟨t, changed, hrow, hget⟩ := row_ok w.1.slotsSchema w.1.commacEntries who previous
      (slotFields slots) (slotFields_nodup slots) (slotsSchema_check w.1 _ slots _) hstored
    refine ⟨({ w.1 with commacEntries := t }, w.2 || changed), ?_,
      ⟨honly.sets, honly.entries, honly.defaults⟩, fun other => ?_⟩
    · exact bind_ok hread
        (bind_ok (withContext_ok hrow) rfl)
    · refine (hget other).trans ?_
      rw [hw, hdefaults]
      rfl

omit hothers in
theorem clearSlots_ok {w : Writing} {player : ObjectId × MacroSlots}
    (hplayer : old.players.get? player.1 = some player.2)
    (hw : new.players.get? player.1 = none →
      w.1.commacEntries.get? player.1 = before.commacEntries.get? player.1)
    (honly : SlotsOnly before w.1) :
    ∃ after, clearSlots new w player = .ok after ∧ SlotsOnly before after.1 ∧
      ∀ who, after.1.commacEntries.get? who =
        if who = player.1 ∧ new.players.get? who = none then some (slotRow before who .default)
        else w.1.commacEntries.get? who := by
  obtain ⟨who, slots⟩ := player
  have hdefaults : w.1.slotsSchema.defaults = before.slotsSchema.defaults :=
    congrFun honly.defaults "commac_entries"
  unfold clearSlots
  by_cases hsome : (new.players.get? who).isSome
  · refine ⟨w, if_pos hsome, honly, fun other => (if_neg fun h => ?_).symm⟩
    rw [h.1] at h
    rw [h.2] at hsome
    contradiction
  · have hnone : new.players.get? who = none := by simpa using hsome
    rw [if_neg hsome]
    have hstored := hplayers who slots hplayer
    rw [← hw hnone] at hstored
    obtain ⟨t, changed, hrow, hget⟩ := row_ok w.1.slotsSchema w.1.commacEntries who _
      (slotFields .default) (slotFields_nodup _) (slotsSchema_check w.1 _ _ _) hstored
    refine ⟨({ w.1 with commacEntries := t }, w.2 || changed), bind_ok hrow rfl,
      ⟨honly.sets, honly.entries, honly.defaults⟩, fun other => ?_⟩
    refine (hget other).trans ?_
    rw [hw hnone, hdefaults]
    by_cases hother : other = who
    · rw [if_pos hother, if_pos ⟨hother, hother ▸ hnone⟩, hother]
      rfl
    · rw [if_neg hother, if_neg fun h => hother h.1]

def savedSlots (who : ObjectId) : Option Row :=
  match new.players.get? who with
  | some player => some (slotRow before who player)
  | none => (before.commacEntries.get? who).map (assign (slotFields .default))

theorem saveAll_ok (w : Writing) (hw : w.1.commacEntries = before.commacEntries)
    (honly : SlotsOnly before w.1) :
    ∃ after, new.players.entries.foldlM (saveSlots old) w = .ok after ∧ SlotsOnly before after.1 ∧
      (∀ who player, new.players.get? who = some player →
        after.1.commacEntries.get? who = some (slotRow before who player)) ∧
      ∀ who, new.players.get? who = none →
        after.1.commacEntries.get? who = before.commacEntries.get? who := by
  obtain ⟨after, hafter, honly, hdone, hother⟩ := foldlM_succeeds
    (fun done w => SlotsOnly before w.1 ∧
      (∀ player ∈ done, w.1.commacEntries.get? player.1 = some (slotRow before player.1 player.2)) ∧
      ∀ who, who ∉ done.map Prod.fst →
        w.1.commacEntries.get? who = before.commacEntries.get? who)
    (saveSlots old) new.players.entries
    (by
      rintro done player rest w hitems ⟨honly, hdone, hother⟩
      have hkeys := new.players.keys_nodup
      rw [OrderedMap.keys, hitems, List.map_append, List.map_cons, List.nodup_append'] at hkeys
      have hnew : player.1 ∉ done.map Prod.fst :=
        fun hmem => hkeys.2.2 hmem List.mem_cons_self
      obtain ⟨after, hafter, hafterOnly, hget⟩ :=
        saveSlots_ok old before hplayers hothers (hother _ hnew) honly
      refine ⟨after, hafter, hafterOnly, fun other hmem => ?_, fun who hwho => ?_⟩
      · rw [hget]
        rcases List.mem_append.mp hmem with hmem | hmem
        · have hne : other.1 ≠ player.1 :=
            fun heq => hnew (heq ▸ List.mem_map.mpr ⟨other, hmem, rfl⟩)
          rw [if_neg hne]
          exact hdone other hmem
        · rw [List.mem_singleton.mp hmem, if_pos rfl]
      · rw [List.map_append, List.mem_append, not_or, List.map_singleton, List.mem_singleton] at hwho
        rw [hget, if_neg hwho.2]
        exact hother who hwho.1)
    w ⟨honly, fun player hmem => by contradiction, fun who _ => by rw [hw]⟩
  refine ⟨after, hafter, honly, fun who player hplayer => ?_, fun who hnone => ?_⟩
  · exact hdone (who, player) ((new.players.get?_eq_some_iff who player).mp hplayer)
  · exact hother who ((new.players.get?_eq_none_iff who).mp hnone)

theorem saveSlots_run (w : Writing) (hw : w.1.commacEntries = before.commacEntries)
    (honly : SlotsOnly before w.1) :
    ∃ after, (new.players.entries.foldlM (saveSlots old) w >>= fun w =>
        old.players.entries.foldlM (clearSlots new) w) = .ok after ∧ SlotsOnly before after.1 ∧
      ∀ who, after.1.commacEntries.get? who = savedSlots new before who := by
  obtain ⟨saved, hsaved, honly, hnew, hrest⟩ := saveAll_ok old new before hplayers hothers w hw honly
  obtain ⟨after, hafter, hafterOnly, hkept, hcleared⟩ := foldlM_succeeds
    (fun done w => SlotsOnly before w.1 ∧
      (∀ who player, new.players.get? who = some player →
        w.1.commacEntries.get? who = some (slotRow before who player)) ∧
      ∀ who, new.players.get? who = none → w.1.commacEntries.get? who =
        if who ∈ done.map Prod.fst then some (slotRow before who .default)
        else before.commacEntries.get? who)
    (clearSlots new) old.players.entries
    (by
      rintro done player rest w hitems ⟨honly, hkept, hcleared⟩
      have hkeys := old.players.keys_nodup
      rw [OrderedMap.keys, hitems, List.map_append, List.map_cons, List.nodup_append'] at hkeys
      have hlater : player.1 ∉ done.map Prod.fst :=
        fun hmem => hkeys.2.2 hmem List.mem_cons_self
      have hplayer : old.players.get? player.1 = some player.2 :=
        (old.players.get?_eq_some_iff _ _).mpr (by rw [hitems]; simp)
      obtain ⟨after, hafter, hafterOnly, hget⟩ := clearSlots_ok old new before hplayers hplayer
        (fun hnone => by rw [hcleared _ hnone, if_neg hlater]) honly
      refine ⟨after, hafter, hafterOnly, fun who slots hslots => ?_, fun who hnone => ?_⟩
      · rw [hget, if_neg fun h => ?_]
        · exact hkept who slots hslots
        · rw [h.2] at hslots
          contradiction
      · rw [hget, List.map_append, List.map_singleton]
        by_cases hwho : who = player.1
        · rw [if_pos ⟨hwho, hnone⟩, if_pos (by rw [hwho]; simp)]
        · rw [if_neg fun h => hwho h.1, hcleared who hnone]
          simp only [List.mem_append, List.mem_singleton, hwho, or_false])
    saved ⟨honly, hnew, fun who hnone => by rw [hrest who hnone, if_neg (by simp)]⟩
  refine ⟨after, bind_ok hsaved hafter, hafterOnly, fun who => ?_⟩
  unfold savedSlots
  cases hget : new.players.get? who with
  | some player => exact hkept who player hget
  | none =>
      rw [hcleared who hget]
      split
      · rename_i hmem
        obtain ⟨player, hold⟩ : ∃ player, old.players.get? who = some player :=
          Option.isSome_iff_exists.mp ((old.players.mem_keys_iff who).mp hmem)
        have h := hplayers who player hold
        rw [slotRow]
        cases hrow : before.commacEntries.get? who with
        | none =>
            rw [hrow] at h
            exact h.elim
        | some stored => rfl
      · rename_i hmem
        have hold := (old.players.get?_eq_none_iff who).mpr hmem
        cases hrow : before.commacEntries.get? who with
        | none => rfl
        | some stored =>
            rw [Option.map_some]
            exact congrArg some (hothers who stored hold hrow).symm

end Slots

end StompyMux.Persistence
