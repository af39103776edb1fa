import StompyMux.Macros.Attachment
import StompyMux.Persistence.SlotRows

namespace StompyMux.Persistence

open Library Library.Fallible Library.Placement
open StompyMux.Macros
open StompyMux.World (ObjectId World)

-- Every row stands at the position of its set or entry.
def InPlace (m : PlayerMacros) : Prop :=
  ∀ (i : Nat) set, m.sets[i]? = some set → set.origin = (i : Int) ∧
    ∀ (p : Nat) entry, set.entries[p]? = some entry → entry.origin = (p : Int)

section Positions

variable (origins : List Int) (h : ∀ (i : Nat) o, origins[i]? = some o → o = (i : Int))

include h

theorem nodup_of_positions : (Placement.stored origins).Nodup := by
  refine List.Nodup.filter _ (List.nodup_iff_getElem?_ne_getElem?.mpr fun i j hij hj heq => ?_)
  have hi := h i _ (List.getElem?_eq_getElem (Nat.lt_trans hij hj))
  have hj' := h j _ (List.getElem?_eq_getElem hj)
  rw [List.getElem?_eq_getElem (Nat.lt_trans hij hj), List.getElem?_eq_getElem hj] at heq
  have := Option.some.inj heq
  omega

theorem below_of_positions {o : Int} (ho : o ∈ origins) : o < (origins.length : Int) := by
  obtain ⟨i, hi⟩ := List.mem_iff_getElem?.mp ho
  have := h i o hi
  have := (List.getElem?_eq_some_iff.mp hi).1
  omega

end Positions

section Tracking

variable (old : PlayerMacros)

theorem tracked_of_inPlace (h : InPlace old) : Tracked old old := by
  have hsets : ∀ (i : Nat) o, (setOrigins old)[i]? = some o → o = (i : Int) := by
    intro i o ho
    rw [setOrigins, List.getElem?_map] at ho
    obtain ⟨set, hset, rfl⟩ := Option.map_eq_some_iff.mp ho
    exact (h i set hset).1
  have hentries : ∀ set ∈ old.sets, sourceEntries old set = set.entries ∧
      ∀ (p : Nat) o, (entryOrigins set)[p]? = some o → o = (p : Int) := by
    intro set hset
    obtain ⟨i, hi⟩ := List.mem_iff_getElem?.mp hset
    obtain ⟨horigin, hentries⟩ := h i set hi
    refine ⟨?_, fun p o ho => ?_⟩
    · have hat : setAt old set.origin = some set := by
        rw [setAt, horigin, if_pos (Int.natCast_nonneg i), Int.toNat_natCast, hi]
      rw [sourceEntries, hat]
      rfl
    · rw [entryOrigins, List.getElem?_map] at ho
      obtain ⟨entry, hentry, rfl⟩ := Option.map_eq_some_iff.mp ho
      exact hentries p entry hentry
  refine ⟨nodup_of_positions _ hsets, fun o ho => ?_, fun set hset => ?_, fun set hset o ho => ?_⟩
  · have := below_of_positions _ hsets ho
    rwa [setOrigins, List.length_map] at this
  · exact nodup_of_positions _ (hentries set hset).2
  · have := below_of_positions _ (hentries set hset).2 ho
    rw [(hentries set hset).1]
    rwa [entryOrigins, List.length_map] at this

theorem Tracked.sublist (m after : PlayerMacros) (h : Tracked old m)
    (hsub : after.sets.Sublist m.sets) : Tracked old after := by
  have horigins : (setOrigins after).Sublist (setOrigins m) := hsub.map _
  exact ⟨h.nodup.sublist (horigins.filter _), fun o ho => h.below o (horigins.subset ho),
    fun set hset => h.entriesNodup set (hsub.subset hset),
    fun set hset => h.entriesBelow set (hsub.subset hset)⟩

theorem Tracked.addSet (m : PlayerMacros) (h : Tracked old m) (set : MacroSet)
    (horigin : set.origin = RowOrigin.default) (hentries : set.entries = []) :
    Tracked old { m with sets := m.sets ++ [set] } := by
  have hsets : setOrigins { m with sets := m.sets ++ [set] } = setOrigins m ++ [-1] := by
    rw [setOrigins, List.map_append, List.map_singleton, horigin]
    rfl
  refine ⟨?_, fun o ho => ?_, fun other hother => ?_, fun other hother o ho => ?_⟩
  · have hnew : [(-1 : Int)].filter (0 ≤ ·) = [] := rfl
    rw [hsets, Placement.stored, List.filter_append, hnew, List.append_nil]
    exact h.nodup
  · rw [hsets, List.mem_append, List.mem_singleton] at ho
    rcases ho with ho | rfl
    · exact h.below o ho
    · omega
  · rcases List.mem_append.mp hother with hmem | hmem
    · exact h.entriesNodup other hmem
    · rw [List.mem_singleton.mp hmem, entryOrigins, hentries]
      exact List.nodup_nil
  · rcases List.mem_append.mp hother with hmem | hmem
    · exact h.entriesBelow other hmem o ho
    · rw [List.mem_singleton.mp hmem, entryOrigins, hentries] at ho
      contradiction

theorem Tracked.modifySet (m : PlayerMacros) (h : Tracked old m) (i : Nat) (f : MacroSet → MacroSet)
    (hf : KeepsRows f) : Tracked old (m.modifySet i f) := by
  have hsets : setOrigins (m.modifySet i f) = setOrigins m := by
    apply List.ext_getElem?
    intro j
    show ((m.sets.modify i f).map _)[j]? = _
    rw [setOrigins, List.getElem?_map, List.getElem?_map, List.getElem?_modify]
    cases m.sets[j]? with
    | none => rfl
    | some set =>
        show some (if i = j then f set else set).origin = some set.origin
        split
        · rw [hf.origin]
        · rfl
  have hback : ∀ set ∈ (m.modifySet i f).sets, ∃ before ∈ m.sets, set = before ∨ set = f before := by
    intro set hset
    obtain ⟨j, hj⟩ := List.mem_iff_getElem?.mp hset
    have hj : (m.sets.modify i f)[j]? = some set := hj
    rw [List.getElem?_modify] at hj
    obtain ⟨before, hbefore, rfl⟩ := Option.map_eq_some_iff.mp hj
    refine ⟨before, List.mem_of_getElem? hbefore, ?_⟩
    split
    · exact Or.inr rfl
    · exact Or.inl rfl
  refine ⟨hsets ▸ h.nodup, hsets ▸ h.below, fun set hset => ?_, fun set hset o ho => ?_⟩
  · obtain ⟨before, hbefore, rfl | rfl⟩ := hback set hset
    · exact h.entriesNodup set hbefore
    · have hnodup := h.entriesNodup before hbefore
      obtain ⟨kept, hperm, hsub⟩ := hf.entries before
      exact hperm.nodup_iff.mp (hnodup.sublist hsub)
  · obtain ⟨before, hbefore, rfl | rfl⟩ := hback set hset
    · exact h.entriesBelow set hbefore o ho
    · by_cases hpos : 0 ≤ o
      · have hmem : o ∈ Placement.stored (entryOrigins (f before)) :=
          List.mem_filter.mpr ⟨ho, decide_eq_true hpos⟩
        have hold := (List.mem_filter.mp ((hf.entries before).subset hmem)).1
        have hsame : sourceEntries old (f before) = sourceEntries old before := by
          rw [sourceEntries, hf.origin]
          rfl
        rw [hsame]
        exact h.entriesBelow before hbefore o hold
      · omega

theorem sets_purge (m : PlayerMacros) (purged : Finset ObjectId) :
    (m.purge purged).sets.Sublist m.sets :=
  PlayerMacros.purgeAt_induction m (fun after => after.sets.Sublist m.sets) purged _
    (fun _ _ _ h => (List.eraseIdx_sublist ..).trans h) (List.Sublist.refl _)

theorem Tracked.step (s after : State) (op : Operation) (h : Tracked old s.macros)
    (hstep : Step s op after) : Tracked old after.macros := by
  cases hstep with
  | created owner description ho hd => exact h.addSet old s.macros _ rfl rfl
  | modified op i f hr hf => exact h.modifySet old s.macros i f hr
  | attached => exact h.sublist old s.macros _ (List.Sublist.refl _)
  | detached => exact h.sublist old s.macros _ (List.Sublist.refl _)
  | destroyed id i hi => exact h.sublist old s.macros _ (List.eraseIdx_sublist ..)
  | purged purged => exact h.sublist old s.macros _ (sets_purge s.macros purged)

theorem Tracked.run (s : State) (ops : List Operation) (h : Tracked old s.macros) :
    Tracked old (s.run ops).macros := by
  induction ops generalizing s with
  | nil => exact h
  | cons op ops ih =>
      refine ih (s.perform op).1 ?_
      rcases perform_step s op with hsame | hstep
      · rw [hsame]
        exact h
      · exact h.step old s _ op hstep

end Tracking

-- Rows that survive, under whatever key, keep the columns that the game does not own.
structure RowsKept (before after : Database) (new : PlayerMacros) : Prop where
  sets : ∀ (i : Nat) set, new.sets[i]? = some set → 0 ≤ set.origin →
    ∃ stored row, before.macroSets.get? set.origin = some stored ∧
      after.macroSets.get? (i : Int) = some row ∧
      ∀ column ∉ (setFields set).map Prod.fst, row column = stored column
  entries : ∀ (i p : Nat) set entry, new.sets[i]? = some set → set.entries[p]? = some entry →
    0 ≤ entry.origin →
    ∃ stored row, before.group set.origin entry.origin = some stored ∧
      after.group (i : Int) (p : Int) = some row ∧
      ∀ column ∉ (entryFields entry).map Prod.fst, row column = stored column
  players : ∀ who stored, before.commacEntries.get? who = some stored →
    ∃ row, after.commacEntries.get? who = some row ∧
      ∀ column ∉ slotColumns, row column = stored column

section Save

variable (before after : Database) (old new : PlayerMacros) (ht : Tracked old new)
  (hi : Image before old)

theorem setAt_natCast (m : PlayerMacros) (i : Nat) : setAt m (i : Int) = m.sets[i]? := by
  rw [setAt, if_pos (Int.natCast_nonneg i), Int.toNat_natCast]

theorem entryAt_natCast (entries : List MacroEntry) (p : Nat) :
    entryAt entries (p : Int) = entries[p]? := by
  rw [entryAt, if_pos (Int.natCast_nonneg p), Int.toNat_natCast]

theorem setRows (w : Writing)
    (h : SetsAt before (placed (setOrigins new) new.sets.length)
      (written setFields new.sets (setOrigins new) before.macroSets.get?
        before.setsSchema.defaults new.sets.length)
      (writtenGroups new before new.sets.length) w) (k : Int) :
    w.1.macroSets.get? k = (setAt new k).map (fun set => assign (setFields set)
      (((origin (setOrigins new) k.toNat).elim none before.macroSets.get?).getD
        before.setsSchema.defaults)) := by
  have hlength : (setOrigins new).length = new.sets.length := by rw [setOrigins, List.length_map]
  have hplaced := h.sets
  rw [← hlength] at hplaced
  rw [place_of_placed _ none _ _ hplaced k, hlength]
  unfold setAt written
  by_cases hk : 0 ≤ k
  · rw [if_pos hk]
    by_cases hlt : k.toNat < new.sets.length
    · rw [if_pos ⟨hk, hlt⟩, if_pos hlt]
    · rw [if_neg (fun hc => hlt hc.2), List.getElem?_eq_none (by omega)]
      rfl
  · rw [if_neg (fun hc => hk hc.1), if_neg hk]
    rfl

theorem groupRows (w : Writing)
    (h : SetsAt before (placed (setOrigins new) new.sets.length)
      (written setFields new.sets (setOrigins new) before.macroSets.get?
        before.setsSchema.defaults new.sets.length)
      (writtenGroups new before new.sets.length) w) (k p : Int) :
    w.1.group k p = ((setAt new k).bind (fun set => (entryAt set.entries p).map (fun entry =>
      assign (entryFields entry) (((origin (entryOrigins set) p.toNat).elim none
        ((origin (setOrigins new) k.toNat).elim (fun _ => none) before.group)).getD
        before.entriesSchema.defaults)))) := by
  have hlength : (setOrigins new).length = new.sets.length := by rw [setOrigins, List.length_map]
  have hplaced := h.groups
  rw [← hlength] at hplaced
  rw [place_of_placed _ (fun _ => none) _ _ hplaced k, hlength]
  unfold setAt
  by_cases hk : 0 ≤ k
  · rw [if_pos hk]
    by_cases hlt : k.toNat < new.sets.length
    · rw [if_pos ⟨hk, hlt⟩]
      unfold writtenGroups
      rw [if_pos hlt, List.getElem?_eq_getElem hlt, Option.elim_some, Option.bind_some]
      generalize new.sets[k.toNat] = set
      unfold writtenGroup entryAt written
      by_cases hp : 0 ≤ p
      · rw [if_pos hp]
        by_cases hplt : p.toNat < set.entries.length
        · rw [if_pos ⟨hp, hplt⟩, if_pos hplt]
        · rw [if_neg (fun hc => hplt hc.2), List.getElem?_eq_none (by omega)]
          rfl
      · rw [if_neg (fun hc => hp hc.1), if_neg hp]
        rfl
    · rw [if_neg (fun hc => hlt hc.2), List.getElem?_eq_none (by omega)]
      rfl
  · rw [if_neg (fun hc => hk hc.1), if_neg hk]
    rfl

theorem stores_assign (fields : Fields) (row : Row) : Stores (some fields) (some (assign fields row)) :=
  holds_assign fields row

include ht hi

theorem exists_source {set : MacroSet} (hset : set ∈ new.sets) (hpos : 0 ≤ set.origin) :
    ∃ stored, before.macroSets.get? set.origin = some stored := by
  have hlt := ht.below set.origin (List.mem_map.mpr ⟨set, hset, rfl⟩)
  have hold : ∃ previous, setAt old set.origin = some previous := by
    rw [setAt, if_pos hpos]
    exact ⟨_, List.getElem?_eq_getElem (by
      have hpos : (0 : Int) ≤ set.origin := hpos
      generalize (set.origin : Int) = o at hpos hlt
      omega)⟩
  obtain ⟨previous, hold⟩ := hold
  have h := hi.sets set.origin
  rw [hold] at h
  cases hget : before.macroSets.get? set.origin with
  | none =>
      rw [hget] at h
      exact h.elim
  | some stored => exact ⟨stored, rfl⟩

theorem exists_sourceEntry {set : MacroSet} (hset : set ∈ new.sets) {entry : MacroEntry}
    (hentry : entry ∈ set.entries) (hpos : 0 ≤ entry.origin) :
    0 ≤ set.origin ∧ ∃ stored, before.group set.origin entry.origin = some stored := by
  have hlt := ht.entriesBelow set hset entry.origin (List.mem_map.mpr ⟨entry, hentry, rfl⟩)
  unfold sourceEntries at hlt
  have h := hi.entries set.origin entry.origin
  have hpos' : (0 : Int) ≤ entry.origin := hpos
  cases hold : setAt old set.origin with
  | none =>
      rw [hold, Option.map_none, Option.getD_none] at hlt
      exact absurd (Int.lt_of_le_of_lt hpos' hlt) (Int.lt_irrefl 0)
  | some previous =>
      rw [hold, Option.map_some, Option.getD_some] at hlt
      have hset : 0 ≤ set.origin := by
        by_contra hneg
        rw [setAt, if_neg hneg] at hold
        contradiction
      have hat : ∃ old, entryAt previous.entries entry.origin = some old := by
        rw [entryAt, if_pos hpos]
        exact ⟨_, List.getElem?_eq_getElem (by
          generalize (entry.origin : Int) = o at hpos' hlt
          omega)⟩
      obtain ⟨old, hat⟩ := hat
      rw [hold, Option.bind_some, hat] at h
      refine ⟨hset, ?_⟩
      cases hget : before.group set.origin entry.origin with
      | none =>
          rw [hget] at h
          exact h.elim
      | some stored => exact ⟨stored, rfl⟩

-- No row operation fails, and the database ends with the image of the new state.
theorem saveRows_ok :
    ∃ saved, saveRows old new before = .ok saved ∧ Image saved.1 new ∧
      RowsKept before saved.1 new := by
  obtain ⟨w, hw, hsets⟩ := saveSets_ok before old new ht hi (before, false) rfl
  obtain ⟨parkedSets, hpark, hplace⟩ := ok_of_bind hw
  have hcommac : w.1.commacEntries = before.commacEntries := congrArg (fun rest => rest.1) hsets.rest
  have hdefaults : w.1.defaults = before.defaults := congrArg (fun rest => rest.2.1) hsets.rest
  obtain ⟨saved, hsaved, honly, hslots⟩ := saveSlots_run old new w.1
    (fun who player h => hcommac ▸ hi.players who player h)
    (fun who stored h hrow => hi.others who stored h (hcommac ▸ hrow)) w rfl ⟨rfl, rfl, rfl⟩
  obtain ⟨written, hwritten, hcleared⟩ := ok_of_bind hsaved
  have hslot : ∀ who, saved.1.commacEntries.get? who = savedSlots new before who := by
    intro who
    rw [hslots, savedSlots, savedSlots, hcommac]
    cases new.players.get? who with
    | none => rfl
    | some player =>
        show some (slotRow w.1 who player) = _
        rw [slotRow, Database.slotsSchema, hcommac, hdefaults]
        rfl
  have hset := setRows before new w hsets
  have hgroup := groupRows before new w hsets
  rw [← honly.sets] at hset
  have hsame : saved.1.group = w.1.group := by
    funext k p
    rw [Database.group, honly.entries]
    rfl
  refine ⟨saved, ?_, ⟨fun k => ?_, fun k p => ?_, fun who player hplayer => ?_,
    fun who row hnone hrow => ?_⟩, ⟨fun i set hat hpos => ?_, fun i p set entry hat hentry hpos => ?_,
    fun who stored hstored => ?_⟩⟩
  · exact bind_ok hpark
      (bind_ok hplace (bind_ok hwritten hcleared))
  · rw [hset]
    cases setAt new k with
    | none => trivial
    | some set => exact stores_assign _ _
  · rw [hsame, hgroup]
    cases setAt new k with
    | none => trivial
    | some set =>
        rw [Option.bind_some, Option.bind_some]
        cases entryAt set.entries p with
        | none => trivial
        | some entry => exact stores_assign _ _
  · rw [hslot, savedSlots, hplayer]
    exact stores_assign _ _
  · rw [hslot, savedSlots, hnone] at hrow
    obtain ⟨stored, -, rfl⟩ := Option.map_eq_some_iff.mp hrow
    exact holds_assign _ _
  · obtain ⟨stored, hstored⟩ :=
      exists_source before old new ht hi (List.mem_of_getElem? hat) hpos
    have horigin := origin_of_set new hat
    rw [if_pos hpos] at horigin
    refine ⟨stored, _, hstored, ?_, fun column hcolumn => assign_of_not_mem _ stored column hcolumn⟩
    rw [hset, setAt_natCast, hat, Int.toNat_natCast, horigin, Option.map_some, Option.elim_some,
      hstored, Option.getD_some]
  · obtain ⟨hset, stored, hstored⟩ := exists_sourceEntry before old new ht hi
      (List.mem_of_getElem? hat) (List.mem_of_getElem? hentry) hpos
    have horigin := origin_of_set new hat
    rw [if_pos hset] at horigin
    have hsource := origin_of_getElem? set hentry
    rw [if_pos hpos] at hsource
    refine ⟨stored, _, hstored, ?_, fun column hcolumn => assign_of_not_mem _ stored column hcolumn⟩
    rw [hsame, hgroup, setAt_natCast, hat, Option.bind_some, entryAt_natCast, hentry, Int.toNat_natCast,
      Int.toNat_natCast, horigin, hsource, Option.map_some, Option.elim_some, Option.elim_some,
      hstored, Option.getD_some]
  · rw [hslot, savedSlots]
    cases new.players.get? who with
    | none =>
        rw [hstored]
        exact ⟨_, rfl, fun column hcolumn => assign_of_not_mem _ _ column
          (by rwa [slotFields_columns])⟩
    | some player =>
        refine ⟨_, rfl, fun column hcolumn => ?_⟩
        rw [slotRow, hstored, Option.getD_some]
        exact assign_of_not_mem _ _ column (by rwa [slotFields_columns])

omit hi in
theorem saveMacros_eq (objects : World) :
    saveMacros objects old new before = (do
      new.validate objects
      if structural old new then checkDependencies before else .ok ()
      saveRows old new before) := by
  have hdedup : (Placement.stored (setOrigins new)).dedup = Placement.stored (setOrigins new) :=
    ht.nodup.dedup
  unfold saveMacros
  congr 1
  funext _
  dsimp only
  rw [decide_eq_true (congrArg List.length hdedup)]
  rfl

end Save

-- A commit renumbers the rows and changes nothing else.
theorem inPlace_committed (m : PlayerMacros) : InPlace m.committed := by
  intro i set hset
  have hset : (m.sets.mapIdx _)[i]? = some set := hset
  rw [List.getElem?_mapIdx] at hset
  obtain ⟨before, -, rfl⟩ := Option.map_eq_some_iff.mp hset
  refine ⟨rfl, fun p entry hentry => ?_⟩
  have hentry : (before.entries.mapIdx _)[p]? = some entry := hentry
  rw [List.getElem?_mapIdx] at hentry
  obtain ⟨entry, -, rfl⟩ := Option.map_eq_some_iff.mp hentry
  rfl

theorem image_committed {db : Database} {m : PlayerMacros} (h : Image db m) : Image db m.committed := by
  have hsets : ∀ k, setAt m.committed k = (setAt m k).map (fun set => { set with
      origin := k
      entries := set.entries.mapIdx (fun position entry => { entry with origin := position }) }) := by
    intro k
    unfold setAt
    split
    · rename_i hk
      show (m.sets.mapIdx _)[k.toNat]? = _
      rw [List.getElem?_mapIdx]
      cases m.sets[k.toNat]? with
      | none => rfl
      | some set =>
          rw [Option.map_some, Option.map_some, Int.toNat_of_nonneg hk]
    · rfl
  refine ⟨fun k => ?_, fun k p => ?_, h.players, h.others⟩
  · have hk := h.sets k
    rw [hsets]
    cases hget : setAt m k with
    | none =>
        rw [hget] at hk
        exact hk
    | some set =>
        rw [hget] at hk
        exact hk
  · have hkp := h.entries k p
    rw [hsets]
    cases hget : setAt m k with
    | none =>
        rw [hget] at hkp
        exact hkp
    | some set =>
        rw [hget, Option.bind_some] at hkp
        rw [Option.map_some, Option.bind_some]
        unfold entryAt at hkp ⊢
        split
        · rename_i hp
          rw [if_pos hp] at hkp
          rw [List.getElem?_mapIdx]
          cases hentry : set.entries[p.toNat]? with
          | none =>
              rw [hentry] at hkp
              exact hkp
          | some entry =>
              rw [hentry] at hkp
              exact hkp
        · rename_i hp
          rw [if_neg hp] at hkp
          exact hkp

-- From the image of a state whose rows are in place, the row operations of a save lead to the image
-- of any state that the operations reach, with every surviving row in its new place.
theorem save_moves_rows (s : State) (ops : List Operation) (db : Database) (hp : InPlace s.macros)
    (hi : Image db s.macros) :
    ∃ saved, saveRows s.macros (s.run ops).macros db = .ok saved ∧
      Image saved.1 (s.run ops).macros ∧ RowsKept db saved.1 (s.run ops).macros ∧
      InPlace (s.run ops).macros.committed ∧ Image saved.1 (s.run ops).macros.committed ∧
      ∀ objects, saveMacros objects s.macros (s.run ops).macros db = (do
        (s.run ops).macros.validate objects
        if structural s.macros (s.run ops).macros then checkDependencies db else .ok ()
        .ok saved) := by
  have ht := (tracked_of_inPlace s.macros hp).run s.macros s ops
  obtain ⟨saved, hsaved, himage, hkept⟩ := saveRows_ok db s.macros (s.run ops).macros ht hi
  refine ⟨saved, hsaved, himage, hkept, inPlace_committed _, image_committed himage,
    fun objects => ?_⟩
  rw [saveMacros_eq db s.macros _ ht objects, hsaved]

-- Two stored sets; the second, with its entry, moves when the first one goes.
def lastSet : MacroSet := ⟨1, 1, 1, 2, ['o'], [⟨0, ['k'], ['h', 'i']⟩]⟩

def twoSets : State where
  objects := OrderedMap.empty.insert 1 ⟨1, .Player, none, ∅⟩
  macros := ⟨[⟨0, 0, 1, 0, [], []⟩, lastSet], OrderedMap.empty⟩
  nextSetId := 2

-- Every row has a note that the game knows nothing of.
def twoRows : Database where
  macroSets :=
    ⟨[(0, assign (setFields ⟨0, 0, 1, 0, [], []⟩) (fun _ => .Text ['a'])),
      (1, assign (setFields lastSet) (fun _ => .Text ['b']))], by decide⟩
  macroEntries :=
    ⟨[((1, 0), assign (entryFields ⟨0, ['k'], ['h', 'i']⟩) (fun _ => .Text ['n']))], by decide⟩
  commacEntries := Table.empty
  defaults := fun _ _ => .Null
  dependencies := []

theorem twoSets_inPlace : InPlace twoSets.macros := by
  intro i set hset
  match i, hset with
  | 0, hset =>
      obtain rfl := Option.some.inj hset
      exact ⟨rfl, fun p entry h => by contradiction⟩
  | 1, hset =>
      obtain rfl := Option.some.inj hset
      refine ⟨rfl, fun p entry hentry => ?_⟩
      match p, hentry with
      | 0, hentry =>
          obtain rfl := Option.some.inj hentry
          rfl

theorem setAt_twoSets (k : Int) (h0 : k ≠ 0) (h1 : k ≠ 1) : setAt twoSets.macros k = none := by
  unfold setAt
  split
  · exact List.getElem?_eq_none (show 2 ≤ k.toNat by omega)
  · rfl

theorem image_twoRows : Image twoRows twoSets.macros := by
  refine ⟨fun k => ?_, fun k p => ?_, fun who player h => by contradiction,
    fun who row _ h => by contradiction⟩
  · by_cases h0 : k = 0
    · subst h0
      exact holds_assign _ _
    by_cases h1 : k = 1
    · subst h1
      exact holds_assign _ _
    have hrow : twoRows.macroSets.get? k = none :=
      (Table.get?_eq_none_iff _ k).mpr (by simp [twoRows, Table.keys, h0, h1])
    rw [setAt_twoSets k h0 h1, hrow]
    trivial
  · by_cases hkey : k = 1 ∧ p = 0
    · obtain ⟨rfl, rfl⟩ := hkey
      exact holds_assign _ _
    have hrow : twoRows.group k p = none :=
      (Table.get?_eq_none_iff _ (k, p)).mpr (by simpa [twoRows, Table.keys] using hkey)
    have hnone : (setAt twoSets.macros k).bind (fun set => entryAt set.entries p) = none := by
      by_cases h0 : k = 0
      · subst h0
        show entryAt [] p = none
        rw [entryAt, List.getElem?_nil, ite_self]
      by_cases h1 : k = 1
      · subst h1
        show entryAt [⟨0, ['k'], ['h', 'i']⟩] p = none
        unfold entryAt
        split
        · exact List.getElem?_eq_none (show 1 ≤ p.toNat by omega)
        · rfl
      · rw [setAt_twoSets k h0 h1]
        rfl
    rw [hnone, hrow]
    trivial

-- The notes go along to the new numbers.
theorem save_moves_rows_twoSets :
    ∃ saved, saveRows twoSets.macros (twoSets.run [.destroySet 0]).macros twoRows = .ok saved ∧
      Image saved.1 (twoSets.run [.destroySet 0]).macros ∧
      (saved.1.macroSets.get? 0).map (fun row => row "note") = some (.Text ['b']) ∧
      (saved.1.group 0 0).map (fun row => row "note") = some (.Text ['n']) := by
  obtain ⟨saved, hsaved, hafter, hkept, -⟩ :=
    save_moves_rows twoSets [.destroySet 0] twoRows twoSets_inPlace image_twoRows
  refine ⟨saved, hsaved, hafter, ?_, ?_⟩
  · obtain ⟨stored, row, hstored, hrow, hnote⟩ := hkept.sets 0 lastSet rfl (by decide)
    obtain rfl := Option.some.inj (hstored : some _ = some stored)
    have hrow : saved.1.macroSets.get? 0 = some row := hrow
    rw [hrow, Option.map_some, hnote "note" (by decide)]
    rfl
  · obtain ⟨stored, row, hstored, hrow, hnote⟩ :=
      hkept.entries 0 0 lastSet ⟨0, ['k'], ['h', 'i']⟩ rfl rfl (by decide)
    obtain rfl := Option.some.inj (hstored : some _ = some stored)
    have hrow : saved.1.group 0 0 = some row := hrow
    rw [hrow, Option.map_some, hnote "note" (by decide)]
    rfl

end StompyMux.Persistence
