import StompyMux.Macros.Operations

namespace StompyMux.Macros

open Library Library.Fallible Library.Text
open StompyMux.World (ObjectId World Object)

theorem MacroSlots.at?_compact (index : Nat) (player : MacroSlots) (slot : Nat) :
    (player.compact index).at? slot = (player.at? slot).bind (Positions.shift index) := by
  unfold MacroSlots.at?
  split
  · rfl
  · rfl

theorem State.at?_freed {slot : Fin SLOT_COUNT} (player : MacroSlots) {other : Nat}
    (h : other ≠ slot.val) : (State.freed slot player).at? other = player.at? other := by
  unfold MacroSlots.at? State.freed
  split
  · rename_i hlt
    have hne : (⟨other, hlt⟩ : Fin SLOT_COUNT) ≠ slot := fun heq => h (congrArg Fin.val heq)
    exact Function.update_of_ne hne ..
  · rfl

namespace MacroSlots.Valid

variable (count : Nat) (player : MacroSlots) (hv : player.Valid count)

include hv

theorem grow (more : Nat) (h : count ≤ more) : player.Valid more :=
  ⟨fun slot i hi => Nat.lt_of_lt_of_le (hv.slots slot i hi) h, hv.current⟩

theorem attach (slot : Fin SLOT_COUNT) (i : Nat) (hi : i < count) :
    MacroSlots.Valid count ⟨player.current, Function.update player.slots slot (some i)⟩ := by
  refine ⟨fun other j hj => ?_, fun other hother => ?_⟩
  · simp only [Function.update_apply] at hj
    split at hj
    · injection hj with hj
      omega
    · exact hv.slots other j hj
  · have hsome := hv.current other hother
    unfold MacroSlots.at? at hsome ⊢
    split at hsome
    · rename_i hlt
      rw [dif_pos hlt]
      simp only [Function.update_apply]
      split
      · rfl
      · exact hsome
    · contradiction

theorem freed (slot : Fin SLOT_COUNT) : (State.freed slot player).Valid count := by
  refine ⟨fun other j hj => ?_, fun other hother => ?_⟩
  · simp only [State.freed, Function.update_apply] at hj
    split at hj
    · contradiction
    · exact hv.slots other j hj
  · have hcurrent : player.current = some other ∧ player.current ≠ some slot.val := by
      simp only [State.freed] at hother
      split at hother
      · contradiction
      · rename_i hne
        exact ⟨hother, hne⟩
    have hne : other ≠ slot.val := fun heq => hcurrent.2 (heq ▸ hcurrent.1)
    rw [State.at?_freed player hne]
    exact hv.current other hcurrent.1

-- The selection follows its slot: it goes exactly when the slot loses its set.
theorem compact {sets : List MacroSet} (hcount : count = sets.length) (index : Nat) :
    (player.compact index).Valid (sets.eraseIdx index).length := by
  subst hcount
  refine ⟨fun slot moved hmoved => ?_, fun slot hslot => ?_⟩
  · obtain ⟨i, hslot, hshift⟩ := Option.bind_eq_some_iff.mp hmoved
    exact Positions.shift_lt hshift (hv.slots slot i hslot)
  · obtain ⟨hcurrent, hkept⟩ := Option.filter_eq_some_iff.mp hslot
    have hkept := of_decide_eq_true hkept
    obtain ⟨i, hat⟩ := Option.isSome_iff_exists.mp (hv.current slot hcurrent)
    have hne : i ≠ index := fun heq => hkept (heq ▸ hat)
    obtain ⟨moved, hshift⟩ := Positions.shift_ne_none hne
    rw [MacroSlots.at?_compact, hat, Option.bind_some, hshift]
    rfl

end MacroSlots.Valid

theorem MacroSlots.valid_default (count : Nat) : MacroSlots.default.Valid count :=
  ⟨fun _ _ h => by contradiction, fun _ h => by contradiction⟩

namespace PlayerMacros

variable (objects : World) (m : PlayerMacros)

theorem length_modifySet (i : Nat) (f : MacroSet → MacroSet) :
    (m.modifySet i f).sets.length = m.sets.length := List.length_modify ..

namespace Valid

variable (hv : m.Valid objects)

include hv

theorem transfer (others : World) (h : ∀ id, (objects.get? id).isSome → (others.get? id).isSome) :
    m.Valid others := by
  refine ⟨fun set hset => ?_, fun who player hp => h who (hv.owners who player hp), hv.players⟩
  have hset := hv.sets set hset
  exact ⟨h _ hset.owner, hset.description, hset.entries, hset.aliases⟩

theorem addSet (set : MacroSet) (hset : set.Valid objects) :
    PlayerMacros.Valid objects { m with sets := m.sets ++ [set] } := by
  refine ⟨fun other hother => ?_, hv.owners, fun who player hp => ?_⟩
  · rcases List.mem_append.mp hother with hmem | hmem
    · exact hv.sets other hmem
    · rw [List.mem_singleton.mp hmem]
      exact hset
  · refine (hv.players who player hp).grow _ player (m.sets ++ [set]).length ?_
    rw [List.length_append]
    exact Nat.le_add_right ..

theorem modifySet (i : Nat) (f : MacroSet → MacroSet)
    (hf : ∀ set, m.sets[i]? = some set → set.Valid objects → (f set).Valid objects) :
    (m.modifySet i f).Valid objects := by
  refine ⟨fun set hset => ?_, hv.owners, fun who player hp => ?_⟩
  · obtain ⟨j, hj⟩ := List.mem_iff_getElem?.mp hset
    have hj : (m.sets.modify i f)[j]? = some set := hj
    rw [List.getElem?_modify] at hj
    obtain ⟨old, hold, rfl⟩ := Option.map_eq_some_iff.mp hj
    have hvalid := hv.sets old (List.mem_of_getElem? hold)
    split
    · rename_i heq
      exact hf old (heq ▸ hold) hvalid
    · exact hvalid
  · rw [length_modifySet]
    exact hv.players who player hp

theorem insertPlayer {who : ObjectId} {player : MacroSlots} (ho : (objects.get? who).isSome)
    (hp : player.Valid m.sets.length) :
    PlayerMacros.Valid objects { m with players := m.players.insert who player } := by
  refine ⟨hv.sets, fun other slots hother => ?_, fun other slots hother => ?_⟩
  all_goals
    rw [OrderedMap.get?_insert] at hother
    split at hother
  · rename_i heq
    exact heq ▸ ho
  · exact hv.owners other slots hother
  · injection hother with hother
    exact hother ▸ hp
  · exact hv.players other slots hother

theorem remove (index : Nat) : (m.remove index).Valid objects := by
  have hback : ∀ who player, (m.remove index).players.get? who = some player →
      ∃ old, m.players.get? who = some old ∧ old.compact index = player := by
    intro who player h
    have h : (m.players.mapEntries _).get? who = some player := h
    rw [OrderedMap.get?_mapEntries] at h
    exact Option.map_eq_some_iff.mp h
  refine ⟨fun set hset => hv.sets set (List.mem_of_mem_eraseIdx hset), fun who player hp => ?_,
    fun who player hp => ?_⟩
  all_goals obtain ⟨old, hold, rfl⟩ := hback who player hp
  · exact hv.owners who old hold
  · exact (hv.players who old hold).compact _ old rfl index

theorem retain (p : ObjectId → MacroSlots → Bool) :
    PlayerMacros.Valid objects { m with players := m.players.retain p } := by
  have hback : ∀ who player, (m.players.retain p).get? who = some player →
      m.players.get? who = some player := by
    intro who player h
    rw [OrderedMap.get?_retain] at h
    exact (Option.filter_eq_some_iff.mp h).1
  exact ⟨hv.sets, fun who player hp => hv.owners who player (hback who player hp),
    fun who player hp => hv.players who player (hback who player hp)⟩

end Valid

-- Several sets go in one pass; what every removal keeps, the pass keeps.
theorem purgeAt_induction (P : PlayerMacros → Prop) (purged : Finset ObjectId) (indices : List Nat)
    (hstep : ∀ m index, index < m.sets.length → P m → P (m.remove index)) (h : P m) :
    P (indices.foldl (purgeAt purged) m) := by
  induction indices generalizing m with
  | nil => exact h
  | cons index indices ih =>
      refine ih (purgeAt purged m index) ?_
      unfold purgeAt
      split
      · rename_i hany
        cases hget : m.sets[index]? with
        | none =>
            rw [hget] at hany
            contradiction
        | some set => exact hstep m index (List.getElem?_eq_some_iff.mp hget).1 h
      · exact h

theorem Valid.purge (hv : m.Valid objects) (purged : Finset ObjectId) :
    (m.purge purged).Valid objects := by
  have h := purgeAt_induction m (PlayerMacros.Valid objects) purged
    (List.range m.sets.length).reverse (fun m index _ hm => hm.remove objects m index) hv
  exact Valid.retain objects _ h _

def identities : List MacroSetId := m.sets.map (·.id)

def refers (who : ObjectId) (slot : Fin SLOT_COUNT) : Option MacroSetId :=
  (m.players.get? who).bind (fun player => (player.slots slot).bind (fun i => m.identities[i]?))

theorem identities_modifySet (i : Nat) (f : MacroSet → MacroSet) (hid : ∀ set, (f set).id = set.id) :
    (m.modifySet i f).identities = m.identities := by
  apply List.ext_getElem?
  intro j
  show ((m.sets.modify i f).map _)[j]? = _
  rw [identities, List.getElem?_map, List.getElem?_map, List.getElem?_modify]
  cases m.sets[j]? with
  | none => rfl
  | some set =>
      show some (if i = j then f set else set).id = some set.id
      split
      · rw [hid]
      · rfl

theorem identities_remove (index : Nat) :
    (m.remove index).identities = m.identities.eraseIdx index := by
  unfold identities remove
  rw [List.eraseIdx_map]

-- A slot keeps its set, at the position it has moved to, or it lost the set that went.
theorem refers_remove (index : Nat) (who : ObjectId) (slot : Fin SLOT_COUNT) :
    (m.remove index).refers who slot = (m.players.get? who).bind (fun player =>
      (player.slots slot).bind (fun i => if i = index then none else m.identities[i]?)) := by
  have hplayers : (m.remove index).players.get? who =
      (m.players.get? who).map (fun player => player.compact index) := OrderedMap.get?_mapEntries ..
  rw [refers, hplayers, identities_remove, Option.bind_map]
  congr 1
  funext player
  show ((player.slots slot).bind (Positions.shift index)).bind _ = _
  rw [Option.bind_assoc]
  congr 1
  funext i
  by_cases h : i = index
  · rw [if_pos h, h, Positions.shift_self]
    rfl
  · obtain ⟨moved, hshift⟩ := Positions.shift_ne_none h
    rw [if_neg h, hshift, Option.bind_some, Positions.getElem?_shift m.identities hshift]

theorem refers_retain (p : ObjectId → Bool) (who : ObjectId) (slot : Fin SLOT_COUNT) :
    refers { m with players := m.players.retain (fun who _ => p who) } who slot =
      if p who then m.refers who slot else none := by
  unfold refers
  rw [OrderedMap.get?_retain]
  cases h : p who with
  | true =>
      rw [if_pos rfl]
      cases m.players.get? who <;> rfl
  | false =>
      rw [if_neg Bool.false_ne_true]
      cases m.players.get? who <;> rfl

theorem refers_insert (player : ObjectId) (slots : MacroSlots) (who : ObjectId)
    (slot : Fin SLOT_COUNT) :
    refers { m with players := m.players.insert player slots } who slot =
      if who = player then (slots.slots slot).bind (fun i => m.identities[i]?)
      else m.refers who slot := by
  unfold refers
  rw [OrderedMap.get?_insert]
  split
  · rfl
  · rfl

theorem refers_eq_some (who : ObjectId) (slot : Fin SLOT_COUNT) (id : MacroSetId) :
    m.refers who slot = some id ↔ ∃ player i, m.players.get? who = some player ∧
      player.slots slot = some i ∧ m.identities[i]? = some id := by
  refine ⟨fun h => ?_, fun ⟨player, i, hplayer, hi, hid⟩ => ?_⟩
  · obtain ⟨player, hplayer, h⟩ := Option.bind_eq_some_iff.mp h
    obtain ⟨i, hi, hid⟩ := Option.bind_eq_some_iff.mp h
    exact ⟨player, i, hplayer, hi, hid⟩
  · rw [refers, hplayer, Option.bind_some, hi, Option.bind_some, hid]

theorem refers_addSet (hv : m.Valid objects) (set : MacroSet) (who : ObjectId)
    (slot : Fin SLOT_COUNT) :
    refers { m with sets := m.sets ++ [set] } who slot = m.refers who slot := by
  unfold refers
  cases hplayer : m.players.get? who with
  | none => rfl
  | some player =>
      cases hi : player.slots slot with
      | none => simp only [Option.bind_some, hi, Option.bind_none]
      | some i =>
          have hlt := (hv.players who player hplayer).slots slot i hi
          simp only [Option.bind_some, hi, identities, List.map_append]
          rw [List.getElem?_append_left (by rwa [List.length_map])]

-- Sets may go, and slots with them; the other slots keep their sets.
structure Narrowed (after : PlayerMacros) : Prop where
  identities : after.identities.Sublist m.identities
  kept : ∀ who slot id, m.refers who slot = some id → id ∈ after.identities →
    after.refers who slot = some id
  came : ∀ who slot id, after.refers who slot = some id → m.refers who slot = some id

theorem Narrowed.refl : m.Narrowed m := ⟨List.Sublist.refl _, fun _ _ _ h _ => h, fun _ _ _ h => h⟩

theorem Narrowed.trans (after last : PlayerMacros) (h : m.Narrowed after) (h' : after.Narrowed last) :
    m.Narrowed last := by
  refine ⟨h'.identities.trans h.identities, fun who slot id hid hmem => ?_, fun who slot id hid => ?_⟩
  · exact h'.kept who slot id (h.kept who slot id hid (h'.identities.subset hmem)) hmem
  · exact h.came who slot id (h'.came who slot id hid)

theorem narrowed_remove (hnodup : m.identities.Nodup) (index : Nat) :
    m.Narrowed (m.remove index) := by
  refine ⟨?_, fun who slot id hid hmem => ?_, fun who slot id hid => ?_⟩
  · rw [identities_remove]
    exact List.eraseIdx_sublist ..
  · obtain ⟨player, hplayer, hid⟩ := Option.bind_eq_some_iff.mp hid
    obtain ⟨i, hi, hid⟩ := Option.bind_eq_some_iff.mp hid
    rw [identities_remove, List.mem_eraseIdx_iff_getElem?] at hmem
    obtain ⟨j, hj, hjd⟩ := hmem
    -- The identity stands at one position only, which is not the removed one.
    have hsame : i = j := by
      obtain ⟨hlt, -⟩ := List.getElem?_eq_some_iff.mp hid
      exact (List.getElem?_inj hlt hnodup).mp (hid.trans hjd.symm)
    rw [refers_remove, hplayer, Option.bind_some, hi, Option.bind_some, if_neg (hsame ▸ hj)]
    exact hid
  · rw [refers_remove] at hid
    obtain ⟨player, hplayer, hid⟩ := Option.bind_eq_some_iff.mp hid
    obtain ⟨i, hi, hid⟩ := Option.bind_eq_some_iff.mp hid
    rw [refers, hplayer, Option.bind_some, hi, Option.bind_some]
    split at hid
    · contradiction
    · exact hid

-- What a purge takes away: sets of purged owners, and the players among the purged.
theorem narrowed_purge (hnodup : m.identities.Nodup) (purged : Finset ObjectId) :
    m.Narrowed ((List.range m.sets.length).reverse.foldl (purgeAt purged) m) := by
  refine purgeAt_induction m m.Narrowed purged _ (fun after index _ ha => ?_) (Narrowed.refl m)
  exact ha.trans m after _ (narrowed_remove after (hnodup.sublist ha.identities) index)

theorem sublist_purge (hnodup : m.identities.Nodup) (purged : Finset ObjectId) :
    (m.purge purged).identities.Sublist m.identities := (narrowed_purge m hnodup purged).identities

theorem refers_purge (hnodup : m.identities.Nodup) {purged : Finset ObjectId} {who : ObjectId}
    {slot : Fin SLOT_COUNT} {id : MacroSetId} (hwho : who ∉ purged)
    (h : m.refers who slot = some id) (hmem : id ∈ (m.purge purged).identities) :
    (m.purge purged).refers who slot = some id := by
  rw [purge, refers_retain, if_pos (decide_eq_true hwho)]
  exact (narrowed_purge m hnodup purged).kept who slot id h hmem

theorem refers_of_purge (hnodup : m.identities.Nodup) {purged : Finset ObjectId} {who : ObjectId}
    {slot : Fin SLOT_COUNT} {id : MacroSetId} (h : (m.purge purged).refers who slot = some id) :
    m.refers who slot = some id := by
  rw [purge, refers_retain] at h
  split at h
  · exact (narrowed_purge m hnodup purged).came who slot id h
  · contradiction

end PlayerMacros

namespace State

-- Identities are given out once and never again.
structure Identified (s : State) : Prop where
  nodup : s.macros.identities.Nodup
  below : ∀ id ∈ s.macros.identities, id < s.nextSetId

end State

namespace Step

variable (s : State) (op : Operation) (after : State) (h : Step s op after)

include h

theorem valid (hv : s.macros.Valid s.objects) : after.macros.Valid after.objects := by
  cases h with
  | created owner description ho hd =>
      exact hv.addSet s.objects s.macros _ ⟨ho, hd, fun _ h => by contradiction, List.nodup_nil⟩
  | modified op i f hr hf => exact hv.modifySet s.objects s.macros i f hf
  | attached player id i slot slots ho hi hslots hfree =>
      obtain ⟨set, hset, -⟩ := ok_of_index hi
      have hlt := (List.getElem?_eq_some_iff.mp hset).1
      have hvalid : slots.Valid s.macros.sets.length := by
        rw [hslots]
        cases hget : s.macros.players.get? player with
        | none => exact MacroSlots.valid_default _
        | some slots => exact hv.players player slots hget
      exact hv.insertPlayer s.objects s.macros ho (hvalid.attach _ slots slot i hlt)
  | detached player slot slots hslots =>
      exact hv.insertPlayer s.objects s.macros (hv.owners player slots hslots)
        ((hv.players player slots hslots).freed _ slots slot)
  | destroyed id i _ => exact hv.remove s.objects s.macros i
  | purged purged =>
      refine (hv.purge s.objects s.macros purged).transfer s.objects _ _ fun id hid => ?_
      have hget : (s.purge purged).objects.get? id = (s.objects.get? id).map _ :=
        OrderedMap.get?_mapEntries ..
      rw [hget, Option.isSome_map]
      exact hid

theorem nextSetId_le : s.nextSetId ≤ after.nextSetId := by
  cases h with
  | created => exact Nat.le_succ _
  | _ => exact Nat.le_refl _

theorem identities_after (hi : s.Identified) :
    after.macros.identities.Sublist s.macros.identities ∨
      after.macros.identities = s.macros.identities ++ [s.nextSetId] ∧
        after.nextSetId = s.nextSetId + 1 := by
  cases h with
  | created owner description ho hd => exact Or.inr ⟨List.map_append .., rfl⟩
  | modified op i f hr hf =>
      left
      show (s.macros.modifySet i f).identities.Sublist _
      rw [PlayerMacros.identities_modifySet s.macros i f hr.id]
  | attached => exact Or.inl (List.Sublist.refl _)
  | detached => exact Or.inl (List.Sublist.refl _)
  | destroyed id i _ => exact Or.inl (PlayerMacros.narrowed_remove s.macros hi.nodup i).identities
  | purged purged =>
      exact Or.inl (PlayerMacros.sublist_purge s.macros hi.nodup purged)

theorem identified (hi : s.Identified) : after.Identified := by
  have hle := h.nextSetId_le s op after
  rcases h.identities_after s op after hi with hsub | ⟨heq, hnext⟩
  · refine ⟨hi.nodup.sublist hsub, fun id hid => ?_⟩
    exact Nat.lt_of_lt_of_le (hi.below id (hsub.subset hid)) hle
  · have hfresh : s.nextSetId ∉ s.macros.identities :=
      fun hmem => Nat.lt_irrefl _ (hi.below _ hmem)
    refine ⟨?_, fun id hid => ?_⟩
    · rw [heq]
      exact List.nodup_append_comm.mp (List.nodup_cons.mpr ⟨hfresh, hi.nodup⟩)
    · rw [heq, List.mem_append, List.mem_singleton] at hid
      rcases hid with hid | rfl
      · exact Nat.lt_of_lt_of_le (hi.below id hid) hle
      · rw [hnext]
        exact Nat.lt_succ_self _

theorem mem_identities_before (hi : s.Identified) (id : MacroSetId) (hlt : id < s.nextSetId)
    (hid : id ∈ after.macros.identities) : id ∈ s.macros.identities := by
  rcases h.identities_after s op after hi with hsub | ⟨heq, -⟩
  · exact hsub.subset hid
  · rw [heq, List.mem_append, List.mem_singleton] at hid
    rcases hid with hid | rfl
    · exact hid
    · exact absurd hlt (Nat.lt_irrefl _)

end Step

-- The operations that take a slot's set away from it, other than removing the set.
def Operation.frees (who : ObjectId) (slot : Fin SLOT_COUNT) : Operation → Bool
  | .detach player freed => player = who ∧ freed = slot.val
  | .purge purged => who ∈ purged
  | _ => false

namespace Step

variable (s : State) (op : Operation) (after : State) (h : Step s op after)
  (hv : s.macros.Valid s.objects) (hi : s.Identified)

include h hv hi

theorem refers_kept {who : ObjectId} {slot : Fin SLOT_COUNT} {id : MacroSetId}
    (href : s.macros.refers who slot = some id) (hid : id ∈ after.macros.identities)
    (hfree : op.frees who slot = false) : after.macros.refers who slot = some id := by
  cases h with
  | created owner description ho hd =>
      rw [PlayerMacros.refers_addSet s.objects s.macros hv]
      exact href
  | modified op i f hr hf =>
      unfold PlayerMacros.refers at href ⊢
      rw [PlayerMacros.identities_modifySet s.macros i f hr.id]
      exact href
  | attached player set i free slots ho hset hslots hnone =>
      rw [PlayerMacros.refers_insert]
      split
      · rename_i heq
        obtain ⟨old, j, hold, hj, hjd⟩ := (PlayerMacros.refers_eq_some _ _ _ _).mp href
        rw [← heq, hold, Option.getD_some] at hslots
        subst hslots
        -- The new attachment takes a free slot, not this one.
        have hne : slot ≠ free := by
          intro hsame
          rw [hsame, hnone] at hj
          contradiction
        show (Function.update slots.slots free (some i) slot).bind _ = _
        rw [Function.update_of_ne hne, hj, Option.bind_some, hjd]
      · exact href
  | detached player freed slots hslots =>
      rw [PlayerMacros.refers_insert]
      split
      · rename_i heq
        subst heq
        obtain ⟨old, j, hold, hj, hjd⟩ := (PlayerMacros.refers_eq_some _ _ _ _).mp href
        rw [hslots] at hold
        injection hold with hold
        subst hold
        have hne : slot ≠ freed := by
          intro hsame
          simp [Operation.frees, hsame] at hfree
        show (Function.update slots.slots freed none slot).bind _ = _
        rw [Function.update_of_ne hne, hj, Option.bind_some, hjd]
      · exact href
  | destroyed set i _ =>
      exact (PlayerMacros.narrowed_remove s.macros hi.nodup i).kept who slot id href hid
  | purged purged =>
      exact PlayerMacros.refers_purge s.macros hi.nodup
        (of_decide_eq_false hfree) href hid

theorem refers_came {who : ObjectId} {slot : Fin SLOT_COUNT} {id : MacroSetId}
    (href : after.macros.refers who slot = some id) :
    s.macros.refers who slot = some id ∨ op = .attach who id := by
  cases h with
  | created owner description ho hd =>
      rw [PlayerMacros.refers_addSet s.objects s.macros hv] at href
      exact Or.inl href
  | modified op i f hr hf =>
      unfold PlayerMacros.refers at href ⊢
      rw [PlayerMacros.identities_modifySet s.macros i f hr.id] at href
      exact Or.inl href
  | attached player set i free slots ho hset hslots hnone =>
      rw [PlayerMacros.refers_insert] at href
      split at href
      · rename_i heq
        subst heq
        simp only [Function.update_apply] at href
        split at href
        · obtain ⟨found, hfound, hsame⟩ := ok_of_index hset
          have hid : s.macros.identities[i]? = some id := href
          rw [PlayerMacros.identities, List.getElem?_map, hfound, Option.map_some, hsame] at hid
          injection hid with hid
          exact Or.inr (by rw [hid])
        · left
          unfold PlayerMacros.refers
          cases hget : s.macros.players.get? who with
          | none =>
              rw [hslots, hget] at href
              contradiction
          | some old =>
              rw [hslots, hget] at href
              exact href
      · exact Or.inl href
  | detached player freed slots hslots =>
      rw [PlayerMacros.refers_insert] at href
      split at href
      · rename_i heq
        subst heq
        simp only [State.freed, Function.update_apply] at href
        split at href
        · contradiction
        · left
          rw [PlayerMacros.refers, hslots]
          exact href
      · exact Or.inl href
  | destroyed set i _ =>
      exact Or.inl ((PlayerMacros.narrowed_remove s.macros hi.nodup i).came who slot id href)
  | purged purged =>
      exact Or.inl (PlayerMacros.refers_of_purge s.macros hi.nodup href)

end Step

namespace State

-- What operations do to the attachments, whether they fail or not.
structure Follows (ops : List Operation) (s after : State) : Prop where
  valid : after.macros.Valid after.objects
  identified : after.Identified
  next : s.nextSetId ≤ after.nextSetId
  back : ∀ id, id < s.nextSetId → id ∈ after.macros.identities → id ∈ s.macros.identities
  kept : ∀ who slot id, s.macros.refers who slot = some id → id ∈ after.macros.identities →
    (∀ op ∈ ops, op.frees who slot = false) → after.macros.refers who slot = some id
  came : ∀ who slot id, after.macros.refers who slot = some id →
    s.macros.refers who slot = some id ∨ .attach who id ∈ ops

variable (s : State) (hv : s.macros.Valid s.objects) (hi : s.Identified)

include hv hi

theorem follows_perform (op : Operation) : Follows [op] s (s.perform op).1 := by
  rcases perform_step s op with hsame | h
  · rw [hsame]
    exact ⟨hv, hi, Nat.le_refl _, fun _ _ h => h, fun _ _ _ h _ _ => h, fun _ _ _ h => Or.inl h⟩
  · refine ⟨h.valid _ _ _ hv, h.identified _ _ _ hi, h.nextSetId_le _ _ _,
      h.mem_identities_before _ _ _ hi, fun who slot id href hid hfree => ?_,
      fun who slot id href => ?_⟩
    · exact h.refers_kept _ _ _ hv hi href hid (hfree op List.mem_cons_self)
    · rcases h.refers_came _ _ _ hv hi href with h | h
      · exact Or.inl h
      · exact Or.inr (List.mem_singleton.mpr h.symm)

theorem follows_run (ops : List Operation) : Follows ops s (s.run ops) := by
  induction ops generalizing s with
  | nil =>
      exact ⟨hv, hi, Nat.le_refl _, fun _ _ h => h, fun _ _ _ h _ _ => h, fun _ _ _ h => Or.inl h⟩
  | cons op ops ih =>
      have hstep := s.follows_perform hv hi op
      have hrest := ih (s.perform op).1 hstep.valid hstep.identified
      have hrun : s.run (op :: ops) = (s.perform op).1.run ops := rfl
      rw [hrun]
      have hback : ∀ id, id < s.nextSetId → id ∈ ((s.perform op).1.run ops).macros.identities →
          id ∈ (s.perform op).1.macros.identities :=
        fun id hlt hid => hrest.back id (Nat.lt_of_lt_of_le hlt hstep.next) hid
      refine ⟨hrest.valid, hrest.identified, Nat.le_trans hstep.next hrest.next,
        fun id hlt hid => hstep.back id hlt (hback id hlt hid),
        fun who slot id href hid hfree => ?_, fun who slot id href => ?_⟩
      · obtain ⟨hop, hops⟩ := List.forall_mem_cons.mp hfree
        obtain ⟨player, i, hplayer, hslot, hget⟩ := (PlayerMacros.refers_eq_some _ _ _ _).mp href
        -- The set has been there all the time.
        have hmem := hback id (hi.below id (List.mem_of_getElem? hget)) hid
        exact hrest.kept who slot id
          (hstep.kept who slot id href hmem (List.forall_mem_singleton.mpr hop)) hid hops
      · rcases hrest.came who slot id href with h | h
        · rcases hstep.came who slot id h with h | h
          · exact Or.inl h
          · exact Or.inr (List.mem_cons.mpr (Or.inl (List.mem_singleton.mp h)))
        · exact Or.inr (List.mem_cons_of_mem _ h)

end State

-- From a valid state on: the macros stay valid, an operation that fails changes nothing, and a slot
-- refers to the same set for as long as that set exists.
theorem attachments_follow (s : State) (hv : s.macros.validate s.objects = .ok ())
    (hi : s.Identified) (ops : List Operation) :
    (s.run ops).macros.validate (s.run ops).objects = .ok () ∧
      (∀ op e, ((s.run ops).perform op).2 = some e → ((s.run ops).perform op).1 = s.run ops) ∧
      (∀ later who slot id, (s.run ops).macros.refers who slot = some id →
        id ∈ ((s.run ops).run later).macros.identities →
        (∀ op ∈ later, op.frees who slot = false) →
        ((s.run ops).run later).macros.refers who slot = some id) ∧
      ∀ later who slot id, ((s.run ops).run later).macros.refers who slot = some id →
        (s.run ops).macros.refers who slot = some id ∨ .attach who id ∈ later := by
  have hv := (PlayerMacros.validate_ok_iff _ _).mp hv
  have hops := s.follows_run hv hi ops
  have hlater := fun later => (s.run ops).follows_run hops.valid hops.identified later
  exact ⟨(PlayerMacros.validate_ok_iff _ _).mpr hops.valid, fun op e h => perform_error _ op e h,
    fun later => (hlater later).kept, fun later => (hlater later).came⟩

-- Two players, each with a set; the first player uses the set of the second.
def borrowed : State where
  objects := (OrderedMap.empty.insert 1 ⟨1, .Player, none, ∅⟩).insert 2 ⟨2, .Player, none, ∅⟩
  macros :=
    ⟨[⟨0, 0, 1, 0, [], []⟩, ⟨1, 1, 2, 0, [], [⟨0, ['H', 'i'], ['s', 'a', 'y']⟩]⟩],
      OrderedMap.empty.insert 1 ⟨some 0, fun slot => if slot.val = 0 then some 1 else none⟩⟩
  nextSetId := 2

theorem attachments_follow_borrowed :
    ((borrowed.run []).run [.destroySet 0]).macros.refers 1 ⟨0, by decide⟩ = some 1 := by
  have hvalid : borrowed.macros.validate borrowed.objects = .ok () := by decide +kernel
  have hidentified : borrowed.Identified := ⟨by decide, by decide⟩
  have h := (attachments_follow borrowed hvalid hidentified []).2.2.1 [.destroySet 0] 1 ⟨0, by decide⟩ 1
  exact h (by decide) (by decide) (by decide)

end StompyMux.Macros
