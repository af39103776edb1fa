import StompyMux.Library.Placement
import StompyMux.Macros.Service

namespace StompyMux.Macros

open Library Library.Fallible
open Library.Placement (stored)
open Library.Text
open StompyMux.World (ObjectId World)

def MacroEntry.key (entry : MacroEntry) : List Char := toAsciiLowercase entry.alias'

structure MacroEntry.Valid (entry : MacroEntry) : Prop where
  alias' : Macros.alias' entry.alias' = .ok ()
  expansion : text entry.expansion = .ok ()

-- What a set must satisfy to be saved and loaded: no two entries share an alias, ignoring case.
structure MacroSet.Valid (objects : World) (set : MacroSet) : Prop where
  owner : (objects.get? set.owner).isSome
  description : text set.description = .ok ()
  entries : ∀ entry ∈ set.entries, entry.Valid
  aliases : (set.entries.map MacroEntry.key).Nodup

-- Attached slots name sets, and the selection is an attached slot.
structure MacroSlots.Valid (count : Nat) (player : MacroSlots) : Prop where
  slots : ∀ slot i, player.slots slot = some i → i < count
  current : ∀ slot, player.current = some slot → (player.at? slot).isSome

structure PlayerMacros.Valid (objects : World) (m : PlayerMacros) : Prop where
  sets : ∀ set ∈ m.sets, set.Valid objects
  owners : ∀ who player, m.players.get? who = some player → (objects.get? who).isSome
  players : ∀ who player, m.players.get? who = some player → player.Valid m.sets.length

theorem validateEntry_ok_iff (context : Nat → String) (aliases result : List (List Char))
    (numbered : MacroEntry × Nat) :
    validateEntry context aliases numbered = .ok result ↔
      numbered.1.Valid ∧ numbered.1.key ∉ aliases ∧ result = numbered.1.key :: aliases := by
  unfold validateEntry
  simp only [unit_bind_ok_iff, withContext_ok_iff, ensure_ok_iff, decide_eq_true_eq]
  refine ⟨fun ⟨ha, ht, hn, hr⟩ => ?_, fun ⟨⟨ha, ht⟩, hn, hr⟩ => ⟨ha, ht, hn, by rw [hr]; rfl⟩⟩
  injection hr with hr
  exact ⟨⟨ha, ht⟩, hn, hr.symm⟩

theorem validateEntries_ok_iff (context : Nat → String) (entries : List MacroEntry) (start : Nat)
    (aliases : List (List Char)) :
    (∃ result, (entries.zipIdx start).foldlM (validateEntry context) aliases = .ok result) ↔
      (∀ entry ∈ entries, entry.Valid) ∧ (entries.map MacroEntry.key).Nodup ∧
        ∀ entry ∈ entries, entry.key ∉ aliases := by
  induction entries generalizing start aliases with
  | nil => exact ⟨fun _ => by simp, fun _ => ⟨aliases, rfl⟩⟩
  | cons entry entries ih =>
      have hstep : (∃ result, ((entry :: entries).zipIdx start).foldlM (validateEntry context)
            aliases = .ok result) ↔
          entry.Valid ∧ entry.key ∉ aliases ∧ ∃ result, (entries.zipIdx (start + 1)).foldlM
            (validateEntry context) (entry.key :: aliases) = .ok result := by
        rw [List.zipIdx_cons]
        refine ⟨fun ⟨result, h⟩ => ?_, fun ⟨hv, hn, result, h⟩ => ⟨result, ?_⟩⟩
        · obtain ⟨next, hn, h⟩ := ok_of_bind h
          obtain ⟨hv, hkey, rfl⟩ := (validateEntry_ok_iff _ _ _ _).mp hn
          exact ⟨hv, hkey, result, h⟩
        · exact bind_ok
            ((validateEntry_ok_iff _ _ _ _).mpr ⟨hv, hn, rfl⟩) h
      rw [hstep, ih, List.map_cons, List.nodup_cons, List.forall_mem_cons, List.forall_mem_cons]
      simp only [List.mem_cons, not_or]
      refine ⟨fun ⟨hv, hn, hvs, hnodup, hfree⟩ => ?_, fun ⟨⟨hv, hvs⟩, ⟨hkey, hnodup⟩, hn, hfree⟩ => ?_⟩
      · refine ⟨⟨hv, hvs⟩, ⟨fun hmem => ?_, hnodup⟩, hn, fun other hother => (hfree other hother).2⟩
        obtain ⟨other, hother, heq⟩ := List.mem_map.mp hmem
        exact (hfree other hother).1 heq
      · refine ⟨hv, hn, hvs, hnodup, fun other hother => ⟨fun heq => ?_, hfree other hother⟩⟩
        exact hkey (List.mem_map.mpr ⟨other, hother, heq⟩)

variable (s : State) (objects : World) (op : Operation)

theorem validateSet_ok_iff (numbered : MacroSet × Nat) :
    validateSet objects numbered = .ok () ↔ numbered.1.Valid objects := by
  have hentries := validateEntries_ok_iff
    (fun position => "macro set " ++ toString numbered.2 ++ ", entry " ++ toString position)
    numbered.1.entries 0 []
  simp only [List.not_mem_nil, not_false_iff, implies_true, and_true] at hentries
  unfold validateSet
  simp only [unit_bind_ok_iff, ensure_ok_iff, withContext_ok_iff]
  refine ⟨fun ⟨ho, hd, h⟩ => ?_, fun hv => ⟨hv.owner, hv.description, ?_⟩⟩
  · obtain ⟨result, hr, -⟩ := ok_of_bind h
    obtain ⟨hvalid, hnodup⟩ := hentries.mp ⟨result, hr⟩
    exact ⟨ho, hd, hvalid, hnodup⟩
  · obtain ⟨result, hr⟩ := hentries.mpr ⟨hv.entries, hv.aliases⟩
    exact bind_ok hr rfl

theorem validateSlots_ok_iff (count : Nat) (player : ObjectId × MacroSlots) :
    validateSlots objects count player = .ok () ↔
      (objects.get? player.1).isSome ∧ player.2.Valid count := by
  unfold validateSlots
  simp only [unit_bind_ok_iff, ensure_ok_iff, Option.all_eq_true]
  refine ⟨fun ⟨ho, hs, hc⟩ => ⟨ho, fun slot i hi => ?_, hc⟩, fun ⟨ho, hs, hc⟩ => ⟨ho, ?_, hc⟩⟩
  · have h := ok_of_forM hs slot (List.mem_finRange slot)
    rw [ensure_ok_iff, Option.all_eq_true] at h
    simpa using h i hi
  · refine forM_ok fun slot _ => ?_
    rw [ensure_ok_iff, Option.all_eq_true]
    exact fun i hi => decide_eq_true (hs slot i hi)

theorem PlayerMacros.validate_ok_iff (m : PlayerMacros) :
    m.validate objects = .ok () ↔ m.Valid objects := by
  unfold PlayerMacros.validate
  rw [unit_bind_ok_iff]
  refine ⟨fun ⟨hsets, hplayers⟩ => ?_, fun hv => ⟨?_, ?_⟩⟩
  · have hp : ∀ who player, m.players.get? who = some player →
        (objects.get? who).isSome ∧ player.Valid m.sets.length := by
      intro who player h
      have hmem := (m.players.get?_eq_some_iff who player).mp h
      exact (validateSlots_ok_iff objects _ _).mp (ok_of_forM hplayers _ hmem)
    refine ⟨fun set hset => ?_, fun who player h => (hp who player h).1,
      fun who player h => (hp who player h).2⟩
    obtain ⟨i, hi⟩ := List.mem_iff_getElem?.mp hset
    have hmem : (set, i) ∈ m.sets.zipIdx := List.mem_zipIdx_iff_getElem?.mpr hi
    exact (validateSet_ok_iff objects _).mp (ok_of_forM hsets _ hmem)
  · refine forM_ok fun numbered hmem => ?_
    exact (validateSet_ok_iff objects numbered).mpr
      (hv.sets _ (List.mem_of_getElem? (List.mem_zipIdx_iff_getElem?.mp hmem)))
  · refine forM_ok fun player hmem => ?_
    have h := (m.players.get?_eq_some_iff player.1 player.2).mpr hmem
    exact (validateSlots_ok_iff objects _ player).mpr
      ⟨hv.owners _ _ h, hv.players _ _ h⟩

inductive Operation where
  | create (owner : ObjectId) (description : List Char)
  | setOwner (id : MacroSetId) (owner : ObjectId)
  | define (id : MacroSetId) (name expansion : List Char) (update : Bool)
  | delete (id : MacroSetId) (name : List Char)
  | attach (player : ObjectId) (id : MacroSetId)
  | detach (player : ObjectId) (slot : Nat)
  | destroySet (id : MacroSetId)
  | purge (purged : Finset ObjectId)
  deriving DecidableEq

namespace State

def outcome {α : Type} (r : State × Except ServiceError α) : State × Option ServiceError :=
  match r.2 with
  | .ok _ => (r.1, none)
  | .error e => (r.1, some e)

def perform (s : State) : Operation → State × Option ServiceError
  | .create owner description => outcome (s.create owner description)
  | .setOwner id owner => outcome (s.setOwner id owner)
  | .define id name expansion update => outcome (s.define id name expansion update)
  | .delete id name => outcome (s.delete id name)
  | .attach player id => outcome (s.attach player id)
  | .detach player slot => outcome (s.detach player slot)
  | .destroySet id => outcome (s.destroySet id)
  | .purge purged => (s.purge purged, none)

def run (ops : List Operation) (s : State) : State := ops.foldl (fun s op => (s.perform op).1) s

end State

-- A change of a set that keeps its identity and its row, and uses no row of an entry again.
structure KeepsRows (f : MacroSet → MacroSet) : Prop where
  id : ∀ set, (f set).id = set.id
  origin : ∀ set, (f set).origin = set.origin
  entries : ∀ set, (stored (entryOrigins (f set))).Subperm (stored (entryOrigins set))

-- The changes that an operation can make, with what its checks have established.
inductive Step (s : State) : Operation → State → Prop where
  | created (owner : ObjectId) (description : List Char) (ho : (s.objects.get? owner).isSome)
      (hd : text description = .ok ()) :
      Step s (.create owner description)
        { s with
          macros := { s.macros with
            sets := s.macros.sets ++ [⟨s.nextSetId, .default, owner, 0, description, []⟩] }
          nextSetId := s.nextSetId + 1 }
  | modified (op : Operation) (i : Nat) (f : MacroSet → MacroSet) (hr : KeepsRows f)
      (hf : ∀ set, s.macros.sets[i]? = some set → set.Valid s.objects → (f set).Valid s.objects) :
      Step s op { s with macros := s.macros.modifySet i f }
  | attached (player : ObjectId) (id : MacroSetId) (i : Nat) (slot : Fin SLOT_COUNT)
      (slots : MacroSlots) (ho : (s.objects.get? player).isSome) (hi : s.macros.index id = .ok i)
      (hslots : slots = (s.macros.players.get? player).getD .default)
      (hfree : slots.slots slot = none) :
      Step s (.attach player id)
        { s with macros := { s.macros with
            players := s.macros.players.insert player
              ⟨slots.current, Function.update slots.slots slot (some i)⟩ } }
  | detached (player : ObjectId) (slot : Fin SLOT_COUNT) (slots : MacroSlots)
      (hslots : s.macros.players.get? player = some slots) :
      Step s (.detach player slot.val)
        { s with macros := { s.macros with
            players := s.macros.players.insert player (State.freed slot slots) } }
  | destroyed (id : MacroSetId) (i : Nat) (hi : s.macros.index id = .ok i) :
      Step s (.destroySet id) { s with macros := s.macros.remove i }
  | purged (purged : Finset ObjectId) : Step s (.purge purged) (s.purge purged)

-- An operation makes its change and reports success, or it leaves its error and nothing else.
inductive Performed (s : State) (op : Operation) : State × Option ServiceError → Prop where
  | done (after : State) (h : Step s op after) : Performed s op (after, none)
  | idle : Performed s op (s, none)
  | refused (e : ServiceError) : Performed s op (s, some e)

theorem performed_attempt {α β : Type} {s : State} {op : Operation} {x : Except ServiceError α}
    {rest : α → State × Except ServiceError β}
    (h : ∀ a, x = .ok a → Performed s op (State.outcome (rest a))) :
    Performed s op (State.outcome (s.attempt x rest)) := by
  cases hx : x with
  | ok a => exact h a hx
  | error e => exact .refused e

theorem ok_of_object {id : ObjectId} {player : Bool}
    (h : object objects id player = .ok ()) : (objects.get? id).isSome := by
  unfold object at h
  cases hget : objects.get? id with
  | some o => rfl
  | none =>
      rw [hget] at h
      contradiction

theorem ok_of_argument {x : Except Error Unit} (h : argument x = .ok ()) : x = .ok () := by
  cases x with
  | ok a => rfl
  | error e => contradiction

theorem ok_of_index {m : PlayerMacros} {id : MacroSetId} {i : Nat} (h : m.index id = .ok i) :
    ∃ set, m.sets[i]? = some set ∧ set.id = id := by
  unfold PlayerMacros.index at h
  cases hfind : m.sets.findIdx? (fun set => set.id = id) with
  | none =>
      rw [hfind] at h
      contradiction
  | some j =>
      rw [hfind] at h
      injection h with h
      subst h
      obtain ⟨hlt, hid, -⟩ := List.findIdx?_eq_some_iff_getElem.mp hfind
      exact ⟨m.sets[j], List.getElem?_eq_getElem hlt, of_decide_eq_true hid⟩

theorem findAlias_none {entries : List MacroEntry} {name : List Char}
    (h : findAlias entries name = none) : toAsciiLowercase name ∉ entries.map MacroEntry.key := by
  intro hmem
  obtain ⟨entry, hentry, hkey⟩ := List.mem_map.mp hmem
  have hdifferent := List.findIdx?_eq_none_iff.mp h entry hentry
  have hsame : eqIgnoreAsciiCase entry.alias' name = true := beq_iff_eq.mpr hkey
  rw [hsame] at hdifferent
  contradiction

namespace MacroSet.Valid

variable (objects : World) (set : MacroSet) (hv : set.Valid objects)

include hv

theorem setOwner {owner : ObjectId} (ho : (objects.get? owner).isSome) :
    MacroSet.Valid objects { set with owner := owner } :=
  ⟨ho, hv.description, hv.entries, hv.aliases⟩

theorem addEntry {name expansion : List Char} (ha : Macros.alias' name = .ok ())
    (ht : text expansion = .ok ()) (hfound : findAlias set.entries name = none) :
    (Macros.addEntry name expansion set).Valid objects := by
  have hperm : (Macros.addEntry name expansion set).entries.Perm
      (⟨.default, name, expansion⟩ :: set.entries) :=
    (List.perm_insertionSort _ _).trans List.perm_append_comm
  refine ⟨hv.owner, hv.description, fun entry hentry => ?_, ?_⟩
  · rcases List.mem_cons.mp (hperm.mem_iff.mp hentry) with rfl | hmem
    · exact ⟨ha, ht⟩
    · exact hv.entries entry hmem
  · have hnodup : ((⟨.default, name, expansion⟩ :: set.entries : List MacroEntry).map
        MacroEntry.key).Nodup := by
      rw [List.map_cons, List.nodup_cons]
      exact ⟨findAlias_none hfound, hv.aliases⟩
    exact (hperm.map MacroEntry.key).nodup_iff.mpr hnodup

theorem updateEntry (position : Nat) {expansion : List Char} (ht : text expansion = .ok ()) :
    (Macros.updateEntry position expansion set).Valid objects := by
  have hkeys : (Macros.updateEntry position expansion set).entries.map MacroEntry.key =
      set.entries.map MacroEntry.key := by
    show (set.entries.modify position _).map MacroEntry.key = _
    apply List.ext_getElem?
    intro i
    rw [List.getElem?_map, List.getElem?_map, List.getElem?_modify]
    split
    · cases set.entries[i]? <;> rfl
    · cases set.entries[i]? <;> rfl
  refine ⟨hv.owner, hv.description, fun entry hentry => ?_, hkeys ▸ hv.aliases⟩
  obtain ⟨i, hi⟩ := List.mem_iff_getElem?.mp hentry
  have hi' : (set.entries.modify position (fun e => { e with expansion := expansion }))[i]? =
      some entry := hi
  rw [List.getElem?_modify] at hi'
  obtain ⟨old, hold, rfl⟩ := Option.map_eq_some_iff.mp hi'
  have hvalid := hv.entries old (List.mem_of_getElem? hold)
  split
  · exact ⟨hvalid.alias', ht⟩
  · exact hvalid

theorem dropEntry (position : Nat) : (Macros.dropEntry position set).Valid objects := by
  have hsub : (Macros.dropEntry position set).entries.Sublist set.entries :=
    List.eraseIdx_sublist ..
  exact ⟨hv.owner, hv.description, fun entry hentry => hv.entries entry (hsub.subset hentry),
    hv.aliases.sublist (hsub.map _)⟩

end MacroSet.Valid

theorem keepsRows_setOwner (owner : ObjectId) :
    KeepsRows (fun set => { set with owner := owner }) :=
  ⟨fun _ => rfl, fun _ => rfl, fun _ => List.Subperm.refl _⟩

theorem keepsRows_addEntry (name expansion : List Char) : KeepsRows (addEntry name expansion) := by
  refine ⟨fun _ => rfl, fun _ => rfl, fun set => ?_⟩
  have hperm : (addEntry name expansion set).entries.Perm
      (⟨.default, name, expansion⟩ :: set.entries) :=
    (List.perm_insertionSort _ _).trans List.perm_append_comm
  exact ((hperm.map _).filter _).subperm

theorem keepsRows_updateEntry (position : Nat) (expansion : List Char) :
    KeepsRows (updateEntry position expansion) := by
  refine ⟨fun _ => rfl, fun _ => rfl, fun set => ?_⟩
  have hsame : entryOrigins (updateEntry position expansion set) = entryOrigins set := by
    apply List.ext_getElem?
    intro i
    show ((set.entries.modify position _).map _)[i]? = _
    rw [entryOrigins, List.getElem?_map, List.getElem?_map, List.getElem?_modify]
    split
    · cases set.entries[i]? <;> rfl
    · cases set.entries[i]? <;> rfl
  rw [hsame]

theorem keepsRows_dropEntry (position : Nat) : KeepsRows (dropEntry position) :=
  ⟨fun _ => rfl, fun _ => rfl,
    fun set => (((List.eraseIdx_sublist ..).map _).filter _ :
      (stored (entryOrigins (dropEntry position set))).Sublist _).subperm⟩

theorem performed_define (id : MacroSetId) (name expansion : List Char) (update : Bool) :
    Performed s (.define id name expansion update)
      (State.outcome (s.define id name expansion update)) := by
  refine performed_attempt fun i hi => performed_attempt fun _ ha => ?_
  have ha := ok_of_argument ha
  by_cases hspace : name.any isAsciiWhitespace
  · rw [if_pos hspace]
    exact .refused _
  rw [if_neg hspace]
  refine performed_attempt fun _ ht => ?_
  have ht := ok_of_argument ht
  by_cases hempty : expansion = []
  · rw [if_pos hempty]
    exact .refused _
  rw [if_neg hempty]
  obtain ⟨set, hset, -⟩ := ok_of_index hi
  rw [hset, Option.bind_some]
  cases update with
  | true =>
      rw [if_pos rfl]
      cases findAlias set.entries name with
      | none => exact .refused _
      | some position =>
          exact .done _ (.modified _ i _ (keepsRows_updateEntry position expansion)
            fun set _ hv => hv.updateEntry s.objects set position ht)
  | false =>
      rw [if_neg Bool.false_ne_true]
      cases hfound : findAlias set.entries name with
      | some position => exact .refused _
      | none =>
          refine .done _ (.modified _ i _ (keepsRows_addEntry name expansion)
            fun other hother hv => ?_)
          obtain rfl : set = other := Option.some.inj (hset.symm.trans hother)
          exact hv.addEntry s.objects set ha ht hfound

theorem performed_perform : Performed s op (s.perform op) := by
  cases op with
  | create owner description =>
      refine performed_attempt fun _ ho => performed_attempt fun _ hd => ?_
      exact .done _ (.created owner description (ok_of_object _ ho) (ok_of_argument hd))
  | setOwner id owner =>
      refine performed_attempt fun _ ho => performed_attempt fun i _ => ?_
      exact .done _ (.modified _ i _ (keepsRows_setOwner owner)
        fun set _ hv => hv.setOwner s.objects set (ok_of_object _ ho))
  | define id name expansion update => exact performed_define s id name expansion update
  | delete id name =>
      refine performed_attempt fun i _ => ?_
      cases s.macros.sets[i]?.bind (fun set => findAlias set.entries name) with
      | none => exact .refused _
      | some position =>
          exact .done _ (.modified _ i _ (keepsRows_dropEntry position)
            fun set _ hv => hv.dropEntry s.objects set position)
  | attach player id =>
      refine performed_attempt fun _ ho => performed_attempt fun i hi => ?_
      cases hfree : State.freeSlot ((s.macros.players.get? player).getD .default) with
      | none =>
          simp only [hfree]
          exact .refused _
      | some slot =>
          simp only [hfree]
          have hnone := List.find?_some hfree
          exact .done _ (.attached player id i slot _ (ok_of_object _ ho) hi rfl
            (of_decide_eq_true hnone))
  | detach player slot =>
      refine performed_attempt fun _ ho => ?_
      by_cases h : slot < SLOT_COUNT
      · rw [dif_pos h]
        cases hslots : s.macros.players.get? player with
        | none => exact .idle
        | some slots => exact .done _ (.detached player ⟨slot, h⟩ slots hslots)
      · rw [dif_neg h]
        exact .refused _
  | destroySet id =>
      refine performed_attempt fun i hi => ?_
      exact .done _ (.destroyed id i hi)
  | purge purged => exact .done _ (.purged purged)

-- An operation that fails leaves the state unchanged.
theorem perform_error (e : ServiceError) (h : (s.perform op).2 = some e) :
    (s.perform op).1 = s := by
  have hp := performed_perform s op
  generalize s.perform op = result at h hp
  cases hp with
  | done after hstep => contradiction
  | idle => rfl
  | refused e => rfl

theorem perform_step : (s.perform op).1 = s ∨ Step s op (s.perform op).1 := by
  have hp := performed_perform s op
  generalize s.perform op = result at hp
  cases hp with
  | done after hstep => exact Or.inr hstep
  | idle => exact Or.inl rfl
  | refused e => exact Or.inl rfl

end StompyMux.Macros
