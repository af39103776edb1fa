import StompyMux.World.Relationships

-- A rebuild threads every list anew, whatever the slots held.
namespace StompyMux.World

open Library Library.Chain

section

variable (w : World) (raw : Links)

theorem chain_fresh (exits : Bool) (next : Int) (seen : Finset ObjectId) :
    (chain w raw exits next seen).Nodup ∧ ∀ id ∈ chain w raw exits next seen, id ∉ seen := by
  fun_induction chain w raw exits next seen with
  | case1 => simp
  | case2 => simp
  | case3 => simp
  | case4 next seen _ hs o ho _ ih =>
      obtain ⟨hnodup, hfresh⟩ := ih
      constructor
      · apply List.nodup_cons.mpr
        exact ⟨fun hmem => hfresh next hmem (Finset.mem_insert_self _ _), hnodup⟩
      · intro id hid
        rcases List.mem_cons.mp hid with rfl | hid
        · exact hs
        · exact fun hseen => hfresh id hid (Finset.mem_insert_of_mem hseen)
  | case5 => simp

def sourceRewrites (entry : ObjectId × Object) : List Rewrite :=
  if entry.2.kind = .Exit then [⟨entry.1, true, entry.2.location.getD (-1), []⟩] else []

def listRewrites (entry : ObjectId × Object) : List Rewrite :=
  if entry.2.kind.holds then
    [false, true].map (fun exits => .ofList entry.1 exits (orderedMembers w raw entry.1 exits))
  else []

def rebuildBatch : List Rewrite :=
  w.entries.flatMap (fun entry => sourceRewrites entry ++ listRewrites w raw entry)

theorem rebuildObject_eq (links : Links) (entry : ObjectId × Object) :
    rebuildObject w raw links entry =
      Rewrite.applyAll links (sourceRewrites entry ++ listRewrites w raw entry) := by
  unfold rebuildObject sourceRewrites listRewrites
  cases entry.2.kind <;> rfl

theorem rebuildLinks_eq : rebuildLinks w raw = Rewrite.applyAll (emptyLinks w) (rebuildBatch w raw) := by
  have hfold : ∀ (entries : List (ObjectId × Object)) (links : Links),
      entries.foldl (rebuildObject w raw) links = Rewrite.applyAll links
        (entries.flatMap (fun entry => sourceRewrites entry ++ listRewrites w raw entry)) := by
    intro entries
    induction entries with
    | nil => exact fun links => rfl
    | cons entry entries ih =>
        intro links
        rw [List.foldl_cons, ih, rebuildObject_eq, List.flatMap_cons]
        exact (List.foldl_append ..).symm
  exact hfold w.entries (emptyLinks w)

theorem emptyLinks_slots (id : ObjectId) : (emptyLinks w).slots id = .EMPTY := by
  unfold Links.slots
  cases h : (emptyLinks w).get? id with
  | none => rfl
  | some slots =>
      have hentry := ((emptyLinks w).get?_eq_some_iff id slots).mp h
      obtain ⟨entry, -, heq⟩ := List.mem_map.mp hentry
      injection heq with hkey hslots
      rw [← hslots]
      rfl

theorem emptyLinks_row (id : ObjectId) : ((emptyLinks w).get? id).isSome ↔ (w.get? id).isSome := by
  have hkeys : (emptyLinks w).keys = w.keys := by
    unfold OrderedMap.keys emptyLinks
    rw [List.map_map]
    rfl
  rw [← OrderedMap.mem_keys_iff, ← OrderedMap.mem_keys_iff, hkeys]

theorem mem_rebuildBatch (r : Rewrite) :
    r ∈ rebuildBatch w raw ↔ ∃ o, w.get? r.container = some o ∧
      ((o.kind = .Exit ∧ r = ⟨r.container, true, o.location.getD (-1), []⟩) ∨
        (o.kind.holds ∧ r = .ofList r.container r.exits (orderedMembers w raw r.container r.exits))) := by
  unfold rebuildBatch
  rw [List.mem_flatMap]
  constructor
  · rintro ⟨⟨id, o⟩, hentry, hr⟩
    have ho := (w.get?_eq_some_iff id o).mpr hentry
    rcases List.mem_append.mp hr with hsource | hlist
    · unfold sourceRewrites at hsource
      split at hsource
      · rename_i hexit
        rw [List.mem_singleton] at hsource
        subst hsource
        exact ⟨o, ho, Or.inl ⟨hexit, rfl⟩⟩
      · contradiction
    · unfold listRewrites at hlist
      split at hlist
      · rename_i hholds
        obtain ⟨exits, -, rfl⟩ := List.mem_map.mp hlist
        exact ⟨o, ho, Or.inr ⟨hholds, rfl⟩⟩
      · contradiction
  · rintro ⟨o, ho, hr⟩
    refine ⟨(r.container, o), (w.get?_eq_some_iff _ o).mp ho, ?_⟩
    rw [List.mem_append]
    rcases hr with ⟨hexit, hsame⟩ | ⟨hholds, hsame⟩
    · left
      unfold sourceRewrites
      rw [if_pos hexit, List.mem_singleton]
      exact hsame
    · right
      unfold listRewrites
      rw [if_pos hholds, List.mem_map]
      refine ⟨r.exits, ?_, hsame.symm⟩
      cases r.exits <;> simp

theorem rebuildBatch_heads : (rebuildBatch w raw).Pairwise (fun a b => a.key ≠ b.key) := by
  have hkey : ∀ entry, ∀ r ∈ sourceRewrites entry ++ listRewrites w raw entry, r.container = entry.1 := by
    intro entry r hr
    unfold sourceRewrites listRewrites at hr
    cases hkind : entry.2.kind <;> simp [hkind, Kind.holds, Rewrite.ofList] at hr <;> grind
  unfold rebuildBatch
  rw [List.pairwise_flatMap]
  constructor
  · intro entry _
    unfold sourceRewrites listRewrites
    cases entry.2.kind <;> simp [Kind.holds, Rewrite.key, Rewrite.ofList]
  · apply w.sorted.imp
    intro a b hlt r hr s hs hsame
    injection hsame with hcontainer
    rw [hkey a r hr, hkey b s hs] at hcontainer
    exact ne_of_lt hlt hcontainer

variable (hw : Contained w)

include hw

variable (container : ObjectId) (exits : Bool)

theorem mem_orderedMembers (id : ObjectId) :
    id ∈ orderedMembers w raw container exits ↔ Member w container exits id := by
  unfold orderedMembers
  rw [mem_settle, relationMembers_eq w hw, mem_members w hw]

theorem orderedMembers_nodup : (orderedMembers w raw container exits).Nodup := by
  unfold orderedMembers
  rw [relationMembers_eq w hw]
  exact settle_nodup (chain_fresh w raw exits _ ∅).1 (members_nodup w container exits)

theorem rebuildBatch_member (r : Rewrite) (hr : r ∈ rebuildBatch w raw) (id : ObjectId)
    (hid : id ∈ r.order) : Member w r.container r.exits id := by
  obtain ⟨o, -, hkind⟩ := (mem_rebuildBatch w raw r).mp hr
  rcases hkind with ⟨-, hsame⟩ | ⟨-, hsame⟩
  · rw [hsame] at hid
    contradiction
  · rw [hsame] at hid
    exact (mem_orderedMembers w raw hw _ _ id).mp hid

theorem rebuildBatch_separate : Rewrite.Separate (rebuildBatch w raw) := by
  apply separate_of_members w _ (rebuildBatch_heads w raw)
  · intro r hr
    obtain ⟨o, -, hkind⟩ := (mem_rebuildBatch w raw r).mp hr
    rcases hkind with ⟨-, hsame⟩ | ⟨-, hsame⟩
    · rw [hsame]
      exact List.nodup_nil
    · rw [hsame]
      exact orderedMembers_nodup w raw hw _ _
  · exact rebuildBatch_member w raw hw

-- Every headed list holds its members: kept ones in their stored order, then the others.
theorem rebuildLinks_lists (h : Headed w container exits) :
    Lists w (rebuildLinks w raw) container exits (orderedMembers w raw container exits) := by
  refine ⟨?_, orderedMembers_nodup w raw hw container exits, mem_orderedMembers w raw hw container exits⟩
  obtain ⟨o, ho, hsource⟩ := h
  rw [rebuildLinks_eq]
  by_cases hholds : o.kind.holds
  · have hmem : Rewrite.ofList container exits (orderedMembers w raw container exits) ∈
        rebuildBatch w raw := (mem_rebuildBatch w raw _).mpr ⟨o, ho, Or.inr ⟨hholds, rfl⟩⟩
    obtain ⟨hhead, hchained⟩ :=
      Rewrite.applyAll_list (emptyLinks w) _ (rebuildBatch_separate w raw hw) hmem
    have hstart : (Rewrite.applyAll (emptyLinks w) (rebuildBatch w raw)).head container exits =
        (orderedMembers w raw container exits).headD (-1) := hhead
    rw [hstart]
    exact hchained
  · -- nothing is located in an object that holds nothing
    have hempty : orderedMembers w raw container exits = [] := by
      apply List.eq_nil_iff_forall_not_mem.mpr
      intro id hid
      obtain ⟨holder, hholder, hh⟩ :=
        Member.holder w hw ((mem_orderedMembers w raw hw container exits id).mp hid)
      rw [ho] at hholder
      injection hholder with hholder
      exact hholds (hholder ▸ hh)
    rw [hempty, Rewrite.head_applyAll_other]
    · unfold Links.head
      rw [emptyLinks_slots]
      cases exits <;> rfl
    · intro r hr hkey
      obtain ⟨same, hsame, hkind⟩ := (mem_rebuildBatch w raw r).mp hr
      injection hkey with hcontainer hexits
      rw [hcontainer, ho] at hsame
      injection hsame with hsame
      subst hsame
      rcases hkind with ⟨hexit, heq⟩ | ⟨hh, -⟩
      · rw [heq] at hexits
        exact hsource ⟨hexits.symm, hexit⟩
      · exact hholds hh

theorem rebuildLinks_wellFormed : WellFormed w (rebuildLinks w raw) where
  rows := by
    intro id
    rw [rebuildLinks_eq, Rewrite.row_applyAll, emptyLinks_row]
    constructor
    · rintro (⟨r, hr, hid | rfl⟩ | hrow)
      · obtain ⟨o, ho, -, -⟩ := rebuildBatch_member w raw hw r hr id hid
        rw [ho]
        rfl
      · obtain ⟨o, ho, -⟩ := (mem_rebuildBatch w raw r).mp hr
        rw [ho]
        rfl
      · exact hrow
    · exact Or.inr
  listed := fun container exits h => ⟨_, rebuildLinks_lists w raw hw container exits h⟩
  loose := by
    intro id o ho hl
    rw [rebuildLinks_eq, Rewrite.next_applyAll_other]
    · unfold Links.next
      rw [emptyLinks_slots]
      rfl
    · intro r hr hid
      obtain ⟨same, hsame, hlocation, -⟩ := rebuildBatch_member w raw hw r hr id hid
      rw [ho] at hsame
      injection hsame with hsame
      rw [← hsame, hl] at hlocation
      contradiction

-- Slots that chain the same lists are the same, an exit's source apart.
theorem slots_agree {a b : Links} (order : ObjectId → Bool → List ObjectId) (hwa : WellFormed w a)
    (hwb : WellFormed w b)
    (hla : ∀ container exits, Headed w container exits → Lists w a container exits (order container exits))
    (hlb : ∀ container exits, Headed w container exits → Lists w b container exits (order container exits))
    {id : ObjectId} {o : Object} (ho : w.get? id = some o) :
    (a.slots id).contents = (b.slots id).contents ∧ (a.slots id).next = (b.slots id).next ∧
      (o.kind ≠ .Exit → (a.slots id).exits = (b.slots id).exits) := by
  have hheads : ∀ exits, Headed w id exits → a.head id exits = b.head id exits := by
    intro exits h
    rw [(hla id exits h).chained.pointer, (hlb id exits h).chained.pointer]
  refine ⟨?_, ?_, ?_⟩
  · exact hheads false ⟨o, ho, by simp⟩
  · cases hl : o.location with
    | none => exact (hwa.loose id o ho hl).trans (hwb.loose id o ho hl).symm
    | some container =>
        obtain ⟨⟨exits, hlisted⟩, holder, hholder, hholds⟩ := hw.located id o container ho hl
        have hheaded : Headed w container exits := by
          refine ⟨holder, hholder, ?_⟩
          rintro ⟨-, hexit⟩
          rw [hexit] at hholds
          contradiction
        have hmem : id ∈ order container exits :=
          ((hla container exits hheaded).member id).mpr ⟨o, ho, hl, hlisted⟩
        exact (hla container exits hheaded).chained.agree _ _ _ _ _ _
          (hlb container exits hheaded).chained id hmem
  · exact fun hkind => hheads true ⟨o, ho, fun h => hkind h.2⟩

end

-- What a save leaves in the slots.
structure Relinks (before after : World) (raw links : Links) : Prop where
  wellFormed : WellFormed after links
  ordered : ∀ container exits old new, Headed after container exits →
    Lists before raw container exits old → Lists after links container exits new →
      new = old.filter (fun id => id ∈ members after container exits) ++
        (members after container exits).filter (fun id => id ∉ old)
  untouched : ∀ container exits, Headed after container exits →
    (∀ id, Member before container exits id ↔ Member after container exits id) →
      links.head container exits = raw.head container exits ∧
        ∀ id, Member after container exits id → links.next id = raw.next id
  rebuilt : ∀ id o, after.get? id = some o → ∃ slots full, links.get? id = some slots ∧
    (rebuildLinks after raw).get? id = some full ∧ slots.contents = full.contents ∧
      slots.next = full.next ∧ (o.kind ≠ .Exit → slots.exits = full.exits)

theorem WellFormed.row (w : World) (links : Links) (h : WellFormed w links) (id : ObjectId)
    (o : Object) (ho : w.get? id = some o) : links.get? id = some (links.slots id) := by
  obtain ⟨slots, hslots⟩ := Option.isSome_iff_exists.mp ((h.rows id).mpr (by rw [ho]; rfl))
  unfold Links.slots
  rw [hslots, Option.getD_some]

theorem Lists.sentinel {w : World} {links : Links} {container : ObjectId} {exits : Bool}
    {order : List ObjectId} (hw : Contained w) (h : Lists w links container exits order) :
    (-1) ∉ order := by
  intro hmem
  have hdbref := Member.dbref w hw container exits (-1) ((h.member (-1)).mp hmem)
  exact absurd hdbref (by decide)

theorem relationships_relinks (before after : World) (raw : Links) (hb : Contained before)
    (ha : Contained after) (hkeep : Keeps before after) (hraw : WellFormed before raw) :
    ∃ links, relationships before after raw = .ok links ∧ Relinks before after raw links := by
  -- one stored order for each list
  have hexists : ∀ key : ObjectId × Bool, ∃ order, Headed after key.1 key.2 →
      Lists before raw key.1 key.2 order := by
    intro key
    by_cases h : Headed after key.1 key.2
    · obtain ⟨order, horder⟩ := stored_exists before after hb hkeep raw hraw key.1 key.2 h
      exact ⟨order, fun _ => horder⟩
    · exact ⟨[], fun hheaded => absurd hheaded h⟩
  choose order horder using hexists
  have hstored : ∀ container exits, Headed after container exits →
      Lists before raw container exits (order (container, exits)) :=
    fun container exits => horder (container, exits)
  let stored : ObjectId → Bool → List ObjectId := fun container exits => order (container, exits)
  have hlists := relinked_lists before after raw hb ha hkeep stored hstored
  have hformed := relinked_wellFormed before after raw hb ha hkeep hraw stored hstored
  refine ⟨_, relationships_eq before after raw hb ha hkeep hraw stored hstored, hformed, ?_, ?_, ?_⟩
  · intro container exits old new hheaded hold hnew
    have hsame := hlists container exits hheaded
    have hs := hstored container exits hheaded
    have hnow : new = settled after stored container exits :=
      hnew.chained.unique _ _ _ _ _ hsame.chained (hnew.sentinel ha)
        (hsame.sentinel ha)
    have hthen : old = stored container exits :=
      hold.chained.unique _ _ _ _ _ hs.chained (hold.sentinel hb)
        (hs.sentinel hb)
    rw [hnow, hthen]
    exact settle_eq _ _
  · intro container exits _ hmembers
    exact relinked_unchanged before after raw hb ha stored
      (unchanged_of_members before after hb ha hkeep container exits hmembers)
  · intro id o ho
    have hfull := rebuildLinks_wellFormed after raw ha
    have hrebuilt : ∀ container exits, Headed after container exits →
        Lists after (rebuildLinks after raw) container exits (settled after stored container exits) := by
      intro container exits hheaded
      have heq := orderedMembers_eq before after hb ha hkeep raw container exits _
        (hstored container exits hheaded)
      have hlist := rebuildLinks_lists after raw ha container exits hheaded
      rwa [heq] at hlist
    have hagree := slots_agree after ha (settled after stored) hformed hfull hlists hrebuilt ho
    exact ⟨_, _, hformed.row _ _ id o ho, hfull.row _ _ id o ho, hagree⟩

-- Two rooms. A thing leaves the first for the second, and a new one arrives in the first.
def sceneAt (crate : ObjectId) : World where
  entries := [(0, ⟨0, .Room, none, ∅⟩), (1, ⟨0, .Room, none, ∅⟩), (2, ⟨0, .Player, some 0, ∅⟩),
    (3, ⟨0, .Thing, some crate, ∅⟩), (4, ⟨0, .Exit, some 0, ∅⟩)]
  sorted := by simp

def sceneAfter : World := (sceneAt 1).insert 5 ⟨0, .Thing, some 0, ∅⟩

theorem contained_of_entries (w : World) (h : ∀ entry ∈ w.entries, 0 ≤ entry.1 ∧
    ∀ container ∈ entry.2.location, (entry.2.kind.listed false ∨ entry.2.kind.listed true) ∧
      (w.get? container).any (fun holder => holder.kind.holds)) : Contained w where
  dbrefs := fun id o ho => (h (id, o) ((w.get?_eq_some_iff id o).mp ho)).1
  located := by
    intro id o container ho hl
    obtain ⟨hkind, hholder⟩ := (h (id, o) ((w.get?_eq_some_iff id o).mp ho)).2 container hl
    obtain ⟨holder, hget, hholds⟩ := (Option.any_eq_true _ _).mp hholder
    refine ⟨?_, holder, hget, hholds⟩
    rcases hkind with hcontents | hexits
    · exact ⟨false, hcontents⟩
    · exact ⟨true, hexits⟩

theorem sceneAt_contained {crate : ObjectId} (h : crate = 0 ∨ crate = 1) : Contained (sceneAt crate) := by
  apply contained_of_entries
  rcases h with rfl | rfl <;> decide

theorem sceneAfter_contained : Contained sceneAfter := by
  apply contained_of_entries
  decide

theorem sceneAfter_keeps : Keeps (sceneAt 0) sceneAfter := by
  intro id old hold
  have hentry := ((sceneAt 0).get?_eq_some_iff id old).mp hold
  simp only [sceneAt, List.mem_cons, Prod.mk.injEq, List.not_mem_nil, or_false] at hentry
  rcases hentry with ⟨rfl, rfl⟩ | ⟨rfl, rfl⟩ | ⟨rfl, rfl⟩ | ⟨rfl, rfl⟩ | ⟨rfl, rfl⟩
  · exact ⟨⟨0, .Room, none, ∅⟩, rfl, rfl⟩
  · exact ⟨⟨0, .Room, none, ∅⟩, rfl, rfl⟩
  · exact ⟨⟨0, .Player, some 0, ∅⟩, rfl, rfl⟩
  · exact ⟨⟨0, .Thing, some 1, ∅⟩, rfl, rfl⟩
  · exact ⟨⟨0, .Exit, some 0, ∅⟩, rfl, rfl⟩

theorem relationships_relinks_scene : ∃ links,
    relationships (sceneAt 0) sceneAfter (rebuildLinks (sceneAt 0) OrderedMap.empty) = .ok links ∧
      Relinks (sceneAt 0) sceneAfter (rebuildLinks (sceneAt 0) OrderedMap.empty) links :=
  relationships_relinks (sceneAt 0) sceneAfter (rebuildLinks (sceneAt 0) OrderedMap.empty)
    (sceneAt_contained (Or.inl rfl)) sceneAfter_contained sceneAfter_keeps
    (rebuildLinks_wellFormed (sceneAt 0) OrderedMap.empty (sceneAt_contained (Or.inl rfl)))

end StompyMux.World
