import StompyMux.World.Lists

-- A save relinks exactly the lists whose membership changed.
namespace StompyMux.World

open Library Library.Chain

-- The list an object's location and kind put it on.
def listOf (o : Object) : Option (ObjectId ×ₗ Bool) :=
  o.location.map (fun container => toLex (container, (o.kind = .Exit : Bool)))

theorem mem_touch (o : Object) (affected : Affected) (key : ObjectId ×ₗ Bool) :
    key ∈ (touch o affected).keys ↔ listOf o = some key ∨ key ∈ affected.keys := by
  unfold touch listOf
  cases o.location with
  | none => simp
  | some container =>
      rw [OrderedMap.mem_keys_insert, Option.map_some, Option.some.injEq, eq_comm]

section

variable (before : World)

-- An object that left one list or joined another asks for the list.
def Asks (id : ObjectId) (o : Object) (key : ObjectId ×ₗ Bool) : Prop :=
  unmoved before id o = false ∧
    (listOf o = some key ∨ ∃ old, before.get? id = some old ∧ listOf old = some key)

theorem noteMove_unmoved (state : Links × Affected) {entry : ObjectId × Object}
    (h : unmoved before entry.1 entry.2 = true) : noteMove before state entry = state := by
  unfold noteMove
  rw [if_pos h]

theorem noteMove_links (state : Links × Affected) {entry : ObjectId × Object}
    (h : unmoved before entry.1 entry.2 = false) :
    (noteMove before state entry).1 = state.1.write entry.1 (LinkSlots.setNext (-1)) := by
  unfold noteMove
  rw [if_neg (by simp [h])]

theorem mem_noteMove (state : Links × Affected) (entry : ObjectId × Object)
    (key : ObjectId ×ₗ Bool) :
    key ∈ (noteMove before state entry).2.keys ↔
      Asks before entry.1 entry.2 key ∨ key ∈ state.2.keys := by
  unfold Asks
  by_cases h : unmoved before entry.1 entry.2 = true
  · rw [noteMove_unmoved before state h]
    simp [h]
  · unfold noteMove
    rw [if_neg h, mem_touch]
    cases hold : before.get? entry.1 with
    | none => simp [h]
    | some old =>
        rw [mem_touch, ← or_assoc]
        simp [h]

variable (entries : List (ObjectId × Object)) (state : Links × Affected)

theorem head_noteAll (container : ObjectId) (exits : Bool) :
    (entries.foldl (noteMove before) state).1.head container exits =
      state.1.head container exits := by
  induction entries generalizing state with
  | nil => rfl
  | cons entry entries ih =>
      rw [List.foldl_cons, ih]
      by_cases h : unmoved before entry.1 entry.2 = true
      · rw [noteMove_unmoved before state h]
      · rw [noteMove_links before state (by simpa using h), Links.head_writeNext]

theorem next_noteAll_kept (id : ObjectId)
    (h : ∀ entry ∈ entries, entry.1 = id → unmoved before entry.1 entry.2 = true) :
    (entries.foldl (noteMove before) state).1.next id = state.1.next id := by
  induction entries generalizing state with
  | nil => rfl
  | cons entry entries ih =>
      rw [List.foldl_cons, ih _ (fun other hother => h other (List.mem_cons_of_mem _ hother))]
      by_cases hentry : unmoved before entry.1 entry.2 = true
      · rw [noteMove_unmoved before state hentry]
      · have hne : id ≠ entry.1 := fun hid => hentry (h entry List.mem_cons_self hid.symm)
        rw [noteMove_links before state (by simpa using hentry), Links.next_writeNext,
          Function.update_of_ne hne]

theorem next_noteAll_moved {entry : ObjectId × Object} (he : entry ∈ entries)
    (h : unmoved before entry.1 entry.2 = false) :
    (entries.foldl (noteMove before) state).1.next entry.1 = -1 := by
  -- once reset, the slot stays so
  have hstays : ∀ (entries : List (ObjectId × Object)) (state : Links × Affected),
      state.1.next entry.1 = -1 → (entries.foldl (noteMove before) state).1.next entry.1 = -1 := by
    intro entries
    induction entries with
    | nil => exact fun state hreset => hreset
    | cons other entries ih =>
        intro state hreset
        apply ih
        by_cases hother : unmoved before other.1 other.2 = true
        · rwa [noteMove_unmoved before state hother]
        · rw [noteMove_links before state (by simpa using hother), Links.next_writeNext]
          by_cases hsame : entry.1 = other.1
          · rw [hsame, Function.update_self]
          · rwa [Function.update_of_ne hsame]
  induction entries generalizing state with
  | nil => contradiction
  | cons other entries ih =>
      rw [List.foldl_cons]
      rcases List.mem_cons.mp he with rfl | hlater
      · apply hstays
        rw [noteMove_links before state h, Links.next_writeNext, Function.update_self]
      · exact ih _ hlater

theorem row_noteAll (id : ObjectId) :
    ((entries.foldl (noteMove before) state).1.get? id).isSome ↔
      (∃ entry ∈ entries, entry.1 = id ∧ unmoved before entry.1 entry.2 = false) ∨
        (state.1.get? id).isSome := by
  induction entries generalizing state with
  | nil => simp
  | cons entry entries ih =>
      rw [List.foldl_cons, ih]
      simp only [List.mem_cons, exists_eq_or_imp]
      by_cases h : unmoved before entry.1 entry.2 = true
      · rw [noteMove_unmoved before state h]
        simp [h]
      · rw [noteMove_links before state (by simpa using h), Links.row_write]
        have hmoved : unmoved before entry.1 entry.2 = false := by simpa using h
        simp only [hmoved, and_true]
        rw [← or_assoc, or_comm (a := ∃ _, _), eq_comm]

theorem mem_noteAll (key : ObjectId ×ₗ Bool) :
    key ∈ (entries.foldl (noteMove before) state).2.keys ↔
      (∃ entry ∈ entries, Asks before entry.1 entry.2 key) ∨ key ∈ state.2.keys := by
  induction entries generalizing state with
  | nil => simp
  | cons entry entries ih =>
      rw [List.foldl_cons, ih, mem_noteMove]
      simp only [List.mem_cons, exists_eq_or_imp]
      rw [← or_assoc, or_comm (a := ∃ _, _)]

end

section

variable (before after : World)

def Changed (container : ObjectId) (exits : Bool) : Prop :=
  ∃ entry ∈ after.entries, Asks before entry.1 entry.2 (toLex (container, exits))

theorem listOf_eq (o : Object) (container : ObjectId) (exits : Bool) :
    listOf o = some (toLex (container, exits)) ↔
      o.location = some container ∧ (o.kind = .Exit : Bool) = exits := by
  unfold listOf
  cases o.location with
  | none => simp
  | some location => simp

theorem unmoved_iff (id : ObjectId) (o : Object) :
    unmoved before id o = true ↔
      ∃ old, before.get? id = some old ∧ old.kind = o.kind ∧ old.location = o.location := by
  unfold unmoved
  cases before.get? id with
  | none => simp
  | some old => simp

variable (hb : Contained before) (ha : Contained after) (hkeep : Keeps before after)

include hb ha hkeep

theorem Changed.headed {container : ObjectId} {exits : Bool} (h : Changed before after container exits) :
    Headed after container exits := by
  have hholder : ∃ holder, after.get? container = some holder ∧ holder.kind.holds := by
    obtain ⟨entry, hentry, -, hlist⟩ := h
    rcases hlist with hlist | ⟨old, hold, hlist⟩
    · have ho := (after.get?_eq_some_iff entry.1 entry.2).mpr hentry
      have hlocation := ((listOf_eq entry.2 container exits).mp hlist).1
      exact (ha.located entry.1 entry.2 container ho hlocation).2
    · have hlocation := ((listOf_eq old container exits).mp hlist).1
      obtain ⟨holder, hholder, hholds⟩ := (hb.located entry.1 old container hold hlocation).2
      obtain ⟨kept, hkept, hkind⟩ := hkeep container holder hholder
      exact ⟨kept, hkept, hkind ▸ hholds⟩
  obtain ⟨holder, hholder, hholds⟩ := hholder
  refine ⟨holder, hholder, ?_⟩
  rintro ⟨-, hexit⟩
  rw [hexit] at hholds
  contradiction

omit hkeep in
theorem unmoved_of_unchanged {container : ObjectId} {exits : Bool}
    (h : ¬ Changed before after container exits) {id : ObjectId} {o : Object}
    (ho : after.get? id = some o) (hm : Member before container exits id ∨ Member after container exits id) :
    unmoved before id o = true := by
  by_contra hmoved
  have hentry := (after.get?_eq_some_iff id o).mp ho
  apply h
  refine ⟨(id, o), hentry, by simpa using hmoved, ?_⟩
  rcases hm with ⟨old, hold, hlocation, hlisted⟩ | ⟨same, hsame, hlocation, hlisted⟩
  · have hkind := (listed_iff before hb id exits hold hlocation).mp hlisted
    exact Or.inr ⟨old, hold, (listOf_eq old container exits).mpr ⟨hlocation, hkind⟩⟩
  · have hkind := (listed_iff after ha id exits hsame hlocation).mp hlisted
    rw [ho] at hsame
    injection hsame with hsame
    subst hsame
    exact Or.inl ((listOf_eq o container exits).mpr ⟨hlocation, hkind⟩)

theorem members_unchanged {container : ObjectId} {exits : Bool}
    (h : ¬ Changed before after container exits) (id : ObjectId) :
    Member before container exits id ↔ Member after container exits id := by
  constructor
  · intro hm
    obtain ⟨old, hold, hlocation, hlisted⟩ := hm
    obtain ⟨o, ho, hkind⟩ := hkeep id old hold
    have hstayed := unmoved_of_unchanged before after hb ha h ho
      (Or.inl ⟨old, hold, hlocation, hlisted⟩)
    obtain ⟨same, hsame, -, hsource⟩ := (unmoved_iff before id o).mp hstayed
    rw [hold] at hsame
    injection hsame with hsame
    subst hsame
    exact ⟨o, ho, hsource ▸ hlocation, hkind ▸ hlisted⟩
  · intro hm
    obtain ⟨o, ho, hlocation, hlisted⟩ := hm
    have hstayed := unmoved_of_unchanged before after hb ha h ho
      (Or.inr ⟨o, ho, hlocation, hlisted⟩)
    obtain ⟨old, hold, hkind, hsource⟩ := (unmoved_iff before id o).mp hstayed
    exact ⟨old, hold, hsource ▸ hlocation, hkind ▸ hlisted⟩

variable (raw : Links) (hraw : WellFormed before raw)

include hraw

variable (container : ObjectId) (exits : Bool)

omit ha in
-- What the database stores of a list that the world after has a head for.
theorem stored_exists (h : Headed after container exits) :
    ∃ order, Lists before raw container exits order := by
  cases hholder : before.get? container with
  | some holder =>
      obtain ⟨o, ho, hhead⟩ := h
      obtain ⟨kept, hkept, hkind⟩ := hkeep container holder hholder
      rw [ho] at hkept
      injection hkept with hkept
      subst hkept
      exact hraw.listed container exits ⟨holder, hholder, hkind ▸ hhead⟩
  | none =>
      -- a new container has no row, and nothing was in it
      have hrow : raw.get? container = none := by
        rw [← Option.not_isSome_iff_eq_none, hraw.rows container, hholder]
        simp
      have hempty : raw.head container exits = -1 := by
        unfold Links.head Links.slots
        rw [hrow]
        cases exits <;> rfl
      refine ⟨[], hempty, List.nodup_nil, ?_⟩
      intro id
      refine ⟨fun hid => absurd hid List.not_mem_nil, fun hm => ?_⟩
      obtain ⟨holder, hthere, -⟩ := Member.holder before hb hm
      rw [hholder] at hthere
      contradiction

omit ha hkeep in
theorem relist_eq (order : List ObjectId)
    (h : Lists before raw container exits order) (links : Links) :
    relist before raw container exits after links =
      .ok (links.writeList container exits (settle order (members after container exits))) := by
  have hwalk : walk before raw container exits (raw.head container exits) ∅ = .ok order := by
    apply walk_eq before raw exits container _ order ∅ h.chained h.nodup
    · exact fun id _ => Finset.notMem_empty id
    · intro id hid
      have hm := (h.member id).mp hid
      obtain ⟨o, ho, hlocation, hlisted⟩ := hm
      have hkind := (listed_iff before hb id exits ho hlocation).mp hlisted
      have hrow := (hraw.rows id).mpr (by rw [ho]; rfl)
      exact ⟨hb.dbrefs id o ho, ⟨o, ho, hlocation, hkind⟩, hrow⟩
  have hall : order.toFinset = (members before container exits).toFinset := by
    ext id
    rw [List.mem_toFinset, List.mem_toFinset, h.member, mem_members before hb]
  unfold relist
  rw [hwalk]
  dsimp only
  rw [if_neg (not_not.mpr hall)]

omit hraw in
theorem orderedMembers_eq (order : List ObjectId) (h : Lists before raw container exits order) :
    orderedMembers after raw container exits = settle order (members after container exits) := by
  have hchain : chain after raw exits (raw.head container exits) ∅ = order := by
    apply chain_eq after raw exits _ order ∅ h.chained h.nodup
    · exact fun id _ => Finset.notMem_empty id
    · exact fun id hid => Member.dbref before hb container exits id ((h.member id).mp hid)
    · intro id hid
      obtain ⟨old, hold, -, hlisted⟩ := (h.member id).mp hid
      obtain ⟨o, ho, hkind⟩ := hkeep id old hold
      exact ⟨o, ho, hkind ▸ hlisted⟩
  unfold orderedMembers
  rw [hchain, relationMembers_eq after ha]

omit hraw in
-- A list with the same members before and after asks for nothing.
theorem unchanged_of_members
    (h : ∀ id, Member before container exits id ↔ Member after container exits id) :
    ¬ Changed before after container exits := by
  rintro ⟨⟨id, o⟩, hentry, hmoved, hlist⟩
  have ho := (after.get?_eq_some_iff id o).mpr hentry
  have hboth : Member before container exits id ∧ Member after container exits id := by
    rcases hlist with hlist | ⟨old, hold, hlist⟩
    · obtain ⟨hlocation, hkind⟩ := (listOf_eq o container exits).mp hlist
      have hm : Member after container exits id :=
        ⟨o, ho, hlocation, (listed_iff after ha id exits ho hlocation).mpr hkind⟩
      exact ⟨(h id).mpr hm, hm⟩
    · obtain ⟨hlocation, hkind⟩ := (listOf_eq old container exits).mp hlist
      have hm : Member before container exits id :=
        ⟨old, hold, hlocation, (listed_iff before hb id exits hold hlocation).mpr hkind⟩
      exact ⟨hm, (h id).mp hm⟩
  obtain ⟨⟨old, hold, hlocation, -⟩, ⟨same, hsame, hstays, -⟩⟩ := hboth
  rw [ho] at hsame
  injection hsame with hsame
  subst hsame
  obtain ⟨kept, hkept, hkind⟩ := hkeep id old hold
  rw [ho] at hkept
  injection hkept with hkept
  subst hkept
  have hunmoved := (unmoved_iff before id o).mpr ⟨old, hold, hkind.symm, hlocation.trans hstays.symm⟩
  rw [hunmoved] at hmoved
  contradiction

end

theorem separate_of_members (w : World) (batch : List Rewrite)
    (hheads : batch.Pairwise (fun a b => a.key ≠ b.key)) (hn : ∀ r ∈ batch, r.order.Nodup)
    (hm : ∀ r ∈ batch, ∀ id ∈ r.order, Member w r.container r.exits id) :
    Rewrite.Separate batch where
  heads := hheads
  orders := by
    apply hheads.imp_of_mem
    intro a b hmema hmemb hne id hida hidb
    exact hne (member_unique w (hm a hmema id hida) (hm b hmemb id hidb))
  nodup := hn

def noted (before after : World) (raw : Links) : Links × Affected :=
  after.entries.foldl (noteMove before) (raw, OrderedMap.empty)

def batchOf (keys : List (ObjectId ×ₗ Bool)) (order : ObjectId → Bool → List ObjectId) :
    List Rewrite :=
  keys.map (fun key => Rewrite.ofList (ofLex key).1 (ofLex key).2 (order (ofLex key).1 (ofLex key).2))

-- What a list becomes.
def settled (after : World) (stored : ObjectId → Bool → List ObjectId) (container : ObjectId)
    (exits : Bool) : List ObjectId :=
  settle (stored container exits) (members after container exits)

def relinked (before after : World) (raw : Links) (stored : ObjectId → Bool → List ObjectId) : Links :=
  Rewrite.applyAll (noted before after raw).1
    (batchOf (noted before after raw).2.keys (settled after stored))

section

variable (before after : World) (raw : Links)

theorem mem_noted (container : ObjectId) (exits : Bool) :
    toLex (container, exits) ∈ (noted before after raw).2.keys ↔
      Changed before after container exits := by
  unfold noted Changed
  rw [mem_noteAll]
  simp [OrderedMap.empty, OrderedMap.keys]

theorem mem_batchOf (order : ObjectId → Bool → List ObjectId) (r : Rewrite) :
    r ∈ batchOf (noted before after raw).2.keys order ↔
      Changed before after r.container r.exits ∧ r = .ofList r.container r.exits (order r.container r.exits) := by
  unfold batchOf
  rw [List.mem_map]
  constructor
  · rintro ⟨key, hkey, rfl⟩
    exact ⟨(mem_noted before after raw _ _).mp hkey, rfl⟩
  · rintro ⟨hchanged, hr⟩
    exact ⟨_, (mem_noted before after raw _ _).mpr hchanged, hr.symm⟩

variable (hb : Contained before) (ha : Contained after) (hkeep : Keeps before after)
  (hraw : WellFormed before raw) (stored : ObjectId → Bool → List ObjectId)
  (hstored : ∀ container exits, Headed after container exits →
    Lists before raw container exits (stored container exits))

section

include ha

theorem mem_settled (container : ObjectId) (exits : Bool) (id : ObjectId) :
    id ∈ settled after stored container exits ↔ Member after container exits id := by
  unfold settled
  rw [mem_settle, mem_members after ha]

theorem batchOf_other (container : ObjectId) (exits : Bool) (id : ObjectId)
    (h : ¬ Changed before after container exits) (hm : Member after container exits id) :
    ∀ r ∈ batchOf (noted before after raw).2.keys (settled after stored), id ∉ r.order := by
  intro r hr hid
  obtain ⟨hchanged, hsame⟩ := (mem_batchOf before after raw _ r).mp hr
  rw [hsame] at hid
  have hother := (mem_settled after ha stored r.container r.exits id).mp hid
  have hkey := member_unique after hm hother
  injection hkey with hcontainer hexits
  rw [hcontainer, hexits] at h
  exact h hchanged

end

include hb ha hkeep hraw hstored

theorem relationships_eq : relationships before after raw = .ok (relinked before after raw stored) := by
  have hfold : ∀ (keys : List (ObjectId ×ₗ Bool)) (links : Links),
      (∀ key ∈ keys, Headed after (ofLex key).1 (ofLex key).2) →
        keys.foldlM (fun links key => relist before raw (ofLex key).1 (ofLex key).2 after links) links =
          .ok (Rewrite.applyAll links (batchOf keys (settled after stored))) := by
    intro keys
    induction keys with
    | nil => exact fun links _ => rfl
    | cons key keys ih =>
        intro links hkeys
        have hlist := hstored _ _ (hkeys key List.mem_cons_self)
        rw [List.foldlM_cons, relist_eq before after hb raw hraw _ _ _ hlist links]
        exact ih _ (fun other hother => hkeys other (List.mem_cons_of_mem _ hother))
  apply hfold
  intro key hkey
  exact ((mem_noted before after raw _ _).mp hkey).headed before after hb ha hkeep

omit hraw in
theorem batchOf_separate :
    Rewrite.Separate (batchOf (noted before after raw).2.keys (settled after stored)) := by
  apply separate_of_members after
  · unfold batchOf
    rw [List.pairwise_map]
    refine (noted before after raw).2.keys_nodup.imp ?_
    intro a b hne hkey
    exact hne (congrArg toLex hkey)
  · intro r hr
    obtain ⟨hchanged, hsame⟩ := (mem_batchOf before after raw _ r).mp hr
    have hlist := hstored _ _ (hchanged.headed before after hb ha hkeep)
    rw [hsame]
    exact settle_nodup hlist.nodup (members_nodup after _ _)
  · intro r hr id hid
    obtain ⟨-, hsame⟩ := (mem_batchOf before after raw _ r).mp hr
    rw [hsame] at hid
    exact (mem_settled after ha stored _ _ id).mp hid

omit hkeep hraw hstored in
-- The slots of a list that nothing left or joined.
theorem relinked_unchanged {container : ObjectId} {exits : Bool}
    (h : ¬ Changed before after container exits) :
    (relinked before after raw stored).head container exits = raw.head container exits ∧
      ∀ id, Member after container exits id →
        (relinked before after raw stored).next id = raw.next id := by
  unfold relinked
  constructor
  · rw [Rewrite.head_applyAll_other]
    · exact head_noteAll before after.entries _ container exits
    · intro r hr hkey
      obtain ⟨hchanged, -⟩ := (mem_batchOf before after raw _ r).mp hr
      injection hkey with hcontainer hexits
      rw [hcontainer, hexits] at hchanged
      exact h hchanged
  · intro id hm
    rw [Rewrite.next_applyAll_other _ _ id (batchOf_other before after raw ha stored container exits
      id h hm)]
    apply next_noteAll_kept
    rintro ⟨j, o⟩ hentry rfl
    have ho := (after.get?_eq_some_iff j o).mpr hentry
    exact unmoved_of_unchanged before after hb ha h ho (Or.inr hm)

omit hraw in
theorem relinked_lists (container : ObjectId) (exits : Bool) (h : Headed after container exits) :
    Lists after (relinked before after raw stored) container exits
      (settled after stored container exits) := by
  have hlist := hstored container exits h
  have hnodup := settle_nodup hlist.nodup (members_nodup after container exits)
  refine ⟨?_, hnodup, mem_settled after ha stored container exits⟩
  by_cases hchanged : Changed before after container exits
  · have hmem : Rewrite.ofList container exits (settled after stored container exits) ∈
        batchOf (noted before after raw).2.keys (settled after stored) :=
      (mem_batchOf before after raw _ _).mpr ⟨hchanged, rfl⟩
    have hseparate := batchOf_separate before after raw hb ha hkeep stored hstored
    obtain ⟨hhead, hchained⟩ := Rewrite.applyAll_list (noted before after raw).1 _ hseparate hmem
    unfold relinked
    have hstart : (Rewrite.applyAll (noted before after raw).1 (batchOf (noted before after raw).2.keys
        (settled after stored))).head container exits =
          (settled after stored container exits).headD (-1) := hhead
    rw [hstart]
    exact hchained
  · obtain ⟨hhead, hnext⟩ :=
      relinked_unchanged before after raw hb ha stored hchanged
    have hsame : settled after stored container exits = stored container exits := by
      apply settle_same
      intro id
      rw [hlist.member, mem_members after ha,
        members_unchanged before after hb ha hkeep hchanged]
    rw [hsame, hhead]
    apply hlist.chained.frame
    intro id hid
    have hm := (hlist.member id).mp hid
    exact hnext id ((members_unchanged before after hb ha hkeep hchanged id).mp hm)

omit hstored in
theorem relinked_rows (id : ObjectId) :
    ((relinked before after raw stored).get? id).isSome ↔ (after.get? id).isSome := by
  unfold relinked
  rw [Rewrite.row_applyAll]
  unfold noted
  rw [row_noteAll]
  constructor
  · rintro (⟨r, hr, hid | rfl⟩ | ⟨⟨j, o⟩, hentry, rfl, -⟩ | hrow)
    · obtain ⟨-, hsame⟩ := (mem_batchOf before after raw _ r).mp hr
      rw [hsame] at hid
      obtain ⟨o, ho, -, -⟩ := (mem_settled after ha stored _ _ id).mp hid
      rw [ho]
      rfl
    · obtain ⟨hchanged, -⟩ := (mem_batchOf before after raw _ r).mp hr
      obtain ⟨holder, hholder, -⟩ := hchanged.headed before after hb ha hkeep
      rw [hholder]
      rfl
    · rw [(after.get?_eq_some_iff j o).mpr hentry]
      rfl
    · obtain ⟨old, hold⟩ := Option.isSome_iff_exists.mp ((hraw.rows id).mp hrow)
      obtain ⟨o, ho, -⟩ := hkeep id old hold
      rw [ho]
      rfl
  · intro hid
    right
    obtain ⟨o, ho⟩ := Option.isSome_iff_exists.mp hid
    by_cases hmoved : unmoved before id o = true
    · obtain ⟨old, hold, -, -⟩ := (unmoved_iff before id o).mp hmoved
      exact Or.inr ((hraw.rows id).mpr (by rw [hold]; rfl))
    · exact Or.inl ⟨(id, o), (after.get?_eq_some_iff id o).mp ho, rfl, by simpa using hmoved⟩

omit hb hkeep hstored in
theorem relinked_loose (id : ObjectId) (o : Object) (ho : after.get? id = some o)
    (hl : o.location = none) : (relinked before after raw stored).next id = -1 := by
  have hnone : ∀ r ∈ batchOf (noted before after raw).2.keys (settled after stored), id ∉ r.order := by
    intro r hr hid
    obtain ⟨-, hsame⟩ := (mem_batchOf before after raw _ r).mp hr
    rw [hsame] at hid
    obtain ⟨same, hthere, hlocation, -⟩ := (mem_settled after ha stored _ _ id).mp hid
    rw [ho] at hthere
    injection hthere with hthere
    rw [← hthere, hl] at hlocation
    contradiction
  have hentry := (after.get?_eq_some_iff id o).mp ho
  unfold relinked
  rw [Rewrite.next_applyAll_other _ _ id hnone]
  unfold noted
  by_cases hmoved : unmoved before id o = true
  · rw [next_noteAll_kept]
    · obtain ⟨old, hold, -, hlocation⟩ := (unmoved_iff before id o).mp hmoved
      exact hraw.loose id old hold (hlocation.trans hl)
    · rintro ⟨j, other⟩ hother rfl
      rwa [after.entry_unique j hother hentry]
  · exact next_noteAll_moved before after.entries _ hentry (by simpa using hmoved)

theorem relinked_wellFormed : WellFormed after (relinked before after raw stored) where
  rows := relinked_rows before after raw hb ha hkeep hraw stored
  listed := fun container exits h =>
    ⟨_, relinked_lists before after raw hb ha hkeep stored hstored container exits h⟩
  loose := relinked_loose before after raw ha hraw stored

end

end StompyMux.World
