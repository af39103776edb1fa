import StompyMux.Library.Chain
import StompyMux.World.Links

-- What writing a batch of lists does to the slots.
namespace StompyMux.World

open Library Library.Chain

namespace Links

section

variable (links : Links)

theorem slots_write (id j : ObjectId) (f : LinkSlots → LinkSlots) :
    (links.write id f).slots j = if j = id then f (links.slots id) else links.slots j := by
  unfold write slots
  rw [links.get?_insert id j]
  split <;> rfl

theorem row_write (id j : ObjectId) (f : LinkSlots → LinkSlots) :
    ((links.write id f).get? j).isSome ↔ j = id ∨ (links.get? j).isSome := by
  unfold write
  rw [links.get?_insert id j]
  split
  · rename_i h
    simp [h]
  · rename_i h
    simp [h]

theorem next_writeNext (id : ObjectId) (value : Int) :
    (links.write id (LinkSlots.setNext value)).next = Function.update links.next id value := by
  funext j
  unfold next
  rw [slots_write]
  by_cases h : j = id
  · rw [if_pos h, h, Function.update_self]
    rfl
  · rw [if_neg h, Function.update_of_ne h]

theorem head_writeNext (id container : ObjectId) (exits : Bool) (value : Int) :
    (links.write id (LinkSlots.setNext value)).head container exits = links.head container exits := by
  unfold head
  rw [slots_write]
  by_cases h : container = id
  · rw [if_pos h, h]
    rfl
  · rw [if_neg h]

theorem next_writeHead (id : ObjectId) (exits : Bool) (value : Int) :
    (links.write id (LinkSlots.setHead exits value)).next = links.next := by
  funext j
  unfold next
  rw [slots_write]
  by_cases h : j = id
  · rw [if_pos h, h]
    cases exits <;> rfl
  · rw [if_neg h]

theorem head_writeHead (id container : ObjectId) (exits kind : Bool) (value : Int) :
    (links.write id (LinkSlots.setHead exits value)).head container kind =
      if container = id ∧ kind = exits then value else links.head container kind := by
  unfold head
  rw [slots_write]
  by_cases h : container = id
  · rw [if_pos h, h]
    cases exits <;> cases kind <;> simp [LinkSlots.setHead, LinkSlots.head]
  · rw [if_neg h, if_neg (fun hboth => h hboth.1)]

theorem next_writeNexts (order : List ObjectId) :
    (writeNexts order links).next = thread (-1) links.next order := by
  induction order generalizing links with
  | nil => rfl
  | cons id rest ih => rw [writeNexts, ih, next_writeNext, thread]

theorem head_writeNexts (order : List ObjectId) (container : ObjectId) (exits : Bool) :
    (writeNexts order links).head container exits = links.head container exits := by
  induction order generalizing links with
  | nil => rfl
  | cons id rest ih => rw [writeNexts, ih, head_writeNext]

theorem row_writeNexts (order : List ObjectId) (j : ObjectId) :
    ((writeNexts order links).get? j).isSome ↔ j ∈ order ∨ (links.get? j).isSome := by
  induction order generalizing links with
  | nil => simp [writeNexts]
  | cons id rest ih =>
      rw [writeNexts, ih, row_write, List.mem_cons]
      tauto

end

end Links

-- A head to write, and the list whose next slots are written with it.
structure Rewrite where
  container : ObjectId
  exits : Bool
  head : Int
  order : List ObjectId

namespace Rewrite

def ofList (container : ObjectId) (exits : Bool) (order : List ObjectId) : Rewrite :=
  ⟨container, exits, order.headD (-1), order⟩

def apply (links : Links) (r : Rewrite) : Links :=
  Links.writeNexts r.order (links.write r.container (LinkSlots.setHead r.exits r.head))

def applyAll (links : Links) (batch : List Rewrite) : Links := batch.foldl apply links

def key (r : Rewrite) : ObjectId × Bool := (r.container, r.exits)

-- Lists that share neither a head nor a member.
structure Separate (batch : List Rewrite) : Prop where
  heads : batch.Pairwise (fun a b => a.key ≠ b.key)
  orders : batch.Pairwise (fun a b => a.order.Disjoint b.order)
  nodup : ∀ r ∈ batch, r.order.Nodup

theorem Separate.tail (r : Rewrite) (batch : List Rewrite) (h : Separate (r :: batch)) :
    Separate batch where
  heads := (List.pairwise_cons.mp h.heads).2
  orders := (List.pairwise_cons.mp h.orders).2
  nodup := fun s hs => h.nodup s (List.mem_cons_of_mem _ hs)

section

variable (links : Links)

variable (batch : List Rewrite) (r : Rewrite)

theorem head_apply (container : ObjectId) (exits : Bool) : (apply links r).head container exits =
      if container = r.container ∧ exits = r.exits then r.head else links.head container exits := by
  unfold apply
  rw [Links.head_writeNexts, Links.head_writeHead]

theorem next_apply : (apply links r).next = thread (-1) links.next r.order := by
  unfold apply
  rw [Links.next_writeNexts, Links.next_writeHead]

theorem row_apply (j : ObjectId) :
    ((apply links r).get? j).isSome ↔ (j ∈ r.order ∨ j = r.container) ∨ (links.get? j).isSome := by
  unfold apply
  rw [Links.row_writeNexts, Links.row_write, or_assoc]

theorem head_applyAll_other (container : ObjectId) (exits : Bool)
    (h : ∀ r ∈ batch, r.key ≠ (container, exits)) :
    (applyAll links batch).head container exits = links.head container exits := by
  unfold applyAll
  induction batch generalizing links with
  | nil => rfl
  | cons r batch ih =>
      have hr : ¬ (container = r.container ∧ exits = r.exits) := by
        rintro ⟨rfl, rfl⟩
        exact h r List.mem_cons_self rfl
      rw [List.foldl_cons, ih _ (fun s hs => h s (List.mem_cons_of_mem _ hs)), head_apply,
        if_neg hr]

theorem next_applyAll_other (id : ObjectId) (h : ∀ r ∈ batch, id ∉ r.order) :
    (applyAll links batch).next id = links.next id := by
  unfold applyAll
  induction batch generalizing links with
  | nil => rfl
  | cons r batch ih =>
      rw [List.foldl_cons, ih _ (fun s hs => h s (List.mem_cons_of_mem _ hs)), next_apply,
        thread_other _ _ (h r List.mem_cons_self)]

theorem row_applyAll (j : ObjectId) : ((applyAll links batch).get? j).isSome ↔
      (∃ r ∈ batch, j ∈ r.order ∨ j = r.container) ∨ (links.get? j).isSome := by
  unfold applyAll
  induction batch generalizing links with
  | nil => simp
  | cons r batch ih =>
      rw [List.foldl_cons, ih, row_apply]
      simp only [List.mem_cons, exists_eq_or_imp]
      rw [← or_assoc]
      exact or_congr_left or_comm

-- Each list of a batch ends up with its head and its chain.
theorem applyAll_list (h : Separate batch) {r : Rewrite} (hr : r ∈ batch) :
    (applyAll links batch).head r.container r.exits = r.head ∧
      Chained (-1) (applyAll links batch).next (r.order.headD (-1)) r.order := by
  induction batch generalizing links with
  | nil => contradiction
  | cons first batch ih =>
      rcases List.mem_cons.mp hr with rfl | hlater
      · obtain ⟨hheads, -⟩ := List.pairwise_cons.mp h.heads
        obtain ⟨horders, -⟩ := List.pairwise_cons.mp h.orders
        have hsplit : applyAll links (r :: batch) = applyAll (apply links r) batch := rfl
        rw [hsplit]
        constructor
        · rw [head_applyAll_other _ batch _ _ (fun s hs => Ne.symm (hheads s hs)), head_apply,
            if_pos ⟨rfl, rfl⟩]
        · have hchained : Chained (-1) (apply links r).next (r.order.headD (-1)) r.order := by
            rw [next_apply]
            exact thread_chained _ _ _ (h.nodup r List.mem_cons_self)
          apply hchained.frame
          intro id hid
          exact next_applyAll_other _ batch id (fun s hs => horders s hs hid)
      · exact ih (apply links first) h.tail hlater

end

end Rewrite

end StompyMux.World

-- Stored lists that hold what the world says, and how they are read.
namespace StompyMux.World

open Library Library.Chain

def Member (w : World) (container : ObjectId) (exits : Bool) (id : ObjectId) : Prop :=
  ∃ o, w.get? id = some o ∧ o.location = some container ∧ o.kind.listed exits

-- A container's two lists. The exits slot of an exit holds its source instead.
def Headed (w : World) (container : ObjectId) (exits : Bool) : Prop :=
  ∃ o, w.get? container = some o ∧ ¬ (exits = true ∧ o.kind = .Exit)

-- What world validation asks of locations.
structure Contained (w : World) : Prop where
  dbrefs : ∀ id o, w.get? id = some o → 0 ≤ id
  located : ∀ id o container, w.get? id = some o → o.location = some container →
    (∃ exits, o.kind.listed exits) ∧ ∃ holder, w.get? container = some holder ∧ holder.kind.holds

-- A list ends at -1 and visits exactly its members, each once.
structure Lists (w : World) (links : Links) (container : ObjectId) (exits : Bool)
    (order : List ObjectId) : Prop where
  chained : Chained (-1) links.next (links.head container exits) order
  nodup : order.Nodup
  member : ∀ id, id ∈ order ↔ Member w container exits id

structure WellFormed (w : World) (links : Links) : Prop where
  rows : ∀ id, (links.get? id).isSome ↔ (w.get? id).isSome
  listed : ∀ container exits, Headed w container exits → ∃ order, Lists w links container exits order
  loose : ∀ id o, w.get? id = some o → o.location = none → links.next id = -1

-- The world keeps its objects with their kinds. They may have moved, and there may be others.
def Keeps (before after : World) : Prop :=
  ∀ id old, before.get? id = some old → ∃ o, after.get? id = some o ∧ o.kind = old.kind

section

variable (w : World)

theorem listed_exits {kind : Kind} {exits : Bool} (h : kind.listed exits) :
    exits = (kind = .Exit : Bool) := by
  cases kind <;> cases exits <;> simp_all [Kind.listed]

theorem member_unique {id container other : ObjectId} {exits kind : Bool}
    (h : Member w container exits id) (h' : Member w other kind id) :
    (container, exits) = (other, kind) := by
  obtain ⟨o, ho, hlocation, hlisted⟩ := h
  obtain ⟨p, hp, hother, hkind⟩ := h'
  rw [ho] at hp
  injection hp with hp
  subst hp
  rw [hlocation] at hother
  injection hother with hother
  rw [hother, listed_exits hlisted, listed_exits hkind]

variable (hw : Contained w)

include hw

variable (container : ObjectId) (exits : Bool) (id : ObjectId)

theorem Member.dbref (h : Member w container exits id) : 0 ≤ id := by
  obtain ⟨o, ho, -, -⟩ := h
  exact hw.dbrefs id o ho

theorem Member.holder {container : ObjectId} {exits : Bool} {id : ObjectId}
    (h : Member w container exits id) : ∃ holder, w.get? container = some holder ∧ holder.kind.holds := by
  obtain ⟨o, ho, hlocation, -⟩ := h
  exact (hw.located id o container ho hlocation).2

theorem listed_iff {o : Object} {container : ObjectId} (exits : Bool)
    (ho : w.get? id = some o) (hl : o.location = some container) :
    o.kind.listed exits ↔ (o.kind = .Exit : Bool) = exits := by
  constructor
  · exact fun h => (listed_exits h).symm
  · rintro rfl
    obtain ⟨kind, hkind⟩ := (hw.located id o container ho hl).1
    rwa [← listed_exits hkind]

theorem mem_members : id ∈ members w container exits ↔ Member w container exits id := by
  unfold members Member
  simp only [List.mem_map, List.mem_filter, Bool.and_eq_true, decide_eq_true_eq]
  constructor
  · rintro ⟨⟨j, o⟩, ⟨hentry, hlocation, hkind⟩, rfl⟩
    have ho := (w.get?_eq_some_iff j o).mpr hentry
    exact ⟨o, ho, hlocation, (listed_iff w hw j exits ho hlocation).mpr hkind⟩
  · rintro ⟨o, ho, hlocation, hlisted⟩
    have hkind := (listed_iff w hw id exits ho hlocation).mp hlisted
    exact ⟨(id, o), ⟨(w.get?_eq_some_iff id o).mp ho, hlocation, hkind⟩, rfl⟩

omit hw in
theorem members_nodup : (members w container exits).Nodup :=
  w.keys_nodup.sublist (List.filter_sublist.map Prod.fst)

theorem relationMembers_eq : relationMembers w container exits = members w container exits := by
  unfold relationMembers members
  congr 1
  apply List.filter_congr
  intro entry hentry
  have ho := (w.get?_eq_some_iff entry.1 entry.2).mpr hentry
  by_cases hlocation : entry.2.location = some container
  · have hiff := listed_iff w hw entry.1 exits ho hlocation
    simp only [hlocation, decide_true, Bool.true_and]
    rw [Bool.eq_iff_iff, hiff, decide_eq_true_eq]
  · simp [hlocation]

end

theorem mem_settle (order present : List ObjectId) (id : ObjectId) :
    id ∈ settle order present ↔ id ∈ present := by
  unfold settle
  simp only [List.mem_append, List.mem_filter, decide_eq_true_eq]
  constructor
  · rintro (⟨-, h⟩ | ⟨h, -⟩)
    · exact h
    · exact h
  · intro h
    by_cases ho : id ∈ order
    · exact Or.inl ⟨ho, h⟩
    · exact Or.inr ⟨h, fun hboth => ho hboth.1⟩

theorem settle_nodup {order present : List ObjectId} (ho : order.Nodup) (hp : present.Nodup) :
    (settle order present).Nodup := by
  unfold settle
  apply List.Nodup.append (ho.filter _) (hp.filter _)
  intro id hretained hnew
  have hnot := of_decide_eq_true (List.mem_filter.mp hnew).2
  exact hnot hretained

theorem settle_eq (order present : List ObjectId) :
    settle order present = order.filter (fun id => id ∈ present) ++
      present.filter (fun id => id ∉ order) := by
  unfold settle
  dsimp only
  congr 1
  apply List.filter_congr
  intro id hid
  simp [hid]

theorem settle_same (order present : List ObjectId) (h : ∀ id, id ∈ order ↔ id ∈ present) :
    settle order present = order := by
  rw [settle_eq]
  have hkept : order.filter (fun id => id ∈ present) = order := by
    apply List.filter_eq_self.mpr
    exact fun id hid => decide_eq_true ((h id).mp hid)
  have hnew : present.filter (fun id => id ∉ order) = [] := by
    apply List.filter_eq_nil_iff.mpr
    intro id hid
    simpa using (h id).mpr hid
  rw [hkept, hnew, List.append_nil]

section

variable (w : World) (raw : Links) (exits : Bool)

-- What a walk asks of each member.
structure Walkable (container : ObjectId) (id : ObjectId) : Prop where
  dbref : 0 ≤ id
  object : ∃ o, w.get? id = some o ∧ o.location = some container ∧ (o.kind = .Exit : Bool) = exits
  row : (raw.get? id).isSome

theorem walk_eq (container : ObjectId) (p : Int) (order : List ObjectId) (seen : Finset ObjectId)
    (h : Chained (-1) raw.next p order) (hn : order.Nodup)
    (hs : ∀ id ∈ order, id ∉ seen) (hw : ∀ id ∈ order, Walkable w raw exits container id) :
    walk w raw container exits p seen = .ok order := by
  induction order generalizing p seen with
  | nil =>
      have hp : p = -1 := h
      rw [walk, if_neg (by omega)]
  | cons id rest ih =>
      obtain ⟨rfl, hrest⟩ := h
      obtain ⟨hid, hnodup⟩ := List.nodup_cons.mp hn
      obtain ⟨hdbref, ⟨o, ho, hlocation, hkind⟩, hrow⟩ := hw p List.mem_cons_self
      obtain ⟨slots, hslots⟩ := Option.isSome_iff_exists.mp hrow
      have hnext : raw.next p = slots.next := by
        unfold Links.next Links.slots
        rw [hslots, Option.getD_some]
      rw [hnext] at hrest
      have hfresh : ∀ id ∈ rest, id ∉ insert p seen := by
        intro id hmem hinsert
        rcases Finset.mem_insert.mp hinsert with rfl | hseen
        · exact hid hmem
        · exact hs id (List.mem_cons_of_mem _ hmem) hseen
      have hwalk := ih slots.next (insert p seen) hrest hnodup hfresh
        (fun id hmem => hw id (List.mem_cons_of_mem _ hmem))
      rw [walk, if_pos hdbref, if_neg (hs p List.mem_cons_self)]
      split
      · rename_i hnone
        rw [hnone] at ho
        contradiction
      · rename_i other hother
        rw [hother] at ho
        injection ho with ho
        subst ho
        rw [if_neg (not_not.mpr ⟨hlocation, hkind⟩), hslots]
        dsimp only
        rw [hwalk]
        rfl

theorem chain_eq (p : Int) (order : List ObjectId) (seen : Finset ObjectId)
    (h : Chained (-1) raw.next p order) (hn : order.Nodup) (hs : ∀ id ∈ order, id ∉ seen)
    (hd : ∀ id ∈ order, 0 ≤ id)
    (hw : ∀ id ∈ order, ∃ o, w.get? id = some o ∧ o.kind.listed exits) :
    chain w raw exits p seen = order := by
  induction order generalizing p seen with
  | nil =>
      have hp : p = -1 := h
      rw [chain, if_neg (by omega)]
  | cons id rest ih =>
      obtain ⟨rfl, hrest⟩ := h
      obtain ⟨hid, hnodup⟩ := List.nodup_cons.mp hn
      obtain ⟨o, ho, hlisted⟩ := hw p List.mem_cons_self
      have hfresh : ∀ id ∈ rest, id ∉ insert p seen := by
        intro id hmem hinsert
        rcases Finset.mem_insert.mp hinsert with rfl | hseen
        · exact hid hmem
        · exact hs id (List.mem_cons_of_mem _ hmem) hseen
      have hchain := ih (raw.next p) (insert p seen) hrest hnodup hfresh
        (fun id hmem => hd id (List.mem_cons_of_mem _ hmem))
        (fun id hmem => hw id (List.mem_cons_of_mem _ hmem))
      rw [chain, if_pos (hd p List.mem_cons_self), if_neg (hs p List.mem_cons_self)]
      split
      · rename_i hnone
        rw [hnone] at ho
        contradiction
      · rename_i other hother
        rw [hother] at ho
        injection ho with ho
        subst ho
        rw [if_neg (not_not.mpr hlisted), hchain]

end

end StompyMux.World
