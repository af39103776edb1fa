import StompyMux.Library.Fallible
import StompyMux.Library.Forest
import StompyMux.World.Links

-- Where objects are: the chain of containers around them, and the checks that keep it finite.
namespace StompyMux.World

open Library Library.Forest
open Library.Fallible (ok_of_bind bind_ok ok_of_forM forM_ok)

variable (w : World)

-- Walk the enclosing containers. A room ends the walk.
def containmentWalk (current : Option ObjectId) (seen : Finset ObjectId) :
    Except Error (List ObjectId) :=
  match current with
  | none => .ok []
  | some id =>
      if id ∈ seen then .error ("Containment cycle at #" ++ toString id ++ ".")
      else
        match _ : w.get? id with
        | none => .error ("Missing container #" ++ toString id ++ ".")
        | some o =>
            if ¬ o.kind.holds then .error ("Object #" ++ toString id ++ " cannot contain objects.")
            else if o.kind = .Room then
              if o.location = none then .ok [id]
              else .error ("Room #" ++ toString id ++ " has an invalid location.")
            else (containmentWalk o.location (insert id seen)).map (fun chain => id :: chain)
termination_by unseen w seen
decreasing_by exact unseen_lt ‹_› (by assumption)

def containmentChain (start : Option ObjectId) : Except Error (List ObjectId) :=
  containmentWalk w start ∅

-- What is checked before a location changes.
def validateMove (object destination : ObjectId) : Except Error Unit :=
  match w.get? object with
  | none => .error "No such object."
  | some o =>
      if ¬ (o.kind = .Player ∨ o.kind = .Thing ∨ o.kind = .Exit) then
        .error "You can't teleport that."
      else
        match containmentChain w (some destination) with
        | .error e => .error e
        | .ok chain =>
            if object ∈ chain then .error "Cannot move an object into itself or its descendants."
            else (containmentChain w o.location).map (fun _ => ())

def setLocation (object destination : ObjectId) : World :=
  w.modify object (fun o => { o with location := some destination })

def up (id : ObjectId) : Option ObjectId := (w.get? id).bind Object.location

-- An object that can hold others. A room is nowhere.
def Holder (id : ObjectId) : Prop :=
  ∃ o, w.get? id = some o ∧ o.kind.holds ∧ (o.kind = .Room → o.location = none)

theorem containmentWalk_some {id : ObjectId} {seen : Finset ObjectId} {chain : List ObjectId}
    (h : containmentWalk w (some id) seen = .ok chain) :
    Holder w id ∧
      ∃ rest, chain = id :: rest ∧ ((up w id = none ∧ rest = []) ∨
        containmentWalk w (up w id) (insert id seen) = .ok rest) := by
  rw [containmentWalk] at h
  split at h
  · contradiction
  · split at h
    · contradiction
    · rename_i o ho
      have hup : up w id = o.location := by rw [up, ho, Option.bind_some]
      by_cases hholds : ¬ o.kind.holds
      · rw [if_pos hholds] at h
        contradiction
      · rw [if_neg hholds] at h
        rw [not_not] at hholds
        by_cases hroom : o.kind = .Room
        · rw [if_pos hroom] at h
          by_cases hlocation : o.location = none
          · rw [if_pos hlocation] at h
            injection h with h
            refine ⟨⟨o, ho, hholds, fun _ => hlocation⟩, [], h.symm, Or.inl ⟨?_, rfl⟩⟩
            rw [hup, hlocation]
          · rw [if_neg hlocation] at h
            contradiction
        · rw [if_neg hroom] at h
          refine ⟨⟨o, ho, hholds, fun hr => absurd hr hroom⟩, ?_⟩
          rw [hup]
          cases hrest : containmentWalk w o.location (insert id seen) with
          | error e =>
              rw [hrest] at h
              contradiction
          | ok rest =>
              rw [hrest] at h
              injection h with h
              exact ⟨rest, h.symm, Or.inr rfl⟩

theorem of_containmentWalk (chain : List ObjectId) (current : Option ObjectId)
    (seen : Finset ObjectId) (h : containmentWalk w current seen = .ok chain) :
    Climb (up w) current chain ∧ ∀ id ∈ chain, Holder w id := by
  induction chain generalizing current seen with
  | nil =>
      cases current with
      | none => exact ⟨rfl, by simp⟩
      | some id =>
          obtain ⟨-, rest, hrest, -⟩ := containmentWalk_some w h
          contradiction
  | cons first later ih =>
      cases current with
      | none =>
          rw [containmentWalk] at h
          injection h with h
          contradiction
      | some id =>
          obtain ⟨hholder, rest, hrest, hlater⟩ := containmentWalk_some w h
          injection hrest with hfirst hrest
          subst hfirst hrest
          rcases hlater with ⟨hup, rfl⟩ | hwalk
          · exact ⟨⟨rfl, hup⟩, by simpa using hholder⟩
          · obtain ⟨hclimb, hholders⟩ := ih _ _ hwalk
            exact ⟨⟨rfl, hclimb⟩, List.forall_mem_cons.mpr ⟨hholder, hholders⟩⟩

theorem containmentWalk_ok (chain : List ObjectId) (current : Option ObjectId)
    (seen : Finset ObjectId) (hc : Climb (up w) current chain)
    (hh : ∀ id ∈ chain, Holder w id) (hs : ∀ id ∈ chain, id ∉ seen) :
    containmentWalk w current seen = .ok chain := by
  induction chain generalizing current seen with
  | nil =>
      have hnone : current = none := hc
      rw [hnone, containmentWalk]
  | cons id rest ih =>
      have hnodup := List.nodup_cons.mp (hc.nodup _ _)
      obtain ⟨rfl, hrest⟩ := hc
      obtain ⟨⟨o, ho, hholds, hroom⟩, hholders⟩ := List.forall_mem_cons.mp hh
      have hup : up w id = o.location := by rw [up, ho, Option.bind_some]
      rw [hup] at hrest
      have hfresh : ∀ j ∈ rest, j ∉ insert id seen := by
        intro j hj hinsert
        rcases Finset.mem_insert.mp hinsert with rfl | hseen
        · exact hnodup.1 hj
        · exact hs j (List.mem_cons_of_mem _ hj) hseen
      rw [containmentWalk, if_neg (hs id List.mem_cons_self)]
      split
      · rename_i hnone
        rw [hnone] at ho
        contradiction
      · rename_i other hother
        rw [hother] at ho
        injection ho with ho
        subst ho
        rw [if_neg (not_not.mpr hholds)]
        by_cases hkind : other.kind = .Room
        · have hlocation := hroom hkind
          rw [hlocation] at hrest
          have hempty : rest = [] := by
            cases rest with
            | nil => rfl
            | cons j rest => exact absurd hrest.1 (by simp)
          rw [if_pos hkind, if_pos hlocation, hempty]
        · rw [if_neg hkind, ih _ _ hrest hholders hfresh]
          rfl

theorem containmentChain_ok_iff (start : Option ObjectId) (chain : List ObjectId) :
    containmentChain w start = .ok chain ↔
      Climb (up w) start chain ∧ ∀ id ∈ chain, Holder w id :=
  ⟨of_containmentWalk w chain start ∅,
    fun ⟨hc, hh⟩ => containmentWalk_ok w chain start ∅ hc hh (fun _ _ => Finset.notMem_empty _)⟩

-- Every object is somewhere, in containers that exist and end, and not in itself.
def Contains : Prop :=
  ∀ id o, w.get? id = some o → ∃ chain, containmentChain w o.location = .ok chain ∧ id ∉ chain

theorem contains_iff :
    Contains w ↔ ∀ id o, w.get? id = some o →
      ∃ chain, Climb (up w) o.location chain ∧ ∀ j ∈ chain, Holder w j := by
  constructor
  · intro h id o ho
    obtain ⟨chain, hchain, -⟩ := h id o ho
    exact ⟨chain, (containmentChain_ok_iff w _ _).mp hchain⟩
  · intro h id o ho
    obtain ⟨chain, hclimb, hholders⟩ := h id o ho
    have hup : up w id = o.location := by rw [up, ho, Option.bind_some]
    exact ⟨chain, (containmentChain_ok_iff w _ _).mpr ⟨hclimb, hholders⟩,
      Climb.not_mem id chain (hup ▸ hclimb)⟩

-- Moves that were checked, and new objects put where a chain leads on.
inductive Step : World → World → Prop
  | move (w : World) (object destination : ObjectId)
      (hchecked : validateMove w object destination = .ok ()) :
      Step w (setLocation w object destination)
  | create (w : World) (id : ObjectId) (o : Object) (chain : List ObjectId)
      (hfresh : w.get? id = none) (hlocation : containmentChain w o.location = .ok chain) :
      Step w (w.insert id o)

theorem validateMove_ok {object destination : ObjectId}
    (h : validateMove w object destination = .ok ()) :
    ∃ o chain, w.get? object = some o ∧ o.kind ≠ .Room ∧
      containmentChain w (some destination) = .ok chain ∧ object ∉ chain := by
  unfold validateMove at h
  cases ho : w.get? object with
  | none =>
      rw [ho] at h
      contradiction
  | some o =>
      rw [ho] at h
      dsimp only at h
      split at h
      · contradiction
      · rename_i hkind
        cases hchain : containmentChain w (some destination) with
        | error e =>
            rw [hchain] at h
            contradiction
        | ok chain =>
            rw [hchain] at h
            dsimp only at h
            split at h
            · contradiction
            · rename_i hmem
              refine ⟨o, chain, rfl, fun hroom => ?_, rfl, hmem⟩
              rw [hroom] at hkind
              simp at hkind

section Move

variable (object destination : ObjectId) (o : Object) (ho : w.get? object = some o)

include ho

theorem up_setLocation :
    up (setLocation w object destination) = Function.update (up w) object (some destination) := by
  funext id
  rw [up, setLocation, OrderedMap.get?_modify]
  by_cases hid : id = object
  · rw [if_pos hid, ho, hid, Function.update_self]
    rfl
  · rw [if_neg hid, Function.update_of_ne hid]
    rfl

theorem holder_setLocation (hkind : o.kind ≠ .Room) (id : ObjectId) (h : Holder w id) :
    Holder (setLocation w object destination) id := by
  obtain ⟨old, hold, hholds, hroom⟩ := h
  by_cases hid : id = object
  · subst hid
    rw [ho] at hold
    injection hold with hold
    subst hold
    refine ⟨{ o with location := some destination }, ?_, hholds, fun hr => absurd hr hkind⟩
    rw [setLocation, OrderedMap.get?_modify, if_pos rfl, ho]
    rfl
  · refine ⟨old, ?_, hholds, hroom⟩
    rw [setLocation, OrderedMap.get?_modify, if_neg hid, hold]

end Move

-- What a checked move and a creation preserve.
theorem contains_of_step (w' : World) (h : Contains w) (hs : Step w w') : Contains w' := by
  rw [contains_iff] at h ⊢
  cases hs with
  | move object destination hchecked =>
      obtain ⟨o, target, ho, hkind, htarget, hmem⟩ := validateMove_ok w hchecked
      obtain ⟨htarget, hholders⟩ := (containmentChain_ok_iff w _ _).mp htarget
      -- the chain from any start, after the move
      have hchain : ∀ start chain, Climb (up w) start chain → (∀ j ∈ chain, Holder w j) →
          ∃ moved, Climb (up (setLocation w object destination)) start moved ∧
            ∀ j ∈ moved, Holder (setLocation w object destination) j := by
        intro start chain hclimb hall
        obtain ⟨moved, hmoved, hsub⟩ :=
          Climb.hang object destination target htarget hmem start chain hclimb
        rw [up_setLocation w object destination o ho]
        refine ⟨moved, hmoved, fun j hj => ?_⟩
        exact holder_setLocation w object destination o ho hkind j
          ((hsub j hj).elim (hall j) (hholders j))
      intro id record hrecord
      rw [setLocation, OrderedMap.get?_modify] at hrecord
      by_cases hid : id = object
      · rw [if_pos hid, ho] at hrecord
        injection hrecord with hrecord
        rw [← hrecord]
        exact hchain _ target htarget hholders
      · rw [if_neg hid] at hrecord
        obtain ⟨chain, hclimb, hall⟩ := h id record hrecord
        exact hchain _ chain hclimb hall
  | create id o chain hfresh hlocation =>
      obtain ⟨hclimb, hall⟩ := (containmentChain_ok_iff w _ _).mp hlocation
      have hother : ∀ j, Holder w j → j ≠ id := by
        rintro j ⟨old, hold, -⟩ rfl
        rw [hfresh] at hold
        contradiction
      have hkept : ∀ start chain, Climb (up w) start chain → (∀ j ∈ chain, Holder w j) →
          Climb (up (w.insert id o)) start chain ∧ ∀ j ∈ chain, Holder (w.insert id o) j := by
        intro start chain hclimb hall
        refine ⟨hclimb.frame _ _ fun j hj => ?_, fun j hj => ?_⟩
        · rw [up, OrderedMap.get?_insert, if_neg (hother j (hall j hj))]
          rfl
        · obtain ⟨old, hold, hrest⟩ := hall j hj
          refine ⟨old, ?_, hrest⟩
          rw [OrderedMap.get?_insert, if_neg (hother j (hall j hj)), hold]
      intro j record hrecord
      rw [OrderedMap.get?_insert] at hrecord
      by_cases hj : j = id
      · rw [if_pos hj] at hrecord
        injection hrecord with hrecord
        rw [← hrecord]
        exact ⟨chain, hkept _ chain hclimb hall⟩
      · rw [if_neg hj] at hrecord
        obtain ⟨chain, hclimb, hall⟩ := h j record hrecord
        exact ⟨chain, hkept _ chain hclimb hall⟩

-- An object whose location the check climbs from does not contain itself.
theorem not_cycle_of_chain (id : ObjectId)
    (h : ∀ o, w.get? id = some o → ∃ chain, containmentChain w o.location = .ok chain) :
    ¬ Relation.TransGen (Below (up w)) id id := by
  intro hcycle
  obtain ⟨parent, hparent, -⟩ := Relation.TransGen.head'_iff.mp hcycle
  obtain ⟨o, ho, -⟩ := Option.bind_eq_some_iff.mp hparent
  obtain ⟨chain, hchain⟩ := h o ho
  have hup : up w id = o.location := by rw [up, ho, Option.bind_some]
  have hclimb := ((containmentChain_ok_iff w _ _).mp hchain).1
  exact Climb.no_cycle id (hup ▸ hclimb) hcycle

theorem Contains.acyclic (h : Contains w) : Acyclic (up w) := fun id =>
  not_cycle_of_chain w id fun o ho => (h id o ho).imp fun _ hchain => hchain.1

section Save

variable (before after : World)

def checkEntry (skip : ObjectId → Bool) (entry : ObjectId × Object) : Except Error Unit :=
  if skip entry.1 then .ok ()
  else
    match containmentChain after entry.2.location with
    | .error e => .error e
    | .ok chain =>
        if entry.1 ∈ chain then .error ("containment cycle at #" ++ toString entry.1) else .ok ()

-- A save checks the objects whose entries it does not share with the saved world.
def checkContainment (skip : ObjectId → Bool) : Except Error Unit :=
  after.entries.forM (checkEntry after skip)

-- Maintenance brings its own lists.
def newLinks (raw : Links) : Option Links → Except Error Links
  | some links => .ok links
  | none => relationships before after raw

-- Maintenance checks every object. The rows are written by `writeRows`, which says whether any
-- row changed.
def saveObjects (sharing : Sharing before after) (raw : Links) (maintenance : Option Links)
    (writeRows : Links → Except Error Bool) : Except Error (Bool × Links) :=
  if maintenance.isNone && sharing.whole then .ok (false, raw)
  else do
    checkContainment after (fun id => maintenance.isNone && sharing.shares id)
    let links ← newLinks before after raw maintenance
    let changed ← writeRows links
    .ok (changed, links)

theorem checkContainment_ok {skip : ObjectId → Bool} (h : checkContainment after skip = .ok ())
    {id : ObjectId} {o : Object} (ho : after.get? id = some o) (hs : skip id = false) :
    ∃ chain, containmentChain after o.location = .ok chain ∧ id ∉ chain := by
  have hentry := ok_of_forM h (id, o) ((after.get?_eq_some_iff id o).mp ho)
  rw [checkEntry, if_neg (by simp [hs])] at hentry
  cases hchain : containmentChain after o.location with
  | error e =>
      rw [hchain] at hentry
      contradiction
  | ok chain =>
      rw [hchain] at hentry
      refine ⟨chain, rfl, fun hid => ?_⟩
      dsimp only at hentry
      rw [if_pos hid] at hentry
      contradiction

-- A cycle has an object that the saved world had elsewhere, and the save has looked at it.
theorem acyclic_of_saveObjects (sharing : Sharing before after) (raw : Links)
    (maintenance : Option Links) (writeRows : Links → Except Error Bool) (result : Bool × Links)
    (hold : Acyclic (up before))
    (hsave : saveObjects before after sharing raw maintenance writeRows = .ok result) :
    Acyclic (up after) := by
  unfold saveObjects at hsave
  by_cases hwhole : (maintenance.isNone && sharing.whole) = true
  · rw [← sharing.one (Bool.and_eq_true_iff.mp hwhole).2]
    exact hold
  · rw [if_neg hwhole] at hsave
    obtain ⟨⟨⟩, hchecked, -⟩ := ok_of_bind hsave
    refine acyclic_of_changed (fun id => sharing.shares id = false) ?_ hold ?_
    · intro id parent hshared hup
      rw [up, sharing.same id (by simpa using hshared)]
      exact hup
    · intro id hchanged
      refine not_cycle_of_chain after id fun o ho => ?_
      obtain ⟨chain, hchain, -⟩ := checkContainment_ok after hchecked ho (by simp [hchanged])
      exact ⟨chain, hchain⟩

end Save

-- Containment stays a forest, in memory through checked moves and creations, and across a save
-- that looks only at what changed.
theorem containment_forest :
    (∀ w w' : World, Contains w → Relation.ReflTransGen Step w w' → Contains w') ∧
    (∀ (before after : World) (sharing : Sharing before after) (raw : Links)
      (maintenance : Option Links) (writeRows : Links → Except Error Bool)
      (result : Bool × Links), Acyclic (up before) →
      saveObjects before after sharing raw maintenance writeRows = .ok result →
      Acyclic (up after)) := by
  refine ⟨fun w w' h hrun => ?_, acyclic_of_saveObjects⟩
  induction hrun with
  | refl => exact h
  | tail _ hs ih => exact contains_of_step _ _ ih hs

def room : World := (OrderedMap.empty : World).insert 0 ⟨0, .Room, none, ∅⟩

def box : World := room.insert 1 ⟨1, .Thing, some 0, ∅⟩

def ball : World := box.insert 2 ⟨2, .Thing, some 0, ∅⟩

-- The ball is created and put into the box, and the save after it reads its entry alone.
def balled : Sharing box (setLocation ball 2 1) where
  whole := false
  shares := fun id => id = 0 ∨ id = 1
  same := fun k hk => by
    rcases of_decide_eq_true hk with rfl | rfl <;> rfl
  one := fun h => by contradiction

theorem containment_forest_ball :
    Contains (setLocation ball 2 1) ∧
    ∃ result, saveObjects box (setLocation ball 2 1) balled (emptyLinks box) none (fun _ => .ok true) = .ok result ∧
      Acyclic (up (setLocation ball 2 1)) := by
  have hroom : ∀ w : World, w.get? 0 = some ⟨0, .Room, none, ∅⟩ →
      containmentChain w (some 0) = .ok [0] := by
    intro w hw
    refine (containmentChain_ok_iff w _ _).mpr ⟨⟨rfl, ?_⟩, ?_⟩
    · simp [Climb, up, hw]
    · intro id hid
      rw [List.mem_singleton.mp hid]
      exact ⟨_, hw, rfl, fun _ => rfl⟩
  have hempty : Contains (OrderedMap.empty : World) := fun id o ho => by
    have hnone : (OrderedMap.empty : World).get? id = none := rfl
    rw [hnone] at ho
    contradiction
  have hbox : ∀ w : World, w.get? 0 = some ⟨0, .Room, none, ∅⟩ → w.get? 1 = some ⟨1, .Thing, some 0, ∅⟩ →
      containmentChain w (some 1) = .ok [1, 0] := by
    intro w hfloor hinside
    refine (containmentChain_ok_iff w _ _).mpr ⟨⟨rfl, ?_⟩, ?_⟩
    · simp [Climb, up, hfloor, hinside]
    · have hboxed : Holder w 1 := ⟨_, hinside, rfl, by decide⟩
      have hfloored : Holder w 0 := ⟨_, hfloor, rfl, fun _ => rfl⟩
      simpa using ⟨hboxed, hfloored⟩
  have hmove : validateMove ball 2 1 = .ok () := by
    have hold : ball.get? 2 = some ⟨2, .Thing, some 0, ∅⟩ := by decide
    unfold validateMove
    rw [hold, hbox ball (by decide) (by decide)]
    dsimp only
    rw [if_neg (by decide), if_neg (by decide), hroom ball (by decide)]
    rfl
  have hfirst : Step OrderedMap.empty room := .create _ 0 ⟨0, .Room, none, ∅⟩ [] rfl
    ((containmentChain_ok_iff _ _ _).mpr ⟨rfl, by simp⟩)
  have hsecond : Step room box := .create room 1 ⟨1, .Thing, some 0, ∅⟩ [0] (by decide)
    (hroom room (by decide))
  have hthird : Step box ball := .create box 2 ⟨2, .Thing, some 0, ∅⟩ [0] (by decide)
    (hroom box (by decide))
  have hboxed : Relation.ReflTransGen Step OrderedMap.empty box := (Relation.ReflTransGen.single hfirst).tail hsecond
  have hsave : ∃ result, saveObjects box (setLocation ball 2 1) balled (emptyLinks box) none (fun _ => .ok true) =
      .ok result := by
    have hentry : checkEntry (setLocation ball 2 1) (fun id => (none : Option Links).isNone && balled.shares id)
        (2, ⟨2, .Thing, some 1, ∅⟩) = .ok () := by
      rw [checkEntry, if_neg (by decide), hbox _ (by decide) (by decide)]
      rfl
    have hchecked : checkContainment (setLocation ball 2 1)
        (fun id => (none : Option Links).isNone && balled.shares id) = .ok () := by
      refine forM_ok fun entry hmem => ?_
      obtain rfl | rfl | rfl : entry = (0, ⟨0, .Room, none, ∅⟩) ∨ entry = (1, ⟨1, .Thing, some 0, ∅⟩) ∨
          entry = (2, ⟨2, .Thing, some 1, ∅⟩) := by
        have hentries : (setLocation ball 2 1).entries =
            [(0, ⟨0, .Room, none, ∅⟩), (1, ⟨1, .Thing, some 0, ∅⟩), (2, ⟨2, .Thing, some 1, ∅⟩)] := rfl
        simpa [hentries] using hmem
      · rfl
      · rfl
      · exact hentry
    have hwalk : walk box (emptyLinks box) 1 false (-1) ∅ = .ok [] := by
      rw [walk]
      rfl
    have hlinks : ∃ links, relationships box (setLocation ball 2 1) (emptyLinks box) = .ok links := by
      refine ⟨((emptyLinks box).write 2 (LinkSlots.setNext (-1))).writeList 1 false [2], ?_⟩
      have hrelist : ∀ links, relist box (emptyLinks box) 1 false (setLocation ball 2 1) links =
          .ok (links.writeList 1 false [2]) := by
        intro links
        have hhead : (emptyLinks box).head 1 false = -1 := by decide
        rw [relist, hhead, hwalk]
        rfl
      exact bind_ok (hrelist _) rfl
    obtain ⟨links, hlinks⟩ := hlinks
    refine ⟨(true, links), ?_⟩
    unfold saveObjects
    rw [if_neg (by decide)]
    exact bind_ok hchecked (bind_ok hlinks rfl)
  obtain ⟨result, hsave⟩ := hsave
  exact ⟨containment_forest.1 OrderedMap.empty _ hempty ((hboxed.tail hthird).tail (.move ball 2 1 hmove)), result, hsave,
    containment_forest.2 _ _ _ _ _ _ _ (contains_of_step _ _ (contains_of_step _ _ hempty hfirst) hsecond).acyclic hsave⟩

end StompyMux.World
