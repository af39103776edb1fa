import Mathlib.Data.Finset.Card
import Mathlib.Data.Prod.Lex
import StompyMux.World.Object

-- The containment lists of the object table, and how a save and a repair rewrite them.
namespace StompyMux.World

open Library

-- The text of a failure.
abbrev Error := String

structure LinkSlots where
  -- head of the object's contents list
  contents : Int
  -- head of a container's exit list, or an exit object's source
  exits : Int
  -- next member in the containing list
  next : Int
  deriving DecidableEq

namespace LinkSlots

def EMPTY : LinkSlots := ⟨-1, -1, -1⟩

def head (slots : LinkSlots) (exits : Bool) : Int := if exits then slots.exits else slots.contents

def setHead (exits : Bool) (value : Int) (slots : LinkSlots) : LinkSlots :=
  if exits then { slots with exits := value } else { slots with contents := value }

def setNext (value : Int) (slots : LinkSlots) : LinkSlots := { slots with next := value }

end LinkSlots

abbrev Links := OrderedMap ObjectId LinkSlots

namespace Links

def slots (links : Links) (id : ObjectId) : LinkSlots := (links.get? id).getD .EMPTY

-- A missing row is created empty.
def write (links : Links) (id : ObjectId) (f : LinkSlots → LinkSlots) : Links :=
  links.insert id (f (links.slots id))

def head (links : Links) (container : ObjectId) (exits : Bool) : Int :=
  (links.slots container).head exits

def next (links : Links) (id : ObjectId) : Int := (links.slots id).next

def writeNexts : List ObjectId → Links → Links
  | [], links => links
  | id :: rest, links => writeNexts rest (links.write id (LinkSlots.setNext (rest.headD (-1))))

def writeList (links : Links) (container : ObjectId) (exits : Bool) (order : List ObjectId) : Links :=
  writeNexts order (links.write container (LinkSlots.setHead exits (order.headD (-1))))

end Links

def Kind.holds : Kind → Bool
  | .Room | .Player | .Thing => true
  | _ => false

def Kind.listed (exits : Bool) : Kind → Bool
  | .Exit => exits
  | .Player | .Thing => !exits
  | _ => false

-- The objects a list chains, by the save's notion of its kind, in ascending order.
def members (w : World) (container : ObjectId) (exits : Bool) : List ObjectId :=
  (w.entries.filter (fun entry => entry.2.location = some container &&
    (entry.2.kind = .Exit : Bool) = exits)).map Prod.fst

-- Surviving members keep their order; the others follow in ascending order.
def settle (order present : List ObjectId) : List ObjectId :=
  let retained := order.filter (fun id => id ∈ present)
  retained ++ present.filter (fun id => id ∉ retained)

-- The objects a walk has not met yet.
def unseen (w : World) (seen : Finset ObjectId) : Nat := (w.keys.toFinset \ seen).card

theorem unseen_lt {w : World} {seen : Finset ObjectId} {id : ObjectId} {o : Object}
    (ho : w.get? id = some o) (hs : id ∉ seen) : unseen w (insert id seen) < unseen w seen := by
  have hkey : id ∈ w.keys := by
    have hentry := (w.get?_eq_some_iff id o).mp ho
    exact List.mem_map_of_mem hentry
  have hmem : id ∈ w.keys.toFinset \ seen :=
    Finset.mem_sdiff.mpr ⟨List.mem_toFinset.mpr hkey, hs⟩
  apply Finset.card_lt_card
  rw [Finset.ssubset_iff_of_subset]
  · exact ⟨id, hmem, fun h => (Finset.mem_sdiff.mp h).2 (Finset.mem_insert_self _ _)⟩
  · exact Finset.sdiff_subset_sdiff (Finset.Subset.refl _) (Finset.subset_insert _ _)

section Save

variable (before : World) (raw : Links) (container : ObjectId) (exits : Bool)

def listName : String := if exits then "exit" else "contents"

-- The members of a stored list, each checked against the world it was stored for.
def walk (next : Int) (seen : Finset ObjectId) : Except Error (List ObjectId) :=
  if 0 ≤ next then
    if next ∈ seen then
      .error ("cycle in " ++ listName exits ++ " list of #" ++ toString container)
    else
      match _ : before.get? next with
      | none => .error ("missing linked object #" ++ toString next)
      | some o =>
          if ¬ (o.location = some container ∧ (o.kind = .Exit : Bool) = exits) then
            .error ("inconsistent list member #" ++ toString next ++ " in #" ++ toString container)
          else
            match raw.get? next with
            | none => .error "linked object row missing"
            | some slots => (walk slots.next (insert next seen)).map (fun rest => next :: rest)
  else .ok []
termination_by unseen before seen
decreasing_by exact unseen_lt ‹_› (by assumption)

variable (after : World)

def relist (links : Links) : Except Error Links :=
  match walk before raw container exits (raw.head container exits) ∅ with
  | .error e => .error e
  | .ok ordered =>
      if ordered.toFinset ≠ (members before container exits).toFinset then
        .error ("incomplete containment list at #" ++ toString container)
      else .ok (links.writeList container exits (settle ordered (members after container exits)))

end Save

-- Lists by container and kind, in ascending order.
abbrev Affected := OrderedMap (ObjectId ×ₗ Bool) Unit

def touch (o : Object) (affected : Affected) : Affected :=
  match o.location with
  | some container => affected.insert (toLex (container, (o.kind = .Exit : Bool))) ()
  | none => affected

def unmoved (before : World) (id : ObjectId) (o : Object) : Bool :=
  (before.get? id).any (fun old => old.kind = o.kind && old.location = o.location)

-- A new or moved object leaves its list and asks for the lists it was and is on.
def noteMove (before : World) (state : Links × Affected) (entry : ObjectId × Object) :
    Links × Affected :=
  if unmoved before entry.1 entry.2 then state
  else
    let left := match before.get? entry.1 with
      | some old => touch old state.2
      | none => state.2
    (state.1.write entry.1 (LinkSlots.setNext (-1)), touch entry.2 left)

-- Validate and update only the containment lists whose membership changed.
def relationships (before after : World) (raw : Links) : Except Error Links :=
  let noted := after.entries.foldl (noteMove before) (raw, OrderedMap.empty)
  noted.2.keys.foldlM (fun links key =>
    relist before raw (ofLex key).1 (ofLex key).2 after links) noted.1

section Rebuild

variable (w : World) (raw : Links)

-- The usable beginning of a stored list.
def chain (exits : Bool) (next : Int) (seen : Finset ObjectId) : List ObjectId :=
  if 0 ≤ next then
    if next ∈ seen then []
    else
      match _ : w.get? next with
      | none => []
      | some o =>
          if ¬ o.kind.listed exits then []
          else next :: chain exits (raw.next next) (insert next seen)
  else []
termination_by unseen w seen
decreasing_by exact unseen_lt ‹_› (by assumption)

def relationMembers (owner : ObjectId) (exits : Bool) : List ObjectId :=
  (w.entries.filter (fun entry => entry.2.location = some owner &&
    entry.2.kind.listed exits)).map Prod.fst

def orderedMembers (owner : ObjectId) (exits : Bool) : List ObjectId :=
  settle (chain w raw exits (raw.head owner exits) ∅) (relationMembers w owner exits)

def emptyLinks : Links where
  entries := w.entries.map (fun entry => (entry.1, LinkSlots.EMPTY))
  sorted := List.pairwise_map.mpr w.sorted

-- An exit's source, and a container's two lists.
def rebuildObject (links : Links) (entry : ObjectId × Object) : Links :=
  let sourced := if entry.2.kind = .Exit then
      links.write entry.1 (LinkSlots.setHead true (entry.2.location.getD (-1)))
    else links
  if entry.2.kind.holds then
    [false, true].foldl (fun links exits =>
      links.writeList entry.1 exits (orderedMembers w raw entry.1 exits)) sourced
  else sourced

-- Rebuild every list, keeping surviving members in their existing order.
def rebuildLinks : Links := w.entries.foldl (rebuildObject w raw) (emptyLinks w)

end Rebuild

end StompyMux.World
