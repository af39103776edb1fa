import Mathlib.Data.List.Forall2
import StompyMux.Commands.Queue

-- Everything but an admission only removes lists and shortens their texts.
namespace StompyMux.Commands

open Library Library.Text
open StompyMux.World

-- The same list, later.
structure Remains (later earlier : Nat × Entry) : Prop where
  id : later.1 = earlier.1
  entry : later.2 = { earlier.2 with text := later.2.text }
  text : utf8Len later.2.text ≤ utf8Len earlier.2.text

instance : Std.Refl Remains := ⟨fun _ => ⟨rfl, rfl, Nat.le_refl _⟩⟩

instance : IsTrans (Nat × Entry) Remains where
  trans _ _ _ h h' := ⟨h.id.trans h'.id, by rw [h.entry, h'.entry], h.text.trans h'.text⟩

section

variable (later earlier : Nat × Entry) (h : Remains later earlier)

include h

theorem Remains.executor : later.2.executor = earlier.2.executor := by rw [h.entry]

theorem Remains.generation : later.2.generation = earlier.2.generation := by rw [h.entry]

end

section

variable (xs ys : List (Nat × Entry)) (h : List.SublistForall₂ Remains xs ys)

include h

theorem remains_mem {x : Nat × Entry} (hx : x ∈ xs) : ∃ y ∈ ys, Remains x y := by
  induction h with
  | nil => contradiction
  | @cons a b xs ys hab _ ih =>
      rcases List.mem_cons.mp hx with rfl | hx
      · exact ⟨b, List.mem_cons_self, hab⟩
      · obtain ⟨y, hy, hxy⟩ := ih hx
        exact ⟨y, List.mem_cons_of_mem _ hy, hxy⟩
  | cons_right _ ih =>
      obtain ⟨y, hy, hxy⟩ := ih hx
      exact ⟨y, List.mem_cons_of_mem _ hy, hxy⟩

theorem remains_bytes : ((xs.map Prod.snd).map (fun e => utf8Len e.text)).sum ≤
    ((ys.map Prod.snd).map (fun e => utf8Len e.text)).sum := by
  induction h with
  | nil => exact Nat.zero_le _
  | cons hab _ ih =>
      simp only [List.map_cons, List.sum_cons]
      exact Nat.add_le_add hab.text ih
  | cons_right _ ih =>
      simp only [List.map_cons, List.sum_cons]
      exact ih.trans (Nat.le_add_left _ _)

theorem remains_count (p : ObjectId) :
    ((xs.map Prod.snd).filter (fun e => e.executor = p)).length ≤
      ((ys.map Prod.snd).filter (fun e => e.executor = p)).length := by
  induction h with
  | nil => exact Nat.zero_le _
  | @cons a b xs ys hab _ ih =>
      simp only [List.map_cons, List.filter_cons, hab.executor a b]
      split
      · exact Nat.succ_le_succ ih
      · exact ih
  | cons_right _ ih =>
      simp only [List.map_cons, List.filter_cons]
      split
      · exact ih.trans (Nat.le_succ _)
      · exact ih

end

namespace Queue

-- From one queue to a later one without an admission.
structure Shrinks (q later : Queue) : Prop where
  entries : List.SublistForall₂ Remains later.entries.entries q.entries.entries
  next : later.next = q.next

section

variable (q later : Queue) (h : Shrinks q later)

include h

theorem Shrinks.totalBytes : later.totalBytes ≤ q.totalBytes :=
  remains_bytes _ _ h.entries

theorem Shrinks.count (p : ObjectId) : later.count p ≤ q.count p :=
  remains_count _ _ h.entries p

end

-- Some lists are gone, the others are as they were.
structure Drops (q later : Queue) : Prop where
  entries : later.entries.entries.Sublist q.entries.entries
  next : later.next = q.next

theorem Drops.shrinks (q later : Queue) (h : Drops q later) : Shrinks q later :=
  ⟨h.entries.sublistForall₂, h.next⟩

section

variable (q : Queue)

theorem drops_cancel (target : Option ObjectId) : Drops q (q.cancel target).2 :=
  ⟨List.filter_sublist, rfl⟩

theorem drops_reconcile (world : World) : Drops q (q.reconcile world) :=
  ⟨List.filter_sublist, rfl⟩

theorem mem_consume (p : ObjectId) {id : Nat} {e : Entry} (now : Instant)
    (he : (id, e) ∈ q.entries.entries) (j : Nat) (f : Entry) :
    (j, f) ∈ (q.consume p id e now).entries.entries ↔
      (j ≠ id ∧ (j, f) ∈ q.entries.entries) ∨
      (j = id ∧ ∃ rest, (separate .start e.text).2 = some rest ∧ f = { e with text := rest }) := by
  unfold consume
  cases hrest : (separate .start e.text).2 with
  | none =>
      refine (OrderedMap.mem_remove _ _ _).trans ⟨fun h => Or.inl ⟨h.2, h.1⟩, ?_⟩
      rintro (⟨hj, hf⟩ | ⟨-, rest, hnone, -⟩)
      · exact ⟨hf, hj⟩
      · contradiction
  | some rest =>
      refine (OrderedMap.mem_modify _ _ _ _ _).trans (or_congr Iff.rfl (and_congr Iff.rfl ?_))
      constructor
      · rintro ⟨w, hw, rfl⟩
        exact ⟨rest, rfl, by rw [q.entries.entry_unique id hw he]⟩
      · rintro ⟨later, hlater, rfl⟩
        injection hlater with hlater
        exact ⟨e, he, by rw [hlater]⟩

theorem shrinks_consume (p : ObjectId) {id : Nat} {e : Entry} (now : Instant)
    (he : (id, e) ∈ q.entries.entries) : Shrinks q (q.consume p id e now) := by
  refine ⟨?_, rfl⟩
  unfold consume
  cases hrest : (separate .start e.text).2 with
  | none => exact List.filter_sublist.sublistForall₂
  | some rest =>
      refine List.sublistForall₂_iff.mpr ⟨_, ?_, List.Sublist.refl _⟩
      refine List.forall₂_map_left_iff.mpr (List.forall₂_same.mpr (fun entry hentry => ?_))
      obtain ⟨j, f⟩ := entry
      split
      · rename_i hid
        subst hid
        rw [q.entries.entry_unique j hentry he]
        exact ⟨rfl, rfl, Nat.le_of_lt (separate_utf8Len hrest)⟩
      · exact Std.Refl.refl _

end

end Queue

end StompyMux.Commands

-- Whose turn it is and what a turn does.
namespace StompyMux.Commands

open Library
open StompyMux.World

namespace Queue

section

variable (q : Queue) (now : Instant)

theorem mem_readyAt (r : Ready) : r ∈ q.readyAt now ↔
    ∃ id e, (id, e) ∈ q.entries.entries ∧ e.due ≤ now ∧ readyOf id e = r := by
  unfold readyAt
  rw [List.mem_insertionSort, List.mem_map]
  constructor
  · rintro ⟨⟨id, e⟩, hmem, rfl⟩
    obtain ⟨hentry, hdue⟩ := List.mem_filter.mp hmem
    exact ⟨id, e, hentry, by simpa using hdue, rfl⟩
  · rintro ⟨id, e, hentry, hdue, rfl⟩
    exact ⟨(id, e), List.mem_filter.mpr ⟨hentry, by simpa using hdue⟩, rfl⟩

theorem readyAt_sorted : (q.readyAt now).Pairwise (· ≤ ·) :=
  List.pairwise_insertionSort _ _

theorem holds_iff (p : ObjectId) :
    q.holds p = true ↔ ∃ id e, (id, e) ∈ q.entries.entries ∧ e.executor = p := by
  unfold holds OrderedMap.values
  rw [List.any_eq_true]
  constructor
  · rintro ⟨e, he, hp⟩
    obtain ⟨⟨id, e'⟩, hentry, rfl⟩ := List.mem_map.mp he
    exact ⟨id, e', hentry, by simpa using hp⟩
  · rintro ⟨id, e, hentry, hp⟩
    exact ⟨e, List.mem_map.mpr ⟨(id, e), hentry, rfl⟩, by simpa using hp⟩

theorem lives_iff (world : World) (e : Entry) : lives world e = true ↔
    ∃ o, world.get? e.executor = some o ∧ o.generation = e.generation ∧ o.kind ≠ .Garbage := by
  unfold lives
  cases world.get? e.executor with
  | none => simp
  | some o => simp

theorem mem_reconcile (world : World) (id : Nat) (e : Entry) :
    (id, e) ∈ (q.reconcile world).entries.entries ↔
      (id, e) ∈ q.entries.entries ∧ lives world e = true :=
  OrderedMap.mem_retain _ _ _

end

section

variable (rotation : List ObjectId) (ready : List Ready)

def joining (rotation : List ObjectId) (r : Ready) : List ObjectId :=
  if r.executor ∈ rotation then rotation else rotation ++ [r.executor]

theorem mem_rotate (p : ObjectId) (h : p ∈ rotate rotation ready) :
    ∃ r ∈ ready, r.executor = p := by
  obtain ⟨-, hany⟩ := List.mem_filter.mp h
  obtain ⟨r, hr, hp⟩ := List.any_eq_true.mp hany
  exact ⟨r, hr, by simpa using hp⟩

theorem joining_front (r : Ready) : rotation <+: joining rotation r := by
  unfold joining
  split
  · exact List.prefix_rfl
  · exact List.prefix_append _ _

-- Executors join behind those already waiting.
theorem joinAll_front : rotation <+: ready.foldl joining rotation := by
  induction ready generalizing rotation with
  | nil => exact List.prefix_rfl
  | cons r ready ih => exact (joining_front rotation r).trans (ih (joining rotation r))

theorem joinAll_joins (r : Ready) (h : r ∈ ready) : r.executor ∈ ready.foldl joining rotation := by
  induction ready generalizing rotation with
  | nil => contradiction
  | cons first ready ih =>
      rcases List.mem_cons.mp h with rfl | h
      · refine (joinAll_front _ ready).subset ?_
        unfold joining
        split
        · assumption
        · exact List.mem_append_right _ List.mem_cons_self
      · exact ih (joining rotation first) h

theorem joinAll_nodup (h : rotation.Nodup) : (ready.foldl joining rotation).Nodup := by
  induction ready generalizing rotation with
  | nil => exact h
  | cons r ready ih =>
      refine ih (joining rotation r) ?_
      unfold joining
      split
      · exact h
      · rename_i hr
        exact List.nodup_append.mpr ⟨h, List.nodup_singleton _, fun p hp q hq => by
          rw [List.mem_singleton.mp hq]
          exact fun heq => hr (heq ▸ hp)⟩

theorem rotate_nodup (h : rotation.Nodup) : (rotate rotation ready).Nodup :=
  (joinAll_nodup rotation ready h).filter _

theorem rotate_joins {r : Ready} (h : r ∈ ready) : r.executor ∈ rotate rotation ready := by
  refine List.mem_filter.mpr ⟨joinAll_joins rotation ready r h, ?_⟩
  exact List.any_eq_true.mpr ⟨r, h, by simp⟩

end

section

variable (q : Queue) (world : World) (now : Instant)

structure Turn (p : ObjectId) (rotation : List ObjectId) (id : Nat) (e : Entry) (object : Object) :
    Prop where
  first : rotate (q.reconcile world).rotation ((q.reconcile world).readyAt now) = p :: rotation
  held : (id, e) ∈ q.entries.entries
  executor : e.executor = p
  due : e.due ≤ now
  -- no list of the executor comes before this one
  least : ∀ j f, (j, f) ∈ (q.reconcile world).entries.entries → f.executor = p → f.due ≤ now →
    readyOf id e ≤ readyOf j f
  present : world.get? p = some object
  generation : object.generation = e.generation
  kind : object.kind ≠ .Garbage

theorem Turn.lives (p : ObjectId) (rotation : List ObjectId) (id : Nat) (e : Entry)
    (object : Object) (h : Turn q world now p rotation id e object) : lives world e = true := by
  refine (lives_iff world e).mpr ⟨object, ?_, h.generation, h.kind⟩
  rw [h.executor]
  exact h.present

-- What the turn leaves.
def outcome (compress : Bool) (p : ObjectId) (rotation : List ObjectId) (id : Nat) (e : Entry)
    (object : Object) : Option Taken × Queue :=
  let kept := { q.reconcile world with rotation := rotation }
  if flagged object then (none, { kept with entries := kept.entries.remove id }.recount)
  else (some (taken id e compress), kept.consume p id e now)

-- A turn that runs a command changes only its list and what was dropped for good.
theorem mem_outcome (compress : Bool) {p : ObjectId} {rotation : List ObjectId} {id : Nat}
    {e : Entry} {object : Object} (h : Turn q world now p rotation id e object)
    (hr : ¬ flagged object) (j : Nat) (f : Entry) :
    (j, f) ∈ (q.outcome world now compress p rotation id e object).2.entries.entries ↔
      (j ≠ id ∧ (j, f) ∈ q.entries.entries ∧ lives world f = true) ∨
      (j = id ∧ ∃ rest, (separate .start e.text).2 = some rest ∧ f = { e with text := rest }) := by
  unfold outcome
  rw [if_neg hr]
  have hheld := (q.mem_reconcile world id e).mpr ⟨h.held, h.lives⟩
  have hconsume := mem_consume { q.reconcile world with rotation := rotation } p now hheld j f
  refine hconsume.trans (or_congr (and_congr Iff.rfl ?_) Iff.rfl)
  exact q.mem_reconcile world j f

theorem find_least {p : ObjectId} {r : Ready}
    (h : (q.readyAt now).find? (fun r => r.executor = p) = some r) {j : Nat} {f : Entry}
    (hmem : (j, f) ∈ q.entries.entries) (hp : f.executor = p) (hdue : f.due ≤ now) :
    r ≤ readyOf j f := by
  obtain ⟨-, before, rest, hsplit, hbefore⟩ := List.find?_eq_some_iff_append.mp h
  have hready := (q.mem_readyAt now (readyOf j f)).mpr ⟨j, f, hmem, hdue, rfl⟩
  rw [hsplit] at hready
  rcases List.mem_append.mp hready with hin | hin
  · have habsent := hbefore (readyOf j f) hin
    simp only [Ready.executor, readyOf, ofLex_toLex, hp, decide_true, Bool.not_true,
      Bool.false_eq_true] at habsent
  · rcases List.mem_cons.mp hin with heq | hin
    · exact le_of_eq heq.symm
    · have hsorted := q.readyAt_sorted now
      rw [hsplit] at hsorted
      exact (List.pairwise_cons.mp (List.pairwise_append.mp hsorted).2.1).1 _ hin

theorem take_cases (compress : Bool) :
    (rotate (q.reconcile world).rotation ((q.reconcile world).readyAt now) = [] ∧
      q.take now world compress = .ok (none, { q.reconcile world with rotation := [] })) ∨
    ∃ p rotation id e object, Turn q world now p rotation id e object ∧
      q.take now world compress = .ok (q.outcome world now compress p rotation id e object) := by
  unfold take
  dsimp only
  cases hrotation : rotate (q.reconcile world).rotation ((q.reconcile world).readyAt now) with
  | nil => exact Or.inl ⟨rfl, rfl⟩
  | cons p rotation =>
      obtain ⟨r, hr, hp⟩ := mem_rotate _ _ p (by rw [hrotation]; exact List.mem_cons_self)
      dsimp only
      cases hfind : ((q.reconcile world).readyAt now).find? (fun r => r.executor = p) with
      | none =>
          have habsent := List.find?_eq_none.mp hfind r hr
          simp [hp] at habsent
      | some first =>
          have hfirst : first.executor = p := by simpa using List.find?_some hfind
          obtain ⟨id, e, hmem, hdue, heq⟩ :=
            ((q.reconcile world).mem_readyAt now first).mp (List.mem_of_find?_eq_some hfind)
          have hexecutor : e.executor = p := by
            rw [← hfirst, ← heq]
            rfl
          obtain ⟨hentry, hlives⟩ := (q.mem_reconcile world id e).mp hmem
          obtain ⟨object, hobject, hgeneration, hkind⟩ := (lives_iff world e).mp hlives
          rw [hexecutor] at hobject
          have hid : first.id = id := by
            rw [← heq]
            rfl
          refine Or.inr ⟨p, rotation, id, e, object, ⟨hrotation, hentry, hexecutor, hdue, ?_, hobject,
            hgeneration, hkind⟩, ?_⟩
          · intro j f hf hfp hfdue
            rw [heq]
            exact (q.reconcile world).find_least now hfind hf hfp hfdue
          · have hget := ((q.reconcile world).entries.get?_eq_some_iff id e).mpr hmem
            unfold turn outcome
            dsimp only
            rw [hobject, hid]
            dsimp only
            by_cases hflags : flagged object
            · rw [if_pos hflags, if_pos hflags]
            · rw [if_neg hflags, if_neg hflags, hget]

theorem take_total (compress : Bool) : ∃ result, q.take now world compress = .ok result := by
  rcases take_cases q world now compress with ⟨-, h⟩ | ⟨p, rotation, id, e, object, -, h⟩
  · exact ⟨_, h⟩
  · exact ⟨_, h⟩

end

end Queue

end StompyMux.Commands
