import StompyMux.Mappy.Exactness
import StompyMux.Mappy.Following

-- A renderer that keeps its own copy of the hexes of the documents that it shows.
namespace StompyMux.Mappy

open Library Library.Fallible
open StompyMux.Map

variable {Spec : Type}

structure Renderer where
  hexes : List Hex
  -- the id of the hexes that were read last, and how much of their log
  feedId : Option Nat
  applied : Nat
  deriving DecidableEq

namespace Renderer

def fresh : Renderer := ⟨[], none, 0⟩

def reread (seen hexes : List Hex) (indexes : List Nat) : List Hex :=
  indexes.foldl (fun seen index =>
    match hexes[index]? with
    | some hex => seen.set index hex
    | none => seen) seen

-- The entries after those already applied, while the id is the same.
def pending (renderer : Renderer) (feed : Feed) : Option (List Nat) :=
  if renderer.feedId = some feed.hexesId ∧ renderer.applied ≤ feed.changes.length then
    some (feed.changes.drop renderer.applied)
  else none

-- A renderer may read more again than it has to, such as whole rows.
def refresh (renderer : Renderer) (document : Document Spec) (also : List Nat) : Renderer where
  hexes :=
    match renderer.pending document.feed with
    | none => document.map.hexes
    | some pending => reread renderer.hexes document.map.hexes (pending ++ also)
  feedId := some document.feed.hexesId
  applied := document.feed.changes.length

theorem getElem?_reread (seen hexes : List Hex) (hlength : seen.length = hexes.length)
    (indexes : List Nat) (i : Nat) :
    (reread seen hexes indexes)[i]? = if i ∈ indexes then hexes[i]? else seen[i]? := by
  induction indexes generalizing seen with
  | nil => rfl
  | cons index indexes ih =>
      have hstep : reread seen hexes (index :: indexes) =
          reread (match hexes[index]? with
            | some hex => seen.set index hex
            | none => seen) hexes indexes := rfl
      rw [hstep]
      cases hget : hexes[index]? with
      | none =>
          have hout : hexes.length ≤ index := List.getElem?_eq_none_iff.mp hget
          rw [ih seen hlength]
          by_cases hi : i = index
          · subst hi
            simp [hget, List.getElem?_eq_none (hlength ▸ hout)]
          · simp [hi]
      | some hex =>
          obtain ⟨hlt, heq⟩ := List.getElem?_eq_some_iff.mp hget
          rw [ih (seen.set index hex) (by rw [List.length_set, hlength])]
          by_cases hi : i = index
          · subst hi
            simp [heq, hlength, hlt]
          · simp [hi, List.getElem?_set_ne (Ne.symm hi)]

theorem reread_eq {seen hexes : List Hex} (hlength : seen.length = hexes.length)
    (indexes : List Nat) (hkept : ∀ i, i ∉ indexes → seen[i]? = hexes[i]?) :
    reread seen hexes indexes = hexes := by
  apply List.ext_getElem?
  intro i
  rw [getElem?_reread seen hexes hlength indexes i]
  split
  · rfl
  next hi => exact hkept i hi

-- What the renderer knows of a document whose hexes it has read.
def Knows (renderer : Renderer) (document : Document Spec) : Prop :=
  renderer.feedId = some document.feed.hexesId →
    renderer.applied ≤ document.feed.changes.length ∧
      renderer.hexes.length = document.map.hexes.length ∧
      ∀ i, i ∉ document.feed.changes.drop renderer.applied →
        renderer.hexes[i]? = document.map.hexes[i]?

theorem hexes_refresh {renderer : Renderer} {document : Document Spec} (also : List Nat)
    (h : renderer.Knows document) :
    (renderer.refresh document also).hexes = document.map.hexes := by
  unfold refresh pending
  by_cases hsame : renderer.feedId = some document.feed.hexesId
  · obtain ⟨happlied, hlength, hkept⟩ := h hsame
    rw [if_pos ⟨hsame, happlied⟩]
    apply reread_eq hlength
    intro i hi
    rw [List.mem_append, not_or] at hi
    exact hkept i hi.1
  · rw [if_neg (fun hboth => hsame hboth.1)]

theorem Knows.follows (renderer : Renderer) (before after : Document Spec)
    (h : renderer.Knows before) (hfollows : Follows before after)
    (hold : ∀ id, renderer.feedId = some id → id < before.feed.next) : renderer.Knows after := by
  intro hid
  cases hfollows.log with
  | inr hnew =>
      have hlt := hold _ hid
      omega
  | inl hsame =>
      obtain ⟨hsameId, hlength, more, hmore, hkept⟩ := hsame
      rw [hsameId] at hid
      obtain ⟨happlied, hcount, hknown⟩ := h hid
      rw [hmore, List.drop_append_of_le_length happlied, List.length_append]
      refine ⟨by omega, hcount.trans hlength.symm, ?_⟩
      intro i hi
      rw [List.mem_append, not_or] at hi
      exact (hknown i hi.1).trans (hkept i hi.2).symm

end Renderer

-- The documents that were opened, the counter that they share, and the renderer.
structure Screen (Spec : Type) where
  documents : List (Document Spec)
  next : Nat
  renderer : Renderer

inductive Event (Spec : Type) where
  | new (width height : UInt16)
  | file (path : String) (source : List Char)
  | preview (map : MapAsset)
  | perform (i : Nat) (operation : Operation Spec)
  | refresh (i : Nat) (also : List Nat)

namespace Screen

variable (editor : Editor Spec)

def start : Screen Spec := ⟨[], 1, Renderer.fresh⟩

def opened (screen : Screen Spec) (document : Document Spec) : Screen Spec :=
  { screen with documents := screen.documents ++ [document], next := document.feed.next }

-- Each operation takes its ids where the others left the counter.
def step (screen : Screen Spec) : Event Spec → Option (Screen Spec)
  | .new width height => (editor.new screen.next width height).toOption.map screen.opened
  | .file path source => (editor.open screen.next path source).toOption.map screen.opened
  | .preview map => some (screen.opened (editor.preview screen.next map))
  | .perform i operation => do
      let document ← screen.documents[i]?
      let document ← { document with feed.next := screen.next }.perform editor operation
      some { screen with
        documents := screen.documents.set i document
        next := document.feed.next }
  | .refresh i also => do
      let document ← screen.documents[i]?
      some { screen with renderer := screen.renderer.refresh document also }

-- No two documents have the same id, and none has one that is yet to come.
structure Sound (screen : Screen Spec) : Prop where
  ids : ∀ (i : Nat) (document : Document Spec), screen.documents[i]? = some document →
    document.feed.hexesId < screen.next
  distinct : ∀ (i j : Nat) (document other : Document Spec), screen.documents[i]? = some document →
    screen.documents[j]? = some other → document.feed.hexesId = other.feed.hexesId → i = j
  bounded : ∀ (i : Nat) (document : Document Spec), screen.documents[i]? = some document →
    document.feed.changes.length ≤ document.map.hexes.length
  old : ∀ id, screen.renderer.feedId = some id → id < screen.next
  knows : ∀ (i : Nat) (document : Document Spec), screen.documents[i]? = some document →
    screen.renderer.Knows document

theorem sound_start : (start : Screen Spec).Sound :=
  ⟨by simp [start], by simp [start], by simp [start], by simp [start, Renderer.fresh], by simp [start]⟩

theorem getElem?_snoc {T : Type} {items : List T} {item other : T} {i : Nat}
    (h : (items ++ [item])[i]? = some other) :
    items[i]? = some other ∨ (i = items.length ∧ other = item) := by
  rw [List.getElem?_append] at h
  split at h
  · exact Or.inl h
  next hge =>
    obtain ⟨hlt, heq⟩ := List.getElem?_eq_some_iff.mp h
    simp only [List.length_singleton] at hlt
    refine Or.inr ⟨by omega, ?_⟩
    simpa using heq.symm

-- A document that has just been opened has a new id and nothing in its log.
theorem sound_opened {screen : Screen Spec} (h : screen.Sound) {document : Document Spec}
    (hid : document.feed.hexesId = screen.next) (hchanges : document.feed.changes = [])
    (hnext : screen.next < document.feed.next) : (screen.opened document).Sound where
  ids := by
    intro i other hget
    cases getElem?_snoc hget with
    | inl hold => exact Nat.lt_trans (h.ids i other hold) hnext
    | inr hnew =>
        rw [hnew.2, hid]
        exact hnext
  distinct := by
    intro i j first second hfirst hsecond hsame
    cases getElem?_snoc hfirst with
    | inl hold =>
        cases getElem?_snoc hsecond with
        | inl hold' => exact h.distinct i j first second hold hold' hsame
        | inr hnew =>
            have := h.ids i first hold
            rw [hnew.2, hid] at hsame
            omega
    | inr hnew =>
        cases getElem?_snoc hsecond with
        | inl hold =>
            have := h.ids j second hold
            rw [hnew.2, hid] at hsame
            omega
        | inr hnew' => omega
  bounded := by
    intro i other hget
    cases getElem?_snoc hget with
    | inl hold => exact h.bounded i other hold
    | inr hnew =>
        rw [hnew.2, hchanges]
        exact Nat.zero_le _
  old := fun id hread => Nat.lt_trans (h.old id hread) hnext
  knows := by
    intro i other hget
    cases getElem?_snoc hget with
    | inl hold => exact h.knows i other hold
    | inr hnew =>
        intro hread
        have hlt := h.old _ hread
        rw [hnew.2, hid] at hlt
        omega

-- What an operation does to one document leaves the others as they are.
theorem sound_changed {screen : Screen Spec} (h : screen.Sound) {i : Nat}
    {before after : Document Spec} (hget : screen.documents[i]? = some before)
    (hfollows : Follows { before with feed.next := screen.next } after) :
    ({ screen with documents := screen.documents.set i after, next := after.feed.next } :
      Screen Spec).Sound := by
  have hnext : screen.next ≤ after.feed.next := hfollows.next
  have hset (j : Nat) (other : Document Spec) (hother : (screen.documents.set i after)[j]? = some other) :
      (j = i ∧ other = after) ∨ (j ≠ i ∧ screen.documents[j]? = some other) := by
    rw [List.getElem?_set] at hother
    split at hother
    next heq =>
      split at hother
      · exact Or.inl ⟨heq.symm, (Option.some.inj hother).symm⟩
      · contradiction
    next hne => exact Or.inr ⟨Ne.symm hne, hother⟩
  have hbefore := h.ids i before hget
  have hid : after.feed.hexesId = before.feed.hexesId ∨ screen.next ≤ after.feed.hexesId := by
    cases hfollows.log with
    | inl hsame => exact Or.inl hsame.1
    | inr hnew => exact Or.inr hnew.1
  have hlt : after.feed.hexesId < after.feed.next := by
    cases hfollows.log with
    | inl hsame =>
        have hsameId : after.feed.hexesId = before.feed.hexesId := hsame.1
        omega
    | inr hnew => exact hnew.2
  have hapart (j : Nat) (other : Document Spec) (hj : j ≠ i)
      (hother : screen.documents[j]? = some other) : after.feed.hexesId ≠ other.feed.hexesId := by
    intro heq
    have hfirst := h.ids j other hother
    cases hid with
    | inl hsame => exact hj (h.distinct j i other before hother hget (by omega))
    | inr hnew => omega
  constructor
  · intro j other hother
    cases hset j other hother with
    | inl hnew =>
        rw [hnew.2]
        exact hlt
    | inr hold => exact Nat.lt_of_lt_of_le (h.ids j other hold.2) hnext
  · intro j k first second hfirst hsecond hsame
    cases hset j first hfirst with
    | inl hnew =>
        cases hset k second hsecond with
        | inl hnew' => exact hnew.1.trans hnew'.1.symm
        | inr hold =>
            rw [hnew.2] at hsame
            exact absurd hsame (hapart k second hold.1 hold.2)
    | inr hold =>
        cases hset k second hsecond with
        | inl hnew =>
            rw [hnew.2] at hsame
            exact absurd hsame.symm (hapart j first hold.1 hold.2)
        | inr hold' => exact h.distinct j k first second hold.2 hold'.2 hsame
  · intro j other hother
    cases hset j other hother with
    | inl hnew =>
        rw [hnew.2]
        exact hfollows.bounded (h.bounded i before hget)
    | inr hold => exact h.bounded j other hold.2
  · intro id hread
    exact Nat.lt_of_lt_of_le (h.old id hread) hnext
  · intro j other hother
    cases hset j other hother with
    | inl hnew =>
        rw [hnew.2]
        exact Renderer.Knows.follows screen.renderer { before with feed.next := screen.next } after
          (h.knows i before hget) hfollows h.old
    | inr hold => exact h.knows j other hold.2

-- What the renderer has read, it knows until the next change.
theorem sound_refreshed {screen : Screen Spec} (h : screen.Sound) {i : Nat}
    {document : Document Spec} (hget : screen.documents[i]? = some document) (also : List Nat) :
    ({ screen with renderer := screen.renderer.refresh document also } : Screen Spec).Sound where
  ids := h.ids
  distinct := h.distinct
  bounded := h.bounded
  old := by
    intro id hread
    have hid : document.feed.hexesId = id := Option.some.inj hread
    rw [← hid]
    exact h.ids i document hget
  knows := by
    intro j other hother hread
    have hid : document.feed.hexesId = other.feed.hexesId := Option.some.inj hread
    have hsame := h.distinct i j document other hget hother hid
    subst hsame
    rw [hget] at hother
    cases hother
    have hexact := Renderer.hexes_refresh also (h.knows i document hget)
    exact ⟨Nat.le_refl _, congrArg List.length hexact, fun _ _ => by rw [hexact]⟩

theorem sound_step (screen next : Screen Spec) (event : Event Spec) (h : screen.Sound)
    (hstep : screen.step editor event = some next) : next.Sound := by
  have hmake (path : Option String) (map : MapAsset) (spec : Option Spec) :
      (screen.opened { editor.fromMap screen.next path map with spec := spec }).Sound :=
    sound_opened h rfl rfl (by
      simp only [Editor.fromMap, Document.regionsChanged, Feed.regionsRenewed]
      omega)
  cases event with
  | new width height =>
      obtain ⟨document, hnew, rfl⟩ := Option.map_eq_some_iff.mp hstep
      cases hmade : editor.new screen.next width height with
      | error e => simp [hmade, Except.toOption] at hnew
      | ok made =>
          simp only [hmade, Except.toOption, Option.some.injEq] at hnew
          subst hnew
          obtain ⟨-, hpure⟩ := ok_of_ensure hmade
          cases hpure
          exact hmake none _ none
  | file path source =>
      obtain ⟨document, hfile, rfl⟩ := Option.map_eq_some_iff.mp hstep
      cases hmade : editor.open screen.next path source with
      | error e => simp [hmade, Except.toOption] at hfile
      | ok made =>
          simp only [hmade, Except.toOption, Option.some.injEq] at hfile
          subst hfile
          obtain ⟨map, -, hrest⟩ := ok_of_bind hmade
          obtain ⟨spec, -, hpure⟩ := ok_of_bind hrest
          cases hpure
          exact hmake (some path) map spec
  | preview map =>
      cases hstep
      exact hmake none map none
  | perform i operation =>
      obtain ⟨document, hget, hrest⟩ := Option.bind_eq_some_iff.mp hstep
      obtain ⟨after, hperform, hsome⟩ := Option.bind_eq_some_iff.mp hrest
      cases hsome
      exact sound_changed h hget (perform_follows editor _ after hperform)
  | refresh i also =>
      obtain ⟨document, hget, hsome⟩ := Option.bind_eq_some_iff.mp hstep
      cases hsome
      exact sound_refreshed h hget also

-- Whenever the renderer looks at a document, it has the document's hexes afterwards; and no log is
-- longer than its map.
theorem renderer_exact (events : List (Event Spec)) (screen : Screen Spec)
    (hrun : Transition.run (step editor) start events = some screen) (i : Nat)
    (document : Document Spec) (hget : screen.documents[i]? = some document) :
    document.feed.changes.length ≤ document.map.hexes.length ∧
      ∀ also, ∃ refreshed,
        Transition.run (step editor) start (events ++ [.refresh i also]) = some refreshed ∧
          refreshed.documents = screen.documents ∧
          refreshed.renderer.hexes = document.map.hexes := by
  have hsound : screen.Sound := Transition.run_invariant (step editor) Sound
    (fun before event after h hstep => sound_step editor before after event h hstep) events start
    screen sound_start hrun
  refine ⟨hsound.bounded i document hget, fun also => ?_⟩
  refine ⟨{ screen with renderer := screen.renderer.refresh document also }, ?_, rfl, ?_⟩
  · rw [Transition.run_append, hrun]
    simp [Transition.run, step, hget]
  · exact Renderer.hexes_refresh also (hsound.knows i document hget)

-- Two strokes with a look in between; the second makes the log as long as the map.
def paintedEvents : List (Event Unit) :=
  [.new 2 1, .perform 0 (.paint ⟨0, 0⟩ 0 (fun hex => { hex with level := 3 })), .refresh 0 [],
    .perform 0 (.paint ⟨0, 0⟩ 1 (fun hex => { hex with level := 5 })), .perform 0 .undo]

theorem renderer_exact_painted : ∃ (screen : Screen Unit) (document : Document Unit),
    Transition.run (step plainEditor) start paintedEvents = some screen ∧
    screen.documents[0]? = some document ∧
    document.feed.changes.length ≤ document.map.hexes.length ∧
    ∃ refreshed, Transition.run (step plainEditor) start (paintedEvents ++ [.refresh 0 []]) =
        some refreshed ∧ refreshed.renderer.hexes = document.map.hexes := by
  have hsome : (Transition.run (step plainEditor) start paintedEvents).any (fun screen =>
      screen.documents[0]?.isSome) = true := by decide +kernel
  obtain ⟨screen, hrun, hdocument⟩ := (Option.any_eq_true _ _).mp hsome
  obtain ⟨document, hget⟩ := Option.isSome_iff_exists.mp hdocument
  obtain ⟨hbounded, hrefresh⟩ := renderer_exact plainEditor paintedEvents screen hrun 0 document hget
  obtain ⟨refreshed, hlast, -, hexact⟩ := hrefresh []
  exact ⟨screen, document, hrun, hget, hbounded, refreshed, hlast, hexact⟩

end Screen

end StompyMux.Mappy
