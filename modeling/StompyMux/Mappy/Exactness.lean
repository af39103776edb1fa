import StompyMux.Library.Transition
import StompyMux.Map.RoundTrip
import StompyMux.Mappy.Refinement

-- The history of an edited map is exact.
namespace StompyMux.Mappy

open Library Library.Fallible Library.History Library.Toml
open StompyMux.Map

variable {Spec : Type}

-- A document that has just been made, read or generated.
inductive Opened (editor : Editor Spec) : Document Spec → Prop
  | new (next : Nat) (width height : UInt16) (document : Document Spec)
      (h : editor.new next width height = .ok document) : Opened editor document
  | file (next : Nat) (path : String) (source : List Char) (document : Document Spec)
      (h : editor.open next path source = .ok document) : Opened editor document
  | preview (next : Nat) (map : MapAsset) (h : map.hexes.length = map.width.toNat * map.height.toNat) :
      Opened editor (editor.preview next map)

section Opened

variable [DecidableEq Spec] (editor : Editor Spec)

omit [DecidableEq Spec] in
theorem refines_fromMap (next : Nat) (path : Option String) {map : MapAsset} (spec : Option Spec)
    (h : map.hexes.length = map.width.toNat * map.height.toNat) :
    Refines editor { editor.fromMap next path map with spec := spec }
        (Session.opened ({ editor.fromMap next path map with spec := spec } : Document Spec).content) ∧
      ({ editor.fromMap next path map with spec := spec } : Document Spec).content.Sound :=
  ⟨⟨rfl, rfl, ⟨rfl, rfl, rfl⟩, trivial, trivial, fun _ => rfl⟩, ⟨h, rfl, rfl, rfl⟩⟩

omit [DecidableEq Spec] in
theorem Opened.refines {document : Document Spec} (h : Opened editor document) :
    Refines editor document (Session.opened document.content) ∧ document.content.Sound := by
  cases h with
  | new next width height document h =>
      obtain ⟨-, hnew⟩ := ok_of_ensure h
      injection hnew with hnew
      subst hnew
      exact refines_fromMap editor next none none List.length_replicate
  | file next path source document h =>
      obtain ⟨map, hmap, hrest⟩ := ok_of_bind h
      obtain ⟨spec, -, hdocument⟩ := ok_of_bind hrest
      injection hdocument with hdocument
      subst hdocument
      obtain ⟨file, -, hbuild⟩ := ok_of_bind (ok_of_withContext hmap)
      have hvalid := MapAsset.build_valid (by decide) hbuild
      exact refines_fromMap editor next (some path) spec hvalid.count
  | preview next map h => exact refines_fromMap editor next none none h

end Opened

namespace Document

variable (document : Document Spec)

def Idle : Prop :=
  document.stroke = OrderedMap.empty ∧ document.settingsDrag = none ∧ document.annotationsDrag = none

-- At most one stroke or drag is in progress.
def Single : Prop :=
  (document.stroke = OrderedMap.empty ∨ document.settingsDrag = none) ∧
    (document.stroke = OrderedMap.empty ∨ document.annotationsDrag = none) ∧
    (document.settingsDrag = none ∨ document.annotationsDrag = none)

end Document

section Run

variable [DecidableEq Spec] (editor : Editor Spec)

def runFrom (document : Document Spec) (operations : List (Operation Spec)) : Option (Document Spec) :=
  Transition.run (Document.perform editor) document operations

def session (document : Document Spec) (operations : List (Operation Spec)) :
    Session Kind (Content Spec) :=
  (Session.opened document.content).run (operations.map (Operation.action editor))

variable {document : Document Spec} {s : Session Kind (Content Spec)}

omit [DecidableEq Spec] in
theorem Refines.single (h : Refines editor document s) : document.Single := by
  have hprogress := h.progress
  cases hrunning : s.running with
  | none =>
      rw [hrunning] at hprogress
      exact ⟨Or.inl hprogress.1, Or.inl hprogress.1, Or.inl hprogress.2.1⟩
  | some running =>
      obtain ⟨kind, start⟩ := running
      rw [hrunning] at hprogress
      cases kind with
      | Stroke => exact ⟨Or.inr hprogress.2.1, Or.inr hprogress.2.2, Or.inl hprogress.2.1⟩
      | Settings => exact ⟨Or.inl hprogress.2.1, Or.inl hprogress.2.1, Or.inr hprogress.2.2.2⟩
      | Annotations => exact ⟨Or.inl hprogress.2.1, Or.inl hprogress.2.1, Or.inl hprogress.2.2.1⟩

omit [DecidableEq Spec] in
-- A stroke that touched nothing left the map as it was.
theorem Refines.settled (h : Refines editor document s) (hidle : document.Idle) : s.Settled := by
  obtain ⟨hstroke, hsettings, hannotations⟩ := hidle
  have hprogress := h.progress
  unfold Session.Settled Session.base
  cases hrunning : s.running with
  | none => rfl
  | some running =>
      obtain ⟨kind, start⟩ := running
      rw [hrunning] at hprogress
      cases kind with
      | Stroke =>
          have hstroked := hprogress.1
          rw [h.content] at hstroked
          exact hstroked.eq_iff_changes.mpr (by rw [hstroke]; rfl)
      | Settings => simp [hprogress.2.2.1] at hsettings
      | Annotations => simp [hprogress.2.2.2] at hannotations

theorem refines_run (operations : List (Operation Spec))
    (hcovered : ∀ operation ∈ operations, operation.Covered) (document : Document Spec)
    (s : Session Kind (Content Spec)) (h : Refines editor document s)
    (hsound : s.Holds Content.Sound) : ∃ next, runFrom editor document operations = some next ∧
      Refines editor next (s.run (operations.map (Operation.action editor))) ∧
      (s.run (operations.map (Operation.action editor))).Holds Content.Sound := by
  induction operations generalizing document s with
  | nil => exact ⟨document, rfl, h, hsound⟩
  | cons operation operations ih =>
      obtain ⟨next, hperform, hrefines⟩ := refines_perform editor operation h hsound
      have hkeeps := keeps_sound editor (hcovered operation List.mem_cons_self)
      obtain ⟨last, hrun, hlast⟩ := ih (fun other hmem => hcovered other (List.mem_cons_of_mem _ hmem))
        next _ hrefines (s.holds_step Content.Sound hsound _ hkeeps)
      refine ⟨last, ?_, hlast⟩
      exact (Transition.run_cons_eq_some _ _ _ _ _).mpr ⟨next, hperform, hrun⟩

theorem session_append (opened : Document Spec) (operations rest : List (Operation Spec)) :
    session editor opened (operations ++ rest) =
      (session editor opened operations).run (rest.map (Operation.action editor)) := by
  unfold session
  rw [List.map_append, Session.run_append]

omit [DecidableEq Spec] in
theorem action_not_undo {operation : Operation Spec} (hundo : operation ≠ .undo)
    (hredo : operation ≠ .redo) : (operation.action editor).isUndoOrRedo = false := by
  cases operation with
  | undo => contradiction
  | redo => contradiction
  | resize width height columns rows =>
      unfold Operation.action
      dsimp only
      split <;> rfl
  | paint | endStroke | setSettings | dragSettings | setPoints | dragPoints | setRegions
  | dragRegions | generate | save => rfl

-- In every run of the editor, some undos give back what was current as many boundaries earlier, and
-- redos what they took back, as long as no new edit is recorded.
theorem history_exact (opened : Document Spec) (hopened : Opened editor opened)
    (operations : List (Operation Spec)) (hcovered : ∀ operation ∈ operations, operation.Covered) :
    ∃ document, runFrom editor opened operations = some document ∧
      document.content = (session editor opened operations).content ∧
      document.Single ∧
      document.regionHexes = editor.memberHexes document.map.regions ∧
      (document.dirty = false → document.Idle →
        document.content = (session editor opened operations).saved) ∧
      (document.Idle → ∀ k earlier, (session editor opened operations).before k = some earlier →
        ∃ undone, runFrom editor document (List.replicate k .undo) = some undone ∧
          undone.content = earlier ∧ undone.Idle ∧
          ∀ quiet : List (Operation Spec),
            (∀ operation ∈ quiet, operation.Covered ∧ operation ≠ .undo ∧ operation ≠ .redo) →
            ∃ still, runFrom editor undone quiet = some still ∧
              ((session editor opened (operations ++ List.replicate k .undo ++ quiet)).recorded =
                  (session editor opened (operations ++ List.replicate k .undo)).recorded →
                still.Idle → still.content = earlier ∧ ∀ j ≤ k, ∃ redone,
                  runFrom editor still (List.replicate j .redo) = some redone ∧
                  some redone.content = (session editor opened operations).before (k - j))) := by
  obtain ⟨hfirst, hfirstSound⟩ := hopened.refines editor
  obtain ⟨document, hrun, hrefines, hsound⟩ := refines_run editor operations hcovered opened _ hfirst
    ⟨hfirstSound, hfirstSound, by simp [Session.opened], by simp [Session.opened]⟩
  refine ⟨document, hrun, hrefines.content, hrefines.single editor, hrefines.cached, ?_, ?_⟩
  · intro hclean hidle
    have hsettled := hrefines.settled editor hidle
    exact (hrefines.content.trans hsettled.symm).trans (hrefines.clean hclean)
  · intro hidle k earlier hk
    have hsettled := hrefines.settled editor hidle
    have hreplicate (n : Nat) (operation : Operation Spec) :
        (List.replicate n operation).map (Operation.action editor) =
          List.replicate n (operation.action editor) := List.map_replicate
    obtain ⟨undone, hundo, hundone, hundoneSound⟩ := refines_run editor (List.replicate k .undo)
      (fun operation hmem => by rw [List.eq_of_mem_replicate hmem]; trivial) document _ hrefines hsound
    rw [hreplicate] at hundone hundoneSound
    obtain ⟨hcontent, -⟩ := Session.run_undo k _ hsettled hk
    refine ⟨undone, hundo, hundone.content.trans hcontent, ?_, ?_⟩
    · cases k with
      | zero =>
          cases hundo
          exact hidle
      | succ k => exact hundone.rest editor (Session.running_run_undo k _)
    · intro quiet hquiet
      obtain ⟨still, hstill, hrest, hrestSound⟩ := refines_run editor quiet
        (fun operation hmem => (hquiet operation hmem).1) undone _ hundone hundoneSound
      refine ⟨still, hstill, ?_⟩
      intro hrecorded hrestIdle
      rw [session_append, session_append, hreplicate] at hrecorded
      have hnotUndo : ∀ action ∈ quiet.map (Operation.action editor), action.isUndoOrRedo = false := by
        intro action hmem
        obtain ⟨operation, hoperation, rfl⟩ := List.mem_map.mp hmem
        exact action_not_undo editor (hquiet operation hoperation).2.1
          (hquiet operation hoperation).2.2
      have hback (j : Nat) (hj : j ≤ k) := Session.run_undo_redo hj hsettled hk hnotUndo hrecorded (hrest.settled editor hrestIdle)
      refine ⟨hrest.content.trans (hback 0 (Nat.zero_le k)).1, ?_⟩
      intro j hj
      obtain ⟨redone, hredo, hredone, -⟩ := refines_run editor (List.replicate j .redo)
        (fun operation hmem => by rw [List.eq_of_mem_replicate hmem]; trivial) still _ hrest hrestSound
      rw [hreplicate] at hredone
      refine ⟨redone, hredo, ?_⟩
      rw [hredone.content]
      exact (hback j hj).2

end Run

-- Specs are not told apart, and a region is the hexes of its corners.
def plainEditor : Editor Unit where
  hexes := fun region => .ok (region.corners.map (fun corner => ⟨corner.1.toNat, corner.2.toNat⟩))
  toml := ⟨fun _ => none, fun _ => none, id⟩
  toString := fun _ => .ok ['{', '}']
  fromStr := fun _ => .ok ()

def blankDocument : Document Unit :=
  plainEditor.fromMap 1 none
    { width := 2
      height := 1
      flags := 0
      gravity := 100
      temperature := 20
      light := none
      weather := none
      wind := none
      hexes := [Hex.atLevel 0, Hex.atLevel 0]
      pointsOfInterest := []
      regions := [] }

-- A stroke that a drag interrupts, and a region.
def fewOperations : List (Operation Unit) :=
  [.paint ⟨0, 0⟩ 1 (fun hex => { hex with level := 3 }),
    .dragSettings { blankDocument.settings with gravity := 20 },
    .setRegions [⟨['z'], ['z'], [(1, 0)]⟩]]

theorem history_exact_blank : ∃ document undone,
    runFrom plainEditor blankDocument fewOperations = some document ∧
    document.regionHexes = [[⟨1, 0⟩]] ∧
    runFrom plainEditor document (List.replicate 3 .undo) = some undone ∧
    undone.content = blankDocument.content := by
  obtain ⟨document, hrun, hcontent, -, hregions, -, hundo⟩ := history_exact plainEditor blankDocument
    (Opened.new 1 2 1 blankDocument rfl) fewOperations
    (by simp [fewOperations, Operation.Covered])
  have hidle : (runFrom plainEditor blankDocument fewOperations).all (fun document =>
      document.stroke = OrderedMap.empty && document.settingsDrag.isNone &&
        document.annotationsDrag.isNone) = true := by decide +kernel
  rw [hrun] at hidle
  simp only [Option.all_some, Bool.and_eq_true, decide_eq_true_eq, Option.isNone_iff_eq_none] at hidle
  obtain ⟨undone, hundone, hback, -⟩ := hundo ⟨hidle.1.1, hidle.1.2, hidle.2⟩ 3 blankDocument.content
    (by decide +kernel)
  have hmembers : document.content.map.regions = [⟨['z'], ['z'], [(1, 0)]⟩] := by
    rw [hcontent]
    decide +kernel
  refine ⟨document, undone, hrun, ?_, hundone, hback⟩
  rw [hregions]
  exact congrArg plainEditor.memberHexes hmembers

end StompyMux.Mappy
