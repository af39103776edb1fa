import StompyMux.Mappy.Sessions

-- How the log of the written hexes follows the hexes.
namespace StompyMux.Mappy

open Library Library.Fallible
open StompyMux.Map

variable {Spec : Type}

-- From the one document to the other, either the log went on and names every hex that changed, or
-- there is a new id.
structure Follows (before after : Document Spec) : Prop where
  next : before.feed.next ≤ after.feed.next
  bounded : before.feed.changes.length ≤ before.map.hexes.length →
    after.feed.changes.length ≤ after.map.hexes.length
  log : (after.feed.hexesId = before.feed.hexesId ∧
      after.map.hexes.length = before.map.hexes.length ∧
      ∃ more, after.feed.changes = before.feed.changes ++ more ∧
        ∀ i, i ∉ more → after.map.hexes[i]? = before.map.hexes[i]?) ∨
    (before.feed.next ≤ after.feed.hexesId ∧ after.feed.hexesId < after.feed.next)

namespace Follows

-- Nothing of what a renderer follows changed.
theorem of_same (before after : Document Spec) (hhexes : after.map.hexes = before.map.hexes)
    (hid : after.feed.hexesId = before.feed.hexesId)
    (hchanges : after.feed.changes = before.feed.changes)
    (hnext : before.feed.next ≤ after.feed.next) : Follows before after where
  next := hnext
  bounded := by
    rw [hhexes, hchanges]
    exact id
  log := Or.inl ⟨hid, by rw [hhexes], [], by rw [hchanges, List.append_nil], fun _ _ => by rw [hhexes]⟩

theorem refl (document : Document Spec) : Follows document document :=
  of_same document document rfl rfl rfl (Nat.le_refl _)

theorem trans (first second third : Document Spec) (h : Follows first second)
    (h' : Follows second third) : Follows first third where
  next := Nat.le_trans h.next h'.next
  bounded := fun hbounded => h'.bounded (h.bounded hbounded)
  log := by
    have hnext := h.next
    have hnext' := h'.next
    cases h'.log with
    | inr hnew => exact Or.inr ⟨by omega, hnew.2⟩
    | inl hsame =>
        obtain ⟨hid, hlength, more', hmore', hkept'⟩ := hsame
        cases h.log with
        | inr hnew =>
            rw [← hid] at hnew
            exact Or.inr ⟨hnew.1, by omega⟩
        | inl hold =>
            obtain ⟨hfirst, hcount, more, hmore, hkept⟩ := hold
            refine Or.inl ⟨hid.trans hfirst, hlength.trans hcount, more ++ more', ?_, ?_⟩
            · rw [hmore', hmore, List.append_assoc]
            · intro i hi
              rw [List.mem_append, not_or] at hi
              exact (hkept' i hi.2).trans (hkept i hi.1)

theorem foldlM {T : Type} (step : Document Spec → T → Option (Document Spec))
    (hstep : ∀ before item after, step before item = some after → Follows before after)
    (items : List T) (document next : Document Spec) (h : items.foldlM step document = some next) :
    Follows document next := by
  induction items generalizing document with
  | nil =>
      cases h
      exact refl _
  | cons item items ih =>
      rw [List.foldlM_cons] at h
      obtain ⟨middle, hmiddle, hrest⟩ := Option.bind_eq_some_iff.mp h
      exact trans _ _ _ (hstep document item middle hmiddle) (ih middle hrest)

end Follows

section Writes

variable (document next : Document Spec)

theorem setHex_follows {index : Nat} {hex : Hex} (h : document.setHex index hex = some next) :
    Follows document next := by
  unfold Document.setHex at h
  split at h
  next hin =>
    cases h
    unfold Feed.written
    split
    next hlong =>
      refine ⟨by simp [Feed.renewed], ?_, Or.inr ⟨by simp [Feed.renewed], by simp [Feed.renewed]⟩⟩
      simp [Feed.renewed]
      omega
    next hshort =>
      refine ⟨Nat.le_refl _, ?_, Or.inl ⟨rfl, List.length_set, [index], rfl, ?_⟩⟩
      · simp
        omega
      · intro i hi
        exact List.getElem?_set_ne (fun heq => hi (List.mem_singleton.mpr heq.symm))
  next => contradiction

theorem paintHex_follows (apply : Hex → Hex) (coordinate : HexCoordinate)
    (h : Document.paintHex apply document coordinate = some next) : Follows document next := by
  unfold Document.paintHex at h
  obtain ⟨before, -, h⟩ := Option.bind_eq_some_iff.mp h
  dsimp only at h
  split at h
  next =>
    cases h
    exact Follows.refl document
  next =>
    obtain ⟨painted, hpainted, h⟩ := Option.bind_eq_some_iff.mp h
    cases h
    have hfollows := setHex_follows document painted hpainted
    exact ⟨hfollows.next, hfollows.bounded, hfollows.log⟩

variable (editor : Editor Spec)

theorem setAnnotationValues_same (annotations : Annotations) :
    (document.setAnnotationValues editor annotations).map.hexes = document.map.hexes ∧
      (document.setAnnotationValues editor annotations).feed.hexesId = document.feed.hexesId ∧
      (document.setAnnotationValues editor annotations).feed.changes = document.feed.changes ∧
      document.feed.next ≤ (document.setAnnotationValues editor annotations).feed.next := by
  unfold Document.setAnnotationValues
  dsimp only
  split
  · exact ⟨rfl, rfl, rfl, Nat.le_refl _⟩
  · exact ⟨rfl, rfl, rfl, Nat.le_succ _⟩

theorem setAnnotationValues_follows (annotations : Annotations) :
    Follows document (document.setAnnotationValues editor annotations) := by
  obtain ⟨hhexes, hid, hchanges, hnext⟩ := setAnnotationValues_same document editor annotations
  exact Follows.of_same _ _ hhexes hid hchanges hnext

theorem setExtent_follows (extent : Extent) : Follows document (document.setExtent editor extent) := by
  obtain ⟨-, -, -, hnext⟩ := setAnnotationValues_same { document with
    map.width := extent.width
    map.height := extent.height
    map.hexes := extent.hexes } editor extent.annotations
  exact ⟨Nat.le_succ_of_le hnext, fun _ => Nat.zero_le _, Or.inr ⟨hnext, Nat.lt_succ_self _⟩⟩

theorem apply_follows {edit : Edit Spec} {forward : Bool}
    (h : document.apply editor edit forward = some next) : Follows document next := by
  cases edit with
  | Hexes changes =>
      exact Follows.foldlM _ (fun document change next h => setHex_follows document next h)
        changes document next h
  | Settings before after =>
      cases h
      exact Follows.of_same _ _ rfl rfl rfl (Nat.le_refl _)
  | Annotations before after =>
      cases h
      exact setAnnotationValues_follows document editor _
  | Resize before after =>
      cases h
      exact setExtent_follows document editor _
  | Generate before after =>
      cases h
      have hextent := setExtent_follows document editor (if forward then after else before).extent
      exact ⟨hextent.next, hextent.bounded, hextent.log⟩

end Writes

section Ends

variable (document : Document Spec)

-- What does not touch the hexes or their log.
structure Still (before after : Document Spec) : Prop where
  hexes : after.map.hexes = before.map.hexes
  feed : after.feed = before.feed

theorem Still.follows (before after : Document Spec) (h : Still before after) : Follows before after :=
  Follows.of_same before after h.hexes (by rw [h.feed]) (by rw [h.feed]) (by rw [h.feed])

theorem endSettingsDrag_still : Still document document.endSettingsDrag := by
  unfold Document.endSettingsDrag
  split
  · exact ⟨rfl, rfl⟩
  · dsimp only
    split <;> exact ⟨rfl, rfl⟩

theorem endAnnotationsDrag_still : Still document document.endAnnotationsDrag := by
  unfold Document.endAnnotationsDrag
  split
  · exact ⟨rfl, rfl⟩
  · dsimp only
    split <;> exact ⟨rfl, rfl⟩

theorem endDrags_still : Still document document.endSettingsDrag.endAnnotationsDrag := by
  have hsettings := endSettingsDrag_still document
  have hannotations := endAnnotationsDrag_still document.endSettingsDrag
  exact ⟨hannotations.hexes.trans hsettings.hexes, hannotations.feed.trans hsettings.feed⟩

theorem endStroke_still : Still document document.endStroke := by
  have hdrags := endDrags_still document
  unfold Document.endStroke
  dsimp only
  split <;> exact ⟨hdrags.hexes, hdrags.feed⟩

end Ends

section Perform

variable (editor : Editor Spec) (document next : Document Spec)

theorem followed (document ended : Document Spec) (hend : Still document ended)
    (h : Follows ended next) : Follows document next :=
  Follows.trans _ _ _ (hend.follows _ _) h

theorem made_follows {edit : Edit Spec} {forward : Bool} {note : Document Spec → Document Spec}
    {ended : Document Spec} (h : (ended.apply editor edit forward).map note = some next)
    (hnote : ∀ applied, Still applied (note applied)) : Follows ended next := by
  obtain ⟨applied, happly, rfl⟩ := Option.map_eq_some_iff.mp h
  exact Follows.trans _ _ _ (apply_follows ended applied editor happly)
    ((hnote applied).follows _ _)

theorem perform_follows {operation : Operation Spec}
    (h : document.perform editor operation = some next) : Follows document next := by
  have hend := endStroke_still document
  have hset (annotations : Annotations) :
      Follows document (document.setAnnotations editor annotations) := by
    unfold Document.setAnnotations
    dsimp only
    split
    · exact hend.follows _ _
    · have hvalues := setAnnotationValues_follows document.endStroke editor annotations
      exact followed _ document _ hend ⟨hvalues.next, hvalues.bounded, hvalues.log⟩
  have hdrag (annotations : Annotations) :
      Follows document (document.dragAnnotations editor annotations) := by
    unfold Document.dragAnnotations
    refine followed _ document _ ?_ (setAnnotationValues_follows _ editor annotations)
    split
    · exact ⟨hend.hexes, hend.feed⟩
    · exact ⟨rfl, rfl⟩
  cases operation with
  | paint center radius apply =>
      refine followed _ document _ (endDrags_still document) ?_
      exact Follows.foldlM _ (fun document place next h => paintHex_follows document next apply place h)
        _ _ next h
  | endStroke =>
      cases h
      exact hend.follows _ _
  | setSettings after =>
      refine followed _ document _ hend ?_
      unfold Document.perform Document.setSettings at h
      dsimp only at h
      split at h
      · cases h
        exact Follows.refl _
      · exact made_follows editor next h (fun _ => ⟨rfl, rfl⟩)
  | dragSettings after =>
      unfold Document.perform Document.dragSettings at h
      refine followed _ document _ ?_ (apply_follows _ next editor h)
      split
      · exact ⟨hend.hexes, hend.feed⟩
      · exact ⟨rfl, rfl⟩
  | setPoints points | setRegions regions =>
      cases h
      exact hset _
  | dragPoints points | dragRegions regions =>
      cases h
      exact hdrag _
  | undo =>
      refine followed _ document _ hend ?_
      unfold Document.perform Document.undoEdit at h
      dsimp only at h
      split at h
      · cases h
        exact Follows.refl _
      · exact made_follows editor next h (fun _ => ⟨rfl, rfl⟩)
  | redo =>
      refine followed _ document _ hend ?_
      unfold Document.perform Document.redoEdit at h
      dsimp only at h
      split at h
      · cases h
        exact Follows.refl _
      · exact made_follows editor next h (fun _ => ⟨rfl, rfl⟩)
  | resize width height columns rows =>
      unfold Document.perform Document.resize at h
      dsimp only at h
      cases hrange : inRange width && inRange height with
      | false =>
          rw [hrange] at h
          cases h
          exact Follows.refl _
      | true =>
          rw [hrange, ensure_true_bind] at h
          refine followed _ document _ hend ?_
          by_cases hsize : (width, height) =
              (document.endStroke.map.width, document.endStroke.map.height)
          · rw [if_pos hsize] at h
            cases h
            exact Follows.refl _
          · rw [if_neg hsize] at h
            exact made_follows editor next h (fun _ => ⟨rfl, rfl⟩)
  | generate map spec =>
      unfold Document.perform Document.generate at h
      refine followed _ document _ hend ?_
      exact made_follows editor next h (fun _ => ⟨rfl, rfl⟩)
  | save path written =>
      cases h
      unfold Document.saveTo
      dsimp only
      split
      · exact hend.follows _ _
      · exact followed _ document _ hend (Follows.of_same _ _ rfl rfl rfl (Nat.le_refl _))

end Perform

end StompyMux.Mappy
