import StompyMux.Mappy.Sessions

-- The document refines the session, operation by operation.
namespace StompyMux.Mappy

open Library Library.Fallible Library.History
open StompyMux.Map

variable {Spec : Type} (editor : Editor Spec) {document : Document Spec}
  {s : Session Kind (Content Spec)}

section Parts

theorem Refines.ends (h : Refines editor document s) (hsound : s.Holds Content.Sound) :
    Ends editor document s.base document.endStroke := by
  have hprogress := h.progress
  have hcontent := h.content
  unfold Session.base
  split
  next kind start heq =>
    rw [heq] at hprogress
    cases kind with
    | Stroke => exact ends_stroke editor document start hprogress
    | Settings => exact (ends_settings editor document start hprogress (hcontent ▸ hsound.content)).1
    | Annotations => exact (ends_annotations editor document start hprogress).1
  next heq =>
    rw [heq] at hprogress
    exact ⟨fun _ => endStroke_none document hprogress, fun hne => absurd hcontent.symm hne⟩

theorem Refines.recorded (h : Refines editor document s) (edit : Edit Spec) (next : Content Spec)
    (hsettled : s.Settled) (hforward : Leads editor edit true s.content next)
    (hback : Leads editor edit false next s.content) (ended : Document Spec)
    (hcontent : ended.content = next) (hcached : ended.Cached editor)
    (hprogress : Progress ended none) (hundo : ended.undo = edit :: document.undo)
    (hredo : ended.redo = []) (hdirty : ended.dirty = true) :
    Refines editor ended { s.record s.content with content := next, running := none } where
  content := hcontent
  cached := hcached
  progress := hprogress
  undo := by
    rw [hundo]
    have hpast := h.undo
    rw [hsettled] at hpast
    exact ⟨hback, hforward, hpast⟩
  redo := by
    rw [hredo]
    trivial
  clean := fun hclean => by simp [hdirty] at hclean

theorem Refines.rest (h : Refines editor document s) (hnone : s.running = none) :
    document.stroke = OrderedMap.empty ∧ document.settingsDrag = none ∧
      document.annotationsDrag = none := by
  have hprogress := h.progress
  rw [hnone] at hprogress
  exact hprogress

theorem Refines.begins (h : Refines editor document s) (hnone : s.running = none) (kind : Kind)
    (current : Content Spec) (hcurrent : s.content = current) (begun : Document Spec) (hcontent : begun.content = document.content)
    (hcached : begun.Cached editor) (hundo : begun.undo = document.undo)
    (hredo : begun.redo = document.redo) (hdirty : begun.dirty = document.dirty)
    (hprogress : Progress begun (some (kind, current))) :
    Refines editor begun { s with running := some (kind, current) } := by
  subst hcurrent
  have hbase : s.base = s.content := Session.settled_of_running s hnone
  refine ⟨hcontent.trans h.content, hcached, hprogress, ?_, ?_, ?_⟩
  · rw [hundo]
    have hpast := h.undo
    rw [hbase] at hpast
    exact hpast
  · rw [hredo]
    have hfuture := h.redo
    rw [hbase] at hfuture
    exact hfuture
  · rw [hdirty]
    intro hclean
    exact hbase.symm.trans (h.clean hclean)

theorem Refines.goesOn (h : Refines editor document s) (kind : Kind) (start next : Content Spec)
    (hrunning : s.running = some (kind, start)) (changed : Document Spec)
    (hcontent : changed.content = next) (hcached : changed.Cached editor)
    (hundo : changed.undo = document.undo) (hredo : changed.redo = document.redo)
    (hdirty : changed.dirty = document.dirty) (hprogress : Progress changed (some (kind, start))) :
    Refines editor changed { s with content := next } := by
  have hbase : ({ s with content := next } : Session Kind (Content Spec)).base = s.base := by
    simp only [Session.base, hrunning]
  refine ⟨hcontent, hcached, ?_, ?_, ?_, ?_⟩
  · simp only [hrunning]
    exact hprogress
  · rw [hbase, hundo]
    exact h.undo
  · rw [hbase, hredo]
    exact h.redo
  · rw [hbase, hdirty]
    exact h.clean

end Parts

variable [DecidableEq Spec]

theorem Refines.close (h : Refines editor document s) (hsound : s.Holds Content.Sound) :
    Refines editor document.endStroke s.close := by
  have hends := h.ends editor hsound
  unfold Session.close
  split
  next heq =>
    rw [hends.same (heq.trans h.content.symm)]
    refine ⟨h.content, h.cached, ⟨rfl, rfl, rfl⟩, ?_, ?_, ?_⟩
    · have hundo := h.undo
      rw [heq] at hundo
      exact hundo
    · have hredo := h.redo
      rw [heq] at hredo
      exact hredo
    · intro hclean
      exact heq.symm.trans (h.clean hclean)
  next hne =>
    obtain ⟨edit, hforward, hback, hend⟩ := hends.differs (fun heq => hne (heq.trans h.content))
    rw [hend]
    rw [h.content] at hforward hback
    exact ⟨h.content, h.cached, ⟨rfl, rfl, rfl⟩, ⟨hback, hforward, h.undo⟩, trivial,
      fun hclean => by cases hclean⟩

section Alter

variable (h : Refines editor document s) (hsound : s.Holds Content.Sound)

include h hsound

theorem Refines.startStroke :
    Refines editor document.endSettingsDrag.endAnnotationsDrag (s.start .Stroke) := by
  have hprogress := h.progress
  have hfresh (hdrags : document.endSettingsDrag.endAnnotationsDrag = document.endStroke)
      (hother : ∀ start, s.running ≠ some (.Stroke, start)) :
      Refines editor document.endSettingsDrag.endAnnotationsDrag (s.start .Stroke) := by
    have hclosed := h.close editor hsound
    obtain ⟨hstroke, hsettings, hannotations⟩ := hclosed.rest editor s.running_close
    have hcurrent := hclosed.content.trans s.content_close
    rw [hdrags, s.start_fresh .Stroke hother]
    apply hclosed.begins editor s.running_close .Stroke s.content s.content_close _ rfl hclosed.cached
      rfl rfl rfl
    refine ⟨?_, hsettings, hannotations⟩
    rw [hstroke, hcurrent]
    exact Stroked.empty s.content
  cases hrunning : s.running with
  | none =>
      rw [hrunning] at hprogress
      apply hfresh
      · rw [endStroke_none document hprogress]
        obtain ⟨hstroke, hsettings, hannotations⟩ := hprogress
        rw [endSettingsDrag_none document hsettings, endAnnotationsDrag_none document hannotations]
        unfold Document.atRest
        rw [← hstroke, ← hsettings, ← hannotations]
      · simp [hrunning]
  | some running =>
      obtain ⟨kind, start⟩ := running
      rw [hrunning] at hprogress
      cases kind with
      | Stroke =>
          rw [s.start_same .Stroke hrunning, drags_of_stroke document start hprogress]
          exact h
      | Settings =>
          have hcontent := h.content.symm ▸ hsound.content
          exact hfresh (ends_settings editor document start hprogress hcontent).2 (by simp [hrunning])
      | Annotations =>
          exact hfresh (ends_annotations editor document start hprogress).2 (by simp [hrunning])

theorem Refines.startSettings :
    Refines editor (if document.settingsDrag.isNone then
      { document.endStroke with settingsDrag := some document.settings } else document)
        (s.start .Settings) := by
  have hprogress := h.progress
  have hfresh (hnone : document.settingsDrag = none)
      (hother : ∀ start, s.running ≠ some (.Settings, start)) :
      Refines editor (if document.settingsDrag.isNone then
        { document.endStroke with settingsDrag := some document.settings } else document)
          (s.start .Settings) := by
    have hclosed := h.close editor hsound
    obtain ⟨hstroke, hsettings, hannotations⟩ := hclosed.rest editor s.running_close
    have hcurrent := hclosed.content.trans s.content_close
    have hdrag : document.settings = s.content.settings := congrArg Content.settings h.content
    rw [if_pos (by rw [hnone]; rfl), s.start_fresh .Settings hother]
    apply hclosed.begins editor s.running_close .Settings s.content s.content_close
      { document.endStroke with settingsDrag := some document.settings } rfl hclosed.cached
      rfl rfl rfl
    refine ⟨?_, hstroke, congrArg some hdrag, hannotations⟩
    change s.content = document.endStroke.content.withSettings s.content.settings
    rw [hcurrent]
    exact (Content.withSettings_settings hsound.content s.content.settings).symm
  cases hrunning : s.running with
  | none =>
      rw [hrunning] at hprogress
      exact hfresh hprogress.2.1 (by simp [hrunning])
  | some running =>
      obtain ⟨kind, start⟩ := running
      rw [hrunning] at hprogress
      cases kind with
      | Stroke => exact hfresh hprogress.2.1 (by simp [hrunning])
      | Settings =>
          rw [s.start_same .Settings hrunning, if_neg (by rw [hprogress.2.2.1]; simp)]
          exact h
      | Annotations => exact hfresh hprogress.2.2.1 (by simp [hrunning])

theorem Refines.startAnnotations :
    Refines editor (if document.annotationsDrag.isNone then
      { document.endStroke with annotationsDrag := some document.endStroke.annotations } else document)
        (s.start .Annotations) := by
  have hprogress := h.progress
  have hfresh (hnone : document.annotationsDrag = none)
      (hother : ∀ start, s.running ≠ some (.Annotations, start)) :
      Refines editor (if document.annotationsDrag.isNone then
        { document.endStroke with annotationsDrag := some document.endStroke.annotations }
          else document) (s.start .Annotations) := by
    have hclosed := h.close editor hsound
    obtain ⟨hstroke, hsettings, hannotations⟩ := hclosed.rest editor s.running_close
    have hcurrent := hclosed.content.trans s.content_close
    have hdrag : document.endStroke.annotations = s.content.annotations :=
      congrArg Content.annotations hcurrent
    rw [if_pos (by rw [hnone]; rfl), s.start_fresh .Annotations hother]
    apply hclosed.begins editor s.running_close .Annotations s.content s.content_close
      { document.endStroke with annotationsDrag := some document.endStroke.annotations } rfl
      hclosed.cached rfl rfl rfl
    refine ⟨?_, hstroke, hsettings, congrArg some hdrag⟩
    change s.content = document.endStroke.content.withAnnotations s.content.annotations
    rw [hcurrent]
    rfl
  cases hrunning : s.running with
  | none =>
      rw [hrunning] at hprogress
      exact hfresh hprogress.2.2 (by simp [hrunning])
  | some running =>
      obtain ⟨kind, start⟩ := running
      rw [hrunning] at hprogress
      cases kind with
      | Stroke => exact hfresh hprogress.2.2 (by simp [hrunning])
      | Settings => exact hfresh hprogress.2.2.2 (by simp [hrunning])
      | Annotations =>
          rw [s.start_same .Annotations hrunning, if_neg (by rw [hprogress.2.2.2]; simp)]
          exact h

end Alter

section Steps

variable (h : Refines editor document s) (hsound : s.Holds Content.Sound)

include h hsound

theorem refines_paint (center : HexCoordinate) (radius : UInt8) (apply : Hex → Hex) :
    ∃ next, document.paintWith center radius apply = some next ∧
      Refines editor next (s.alter .Stroke (fun content => content.painted center radius apply)) := by
  have hstarted := h.startStroke editor hsound
  have hrunning := s.running_start .Stroke
  have hprogress := hstarted.progress
  rw [hrunning] at hprogress
  obtain ⟨hstroked, hsettings, hannotations⟩ := hprogress
  have hcontent := hstarted.content.trans (s.content_start .Stroke)
  let begun := document.endSettingsDrag.endAnnotationsDrag
  have hcovers : begun.map.hexes.length = begun.map.width.toNat * begun.map.height.toNat := by
    have hmap : begun.map = s.content.map := congrArg Content.map hcontent
    rw [hmap]
    exact hsound.content.covers
  obtain ⟨stroke, feed, hpaint, hlast⟩ := paintHexes_spec apply
    (covered begun.map.width begun.map.height center radius) begun _ hstroked
    (fun place hmem => by
      rw [hcovers]
      exact placeIndex_covered hmem)
  refine ⟨_, hpaint, ?_⟩
  apply hstarted.goesOn editor .Stroke _ (s.content.painted center radius apply) hrunning
  · rw [← hcontent]
    rfl
  · exact hstarted.cached
  · rfl
  · rfl
  · rfl
  · exact ⟨hlast, hsettings, hannotations⟩

theorem refines_dragSettings (after : MapSettings) :
    ∃ next, document.dragSettings editor after = some next ∧
      Refines editor next (s.alter .Settings (fun content => content.withSettings after)) := by
  have hstarted := h.startSettings editor hsound
  have hrunning := s.running_start .Settings
  have hprogress := hstarted.progress
  rw [hrunning] at hprogress
  obtain ⟨hstart, hstroke, hsettings, hannotations⟩ := hprogress
  have hcontent := hstarted.content.trans (s.content_start .Settings)
  obtain ⟨feed, happly⟩ :=
    leads_settings editor document.settings after true _ _ hstarted.cached rfl
  refine ⟨_, happly, ?_⟩
  apply hstarted.goesOn editor .Settings _ (s.content.withSettings after) hrunning
  · rw [← hcontent]
    rfl
  · exact Document.cached_showing editor _ _ _
  · rfl
  · rfl
  · rfl
  · exact ⟨hstart, hstroke, hsettings, hannotations⟩

theorem refines_dragAnnotations (f : Content Spec → Annotations) {after : Annotations}
    (hafter : f s.content = after) :
    Refines editor (document.dragAnnotations editor after)
      (s.alter .Annotations (fun content => content.withAnnotations (f content))) := by
  have hstarted := h.startAnnotations editor hsound
  have hrunning := s.running_start .Annotations
  have hprogress := hstarted.progress
  rw [hrunning] at hprogress
  obtain ⟨hstart, hstroke, hsettings, hannotations⟩ := hprogress
  have hcontent := hstarted.content.trans (s.content_start .Annotations)
  obtain ⟨feed, happly⟩ := Document.setAnnotationValues_eq editor _ hstarted.cached after
  unfold Document.dragAnnotations
  rw [happly]
  apply hstarted.goesOn editor .Annotations _ (s.content.withAnnotations (f s.content)) hrunning
  · rw [← hcontent, hcontent, hafter]
    rfl
  · exact Document.cached_showing editor _ _ _
  · rfl
  · rfl
  · rfl
  · exact ⟨hstart, hstroke, hsettings, hannotations⟩

theorem refines_made (f : Content Spec → Content Spec) {edit : Edit Spec}
    (hforward : Leads editor edit true s.content (f s.content))
    (hback : Leads editor edit false (f s.content) s.content) :
    ∃ applied, document.endStroke.apply editor edit true = some applied ∧
      Refines editor (applied.record edit)
        { s.close.record s.content with content := f s.content } := by
  have hclosed := h.close editor hsound
  have hcontent := hclosed.content.trans s.content_close
  obtain ⟨feed, happly⟩ := hforward document.endStroke hclosed.cached hcontent
  have hrest := hclosed.rest editor s.running_close
  refine ⟨_, happly, ?_⟩
  rw [← s.content_close] at hforward hback
  have hrecorded := hclosed.recorded editor edit _ s.settled_close hforward hback
    ((document.endStroke.showing editor (f s.close.content) feed).record edit) rfl rfl hrest rfl rfl rfl
  rw [← s.content_close]
  have hrunning := s.running_close
  rw [← hrunning] at hrecorded
  exact hrecorded

theorem refines_setSettings (after : MapSettings) :
    ∃ next, document.setSettings editor after = some next ∧
      Refines editor next (s.commit (fun content => content.withSettings after)) := by
  have hclosed := h.close editor hsound
  have hcontent := hclosed.content.trans s.content_close
  have hsettings : document.endStroke.settings = s.content.settings :=
    congrArg Content.settings hcontent
  have hself := Content.withSettings_settings hsound.content
  unfold Document.setSettings Session.commit
  dsimp only
  rw [hsettings]
  by_cases hsame : s.content.settings = after
  · have hkept : s.content = s.content.withSettings after := by
      rw [← hsame]
      exact (hself s.content.settings).symm
    rw [if_pos hsame, if_pos hkept]
    exact ⟨_, rfl, hclosed⟩
  · have hdiffers : s.content ≠ s.content.withSettings after :=
      fun heq => hsame (congrArg Content.settings heq)
    rw [if_neg hsame, if_neg hdiffers]
    have hforward := leads_settings editor s.content.settings after true s.content
    have hback := leads_settings editor s.content.settings after false (s.content.withSettings after)
    rw [if_neg (by simp), hself after] at hback
    obtain ⟨applied, happly, hmade⟩ := refines_made editor h hsound
      (fun content => content.withSettings after) hforward hback
    exact ⟨applied.record _, by rw [happly]; rfl, hmade⟩

theorem refines_setAnnotations (f : Content Spec → Annotations) {after : Annotations}
    (hafter : f s.content = after) :
    Refines editor (document.setAnnotations editor after)
      (s.commit (fun content => content.withAnnotations (f content))) := by
  subst hafter
  have hclosed := h.close editor hsound
  have hcontent := hclosed.content.trans s.content_close
  have hannotations : document.endStroke.annotations = s.content.annotations :=
    congrArg Content.annotations hcontent
  unfold Document.setAnnotations Session.commit
  dsimp only
  rw [hannotations]
  by_cases hsame : s.content.annotations = f s.content
  · have hkept : s.content = s.content.withAnnotations (f s.content) := by
      rw [← hsame]
      rfl
    rw [if_pos hsame, if_pos hkept]
    exact hclosed
  · have hdiffers : s.content ≠ s.content.withAnnotations (f s.content) :=
      fun heq => hsame (congrArg Content.annotations heq)
    rw [if_neg hsame, if_neg hdiffers]
    have hforward := leads_annotations editor s.content.annotations (f s.content) true s.content
    have hback := leads_annotations editor s.content.annotations (f s.content) false
      (s.content.withAnnotations (f s.content))
    obtain ⟨applied, happly, hmade⟩ := refines_made editor h hsound
      (fun content => content.withAnnotations (f content)) hforward hback
    have hset : document.endStroke.setAnnotationValues editor (f s.content) = applied :=
      Option.some.inj happly
    rw [hset]
    exact hmade

theorem refines_resize {width height : UInt16} (columns rows : ResizeEdge)
    (hrange : (inRange width && inRange height) = true) :
    ∃ next, document.resize editor width height columns rows = .ok (some next) ∧
      Refines editor next
        (s.commit (fun content => content.resized width height columns rows)) := by
  have hclosed := h.close editor hsound
  have hcontent := hclosed.content.trans s.content_close
  have hextent : document.endStroke.extent = s.content.extent := congrArg Content.extent hcontent
  have hsize : (document.endStroke.map.width, document.endStroke.map.height) =
      (s.content.map.width, s.content.map.height) :=
    congrArg (fun content => (content.map.width, content.map.height)) hcontent
  unfold Document.resize Session.commit
  rw [hrange, ensure_true_bind]
  dsimp only
  rw [hsize, hextent]
  by_cases hsame : (width, height) = (s.content.map.width, s.content.map.height)
  · have hkept : s.content = s.content.resized width height columns rows := (if_pos hsame).symm
    rw [if_pos hsame, if_pos hkept]
    exact ⟨_, rfl, hclosed⟩
  · have hresized : s.content.resized width height columns rows =
        s.content.withExtent (s.content.extent.resized width height columns rows) := if_neg hsame
    have hdiffers : s.content ≠ s.content.resized width height columns rows := by
      rw [hresized]
      intro heq
      exact hsame (congrArg (fun content => (content.map.width, content.map.height)) heq).symm
    rw [if_neg hsame, if_neg hdiffers]
    have hforward := leads_resize editor s.content.extent
      (s.content.extent.resized width height columns rows) true s.content
    have hback := leads_resize editor s.content.extent
      (s.content.extent.resized width height columns rows) false
      (s.content.resized width height columns rows)
    rw [if_pos rfl, ← hresized] at hforward
    rw [if_neg (by simp), hresized, Content.withExtent_extent, ← hresized] at hback
    obtain ⟨applied, happly, hmade⟩ := refines_made editor h hsound
      (fun content => content.resized width height columns rows) hforward hback
    exact ⟨applied.record _, by rw [happly]; rfl, hmade⟩

theorem refines_generate (map : MapAsset) (spec : Spec) :
    ∃ next, document.generate editor map spec = some next ∧
      Refines editor next (s.replace (fun content => content.generated map spec)) := by
  have hclosed := h.close editor hsound
  have hcontent := hclosed.content.trans s.content_close
  have hgeneration : document.endStroke.generation = s.content.generation :=
    congrArg Content.generation hcontent
  have hforward := leads_generate editor s.content.generation
    (s.content.generation.generated map spec) true s.content
  have hback := leads_generate editor s.content.generation
    (s.content.generation.generated map spec) false (s.content.generated map spec)
  rw [if_neg (by simp), Content.generated, Content.withGeneration_generation hsound.content] at hback
  obtain ⟨applied, happly, hmade⟩ := refines_made editor h hsound
    (fun content => content.generated map spec) hforward hback
  unfold Document.generate
  dsimp only
  rw [hgeneration, happly]
  exact ⟨_, rfl, hmade⟩

theorem refines_undo : ∃ next, document.undoEdit editor = some next ∧ Refines editor next s.undo := by
  have hclosed := h.close editor hsound
  have hsettled := s.settled_close
  have htrail := hclosed.undo
  rw [hsettled] at htrail
  unfold Document.undoEdit Session.undo
  dsimp only
  cases hundo : document.endStroke.undo with
  | nil =>
      rw [hundo, Trail.nil_iff] at htrail
      rw [htrail]
      exact ⟨_, rfl, hclosed⟩
  | cons edit edits =>
      rw [hundo, Trail.cons_iff] at htrail
      obtain ⟨earlier, past, hpast, hback, hforward, hrest⟩ := htrail
      rw [hpast]
      obtain ⟨feed, happly⟩ := hback document.endStroke hclosed.cached hclosed.content
      have hredo := hclosed.redo
      rw [hsettled] at hredo
      rw [s.content_close] at hback hforward hredo
      refine ⟨_, congrArg (Option.map _) happly, ?_⟩
      have hidle := hclosed.rest editor s.running_close
      have hrunning : ({ s.close with content := earlier, past := past
                                      future := s.content :: s.close.future } :
          Session Kind (Content Spec)).base = earlier := by
        simp [Session.base]
      refine ⟨rfl, Document.cached_showing editor document.endStroke earlier feed, ?_, ?_, ?_,
        fun hclean => by cases hclean⟩
      · simp only [s.running_close]
        exact hidle
      · rw [hrunning]
        exact hrest
      · rw [hrunning]
        exact ⟨hforward, hback, hredo⟩

theorem refines_redo : ∃ next, document.redoEdit editor = some next ∧ Refines editor next s.redo := by
  have hclosed := h.close editor hsound
  have hsettled := s.settled_close
  have htrail := hclosed.redo
  rw [hsettled] at htrail
  unfold Document.redoEdit Session.redo
  dsimp only
  cases hredo : document.endStroke.redo with
  | nil =>
      rw [hredo, Trail.nil_iff] at htrail
      rw [htrail]
      exact ⟨_, rfl, hclosed⟩
  | cons edit edits =>
      rw [hredo, Trail.cons_iff] at htrail
      obtain ⟨later, future, hfuture, hforward, hback, hrest⟩ := htrail
      rw [hfuture]
      obtain ⟨feed, happly⟩ := hforward document.endStroke hclosed.cached hclosed.content
      have hundo := hclosed.undo
      rw [hsettled] at hundo
      rw [s.content_close] at hback hforward hundo
      refine ⟨_, congrArg (Option.map _) happly, ?_⟩
      have hidle := hclosed.rest editor s.running_close
      have hrunning : ({ s.close with content := later, past := s.content :: s.close.past
                                      future := future } :
          Session Kind (Content Spec)).base = later := by
        simp [Session.base]
      refine ⟨rfl, Document.cached_showing editor document.endStroke later feed, ?_, ?_, ?_,
        fun hclean => by cases hclean⟩
      · simp only [s.running_close]
        exact hidle
      · rw [hrunning]
        exact ⟨hback, hforward, hundo⟩
      · rw [hrunning]
        exact hrest

theorem refines_save (path : String) (written : Except Error Unit) :
    Refines editor (document.saveTo editor path written).1 (s.save (fun content =>
      (editor.source content.map content.spec >>= fun _ => written).toBool)) := by
  have hclosed := h.close editor hsound
  have hcontent := hclosed.content.trans s.content_close
  have hsource : editor.source document.endStroke.map document.endStroke.spec =
      editor.source s.content.map s.content.spec :=
    congrArg (fun content => editor.source content.map content.spec) hcontent
  have hsettled := s.settled_close
  unfold Document.saveTo Session.save
  cases hsaved : editor.source s.content.map s.content.spec with
  | error e =>
      rw [hsaved] at hsource
      simp only [hsource, hsaved, bind, Except.bind, Except.toBool]
      exact hclosed
  | ok source =>
      rw [hsaved] at hsource
      cases written with
      | error e =>
          simp only [hsource, hsaved, bind, Except.bind, Except.toBool, withContext]
          exact hclosed
      | ok _ =>
          simp only [hsource, hsaved, bind, Except.bind, Except.toBool, withContext]
          exact ⟨hclosed.content, hclosed.cached, hclosed.progress, hclosed.undo, hclosed.redo,
            fun _ => hsettled.trans s.content_close⟩

end Steps

-- The generated map has a hex for each place.
def Operation.Covered : Operation Spec → Prop
  | .generate map _ => map.hexes.length = map.width.toNat * map.height.toNat
  | _ => True

omit [DecidableEq Spec] in
theorem keeps_sound {operation : Operation Spec} (h : operation.Covered) :
    Session.Keeps Content.Sound (operation.action editor) := by
  cases operation with
  | paint center radius apply => exact fun _ h => Content.sound_painted h center radius apply
  | endStroke | undo | redo | save => trivial
  | setSettings after | dragSettings after => exact fun _ h => Content.sound_withSettings h after
  | setPoints | dragPoints | setRegions | dragRegions =>
      exact fun _ h => Content.sound_withAnnotations h _
  | resize width height columns rows =>
      unfold Operation.action
      dsimp only
      split
      · exact fun _ h => Content.sound_resized h width height columns rows
      · trivial
  | generate map spec => exact fun _ hsound => Content.sound_generated hsound spec h

theorem refines_perform (operation : Operation Spec) (h : Refines editor document s)
    (hsound : s.Holds Content.Sound) : ∃ next, document.perform editor operation = some next ∧
      Refines editor next (s.step (operation.action editor)) := by
  cases operation with
  | paint center radius apply => exact refines_paint editor h hsound center radius apply
  | endStroke => exact ⟨_, rfl, h.close editor hsound⟩
  | setSettings after => exact refines_setSettings editor h hsound after
  | dragSettings after => exact refines_dragSettings editor h hsound after
  | setPoints points =>
      exact ⟨_, rfl, refines_setAnnotations editor h hsound (fun content => ⟨points, content.map.regions⟩) (by rw [← h.content]; rfl)⟩
  | dragPoints points =>
      exact ⟨_, rfl, refines_dragAnnotations editor h hsound (fun content => ⟨points, content.map.regions⟩) (by rw [← h.content]; rfl)⟩
  | setRegions regions =>
      exact ⟨_, rfl, refines_setAnnotations editor h hsound
        (fun content => ⟨content.map.pointsOfInterest, regions⟩) (by rw [← h.content]; rfl)⟩
  | dragRegions regions =>
      exact ⟨_, rfl, refines_dragAnnotations editor h hsound
        (fun content => ⟨content.map.pointsOfInterest, regions⟩) (by rw [← h.content]; rfl)⟩
  | undo => exact refines_undo editor h hsound
  | redo => exact refines_redo editor h hsound
  | resize width height columns rows =>
      by_cases hrange : (inRange width && inRange height) = true
      · obtain ⟨next, hresize, hrefines⟩ :=
          refines_resize editor h hsound columns rows hrange
        refine ⟨next, ?_, ?_⟩
        · simp only [Document.perform, hresize]
        · simp only [Operation.action, hrange, if_true]
          exact hrefines
      · refine ⟨document, ?_, ?_⟩
        · simp only [Document.perform, Document.resize, hrange]
          rfl
        · simp only [Operation.action, hrange]
          exact h
  | generate map spec => exact refines_generate editor h hsound map spec
  | save path written => exact ⟨_, rfl, refines_save editor h hsound path written⟩

end StompyMux.Mappy
