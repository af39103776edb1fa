import StompyMux.Library.History
import StompyMux.Mappy.Contents

-- A brush stroke is kept as the hexes it changed.
namespace StompyMux.Mappy

open Library
open StompyMux.Map

variable {Spec : Type}

-- What is known of a stroke that turned the one content into the other.
structure Stroked (stroke : OrderedMap Nat HexChange) (start content : Content Spec) : Prop where
  rest : start = content.withHexes start.map.hexes
  count : start.map.hexes.length = content.map.hexes.length
  changed : ∀ i change, stroke.get? i = some change →
    change.index = i ∧ start.map.hexes[i]? = some change.before ∧
      content.map.hexes[i]? = some change.after
  kept : ∀ i, stroke.get? i = none → start.map.hexes[i]? = content.map.hexes[i]?

def changes (stroke : OrderedMap Nat HexChange) : List HexChange :=
  stroke.values.filter (fun change => change.before != change.after)

namespace Stroked

theorem empty (content : Content Spec) : Stroked OrderedMap.empty content content :=
  ⟨rfl, rfl, fun _ _ h => (nomatch h), fun _ _ => rfl⟩

variable {stroke : OrderedMap Nat HexChange} {start content : Content Spec}
  (h : Stroked stroke start content)

include h

theorem mem_changes {change : HexChange} (hmem : change ∈ changes stroke) :
    start.map.hexes[change.index]? = some change.before ∧
      content.map.hexes[change.index]? = some change.after := by
  obtain ⟨⟨i, change'⟩, hentry, rfl⟩ := List.mem_map.mp (List.mem_filter.mp hmem).1
  obtain ⟨hindex, hbefore, hafter⟩ := h.changed i _ ((stroke.get?_eq_some_iff i _).mpr hentry)
  rw [hindex]
  exact ⟨hbefore, hafter⟩

theorem not_mem_changes (i : Nat) (hi : ∀ change ∈ changes stroke, change.index ≠ i) :
    start.map.hexes[i]? = content.map.hexes[i]? := by
  cases hget : stroke.get? i with
  | none => exact h.kept i hget
  | some change =>
      obtain ⟨hindex, hbefore, hafter⟩ := h.changed i change hget
      have hentry := (stroke.get?_eq_some_iff i change).mp hget
      rw [hbefore, hafter]
      by_contra hne
      have hdiffers : change.before != change.after := by simpa using fun heq => hne (by rw [heq])
      exact hi change (List.mem_filter.mpr ⟨List.mem_map.mpr ⟨_, hentry, rfl⟩, hdiffers⟩) hindex

-- Exactly the strokes that leave the map as it was have no changes.
theorem eq_iff_changes : start = content ↔ changes stroke = [] := by
  constructor
  · rintro rfl
    rw [List.eq_nil_iff_forall_not_mem]
    intro change hmem
    obtain ⟨hbefore, hafter⟩ := h.mem_changes hmem
    have hsame : change.before = change.after := Option.some.inj (hbefore.symm.trans hafter)
    have hdiffers := (List.mem_filter.mp hmem).2
    simp [hsame] at hdiffers
  · intro hnone
    have hhexes : start.map.hexes = content.map.hexes := by
      apply List.ext_getElem?
      intro i
      exact h.not_mem_changes i (by simp [hnone])
    rw [h.rest, hhexes]
    rfl

end Stroked

theorem setHex_ok {document : Document Spec} {index : Nat} (hex : Hex)
    (h : index < document.map.hexes.length) :
    document.setHex index hex =
      some { document with
        map.hexes := document.map.hexes.set index hex
        feed := document.feed.written document.map.hexes.length index } := if_pos h

-- Whatever order the changes are made in, the hexes end up as they say.
theorem apply_changes (value : HexChange → Hex) (target : List Hex) (changes : List HexChange)
    (document : Document Spec) (hcount : document.map.hexes.length = target.length)
    (hchanged : ∀ change ∈ changes, target[change.index]? = some (value change))
    (hkept : ∀ i, (∀ change ∈ changes, change.index ≠ i) →
      document.map.hexes[i]? = target[i]?) :
    ∃ feed, changes.foldlM (fun document change =>
      document.setHex change.index (value change)) document =
        some { document with map.hexes := target, feed := feed } := by
  induction changes generalizing document with
  | nil =>
      have hsame : document.map.hexes = target :=
        List.ext_getElem? (fun i => hkept i (by simp))
      rw [← hsame]
      exact ⟨document.feed, rfl⟩
  | cons change changes ih =>
      have htarget := hchanged change List.mem_cons_self
      obtain ⟨hlt, -⟩ := List.getElem?_eq_some_iff.mp htarget
      rw [List.foldlM_cons, setHex_ok _ (by omega)]
      have hrest := ih { document with
          map.hexes := document.map.hexes.set change.index (value change)
          feed := document.feed.written document.map.hexes.length change.index }
        (by simpa using hcount) (fun other hmem => hchanged other (List.mem_cons_of_mem _ hmem))
      apply hrest
      intro i hi
      rw [List.getElem?_set]
      split
      next heq =>
        subst heq
        rw [if_pos (by omega), htarget]
      next hne =>
        apply hkept
        intro other hmem
        cases List.mem_cons.mp hmem with
        | inl heq =>
            rw [heq]
            exact hne
        | inr hmem => exact hi other hmem

-- A stroke's changes are applied in both directions.
theorem Stroked.leads (editor : Editor Spec) (stroke : OrderedMap Nat HexChange)
    (start content : Content Spec) (h : Stroked stroke start content) :
    Leads editor (.Hexes (changes stroke)) true start content ∧
      Leads editor (.Hexes (changes stroke)) false content start := by
  have hshowing (document : Document Spec) (hcached : document.Cached editor)
      (next : Content Spec) (hnext : next = document.content.withHexes next.map.hexes) (feed : Feed) :
      { document with map.hexes := next.map.hexes, feed := feed } =
        document.showing editor next feed := by
    rw [hnext]
    unfold Document.showing
    have hregions : (document.content.withHexes next.map.hexes).map.regions =
      document.map.regions := rfl
    rw [hregions, ← hcached]
    rfl
  have hrest : content = start.withHexes content.map.hexes := by
    rw [h.rest]
    rfl
  constructor
  · rintro document hcached rfl
    obtain ⟨feed, happly⟩ := apply_changes HexChange.after content.map.hexes (changes stroke) document
      h.count (fun change hmem => (h.mem_changes hmem).2) h.not_mem_changes
    exact ⟨feed, happly.trans (congrArg some (hshowing document hcached content hrest feed))⟩
  · rintro document hcached rfl
    obtain ⟨feed, happly⟩ := apply_changes HexChange.before start.map.hexes (changes stroke) document
      h.count.symm (fun change hmem => (h.mem_changes hmem).1)
      (fun i hi => (h.not_mem_changes i hi).symm)
    exact ⟨feed, happly.trans (congrArg some (hshowing document hcached start h.rest feed))⟩

section Paint

variable (apply : Hex → Hex)

def placeIndex (width : UInt16) (coordinate : HexCoordinate) : Nat :=
  coordinate.y.toNat * width.toNat + coordinate.x.toNat

theorem modify_of_getElem? (hexes : List Hex) (index : Nat) (hex : Hex)
    (h : hexes[index]? = some hex) : hexes.modify index apply = hexes.set index (apply hex) := by
  apply List.ext_getElem?
  intro j
  rw [List.getElem?_modify, List.getElem?_set]
  by_cases hj : index = j
  · subst hj
    obtain ⟨hlt, heq⟩ := List.getElem?_eq_some_iff.mp h
    simp [heq, hlt]
  · simp [hj]

theorem Stroked.strokeHex {stroke : OrderedMap Nat HexChange} {start content : Content Spec}
    (h : Stroked stroke start content) (index : Nat) (before after : Hex)
    (hbefore : content.map.hexes[index]? = some before) :
    Stroked (strokeHex stroke index before after) start
      (content.withHexes (content.map.hexes.set index after)) := by
  obtain ⟨hlt, -⟩ := List.getElem?_eq_some_iff.mp hbefore
  have hother (i : Nat) (hi : i ≠ index) :
      (content.map.hexes.set index after)[i]? = content.map.hexes[i]? :=
    List.getElem?_set_ne (Ne.symm hi)
  refine ⟨h.rest, h.count.trans List.length_set.symm, ?_, ?_⟩
  · intro i change hget
    rw [Mappy.strokeHex, OrderedMap.get?_insert] at hget
    split at hget
    next heq =>
      subst heq
      have hafter : (content.map.hexes.set i after)[i]? = some after := by simp [hlt]
      cases hold : stroke.get? i with
      | none =>
          simp only [hold, Option.some.injEq] at hget
          subst hget
          exact ⟨rfl, (h.kept i hold).trans hbefore, hafter⟩
      | some old =>
          simp only [hold, Option.some.injEq] at hget
          subst hget
          obtain ⟨hindex, hfirst, -⟩ := h.changed i old hold
          exact ⟨hindex, hfirst, hafter⟩
    next hne =>
      obtain ⟨hindex, hfirst, hlast⟩ := h.changed i change hget
      exact ⟨hindex, hfirst, (hother i hne).trans hlast⟩
  · intro i hget
    rw [Mappy.strokeHex, OrderedMap.get?_insert] at hget
    split at hget
    next => contradiction
    next hne => exact (h.kept i hget).trans (hother i hne).symm

theorem paintHex_spec (document : Document Spec) (start : Content Spec)
    (h : Stroked document.stroke start document.content) (coordinate : HexCoordinate)
    (hin : placeIndex document.map.width coordinate < document.map.hexes.length) :
    ∃ stroke feed, document.paintHex apply coordinate = some { document with
        map.hexes := document.map.hexes.modify (placeIndex document.map.width coordinate) apply
        stroke := stroke
        feed := feed } ∧
      Stroked stroke start (document.content.withHexes
        (document.map.hexes.modify (placeIndex document.map.width coordinate) apply)) := by
  let index := placeIndex document.map.width coordinate
  have hget : document.map.hexes[index]? = some document.map.hexes[index] :=
    List.getElem?_eq_getElem hin
  have hmodify := modify_of_getElem? apply document.map.hexes index document.map.hexes[index] hget
  have hpaint : document.paintHex apply coordinate =
      (document.map.hexes[index]?).bind (fun before =>
        if before = apply before then some document
        else (document.setHex index (apply before)).bind (fun painted =>
          some { painted with
            stroke := strokeHex painted.stroke index before (apply before) })) := rfl
  rw [hpaint, hget, Option.bind_some]
  by_cases hsame : document.map.hexes[index] = apply document.map.hexes[index]
  · have hkept : document.map.hexes.modify index apply = document.map.hexes := by
      rw [hmodify, ← hsame, List.set_getElem_self]
    refine ⟨document.stroke, document.feed, ?_, ?_⟩
    · rw [if_pos hsame, hkept]
    · rw [hkept]
      exact h
  · let after := apply document.map.hexes[index]
    let feed := document.feed.written document.map.hexes.length index
    refine ⟨strokeHex document.stroke index document.map.hexes[index] after, feed, ?_, ?_⟩
    · rw [if_neg hsame, setHex_ok _ hin, Option.bind_some, hmodify]
    · rw [hmodify]
      exact h.strokeHex index _ _ hget

theorem paintHexes_spec (places : List HexCoordinate) (document : Document Spec)
    (start : Content Spec) (h : Stroked document.stroke start document.content)
    (hin : ∀ place ∈ places, placeIndex document.map.width place < document.map.hexes.length) :
    ∃ stroke feed, places.foldlM (Document.paintHex apply) document = some { document with
        map.hexes := places.foldl (fun hexes place =>
          hexes.modify (placeIndex document.map.width place) apply) document.map.hexes
        stroke := stroke
        feed := feed } ∧
      Stroked stroke start (document.content.withHexes (places.foldl (fun hexes place =>
        hexes.modify (placeIndex document.map.width place) apply) document.map.hexes)) := by
  induction places generalizing document with
  | nil => exact ⟨document.stroke, document.feed, rfl, h⟩
  | cons place places ih =>
      obtain ⟨stroke, feed, hpaint, hstroked⟩ :=
        paintHex_spec apply document start h place (hin place List.mem_cons_self)
      obtain ⟨last, lastFeed, hrest, hlast⟩ := ih { document with
          map.hexes := document.map.hexes.modify (placeIndex document.map.width place) apply
          stroke := stroke
          feed := feed } hstroked
        (fun other hmem => by
          have hother := hin other (List.mem_cons_of_mem _ hmem)
          simpa using hother)
      refine ⟨last, lastFeed, ?_, hlast⟩
      rw [List.foldlM_cons, hpaint]
      exact hrest

theorem mem_onAxis {steps center size i : Int} (h : i ∈ onAxis steps center size) :
    0 ≤ i ∧ i < size := by
  obtain ⟨n, hn, rfl⟩ := List.mem_map.mp h
  have := List.mem_range.mp hn
  omega

theorem placeIndex_covered {width height : UInt16} {center : HexCoordinate} {radius : UInt8}
    {place : HexCoordinate} (h : place ∈ covered width height center radius) :
    placeIndex width place < width.toNat * height.toNat := by
  obtain ⟨y, hy, hplace⟩ := List.mem_flatMap.mp (List.mem_filter.mp h).1
  obtain ⟨x, hx, rfl⟩ := List.mem_map.mp hplace
  obtain ⟨hy0, hylt⟩ := mem_onAxis hy
  obtain ⟨hx0, hxlt⟩ := mem_onAxis hx
  have hrow : (y.toNat + 1) * width.toNat ≤ height.toNat * width.toNat :=
    Nat.mul_le_mul_right _ (by omega)
  unfold placeIndex
  rw [Nat.add_mul] at hrow
  rw [Nat.mul_comm width.toNat]
  simp only
  omega

end Paint

end StompyMux.Mappy

-- Every step of the editor is a step of a session on whole contents.
namespace StompyMux.Mappy

open Library Library.Fallible Library.History
open StompyMux.Map

inductive Kind
  | Stroke | Settings | Annotations
  deriving DecidableEq

inductive Operation (Spec : Type) where
  | paint (center : HexCoordinate) (radius : UInt8) (apply : Hex → Hex)
  | endStroke
  | setSettings (after : MapSettings)
  | dragSettings (after : MapSettings)
  | setPoints (points : List MapPointOfInterest)
  | dragPoints (points : List MapPointOfInterest)
  | setRegions (regions : List MapRegion)
  | dragRegions (regions : List MapRegion)
  | undo
  | redo
  | resize (width height : UInt16) (columns rows : ResizeEdge)
  | generate (map : MapAsset) (spec : Spec)
  | save (path : String) (written : Except Error Unit)

section

variable {Spec : Type} (editor : Editor Spec)

-- What the operation does to the document; nothing comes back when it stops the program.
def Document.perform (document : Document Spec) : Operation Spec → Option (Document Spec)
  | .paint center radius apply => document.paintWith center radius apply
  | .endStroke => some document.endStroke
  | .setSettings after => document.setSettings editor after
  | .dragSettings after => document.dragSettings editor after
  | .setPoints points => some (document.setPoints editor points)
  | .dragPoints points => some (document.dragPoints editor points)
  | .setRegions regions => some (document.setRegions editor regions)
  | .dragRegions regions => some (document.dragRegions editor regions)
  | .undo => document.undoEdit editor
  | .redo => document.redoEdit editor
  | .resize width height columns rows =>
      match document.resize editor width height columns rows with
      | .ok resized => resized
      | .error _ => some document
  | .generate map spec => document.generate editor map spec
  | .save path written => some (document.saveTo editor path written).1

def Operation.action : Operation Spec → Action Kind (Content Spec)
  | .paint center radius apply => .alter .Stroke (fun content => content.painted center radius apply)
  | .endStroke => .close
  | .setSettings after => .commit (fun content => content.withSettings after)
  | .dragSettings after => .alter .Settings (fun content => content.withSettings after)
  | .setPoints points =>
      .commit (fun content => content.withAnnotations ⟨points, content.map.regions⟩)
  | .dragPoints points =>
      .alter .Annotations (fun content => content.withAnnotations ⟨points, content.map.regions⟩)
  | .setRegions regions =>
      .commit (fun content => content.withAnnotations ⟨content.map.pointsOfInterest, regions⟩)
  | .dragRegions regions =>
      .alter .Annotations
        (fun content => content.withAnnotations ⟨content.map.pointsOfInterest, regions⟩)
  | .undo => .undo
  | .redo => .redo
  | .resize width height columns rows =>
      if inRange width && inRange height then
        .commit (fun content => content.resized width height columns rows)
      else .skip
  | .generate map spec => .replace (fun content => content.generated map spec)
  | .save _ written => .save (fun content =>
      (editor.source content.map content.spec >>= fun _ => written).toBool)

-- The edit in progress, as the document keeps it.
def Progress (document : Document Spec) : Option (Kind × Content Spec) → Prop
  | none =>
      document.stroke = OrderedMap.empty ∧ document.settingsDrag = none ∧
        document.annotationsDrag = none
  | some (.Stroke, start) =>
      Stroked document.stroke start document.content ∧ document.settingsDrag = none ∧
        document.annotationsDrag = none
  | some (.Settings, start) =>
      start = document.content.withSettings start.settings ∧
        document.stroke = OrderedMap.empty ∧ document.settingsDrag = some start.settings ∧
        document.annotationsDrag = none
  | some (.Annotations, start) =>
      start = document.content.withAnnotations start.annotations ∧
        document.stroke = OrderedMap.empty ∧ document.settingsDrag = none ∧
        document.annotationsDrag = some start.annotations

structure Refines (document : Document Spec) (s : Session Kind (Content Spec)) : Prop where
  content : document.content = s.content
  cached : document.Cached editor
  progress : Progress document s.running
  undo : Trail (Leads editor) false document.undo s.base s.past
  redo : Trail (Leads editor) true document.redo s.base s.future
  clean : document.dirty = false → s.base = s.saved

end

section Close

variable {Spec : Type} (editor : Editor Spec) (document : Document Spec)

theorem endSettingsDrag_none (h : document.settingsDrag = none) :
    document.endSettingsDrag = document := by
  unfold Document.endSettingsDrag
  rw [h]

theorem endAnnotationsDrag_none (h : document.annotationsDrag = none) :
    document.endAnnotationsDrag = document := by
  unfold Document.endAnnotationsDrag
  rw [h]

-- The document once nothing is in progress.
def Document.atRest : Document Spec :=
  { document with stroke := OrderedMap.empty, settingsDrag := none, annotationsDrag := none }

theorem endStroke_of_drags (h : document.endSettingsDrag.endAnnotationsDrag.stroke = OrderedMap.empty) :
    document.endStroke = document.endSettingsDrag.endAnnotationsDrag := by
  unfold Document.endStroke
  have hchanges : (OrderedMap.empty : OrderedMap Nat HexChange).values = [] := rfl
  simp only [h, hchanges, List.filter_nil, List.isEmpty_nil, if_true]
  rw [← h]

-- Ending what is in progress records an edit between the two contents, if they differ.
structure Ends (start : Content Spec) (ended : Document Spec) : Prop where
  same : start = document.content → ended = document.atRest
  differs : start ≠ document.content → ∃ edit, Leads editor edit true start document.content ∧
    Leads editor edit false document.content start ∧ ended = document.atRest.record edit

theorem endStroke_none (h : Progress document none) : document.endStroke = document.atRest := by
  obtain ⟨hstroke, hsettings, hannotations⟩ := h
  have hdrags : document.endSettingsDrag.endAnnotationsDrag = document := by
    rw [endSettingsDrag_none document hsettings, endAnnotationsDrag_none document hannotations]
  rw [endStroke_of_drags document (by rw [hdrags, hstroke]), hdrags]
  unfold Document.atRest
  rw [← hstroke, ← hsettings, ← hannotations]

variable (start : Content Spec)

theorem drags_of_stroke (h : Progress document (some (.Stroke, start))) :
    document.endSettingsDrag.endAnnotationsDrag = document := by
  rw [endSettingsDrag_none document h.2.1, endAnnotationsDrag_none document h.2.2]

theorem ends_stroke (h : Progress document (some (.Stroke, start))) :
    Ends editor document start document.endStroke := by
  obtain ⟨hstroked, hsettings, hannotations⟩ := h
  have hend : document.endStroke =
      if (changes document.stroke).isEmpty then document.atRest
      else document.atRest.record (.Hexes (changes document.stroke)) := by
    unfold Document.endStroke Document.atRest
    rw [drags_of_stroke document start ⟨hstroked, hsettings, hannotations⟩, ← hsettings, ← hannotations]
    rfl
  have hempty := hstroked.eq_iff_changes
  constructor
  · intro hsame
    rw [hend, if_pos (by simp [hempty.mp hsame])]
  · intro hne
    obtain ⟨hforward, hback⟩ := hstroked.leads editor
    refine ⟨_, hforward, hback, ?_⟩
    rw [hend, if_neg (fun hnone => hne (hempty.mpr (List.isEmpty_iff.mp hnone)))]

theorem ends_settings (h : Progress document (some (.Settings, start)))
    (hsound : document.content.Sound) : Ends editor document start document.endStroke ∧
      document.endSettingsDrag.endAnnotationsDrag = document.endStroke := by
  obtain ⟨hstart, hstroke, hsettings, hannotations⟩ := h
  have hdrag : document.endSettingsDrag =
      if start.settings = document.settings then document.atRest
      else document.atRest.record (.Settings start.settings document.settings) := by
    unfold Document.endSettingsDrag Document.atRest
    rw [hsettings, ← hstroke, ← hannotations]
    rfl
  have hdrags : document.endSettingsDrag.endAnnotationsDrag = document.endSettingsDrag := by
    apply endAnnotationsDrag_none
    rw [hdrag]
    split <;> rfl
  have hend : document.endStroke = document.endSettingsDrag := by
    rw [endStroke_of_drags document ?_, hdrags]
    rw [hdrags, hdrag]
    split <;> rfl
  have hself := Content.withSettings_settings hsound
  refine ⟨?_, hdrags.trans hend.symm⟩
  rw [hend, hdrag]
  constructor
  · intro hsame
    rw [if_pos (by rw [hsame]; rfl)]
  · intro hne
    have hdiffers : start.settings ≠ document.settings := by
      intro heq
      apply hne
      rw [hstart, heq]
      exact hself document.settings
    refine ⟨_, ?_, ?_, if_neg hdiffers⟩
    · have hleads := leads_settings editor start.settings document.settings true start
      have hback : start.withSettings document.settings = document.content := by
        rw [hstart]
        exact hself start.settings
      rw [if_pos rfl, hback] at hleads
      exact hleads
    · have hleads := leads_settings editor start.settings document.settings false document.content
      rw [if_neg (by simp), ← hstart] at hleads
      exact hleads

theorem ends_annotations (h : Progress document (some (.Annotations, start))) :
    Ends editor document start document.endStroke ∧
      document.endSettingsDrag.endAnnotationsDrag = document.endStroke := by
  obtain ⟨hstart, hstroke, hsettings, hannotations⟩ := h
  have hdrag : document.endSettingsDrag.endAnnotationsDrag =
      if start.annotations = document.annotations then document.atRest
      else document.atRest.record (.Annotations start.annotations document.annotations) := by
    rw [endSettingsDrag_none document hsettings]
    unfold Document.endAnnotationsDrag Document.atRest
    rw [hannotations, ← hstroke, ← hsettings]
    rfl
  have hend : document.endStroke = document.endSettingsDrag.endAnnotationsDrag := by
    apply endStroke_of_drags
    rw [hdrag]
    split <;> rfl
  refine ⟨?_, hend.symm⟩
  rw [hend, hdrag]
  constructor
  · intro hsame
    rw [if_pos (by rw [hsame]; rfl)]
  · intro hne
    have hdiffers : start.annotations ≠ document.annotations := by
      intro heq
      apply hne
      rw [hstart, heq]
      rfl
    refine ⟨_, ?_, ?_, if_neg hdiffers⟩
    · have hleads := leads_annotations editor start.annotations document.annotations true start
      have hback : start.withAnnotations document.annotations = document.content := by
        rw [hstart]
        rfl
      rw [if_pos rfl, hback] at hleads
      exact hleads
    · have hleads :=
        leads_annotations editor start.annotations document.annotations false document.content
      rw [if_neg (by simp), ← hstart] at hleads
      exact hleads

end Close

end StompyMux.Mappy
