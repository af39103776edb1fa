import StompyMux.Mappy.Document

-- What an edit turns a map into.
namespace StompyMux.Mappy

open Library
open StompyMux.Map

structure Content (Spec : Type) where
  map : MapAsset
  spec : Option Spec
  deriving DecidableEq

def Document.content {Spec : Type} (document : Document Spec) : Content Spec :=
  ⟨document.map, document.spec⟩

namespace Content

variable {Spec : Type} (content : Content Spec)

def settings : MapSettings where
  flags := content.map.flags
  gravity := content.map.gravity
  temperature := content.map.temperature
  light := content.map.light.getD DEFAULT_LIGHT
  weather := content.map.weather.getD DEFAULT_WEATHER
  wind := content.map.wind.getD DEFAULT_WIND

def annotations : Annotations := ⟨content.map.pointsOfInterest, content.map.regions⟩

def extent : Extent :=
  ⟨content.map.width, content.map.height, content.map.hexes, content.annotations⟩

def generation : Generation Spec := ⟨content.extent, content.settings, content.spec⟩

def withHexes (hexes : List Hex) : Content Spec := { content with map.hexes := hexes }

def withSettings (settings : MapSettings) : Content Spec :=
  { content with
    map.flags := settings.flags
    map.gravity := settings.gravity
    map.temperature := settings.temperature
    map.light := some settings.light
    map.weather := some settings.weather
    map.wind := some settings.wind }

def withAnnotations (annotations : Annotations) : Content Spec :=
  { content with
    map.pointsOfInterest := annotations.points
    map.regions := annotations.regions }

def withExtent (extent : Extent) : Content Spec :=
  { content with
    map.width := extent.width
    map.height := extent.height
    map.hexes := extent.hexes
    map.pointsOfInterest := extent.annotations.points
    map.regions := extent.annotations.regions }

def withGeneration (generation : Generation Spec) : Content Spec :=
  { (content.withExtent generation.extent).withSettings generation.settings with
    spec := generation.spec }

def painted (center : HexCoordinate) (radius : UInt8) (apply : Hex → Hex) : Content Spec :=
  content.withHexes ((covered content.map.width content.map.height center radius).foldl
    (fun hexes coordinate =>
      hexes.modify (coordinate.y.toNat * content.map.width.toNat + coordinate.x.toNat) apply)
    content.map.hexes)

def resized (width height : UInt16) (columns rows : ResizeEdge) : Content Spec :=
  if (width, height) = (content.map.width, content.map.height) then content
  else content.withExtent (content.extent.resized width height columns rows)

def generated (map : MapAsset) (spec : Spec) : Content Spec :=
  content.withGeneration (content.generation.generated map spec)

-- A hex for each place, and no setting left open.
structure Sound : Prop where
  covers : content.map.hexes.length = content.map.width.toNat * content.map.height.toNat
  light : content.map.light.isSome
  weather : content.map.weather.isSome
  wind : content.map.wind.isSome

variable {content}

theorem withSettings_settings (h : content.Sound) (settings : MapSettings) :
    (content.withSettings settings).withSettings content.settings = content := by
  obtain ⟨light, hlight⟩ := Option.isSome_iff_exists.mp h.light
  obtain ⟨weather, hweather⟩ := Option.isSome_iff_exists.mp h.weather
  obtain ⟨wind, hwind⟩ := Option.isSome_iff_exists.mp h.wind
  cases content with
  | mk map spec =>
      cases map
      simp_all [withSettings, Content.settings]

theorem withExtent_extent (extent : Extent) :
    (content.withExtent extent).withExtent content.extent = content := rfl

theorem withGeneration_generation (h : content.Sound) (generation : Generation Spec) :
    (content.withGeneration generation).withGeneration content.generation = content := by
  have hsettings := withSettings_settings h content.settings
  exact hsettings

theorem sound_withSettings (h : content.Sound) (settings : MapSettings) :
    (content.withSettings settings).Sound := ⟨h.covers, rfl, rfl, rfl⟩

theorem sound_withAnnotations (h : content.Sound) (annotations : Annotations) :
    (content.withAnnotations annotations).Sound := ⟨h.covers, h.light, h.weather, h.wind⟩

theorem sound_withExtent (h : content.Sound) (extent : Extent)
    (hcovers : extent.hexes.length = extent.width.toNat * extent.height.toNat) :
    (content.withExtent extent).Sound := ⟨hcovers, h.light, h.weather, h.wind⟩

theorem length_foldl {T : Type} (step : List Hex → T → List Hex)
    (hstep : ∀ hexes item, (step hexes item).length = hexes.length) (items : List T)
    (hexes : List Hex) : (items.foldl step hexes).length = hexes.length := by
  induction items generalizing hexes with
  | nil => rfl
  | cons item items ih => rw [List.foldl_cons, ih, hstep]

theorem sound_painted (h : content.Sound) (center : HexCoordinate) (radius : UInt8)
    (apply : Hex → Hex) : (content.painted center radius apply).Sound :=
  ⟨(length_foldl _ (fun _ _ => List.length_modify ..) _ _).trans h.covers, h.light, h.weather, h.wind⟩

theorem length_resized (before : Extent) (width height : UInt16) (columns rows : ResizeEdge) :
    (before.resized width height columns rows).hexes.length = width.toNat * height.toNat := by
  unfold Extent.resized
  refine (length_foldl _ (fun hexes item => ?_) _ _).trans List.length_replicate
  dsimp only
  split
  · exact List.length_set
  · rfl

theorem sound_resized (h : content.Sound) (width height : UInt16) (columns rows : ResizeEdge) :
    (content.resized width height columns rows).Sound := by
  unfold resized
  split
  · exact h
  · exact sound_withExtent h _ (length_resized _ _ _ _ _)

theorem sound_generated (h : content.Sound) {map : MapAsset} (spec : Spec)
    (hcovers : map.hexes.length = map.width.toNat * map.height.toNat) :
    (content.generated map spec).Sound := by
  have hextent := sound_withExtent h (content.generation.generated map spec).extent hcovers
  have hsettings := sound_withSettings hextent (content.generation.generated map spec).settings
  exact ⟨hsettings.covers, hsettings.light, hsettings.weather, hsettings.wind⟩

end Content

-- The member hexes of every region; a region whose hexes cannot be worked out has none.
def Editor.memberHexes {Spec : Type} (editor : Editor Spec) (regions : List MapRegion) :
    List (List HexCoordinate) :=
  regions.map (fun region =>
    match editor.hexes region with
    | .ok hexes => hexes
    | .error _ => [])

namespace Document

variable {Spec : Type} (editor : Editor Spec) (document : Document Spec)

def Cached : Prop := document.regionHexes = editor.memberHexes document.map.regions

def showing (content : Content Spec) (feed : Feed) : Document Spec :=
  { document with
    map := content.map
    spec := content.spec
    regionHexes := editor.memberHexes content.map.regions
    feed := feed }

theorem cached_showing (content : Content Spec) (feed : Feed) :
    (document.showing editor content feed).Cached editor := rfl

theorem setSettingsValues_eq (h : document.Cached editor) (settings : MapSettings) :
    document.setSettingsValues settings =
      document.showing editor (document.content.withSettings settings) document.feed := by
  unfold showing
  have hregions : (document.content.withSettings settings).map.regions = document.map.regions := rfl
  rw [hregions, ← h]
  rfl

theorem setAnnotationValues_eq (h : document.Cached editor) (annotations : Annotations) :
    ∃ feed, document.setAnnotationValues editor annotations =
      document.showing editor (document.content.withAnnotations annotations) feed := by
  unfold setAnnotationValues
  dsimp only
  split
  next heq =>
    refine ⟨document.feed, ?_⟩
    unfold showing
    have hregions : (document.content.withAnnotations annotations).map.regions =
      annotations.regions := rfl
    rw [hregions, ← heq, ← h, Content.withAnnotations, ← heq]
    rfl
  next => exact ⟨_, rfl⟩

theorem setExtent_eq (h : document.Cached editor) (extent : Extent) :
    ∃ feed, document.setExtent editor extent =
      document.showing editor (document.content.withExtent extent) feed := by
  obtain ⟨feed, hresized⟩ := setAnnotationValues_eq editor
    { document with
      map.width := extent.width
      map.height := extent.height
      map.hexes := extent.hexes } h extent.annotations
  refine ⟨feed.renewed, ?_⟩
  unfold setExtent
  rw [hresized]
  rfl

end Document

section Leads

variable {Spec : Type} (editor : Editor Spec)

-- Applying the edit turns the one content into the other and leaves the rest of the document as it
-- was.
def Leads (edit : Edit Spec) (forward : Bool) (content next : Content Spec) : Prop :=
  ∀ document : Document Spec, document.Cached editor → document.content = content →
    ∃ feed, document.apply editor edit forward = some (document.showing editor next feed)

theorem leads_settings (before after : MapSettings) (forward : Bool) (content : Content Spec) :
    Leads editor (.Settings before after) forward content
      (content.withSettings (if forward then after else before)) := by
  rintro document hcached rfl
  exact ⟨_, congrArg some (document.setSettingsValues_eq editor hcached _)⟩

theorem leads_annotations (before after : Annotations) (forward : Bool) (content : Content Spec) :
    Leads editor (.Annotations before after) forward content
      (content.withAnnotations (if forward then after else before)) := by
  rintro document hcached rfl
  obtain ⟨feed, hset⟩ :=
    document.setAnnotationValues_eq editor hcached (if forward then after else before)
  exact ⟨feed, congrArg some hset⟩

theorem leads_resize (before after : Extent) (forward : Bool) (content : Content Spec) :
    Leads editor (.Resize before after) forward content
      (content.withExtent (if forward then after else before)) := by
  rintro document hcached rfl
  obtain ⟨feed, hset⟩ := document.setExtent_eq editor hcached (if forward then after else before)
  exact ⟨feed, congrArg some hset⟩

theorem leads_generate (before after : Generation Spec) (forward : Bool) (content : Content Spec) :
    Leads editor (.Generate before after) forward content
      (content.withGeneration (if forward then after else before)) := by
  rintro document hcached rfl
  let generation := if forward then after else before
  obtain ⟨feed, hextent⟩ := document.setExtent_eq editor hcached generation.extent
  have hsettings := Document.setSettingsValues_eq editor
    (document.showing editor (document.content.withExtent generation.extent) feed) rfl
    generation.settings
  have happly : document.apply editor (.Generate before after) forward =
      some { (document.setExtent editor generation.extent).setSettingsValues generation.settings with
        spec := generation.spec } := rfl
  rw [happly, hextent, hsettings]
  exact ⟨feed, rfl⟩

end Leads

end StompyMux.Mappy
