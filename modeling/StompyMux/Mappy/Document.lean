import StompyMux.Map.File
import StompyMux.Map.Geometry

-- The map being edited: painting, dragging, resizing and generating, with undo and redo, and saving.
namespace StompyMux.Mappy

open Library Library.Fallible Library.Text Library.Toml
open StompyMux.Map

structure MapSettings where
  flags : Int32
  gravity : UInt8
  temperature : Int8
  light : Light
  weather : Weather
  wind : Wind
  deriving DecidableEq

def DEFAULT_LIGHT : Light := .Day

def DEFAULT_WEATHER : Weather := .Clear

def DEFAULT_WIND : Wind := ⟨0, 0⟩

-- By row-major index.
structure HexChange where
  index : Nat
  before : Hex
  after : Hex
  deriving DecidableEq

structure Annotations where
  points : List MapPointOfInterest
  regions : List MapRegion
  deriving DecidableEq

-- Points go when their hex does, corners go when theirs does, and so do regions left without
-- corners.
def Annotations.moved (annotations : Annotations)
    (moved : UInt16 → UInt16 → Option (UInt16 × UInt16)) : Annotations where
  points := annotations.points.filterMap (fun point =>
    (moved point.x point.y).map (fun spot => { point with x := spot.1, y := spot.2 }))
  regions := (annotations.regions.map (fun region =>
    { region with corners := region.corners.filterMap (fun corner => moved corner.1 corner.2) })).filter
      (fun region => !region.corners.isEmpty)

structure Extent where
  width : UInt16
  height : UInt16
  hexes : List Hex
  annotations : Annotations
  deriving DecidableEq

structure Generation (Spec : Type) where
  extent : Extent
  settings : MapSettings
  spec : Option Spec

inductive Edit (Spec : Type) where
  | Hexes (changes : List HexChange)
  | Settings (before after : MapSettings)
  | Annotations (before after : Annotations)
  | Resize (before after : Extent)
  | Generate (before after : Generation Spec)

inductive ResizeEdge
  | Start | «End» | Both
  deriving DecidableEq

-- Columns or rows to add before the first existing one; negative to remove.
def ResizeEdge.leading (edge : ResizeEdge) (old new : UInt16) (columns : Bool) : Int :=
  let change : Int := new.toNat - old.toNat
  match edge with
  | .Start => change
  | .End => 0
  | .Both => if columns then change.tdiv 4 * 2 else change.tdiv 2

-- What renderers follow: the id of the hexes, the index of every hex written since it was assigned,
-- in order, the id of the regions, and the next id of the counter that all documents share: an atomic
-- word of 64 bits, whose ids repeat only after 2^64 renewals in one process.
structure Feed where
  hexesId : Nat
  changes : List Nat
  regionsId : Nat
  next : Nat
  deriving DecidableEq

namespace Feed

variable (feed : Feed)

def renewed : Feed := { feed with hexesId := feed.next, changes := [], next := feed.next + 1 }

-- Once the log is as long as the map, it starts over under a new id.
def written (count index : Nat) : Feed :=
  let feed := if feed.changes.length ≥ count then feed.renewed else feed
  { feed with changes := feed.changes ++ [index] }

def regionsRenewed : Feed := { feed with regionsId := feed.next, next := feed.next + 1 }

end Feed

structure Document (Spec : Type) where
  -- the file the map was loaded from or last saved to
  path : Option String
  map : MapAsset
  dirty : Bool
  spec : Option Spec
  -- the latest edit first
  undo : List (Edit Spec)
  redo : List (Edit Spec)
  stroke : OrderedMap Nat HexChange
  settingsDrag : Option MapSettings
  annotationsDrag : Option Annotations
  regionHexes : List (List HexCoordinate)
  feed : Feed

-- What the editor takes from elsewhere: the member hexes of a region, the format of map files and
-- the format of specs.
structure Editor (Spec : Type) where
  hexes : MapRegion → Except Error (List HexCoordinate)
  toml : Codec MapFile
  toString : Spec → Except Error (List Char)
  fromStr : List Char → Except Error Spec

def SPEC_COMMENT : String := "# mapgen-spec: "

def GENERATED_HEADER : String :=
  "# Generated by stompymux mapgen from the spec below, then edited in Mappy.\n"

def SETTLEMENT_TYPE : String := "settlement"

namespace Editor

variable {Spec : Type} (editor : Editor Spec)

def embedSpec (spec : Spec) (mapFile : List Char) : Except Error (List Char) := do
  let spec ← editor.toString spec
  pure (SPEC_COMMENT.toList ++ spec ++ '\n' :: mapFile)

def embeddedSpec (mapFile : List Char) : Option (Except Error Spec) :=
  ((Grid.lines mapFile).findSome? (stripPrefix SPEC_COMMENT.toList)).map (fun line =>
    withContext "invalid embedded mapgen spec" (editor.fromStr line))

-- The text of the file that is written, once it is known to load back as the map.
def source (map : MapAsset) (spec : Option Spec) : Except Error (List Char) := do
  let file ← map.toFile editor.toml
  let source ← match spec with
    | none => pure file
    | some spec => (editor.embedSpec spec file).map (GENERATED_HEADER.toList ++ ·)
  let decoded ← withContext "the saved map would not load" (MapAsset.parse editor.toml source)
  ensure (decoded = map) "the saved map would not load back unchanged"
  pure source

end Editor

def onAxis (steps center size : Int) : List Int :=
  let first := max (center - steps) 0
  let last := min (center + steps) (size - 1)
  (List.range (last + 1 - first).toNat).map (fun (i : Nat) => first + i)

-- The coordinates within a number of steps, row by row, as far as they are on the map.
def covered (width height : UInt16) (center : HexCoordinate) (radius : UInt8) : List HexCoordinate :=
  ((onAxis radius.toNat center.y height.toNat).flatMap (fun y =>
    (onAxis radius.toNat center.x width.toNat).map (fun x => ⟨x, y⟩))).filter
      (fun coordinate => coordinate.distance center ≤ radius.toNat)

-- The first value that a stroke found in a hex stays the one before it.
def strokeHex (stroke : OrderedMap Nat HexChange) (index : Nat) (before after : Hex) :
    OrderedMap Nat HexChange :=
  stroke.insert index (match stroke.get? index with
    | some change => { change with after := after }
    | none => ⟨index, before, after⟩)

namespace Document

variable {Spec : Type} (document : Document Spec)

def settings : MapSettings where
  flags := document.map.flags
  gravity := document.map.gravity
  temperature := document.map.temperature
  light := document.map.light.getD DEFAULT_LIGHT
  weather := document.map.weather.getD DEFAULT_WEATHER
  wind := document.map.wind.getD DEFAULT_WIND

def annotations : Annotations := ⟨document.map.pointsOfInterest, document.map.regions⟩

def extent : Extent where
  width := document.map.width
  height := document.map.height
  hexes := document.map.hexes
  annotations := document.annotations

-- A finished edit, which invalidates anything that could be redone.
def record (edit : Edit Spec) : Document Spec :=
  { document with undo := edit :: document.undo, redo := [], dirty := true }

-- An index outside the map stops the program.
def setHex (index : Nat) (hex : Hex) : Option (Document Spec) :=
  if index < document.map.hexes.length then
    some { document with
      map.hexes := document.map.hexes.set index hex
      feed := document.feed.written document.map.hexes.length index }
  else none

def setSettingsValues (settings : MapSettings) : Document Spec :=
  { document with
    map.flags := settings.flags
    map.gravity := settings.gravity
    map.temperature := settings.temperature
    map.light := some settings.light
    map.weather := some settings.weather
    map.wind := some settings.wind }

section

variable (editor : Editor Spec)

def regionsChanged : Document Spec :=
  { document with
    regionHexes := document.map.regions.map (fun region =>
      match editor.hexes region with
      | .ok hexes => hexes
      | .error _ => [])
    feed := document.feed.regionsRenewed }

def setAnnotationValues (annotations : Annotations) : Document Spec :=
  let document := { document with map.pointsOfInterest := annotations.points }
  if document.map.regions = annotations.regions then document
  else regionsChanged { document with map.regions := annotations.regions } editor

-- Every hex may have moved.
def setExtent (extent : Extent) : Document Spec :=
  let document := setAnnotationValues
    { document with
      map.width := extent.width
      map.height := extent.height
      map.hexes := extent.hexes } editor extent.annotations
  { document with feed := document.feed.renewed }

def apply (edit : Edit Spec) (forward : Bool) : Option (Document Spec) :=
  match edit with
  | .Hexes changes =>
      changes.foldlM (fun document change =>
        document.setHex change.index (if forward then change.after else change.before)) document
  | .Settings before after => some (document.setSettingsValues (if forward then after else before))
  | .Annotations before after =>
      some (document.setAnnotationValues editor (if forward then after else before))
  | .Resize before after => some (document.setExtent editor (if forward then after else before))
  | .Generate before after =>
      let generation := if forward then after else before
      let document := document.setExtent editor generation.extent
      some { document.setSettingsValues generation.settings with spec := generation.spec }

end

def endSettingsDrag : Document Spec :=
  match document.settingsDrag with
  | none => document
  | some before =>
      let document := { document with settingsDrag := none }
      let after := document.settings
      if before = after then document else document.record (.Settings before after)

def endAnnotationsDrag : Document Spec :=
  match document.annotationsDrag with
  | none => document
  | some before =>
      let document := { document with annotationsDrag := none }
      let after := document.annotations
      if before = after then document else document.record (.Annotations before after)

def endStroke : Document Spec :=
  let document := document.endSettingsDrag.endAnnotationsDrag
  let changes := document.stroke.values.filter (fun change => change.before != change.after)
  let document := { document with stroke := OrderedMap.empty }
  if changes.isEmpty then document else document.record (.Hexes changes)

-- One hex of a stroke.
def paintHex (apply : Hex → Hex) (document : Document Spec) (coordinate : HexCoordinate) :
    Option (Document Spec) := do
  let index := coordinate.y.toNat * document.map.width.toNat + coordinate.x.toNat
  let before ← document.map.hexes[index]?
  let after := apply before
  if before = after then some document
  else do
    let document ← document.setHex index after
    some { document with stroke := strokeHex document.stroke index before after }

def paintWith (center : HexCoordinate) (radius : UInt8) (apply : Hex → Hex) :
    Option (Document Spec) :=
  let document := document.endSettingsDrag.endAnnotationsDrag
  (covered document.map.width document.map.height center radius).foldlM (paintHex apply) document

section

variable (editor : Editor Spec)

def setSettings (after : MapSettings) : Option (Document Spec) :=
  let document := document.endStroke
  let before := document.settings
  if before = after then some document
  else (document.apply editor (.Settings before after) true).map
    (fun document => document.record (.Settings before after))

def dragSettings (after : MapSettings) : Option (Document Spec) :=
  let before := document.settings
  let document := if document.settingsDrag.isNone then
      { document.endStroke with settingsDrag := some before }
    else document
  document.apply editor (.Settings before after) true

def setAnnotations (after : Annotations) : Document Spec :=
  let document := document.endStroke
  let before := document.annotations
  if before = after then document
  else (document.setAnnotationValues editor after).record (.Annotations before after)

def dragAnnotations (after : Annotations) : Document Spec :=
  let document := if document.annotationsDrag.isNone then
      { document.endStroke with annotationsDrag := some document.endStroke.annotations }
    else document
  document.setAnnotationValues editor after

def setPoints (points : List MapPointOfInterest) : Document Spec :=
  document.setAnnotations editor ⟨points, document.map.regions⟩

def dragPoints (points : List MapPointOfInterest) : Document Spec :=
  document.dragAnnotations editor ⟨points, document.map.regions⟩

def setRegions (regions : List MapRegion) : Document Spec :=
  document.setAnnotations editor ⟨document.map.pointsOfInterest, regions⟩

def dragRegions (regions : List MapRegion) : Document Spec :=
  document.dragAnnotations editor ⟨document.map.pointsOfInterest, regions⟩

def undoEdit : Option (Document Spec) :=
  let document := document.endStroke
  match document.undo with
  | [] => some document
  | edit :: edits =>
      (document.apply editor edit false).map (fun applied =>
        { applied with undo := edits, redo := edit :: document.redo, dirty := true })

def redoEdit : Option (Document Spec) :=
  let document := document.endStroke
  match document.redo with
  | [] => some document
  | edit :: edits =>
      (document.apply editor edit true).map (fun applied =>
        { applied with undo := edit :: document.undo, redo := edits, dirty := true })

end

end Document

-- A spot, if it is on the map, after the given columns and rows were added before it.
def movedBy (left top : Int) (width height x y : UInt16) : Option (UInt16 × UInt16) :=
  let x := (x.toNat : Int) + left
  let y := (y.toNat : Int) + top
  if 0 ≤ x ∧ x < width.toNat ∧ 0 ≤ y ∧ y < height.toNat then
    some (UInt16.ofNat x.toNat, UInt16.ofNat y.toNat)
  else none

def Extent.resized (before : Extent) (width height : UInt16) (columns rows : ResizeEdge) : Extent :=
  let left := columns.leading before.width width true
  let top := rows.leading before.height height false
  let moved := movedBy left top width height
  { width := width
    height := height
    hexes := before.hexes.zipIdx.foldl (fun hexes (hex, index) =>
      let x := UInt16.ofNat (index % before.width.toNat)
      let y := UInt16.ofNat (index / before.width.toNat)
      match moved x y with
      | some (x, y) => hexes.set (y.toNat * width.toNat + x.toNat) hex
      | none => hexes) (List.replicate (width.toNat * height.toNat) (Hex.atLevel 0))
    annotations := before.annotations.moved moved }

def inRange (size : UInt16) : Bool := 1 ≤ size && size ≤ 1000

def SIZE_ERROR : String := "map dimensions must be between 1 and 1000"

-- The generated annotations follow the ones that stay, which are not those of an earlier generation.
def Annotations.generated (annotations : Annotations) (map : MapAsset) : Annotations :=
  let kept : Annotations :=
    ⟨annotations.points.filter (fun point => point.kind != SETTLEMENT_TYPE.toList),
      annotations.regions.filter (fun region => region.kind != SETTLEMENT_TYPE.toList)⟩
  let moved := kept.moved (fun x y => if x < map.width ∧ y < map.height then some (x, y) else none)
  ⟨moved.points ++ map.pointsOfInterest, moved.regions ++ map.regions⟩

def Generation.generated {Spec : Type} (before : Generation Spec) (map : MapAsset) (spec : Spec) :
    Generation Spec where
  extent :=
    ⟨map.width, map.height, map.hexes, before.extent.annotations.generated map⟩
  settings :=
    { before.settings with flags := map.flags, gravity := map.gravity, temperature := map.temperature }
  spec := some spec

namespace Document

variable {Spec : Type} (document : Document Spec) (editor : Editor Spec)

-- The document is as it was when the size is refused.
def resize (width height : UInt16) (columns rows : ResizeEdge) :
    Except Error (Option (Document Spec)) := do
  ensure (inRange width && inRange height) SIZE_ERROR
  let document := document.endStroke
  if (width, height) = (document.map.width, document.map.height) then pure (some document)
  else
    let edit := .Resize document.extent (document.extent.resized width height columns rows)
    pure ((document.apply editor edit true).map (fun document => document.record edit))

def generation : Generation Spec := ⟨document.extent, document.settings, document.spec⟩

def generate (map : MapAsset) (spec : Spec) : Option (Document Spec) :=
  let document := document.endStroke
  let edit := .Generate document.generation (document.generation.generated map spec)
  (document.apply editor edit true).map (fun document => document.record edit)

-- The strokes end even when the save fails; whether the file can be written is not up to the editor.
def saveTo (path : String) (written : Except Error Unit) : Document Spec × Except Error Unit :=
  let document := document.endStroke
  let outcome := editor.source document.map document.spec >>= fun _ =>
    withContext s!"writing {path}" written
  match outcome with
  | .error e => (document, .error e)
  | .ok () => ({ document with path := some path, dirty := false }, .ok ())

end Document

namespace Editor

variable {Spec : Type} (editor : Editor Spec)

-- Settings that the map leaves open take their defaults.
def fromMap (next : Nat) (path : Option String) (map : MapAsset) : Document Spec :=
  Document.regionsChanged
    { path := path
      map :=
        { map with
          light := some (map.light.getD DEFAULT_LIGHT)
          weather := some (map.weather.getD DEFAULT_WEATHER)
          wind := some (map.wind.getD DEFAULT_WIND) }
      dirty := false
      spec := none
      undo := []
      redo := []
      stroke := OrderedMap.empty
      settingsDrag := none
      annotationsDrag := none
      regionHexes := []
      feed := ⟨next, [], 0, next + 1⟩ } editor

def new (next : Nat) (width height : UInt16) : Except Error (Document Spec) := do
  ensure (inRange width && inRange height) SIZE_ERROR
  pure (editor.fromMap next none
    { width := width
      height := height
      flags := 0
      gravity := 100
      temperature := 20
      light := none
      weather := none
      wind := none
      hexes := List.replicate (width.toNat * height.toNat) (Hex.atLevel 0)
      pointsOfInterest := []
      regions := [] })

def readSpec (source : List Char) : Except Error (Option Spec) :=
  match editor.embeddedSpec source with
  | none => .ok none
  | some spec => spec.map some

-- What the file holds, once it could be read.
def «open» (next : Nat) (path : String) (source : List Char) : Except Error (Document Spec) := do
  let map ← withContext s!"decoding {path}" (MapAsset.parse editor.toml source)
  let spec ← withContext s!"decoding {path}" (editor.readSpec source)
  pure { editor.fromMap next (some path) map with spec := spec }

def preview (next : Nat) (map : MapAsset) : Document Spec := editor.fromMap next none map

end Editor

end StompyMux.Mappy
