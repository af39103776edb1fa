import StompyMux.Construction.Loadout

-- The two resolvers of a template's critical slots.
namespace StompyMux.Construction

open Library Library.Fallible Library.Text

def splitLeft : String := "SplitCrit_Left"

def splitRight : String := "SplitCrit_Right"

-- A marker that extends a mount into another section.
def isSplitProxy (equipment : List Char) : Bool :=
  eqIgnoreAsciiCase equipment splitLeft.toList || eqIgnoreAsciiCase equipment splitRight.toList

-- Adjacent locations, legs apart.
def splitAdjacent (primary extension : MechSection) : Bool :=
  match primary, extension with
  | .LeftArm, .LeftTorso | .CenterTorso, .LeftTorso => true
  | .LeftTorso, .LeftArm | .LeftTorso, .CenterTorso => true
  | .RightArm, .RightTorso | .CenterTorso, .RightTorso => true
  | .RightTorso, .RightArm | .RightTorso, .CenterTorso => true
  | _, _ => false

-- The marker names the side of the body.
def splitProxyName (primary extension : MechSection) : String :=
  if [primary, extension].any (fun part => [MechSection.LeftArm, .LeftTorso, .LeftLeg].contains part)
  then splitLeft else splitRight

-- The section and the first slot of the mount that a marker extends.
def parseSplitLink (data : List Char) : Except Error CriticalLocation := do
  let (part, slot) ← ofOption "Invalid split critical parent" (splitOnce ':' data)
  let part ← MechSection.parse part
  let slot ← ofOption "Invalid split critical parent slot" (parseUnsigned 255 slot)
  pure ⟨part, slot⟩

abbrev Links := OrderedMap CriticalLocation (List CriticalLocation)

def sectionSlots (part : MechSection) (layout : SectionDefinition) :
    List (CriticalLocation × CriticalDefinition) :=
  layout.criticals.entries.map (fun entry => (⟨part, entry.1⟩, entry.2))

-- Every occupied slot in storage order.
def MechTemplate.slots (template : MechTemplate) : List (CriticalLocation × CriticalDefinition) :=
  template.sections.entries.flatMap (fun entry => sectionSlots entry.1 entry.2)

def linkMarker (template : MechTemplate) (links : Links)
    (marker : CriticalLocation × CriticalDefinition) : Except Error Links :=
  if !isSplitProxy marker.2.equipment then .ok links
  else do
    let parent ← parseSplitLink marker.2.data
    ensure (splitAdjacent parent.part marker.1.part &&
        eqIgnoreAsciiCase marker.2.equipment (splitProxyName parent.part marker.1.part).toList)
      "Invalid split critical section"
    let primary ← ofOption "Split critical parent is not installed" (template.critical? parent)
    let weapon ← Weapon.parse primary.equipment
    ensure weapon.supportsSplitMount "Weapon does not support split criticals"
    ensure (marker.2.modes = []) "Inconsistent split critical metadata"
    pure (links.insert parent ((links.get? parent).getD [] ++ [marker.1]))

def contiguous : List CriticalLocation → Bool
  | [] => true
  | first :: rest => (first :: rest).zipIdx.all (fun entry =>
      entry.1.part = first.part && entry.1.slot = first.slot + entry.2)

def splitCriticals (template : MechTemplate) : Except Error Links := do
  let links ← template.slots.foldlM (linkMarker template) OrderedMap.empty
  ensure (links.values.all contiguous) "Split criticals must be contiguous in one extension section"
  pure links

structure Progress where
  loadout : MechLoadout
  split : Links
  -- slots of this section that a mount has taken
  consumed : List Nat

namespace Progress

def addBin (p : Progress) (bin : AmmunitionBin) : Progress :=
  { p with loadout := { p.loadout with ammunition := p.loadout.ammunition ++ [bin] } }

def addSystem (p : Progress) (system : SystemCritical) : Progress :=
  { p with loadout := { p.loadout with systems := p.loadout.systems ++ [system] } }

-- A mount takes its slots of this section and its extension.
def addMount (p : Progress) (location : CriticalLocation) (mount : WeaponMount) (taken : List Nat) :
    Progress where
  loadout := { p.loadout with weapons := p.loadout.weapons ++ [{ mount with
    criticals := taken.map (fun slot => ⟨location.part, slot⟩) ++ (p.split.get? location).getD [] }] }
  split := p.split.remove location
  consumed := p.consumed ++ taken

end Progress

def namesWeapon (equipment : List Char) : Bool :=
  ((stripNamePrefix equipment "IS.".toList).isSome ||
    (stripNamePrefix equipment "CL.".toList).isSome) && (System.named equipment).isNone

abbrev Placement :=
  SectionDefinition → CriticalLocation → CriticalDefinition → Progress → Except Error Progress

def unsupportedData (critical : CriticalDefinition) : String :=
  "Unsupported critical data " ++ String.ofList critical.data

def incomplete (weapon : Weapon) : String :=
  "Incomplete or inconsistent " ++ String.ofList weapon.name ++ " criticals"

def placeSystem (location : CriticalLocation) (critical : CriticalDefinition) (p : Progress)
    (installation : System × Option TechBase) : Except Error Progress := do
  let system ← SystemCritical.resolve location installation.1 installation.2 critical
  pure (p.addSystem system)

-- A slot that a mount of this section may take.
def continues (critical part : CriticalDefinition) : Bool :=
  eqIgnoreAsciiCase part.equipment critical.equipment &&
    (part.modes = [] || part.modes = critical.modes)

-- A weapon takes a complete run of equal slots.
def placeWeapon (definition : SectionDefinition) (location : CriticalLocation)
    (critical : CriticalDefinition) (p : Progress) : Except Error Progress := do
  let weapon ← Weapon.parse critical.equipment
  ensure weapon.mechMountable (String.ofList weapon.name ++ " cannot be mounted on a BattleMech")
  let mount ← WeaponMount.fromCritical weapon critical []
  let count := weapon.profile.criticalSlots
  let extension := (p.split.get? location).getD []
  ensure (extension = [] || weapon.supportsSplitMount) "Weapon does not support split criticals"
  ensure (extension.length < count) "Incorrect split weapon slot count"
  let localCount := count - extension.length
  ensure (location.slot + localCount ≤ 255) "Critical range overflow"
  ensure (location.slot + localCount ≤ 12) "Split weapon is missing its extension"
  let taken := List.range' location.slot localCount
  ensure (taken.all (fun index => !p.consumed.contains index &&
      ((definition.criticals.get? index).map (fun part =>
        continues critical part && part.data = critical.data)).getD false))
    (incomplete weapon)
  pure (p.addMount location mount taken)

def place : Placement := fun definition location critical p =>
  match stripNamePrefix critical.equipment "Ammo_".toList with
  | some name => do
      let bin ← AmmunitionBin.fromCritical name critical location
      pure (p.addBin bin)
  | none => do
      ensure (systemDataSupported critical) (unsupportedData critical)
      if namesWeapon critical.equipment then placeWeapon definition location critical p
      else do
        ensure (critical.modes = []) "Unsupported system mode"
        let installation ← ofOption ("Unsupported equipment " ++ String.ofList critical.equipment)
          (System.installation critical.equipment)
        placeSystem location critical p installation

-- Infantry weapons that administration keeps although no unit fires them.
def contractRawWeapon (text : List Char) : Bool :=
  match (stripNamePrefix text "IS.".toList).or (stripNamePrefix text "CL.".toList) with
  | some name => ["infantrylaser", "heavyinfantryrifle", "infantrymachinegun", "infantryrifle",
      "lightinfantryrifle", "infantrylrm", "infantrysrm", "infantryflamer"].any
        (fun raw => toAsciiLowercase name = raw.toList)
  | none => false

def isPart (text : List Char) (kinds : List PartKind) : Bool :=
  match Part.parse text with
  | .ok part => kinds.contains part.kind
  | .error _ => false

-- Matching slots count in authored order, whatever their data, and a large weapon may be partial.
def placeWeaponContract (definition : SectionDefinition) (location : CriticalLocation)
    (critical : CriticalDefinition) (p : Progress) (weapon : Weapon) : Except Error Progress := do
  let mount ← WeaponMount.fromCriticalContract weapon critical []
  let count := weapon.profile.criticalSlots
  let extension := (p.split.get? location).getD []
  ensure (extension = [] || weapon.supportsSplitMount) "Weapon does not support split criticals"
  ensure (extension.length < count) "Incorrect split weapon slot count"
  let localCount := count - extension.length
  let taken := ((definition.criticals.entries.filter (fun entry =>
    location.slot ≤ entry.1 && !p.consumed.contains entry.1 &&
      continues critical entry.2)).map Prod.fst).take localCount
  ensure (taken.length + extension.length = count ||
      (extension = [] && 9 ≤ count && !taken.isEmpty)) (incomplete weapon)
  pure (p.addMount location mount taken)

def placeContract : Placement := fun definition location critical p =>
  match stripNamePrefix critical.equipment "Ammo_".toList with
  | some name =>
      match AmmunitionBin.fromCriticalContract name critical location with
      | .ok bin => .ok (p.addBin bin)
      | .error e => if isPart critical.equipment [.Ammunition] then .ok p else .error e
  | none => do
      ensure (critical.data = "-".toList ||
          (parseSigned (-2147483648) 2147483647 critical.data).isSome || systemDataSupported critical)
        (unsupportedData critical)
      if namesWeapon critical.equipment then
        match Weapon.parse critical.equipment with
        | .ok weapon => placeWeaponContract definition location critical p weapon
        | .error e =>
            if contractRawWeapon critical.equipment || isPart critical.equipment [.Weapon] then .ok p
            else .error e
      else
        match System.installation critical.equipment with
        | some installation => do
            ensure (critical.modes = []) "Unsupported system mode"
            placeSystem location critical p installation
        | none =>
            if isPart critical.equipment [.Component, .Bomb] then .ok p
            else .error ["Unsupported equipment " ++ String.ofList critical.equipment]

section

variable (placement : Placement) (chassis : MechChassis)

-- Slots that a mount has taken and markers are passed over.
def visit (part : MechSection) (definition : SectionDefinition) (p : Progress)
    (entry : Nat × CriticalDefinition) : Except Error Progress :=
  if p.consumed.contains entry.1 || isSplitProxy entry.2.equipment then .ok p
  else
    withContext (chassis.sectionName part ++ " critical " ++ toString (entry.1 + 1) ++ " (" ++
        String.ofList entry.2.equipment ++ ")")
      (placement definition ⟨part, entry.1⟩ entry.2 p)

def visitSection (p : Progress) (entry : MechSection × SectionDefinition) : Except Error Progress :=
  entry.2.criticals.entries.foldlM (visit placement chassis entry.1 entry.2) { p with consumed := [] }

-- Every slot of every section, and no extension left over.
def walk (template : MechTemplate) : Except Error MechLoadout := do
  let split ← splitCriticals template
  let p ← template.sections.entries.foldlM (visitSection placement chassis) ⟨⟨[], [], []⟩, split, []⟩
  ensure (p.split.entries.isEmpty) "Split critical does not refer to the start of a weapon"
  pure p.loadout

end

namespace MechLoadout

def systemGroup (label : String) (group : List SystemCritical) :
    Except Error (List CriticalLocation) := do
  ensure (contiguous (group.map SystemCritical.location))
    ("Incomplete or inconsistent " ++ label ++ " criticals")
  pure (group.map SystemCritical.location)

-- Complete installations within one section.
def systemGroups (loadout : MechLoadout) (system : System) (size : Nat) (label : String) :
    Except Error (List (List CriticalLocation)) := do
  let slots := loadout.systems.filter (fun part => part.system = system)
  ensure (slots.length % size = 0) ("Incomplete " ++ label ++ " installation")
  (slots.toChunks size).mapM (systemGroup label)

def heatSinkGroups (loadout : MechLoadout) (slots : Nat) : Except Error (List (List CriticalLocation)) :=
  loadout.systemGroups .HeatSink slots "heat sink"

def jumpJetGroups (loadout : MechLoadout) (improved : Bool) :
    Except Error (List (List CriticalLocation)) :=
  loadout.systemGroups .JumpJet (if improved then 2 else 1) "jump jet"

def resolve (template : MechTemplate) : Except Error MechLoadout := do
  let chassis ← template.chassis
  let loadout ← walk place chassis template
  let myomerSlots := (loadout.systems.filter (fun part => part.system = .TripleStrengthMyomer)).length
  ensure (myomerSlots = 0 || 6 ≤ myomerSlots)
    "Triple Strength Myomer requires six installed critical slots"
  ensure (!template.hasSpecial "TripleMyomerTech" || 6 ≤ myomerSlots)
    "TripleMyomerTech requires six installed critical slots"
  let _ ← loadout.heatSinkGroups template.heatSinkSlots
  let _ ← loadout.jumpJetGroups (template.hasSpecial "ImprovedJJ_Tech")
  pure loadout

def resolveContract (template : MechTemplate) : Except Error MechLoadout := do
  let chassis ← template.chassis
  walk placeContract chassis template

end MechLoadout

def plain (equipment : String) : CriticalDefinition := ⟨equipment.toList, "-".toList, []⟩

-- An autocannon split over two sections, a launcher with a long-range bin, a machine gun.
def splitMech : MechTemplate where
  sections := ⟨[
    (.LeftTorso, ⟨⟨[(0, ⟨"SplitCrit_Left".toList, "Center_Torso:8".toList, []⟩),
      (1, ⟨"splitcrit_left".toList, "center_torso:8".toList, []⟩),
      (2, ⟨"SplitCrit_Left".toList, "Center_Torso:8".toList, []⟩),
      (3, ⟨"SplitCrit_Left".toList, "Center_Torso:8".toList, []⟩),
      (4, ⟨"SplitCrit_Left".toList, "Center_Torso:8".toList, []⟩),
      (5, ⟨"SplitCrit_Left".toList, "Center_Torso:8".toList, []⟩),
      (6, ⟨"Ammo_IS.MML-3".toList, "40".toList, ["MML_LRM", "Artemis/Mine"]⟩),
      (7, ⟨"Ammo_IS.MachineGun".toList, "100".toList, ["Halfton"]⟩)], by decide⟩⟩),
    (.CenterTorso, ⟨⟨[(6, plain "IS.MML-3"), (7, plain "is.mml-3"), (8, plain "IS.AC/20"),
      (9, plain "IS.AC/20"), (10, plain "is.ac/20"), (11, plain "IS.AC/20")], by decide⟩⟩),
    (.Head, ⟨⟨[(0, plain "CL.Ecm"), (3, ⟨"IS.MachineGun".toList, "-".toList, ["RearMount"]⟩)],
      by decide⟩⟩)], by decide⟩
  attributes := ⟨[("move_type", "biped".toList)], by simp⟩

theorem MechLoadout.resolve_splitMech :
    ∃ loadout, resolve splitMech = .ok loadout ∧ loadout.weapons.length = 3 := by
  have hweapons : (resolve splitMech).map (fun loadout => loadout.weapons.length) = .ok 3 := by
    decide +kernel
  cases h : resolve splitMech with
  | ok loadout =>
      rw [h] at hweapons
      injection hweapons with hweapons
      exact ⟨loadout, rfl, hweapons⟩
  | error e =>
      rw [h] at hweapons
      contradiction

end StompyMux.Construction
