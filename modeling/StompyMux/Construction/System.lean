import StompyMux.Library.Fallible
import StompyMux.Library.Text

-- Reading the texts of a template.
namespace StompyMux.Construction

open Library.Text

-- What follows a lead, letter case aside.
def stripNamePrefix (text lead : List Char) : Option (List Char) :=
  if eqIgnoreAsciiCase (text.take lead.length) lead then some (text.drop lead.length) else none

theorem eqIgnoreAsciiCase_iff (text other : List Char) :
    eqIgnoreAsciiCase text other = true ↔ toAsciiLowercase text = toAsciiLowercase other := by
  unfold eqIgnoreAsciiCase
  exact beq_iff_eq

def digit (c : Char) : Option Nat := if c.isDigit then some (c.toNat - 48) else none

def digits (value : Nat) : List Char → Option Nat
  | [] => some value
  | c :: text => (digit c).bind (fun d => digits (10 * value + d) text)

-- Decimal digits, at least one.
def magnitude : List Char → Option Nat
  | [] => none
  | text => digits 0 text

-- A leading plus is allowed.
def parseUnsigned (maximum : Nat) (text : List Char) : Option Nat :=
  let magnitude := match text with
    | '+' :: rest => magnitude rest
    | _ => magnitude text
  magnitude.filter (fun value => value ≤ maximum)

-- A leading sign is allowed.
def parseSigned (minimum maximum : Int) (text : List Char) : Option Int :=
  let value : Option Int := match text with
    | '+' :: rest => (magnitude rest).map (fun value => (value : Int))
    | '-' :: rest => (magnitude rest).map (fun value => -(value : Int))
    | _ => (magnitude text).map (fun value => (value : Int))
  value.filter (fun value => minimum ≤ value && value ≤ maximum)

-- The text before and after the first separator.
def splitOnce (separator : Char) (text : List Char) : Option (List Char × List Char) :=
  if text.contains separator then
    some (text.takeWhile (fun c => c != separator), (text.dropWhile (fun c => c != separator)).tail)
  else none

def words (text : List Char) : List (List Char) :=
  (text.splitOnP isAsciiWhitespace).filter (fun word => !word.isEmpty)

-- A list of texts as messages show it.
def debugTexts (texts : List String) : String :=
  "[" ++ ", ".intercalate (texts.map String.quote) ++ "]"

end StompyMux.Construction

-- Systems that fill critical slots, and the spellings that name them.
namespace StompyMux.Construction

open Library.Text

inductive System
  | ShoulderOrHip | UpperActuator | LowerActuator | HandOrFootActuator | Engine | Gyro | Cockpit
  | LifeSupport | Sensors | HeatSink | FuelTank | JumpJet | FerroFibrous | EndoSteel
  | TripleStrengthMyomer | Masc | Supercharger | C3Master | C3Slave | C3i | HeavyFerroFibrous
  | LightFerroFibrous | Case | CaseIi | TargetingComputer | ArtemisIv | ArtemisV | ApolloFcs
  | Ecm | AngelEcm | StealthArmor | LaserReflective | NullSignature | BeagleProbe | Tag
  | LightTag | LightProbe | BloodhoundProbe | Axe | Sword | Mace | DualSaw | Claw
  | RetractableBlade | Lance | Flail | WreckingBall | ChainWhip | SmallVibroblade
  | MediumVibroblade | LargeVibroblade | Talons | MachineGunArray | Spikes | Cargo
  | CommunicationsEquipment | LiftHoist | Backhoe
  deriving DecidableEq

inductive TechBase
  | InnerSphere
  | Clan
  deriving DecidableEq

-- The namespace of a base before an item's name.
def TechBase.lead : TechBase → List Char
  | .InnerSphere => "IS.".toList
  | .Clan => "CL.".toList

def TechBase.splitPrefix (text : List Char) : Option (TechBase × List Char) :=
  match stripNamePrefix text TechBase.InnerSphere.lead with
  | some rest => some (.InnerSphere, rest)
  | none =>
      match stripNamePrefix text TechBase.Clan.lead with
      | some rest => some (.Clan, rest)
      | none => none

namespace System

-- Slot names without a namespace.
def spellings : List (String × System) :=
  [("ShoulderOrHip", .ShoulderOrHip), ("UpperActuator", .UpperActuator),
    ("LowerActuator", .LowerActuator), ("HandOrFootActuator", .HandOrFootActuator),
    ("Engine", .Engine), ("Gyro", .Gyro), ("Cockpit", .Cockpit), ("LifeSupport", .LifeSupport),
    ("Sensors", .Sensors), ("HeatSink", .HeatSink), ("Fuel_Tank", .FuelTank),
    ("JumpJet", .JumpJet), ("TargetingComputer", .TargetingComputer), ("ArtemisIV", .ArtemisIv),
    ("ArtemisV", .ArtemisV), ("ApolloFCS", .ApolloFcs), ("Ecm", .Ecm), ("AngelEcm", .AngelEcm),
    ("StealthArmor", .StealthArmor), ("LaserReflective", .LaserReflective),
    ("NullSig_Device", .NullSignature), ("TAG", .Tag), ("LightTAG", .LightTag),
    ("BeagleProbe", .BeagleProbe), ("Light_BAP", .LightProbe),
    ("BloodhoundProbe", .BloodhoundProbe), ("Axe", .Axe), ("Sword", .Sword), ("Mace", .Mace),
    ("Dual_Saw", .DualSaw), ("Claw", .Claw), ("Retractable_Blade", .RetractableBlade),
    ("Lance", .Lance), ("Flail", .Flail), ("Wrecking_Ball", .WreckingBall),
    ("Chain_Whip", .ChainWhip), ("Small_Vibroblade", .SmallVibroblade),
    ("Medium_Vibroblade", .MediumVibroblade), ("Large_Vibroblade", .LargeVibroblade),
    ("Talons", .Talons), ("Spikes", .Spikes), ("Cargo", .Cargo),
    ("Communications_Equipment", .CommunicationsEquipment), ("Lift_Hoist", .LiftHoist),
    ("Backhoe", .Backhoe), ("MGA", .MachineGunArray), ("FerroFibrous", .FerroFibrous),
    ("EndoSteel", .EndoSteel), ("TripleStrengthMyomer", .TripleStrengthMyomer), ("Masc", .Masc),
    ("SuperCharger", .Supercharger), ("C3Master", .C3Master), ("C3Slave", .C3Slave),
    ("C3i", .C3i), ("HvyFerroFibrous", .HeavyFerroFibrous),
    ("LtFerroFibrous", .LightFerroFibrous), ("CASE", .Case), ("CASE-II", .CaseIi)]

def unprefixed (text : List Char) : Option System :=
  (spellings.find? (fun spelling => eqIgnoreAsciiCase text spelling.1.toList)).map Prod.snd

-- Systems that each base builds to its own specification under one name.
def builtByEitherBase (system : System) : Bool :=
  [CaseIi, Ecm, Masc, TargetingComputer, ArtemisIv, JumpJet, BeagleProbe, MachineGunArray].contains
    system

def installation (text : List Char) : Option (System × Option TechBase) :=
  match TechBase.splitPrefix text with
  | none => (unprefixed text).map (fun system => (system, none))
  | some (base, rest) =>
      ((unprefixed rest).filter builtByEitherBase).map (fun system => (system, some base))

def named (text : List Char) : Option System := (installation text).map Prod.fst

def stockName (text : List Char) : List Char :=
  match TechBase.splitPrefix text with
  | some (_, rest) => if (installation text).isSome then rest else text
  | none => text

end System

end StompyMux.Construction
