import StompyMux.Map.Hex

-- Light, weather and wind.
namespace StompyMux.Map

open Library.Fallible

inductive Light
  | Day | Dawn | Dusk | FullMoonNight | MoonlessNight | PitchBlack
  deriving DecidableEq

namespace Light

def ALL : List Light := [Day, Dawn, Dusk, FullMoonNight, MoonlessNight, PitchBlack]

def variant : Light → String
  | Day => "Day"
  | Dawn => "Dawn"
  | Dusk => "Dusk"
  | FullMoonNight => "FullMoonNight"
  | MoonlessNight => "MoonlessNight"
  | PitchBlack => "PitchBlack"

def name : Light → String
  | Day => "day"
  | Dawn => "dawn"
  | Dusk => "dusk"
  | FullMoonNight => "full_moon_night"
  | MoonlessNight => "moonless_night"
  | PitchBlack => "pitch_black"

end Light

inductive Weather
  | Clear | LightFog | HeavyFog | LightRain | ModerateRain | HeavyRain | GustingRain
  | TorrentialDownpour | LightSnow | ModerateSnow | HeavySnow | SnowFlurries | Sleet | LightHail
  | HeavyHail | IceStorm | BlowingSand | LightningStorm
  deriving DecidableEq

namespace Weather

def ALL : List Weather :=
  [Clear, LightFog, HeavyFog, LightRain, ModerateRain, HeavyRain, GustingRain, TorrentialDownpour,
    LightSnow, ModerateSnow, HeavySnow, SnowFlurries, Sleet, LightHail, HeavyHail, IceStorm,
    BlowingSand, LightningStorm]

def variant : Weather → String
  | Clear => "Clear"
  | LightFog => "LightFog"
  | HeavyFog => "HeavyFog"
  | LightRain => "LightRain"
  | ModerateRain => "ModerateRain"
  | HeavyRain => "HeavyRain"
  | GustingRain => "GustingRain"
  | TorrentialDownpour => "TorrentialDownpour"
  | LightSnow => "LightSnow"
  | ModerateSnow => "ModerateSnow"
  | HeavySnow => "HeavySnow"
  | SnowFlurries => "SnowFlurries"
  | Sleet => "Sleet"
  | LightHail => "LightHail"
  | HeavyHail => "HeavyHail"
  | IceStorm => "IceStorm"
  | BlowingSand => "BlowingSand"
  | LightningStorm => "LightningStorm"

def name : Weather → String
  | Clear => "clear"
  | LightFog => "light_fog"
  | HeavyFog => "heavy_fog"
  | LightRain => "light_rain"
  | ModerateRain => "moderate_rain"
  | HeavyRain => "heavy_rain"
  | GustingRain => "gusting_rain"
  | TorrentialDownpour => "torrential_downpour"
  | LightSnow => "light_snow"
  | ModerateSnow => "moderate_snow"
  | HeavySnow => "heavy_snow"
  | SnowFlurries => "snow_flurries"
  | Sleet => "sleet"
  | LightHail => "light_hail"
  | HeavyHail => "heavy_hail"
  | IceStorm => "ice_storm"
  | BlowingSand => "blowing_sand"
  | LightningStorm => "lightning_storm"

end Weather

structure Wind where
  direction : UInt16
  speed : UInt16
  deriving DecidableEq

def Wind.validate (wind : Wind) : Except Error Unit := do
  ensure (wind.direction < 360) "Wind direction must be 0 to 359"
  ensure (wind.speed < 32768) "Wind speed must be at most 32767"

end StompyMux.Map

-- Battlefield rule switches kept as bits.
namespace StompyMux.Map

inductive MapFlag
  | Vacuum | Underground | Dark | IndestructibleStructures | NoFriendlyFire
  | ElectromagneticInterference
  deriving DecidableEq

namespace MapFlag

def ALL : List MapFlag :=
  [Vacuum, Underground, Dark, IndestructibleStructures, NoFriendlyFire, ElectromagneticInterference]

def variant : MapFlag → String
  | Vacuum => "Vacuum"
  | Underground => "Underground"
  | Dark => "Dark"
  | IndestructibleStructures => "IndestructibleStructures"
  | NoFriendlyFire => "NoFriendlyFire"
  | ElectromagneticInterference => "ElectromagneticInterference"

def bit : MapFlag → Int64
  | Vacuum => 4
  | Underground => 16
  | Dark => 32
  | IndestructibleStructures => 64
  | NoFriendlyFire => 256
  | ElectromagneticInterference => 1024

def isSet (flag : MapFlag) (flags : Int64) : Bool := flags &&& flag.bit != 0

def apply (flag : MapFlag) (flags : Int64) (enabled : Bool) : Int64 :=
  if enabled then flags ||| flag.bit else flags &&& ~~~flag.bit

def mask : Int64 := ALL.foldl (fun mask flag => mask ||| flag.bit) 0

-- No bit is set that no flag uses.
def Known (flags : Int64) : Prop := flags &&& mask = flags

instance (flags : Int64) : Decidable (Known flags) :=
  inferInstanceAs (Decidable (flags &&& mask = flags))

-- The flags set together.
def combine (flags : List MapFlag) : Int64 := flags.foldl (fun bits flag => flag.apply bits true) 0

end MapFlag

def i32TryFrom (value : Int64) : Option Int32 :=
  if value.toInt32.toInt64 = value then some value.toInt32 else none

theorem and_or (a b c : Int64) : a &&& (b ||| c) = a &&& b ||| a &&& c :=
  Int64.toBitVec_inj.mp BitVec.and_or_distrib_left

namespace MapFlag

theorem and_bit (flag : MapFlag) (flags : Int64) : flags &&& flag.bit = 0 ∨ flags &&& flag.bit = flag.bit := by
  have htwo : ∃ k, flag.bit.toBitVec = BitVec.twoPow 64 k := by
    cases flag with
    | Vacuum => exact ⟨2, by decide⟩
    | Underground => exact ⟨4, by decide⟩
    | Dark => exact ⟨5, by decide⟩
    | IndestructibleStructures => exact ⟨6, by decide⟩
    | NoFriendlyFire => exact ⟨8, by decide⟩
    | ElectromagneticInterference => exact ⟨10, by decide⟩
  obtain ⟨k, hk⟩ := htwo
  have hand : (flags &&& flag.bit).toBitVec = if flags.toBitVec.getLsbD k then BitVec.twoPow 64 k else 0#64 := by
    rw [Int64.toBitVec_and, hk, BitVec.and_twoPow]
  by_cases hset : flags.toBitVec.getLsbD k = true
  · right
    rw [if_pos hset, ← hk] at hand
    exact Int64.toBitVec_inj.mp hand
  · left
    rw [if_neg hset] at hand
    exact Int64.toBitVec_inj.mp hand

theorem known_zero : Known 0 := by decide

theorem known_or {flags bits : Int64} (hflags : Known flags) (hbits : Known bits) :
    Known (flags ||| bits) := by
  unfold Known at *
  rw [Int64.and_comm, and_or, Int64.and_comm, hflags, Int64.and_comm, hbits]

theorem known_bit (flag : MapFlag) : Known flag.bit := by
  cases flag <;> decide

theorem known_combine (flags : List MapFlag) : Known (combine flags) := by
  have hrun : ∀ (flags : List MapFlag) (bits : Int64), Known bits →
      Known (flags.foldl (fun bits flag => flag.apply bits true) bits) := by
    intro flags
    induction flags with
    | nil => exact fun bits h => h
    | cons flag flags ih => exact fun bits h => ih _ (known_or h flag.known_bit)
  exact hrun flags 0 known_zero

-- Setting the known flags that are set rebuilds their bits.
theorem foldl_filter_isSet (flags : Int64) (all : List MapFlag) (bits : Int64) :
    (all.filter (fun flag => flag.isSet flags)).foldl (fun bits flag => flag.apply bits true) bits =
      all.foldl (fun bits flag => bits ||| (flags &&& flag.bit)) bits := by
  induction all generalizing bits with
  | nil => rfl
  | cons flag all ih =>
      rw [List.foldl_cons, ← ih]
      rcases and_bit flag flags with hnone | hbit
      · have hunset : flag.isSet flags = false := by
          unfold isSet
          rw [hnone]
          rfl
        rw [List.filter_cons_of_neg (by simp [hunset]), hnone, Int64.or_zero]
      · have hset : flag.isSet flags = true := by
          unfold isSet
          rw [hbit]
          cases flag <;> decide
        rw [List.filter_cons_of_pos (by exact hset), List.foldl_cons, hbit]
        rfl

theorem and_foldl (flags : Int64) (all : List MapFlag) (bits : Int64) :
    flags &&& all.foldl (fun mask flag => mask ||| flag.bit) bits =
      all.foldl (fun mask flag => mask ||| (flags &&& flag.bit)) (flags &&& bits) := by
  induction all generalizing bits with
  | nil => rfl
  | cons flag all ih => rw [List.foldl_cons, List.foldl_cons, ih, and_or]

theorem combine_filter {flags : Int64} (h : Known flags) :
    combine (ALL.filter (fun flag => flag.isSet flags)) = flags := by
  have hmask := and_foldl flags ALL 0
  rw [Int64.and_zero] at hmask
  unfold combine
  rw [foldl_filter_isSet, ← hmask]
  exact h

end MapFlag

theorem i32TryFrom_toInt64 (value : Int32) : i32TryFrom value.toInt64 = some value := by
  unfold i32TryFrom
  rw [Int32.toInt32_toInt64, if_pos rfl]

theorem toInt64_of_i32TryFrom {value : Int64} {small : Int32} (h : i32TryFrom value = some small) :
    small.toInt64 = value := by
  unfold i32TryFrom at h
  by_cases hfits : value.toInt32.toInt64 = value
  · rw [if_pos hfits] at h
    injection h with h
    rw [← h]
    exact hfits
  · rw [if_neg hfits] at h
    contradiction

end StompyMux.Map

-- Parsed maps, with their points of interest and regions.
namespace StompyMux.Map

open Library.Fallible

def validText (text : List Char) : Bool := !text.isEmpty && !text.contains (Char.ofNat 0)

structure MapPointOfInterest where
  kind : List Char
  name : List Char
  x : UInt16
  y : UInt16
  elevation : Option Int8
  deriving DecidableEq

def MapPointOfInterest.validate (point : MapPointOfInterest) (width height : Nat) :
    Except Error Unit := do
  ensure (validText point.kind) "point of interest type must be non-empty text without NUL characters"
  ensure (validText point.name) "point of interest name must be non-empty text without NUL characters"
  let name := (String.ofList point.name).quote
  ensure (point.x.toNat < width && point.y.toNat < height)
    s!"point of interest {name} at {point.x},{point.y} is off the map"

structure MapRegion where
  kind : List Char
  name : List Char
  corners : List (UInt16 × UInt16)
  deriving DecidableEq

def MapRegion.validate (region : MapRegion) (width height : Nat) : Except Error Unit := do
  ensure (validText region.kind) "region type must be non-empty text without NUL characters"
  ensure (validText region.name) "region name must be non-empty text without NUL characters"
  let name := (String.ofList region.name).quote
  ensure (!region.corners.isEmpty) s!"region {name} must have at least one corner"
  region.corners.forM (fun corner =>
    ensure (corner.1.toNat < width && corner.2.toNat < height)
      s!"region {name} corner {corner.1},{corner.2} is off the map")

structure MapAsset where
  width : UInt16
  height : UInt16
  flags : Int32
  gravity : UInt8
  temperature : Int8
  light : Option Light
  weather : Option Weather
  wind : Option Wind
  -- row by row
  hexes : List Hex
  pointsOfInterest : List MapPointOfInterest
  regions : List MapRegion
  deriving DecidableEq

-- What reading a file checks of a map.
structure MapAsset.Valid (map : MapAsset) : Prop where
  width : 1 ≤ map.width.toNat ∧ map.width.toNat ≤ 1000
  height : 1 ≤ map.height.toNat ∧ map.height.toNat ≤ 1000
  count : map.hexes.length = map.width.toNat * map.height.toNat
  hexes : ∀ hex ∈ map.hexes, hex.validate = .ok ()
  flags : MapFlag.Known map.flags.toInt64
  points : ∀ point ∈ map.pointsOfInterest, point.validate map.width.toNat map.height.toNat = .ok ()
  regions : ∀ region ∈ map.regions, region.validate map.width.toNat map.height.toNat = .ok ()
  wind : ∀ wind, map.wind = some wind → wind.validate = .ok ()

end StompyMux.Map
