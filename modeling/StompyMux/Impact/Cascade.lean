import StompyMux.Impact.Context

-- Ordered damage resolution with its nested explosions.
namespace StompyMux.Impact

open Library
open StompyMux.Btech

variable {Weapon : Type}

structure DamagePacket (Weapon : Type) where
  announced : Bool
  directHit : Bool
  place : MechSection
  damage : Nat
  internalOnly : Bool
  transfer : Bool
  rear : Bool
  -- a hit location roll of 2 adds a roll on the location struck
  tac : Bool
  -- vented by CASE II: criticals are disregarded on a second roll of 8 or more
  vented : Bool
  weaponEffect : Option (WeaponEffect Weapon)
  criticalPenalty : Nat

-- An explosion starts at the structure of its section.
def DamagePacket.blast (place : MechSection) (damage : Nat) : DamagePacket Weapon where
  announced := false
  directHit := false
  place := place
  damage := damage
  internalOnly := true
  transfer := true
  rear := false
  tac := false
  vented := false
  weaponEffect := none
  criticalPenalty := 0

-- What a packet did at one section on its way.
structure Visit where
  place : MechSection
  armor : Nat
  -- the struck armor after the armor phase
  armorLeft : Nat
  internal : Option Nat
  deriving DecidableEq

inductive Ending
  | Suppressed
  | Intercepted
  | Stopped
  deriving DecidableEq

-- A packet's course. The code returns nothing; this is kept for the proofs.
structure Course where
  visits : List Visit
  ending : Ending
  last : MechSection
  left : Nat
  deriving DecidableEq

variable (b : Battlefield Weapon)

def criticalCount (roll : Nat) : Nat :=
  match roll with
  | 8 | 9 => 1
  | 10 | 11 => 2
  | 12 => 3
  | _ => 0

-- A 12 blows these off instead of rolling three criticals.
def blownOffByTwelve (s : MechSection) : Bool := s.isLimb || s = .Head

def explosive [DecidableEq Weapon] (m : Mech Weapon) :
    List CriticalLocation → Except Error (List (CriticalLocation × CriticalLoss))
  | [] => .ok []
  | location :: rest =>
      match m.criticalLoss b.design location with
      | .error e => .error e
      | .ok loss =>
          match explosive m rest with
          | .error e => .error e
          | .ok found =>
              .ok ((loss.toList.filter (fun l => explosionDamage l ≠ 0)).map (location, ·) ++ found)

-- The eligible and the explosive slots of a section before its structure is destroyed.
def survey [DecidableEq Weapon] (m : Mech Weapon) (s : MechSection) :
    Except Error DestroyedLocation :=
  match explosive b m (m.criticalCandidates b.design s) with
  | .error e => .error e
  | .ok found => .ok ⟨m.criticalCandidates b.design s, found⟩

def modifiedRoll (modifier : Int) : Cascade Weapon Nat := do
  let roll ← genericRoll
  return (max 0 (min 12 ((roll : Int) + modifier))).toNat

def immune (m : Mech Weapon) : Bool := m.combatSafe || b.design.critProof

-- The nested packets go through `path`.
variable (path : DamagePacket Weapon → Cascade Weapon Course)

-- The rest of the blast is vented through the section's armor: the rear armor of a torso, and
-- on a limb no more than its armor or half its original armor.
def ventedPoints (m : Mech Weapon) (s : MechSection) (hit : Option ArmorHit) (vented : Nat) : Nat :=
  let points := (hit.map ArmorHit.removed).getD vented
  if s.isLimb then min (min points (m.sections s).armor) ((b.design.sections s).armor / 2)
  else points

def ventDent (s : MechSection) (hit : Option ArmorHit) (absorbed : Nat) : Cascade Weapon Unit :=
  match hit with
  | some ⟨removed, _, some dented⟩ =>
      if absorbed = removed then
        modify (fun c => c.setUnit (markHardenedDent c.unit (ArmorFacing.struck s true) dented))
      else pure ()
  | _ => pure ()

def ventExplosion (s : MechSection) (damage : Nat) : Cascade Weapon Unit := do
  let _ ← path { DamagePacket.blast s (min damage 1) with transfer := false, vented := true }
  let m ← unit
  if damage - 1 = 0 ∨ m.internal s = 0 then pure ()
  else do
    let hit := armorHit b.design m s true (damage - 1) .Ordinary
    let points := ventedPoints b m s hit (damage - 1)
    if points = 0 then pure ()
    else do
      let armor ← damagePhase b s points (.Armor true)
      ventDent s hit armor.absorbed
      recordPhase b armor

def explosionSection (location : CriticalLocation) (loss : CriticalLoss) : MechSection :=
  match loss with
  | .Weapon index _ =>
      match b.design.loadout.weapons[index]? with
      | some mount => (mount.criticals.head?.map CriticalLocation.place).getD location.place
      | none => location.place
  | _ => location.place

def explosionForce (loss : CriticalLoss) : Nat :=
  match loss with
  | .Ammunition index rounds damage =>
      match b.design.loadout.ammunition[index]? with
      | some bin =>
          if bin.mode = .Inferno then
            b.design.catalog.ammunitionExplosionDamageForMode bin.weapon rounds .Normal
          else damage
      | none => damage
  | loss => explosionDamage loss

def detonate (s : MechSection) (force : Nat) : Cascade Weapon Unit :=
  if 65535 < force then throw "out of range integral type conversion attempted"
  else if b.design.hasCaseIi s then ventExplosion b path s force
  else do
    let _ ← path (DamagePacket.blast s force)
    pure ()

def recordDetonation (loss : CriticalLoss) : Cascade Weapon Unit :=
  match loss.component with
  | some c => record (.Detonated c)
  | none => pure ()

def explode (location : CriticalLocation) (loss : CriticalLoss) : Cascade Weapon Unit :=
  if explosionDamage loss = 0 then pure ()
  else do
    recordDetonation loss
    detonate b path (explosionSection b location loss) (explosionForce b loss)
    interlude b .ExplosionInjury

def loseSystem (loss : CriticalLoss) : Cascade Weapon Unit :=
  match loss with
  | .System system => interlude b (.Critical system)
  | _ => pure ()

-- Disable the slot before its nested damage.
def loseCritical [DecidableEq Weapon] (location : CriticalLocation) : Cascade Weapon Unit := do
  let m ← unit
  let (loss, struck) ← liftExcept (m.destroyCritical b.design location)
  match loss with
  | none => pure ()
  | some loss => do
      setUnit struck
      pushCritical location loss
      loseSystem b loss
      explode b path location loss

def chooseCritical (s : MechSection) : Cascade Weapon (Option CriticalLocation) := do
  let m ← unit
  if immune b m then return none
  else if m.criticalCandidates b.design s = [] then return none
  else do
    let index ← roll (·.die (m.criticalCandidates b.design s).length)
    return (m.criticalCandidates b.design s)[index - 1]?

def disregarded (vented : Bool) : Cascade Weapon Bool :=
  if ¬ vented then return false
  else do
    let roll ← genericRoll
    return decide (8 ≤ roll)

def strikeSlots [DecidableEq Weapon] (s : MechSection) (vented : Bool) : Nat → Cascade Weapon Unit
  | 0 => pure ()
  | count + 1 => do
      spend
      let skip ← disregarded vented
      if skip then strikeSlots s vented count
      else do
        let location ← chooseCritical b s
        match location with
        | none => pure ()
        | some location => do
            loseCritical b path location
            strikeSlots s vented count

-- A section with no eligible slot left passes its criticals inward.
def resolveCriticals [DecidableEq Weapon] (s : MechSection) (count : Nat) (vented : Bool) :
    Cascade Weapon Unit := do
  let m ← unit
  if count = 0 ∨ immune b m then pure ()
  else
    match s.chain.find? (fun t => m.criticalCandidates b.design t ≠ []) with
    | none => pure ()
    | some t => strikeSlots b path t vented count

def resolveDeterminingRoll [DecidableEq Weapon] (s : MechSection) (roll : Nat) (vented : Bool) :
    Cascade Weapon Unit :=
  if roll = 12 ∧ blownOffByTwelve s then do
    record (.BlownOff s)
    let m ← unit
    let phase ← damagePhase b s (m.internal s) .Internal
    recordPhase b phase
  else resolveCriticals b path s (criticalCount roll) vented

def strikeDestroyed (vented : Bool) : Nat → DestroyedLocation → Cascade Weapon DestroyedLocation
  | 0, destroyed => pure destroyed
  | count + 1, destroyed => do
      spend
      let skip ← disregarded vented
      if skip then strikeDestroyed vented count destroyed
      else if destroyed.candidates = [] then return destroyed
      else do
        let index ← roll (·.die (min destroyed.candidates.length 65535))
        match destroyed.candidates[index - 1]? with
        | none => throw "bounded occupied slots"
        | some location =>
            let candidates := destroyed.candidates.eraseIdx (index - 1)
            let rest := destroyed.explosive.filter (fun slot => slot.1 ≠ location)
            match destroyed.explosive.find? (fun slot => slot.1 = location) with
            | none => strikeDestroyed vented count ⟨candidates, rest⟩
            | some (_, loss) => do
                pushCritical location loss
                explode b path location loss
                strikeDestroyed vented count ⟨candidates, rest⟩

-- A 12 on a limb or the head blows off what is already lost.
def resolveDestroyedLocationRoll (s : MechSection) (roll : Nat) (destroyed : DestroyedLocation)
    (vented : Bool) : Cascade Weapon DestroyedLocation := do
  let count := if roll = 12 ∧ blownOffByTwelve s then 0 else criticalCount roll
  let m ← unit
  if count = 0 ∨ immune b m then return destroyed
  else strikeDestroyed b path vented count destroyed

def destroyedRolls (s : MechSection) (vented : Bool) :
    List Int → DestroyedLocation → Cascade Weapon Unit
  | [], _ => pure ()
  | modifier :: rest, destroyed => do
      let roll ← modifiedRoll modifier
      let destroyed ← resolveDestroyedLocationRoll b path s roll destroyed vented
      destroyedRolls s vented rest destroyed

def survivingRolls [DecidableEq Weapon] (s : MechSection) (vented : Bool) :
    List Int → Cascade Weapon Unit
  | [] => pure ()
  | modifier :: rest => do
      let m ← unit
      if m.internal s = 0 then pure ()
      else do
        let roll ← modifiedRoll modifier
        resolveDeterminingRoll b path s roll vented
        survivingRolls s vented rest

def resolveLocationCriticals [DecidableEq Weapon] (s : MechSection) (modifiers : List Int)
    (destroyed : Option DestroyedLocation) (vented : Bool) : Cascade Weapon Unit :=
  match destroyed with
  | some destroyed =>
      if destroyed.explosive = [] then pure ()
      else destroyedRolls b path s vented modifiers destroyed
  | none => survivingRolls b path s vented modifiers

-- What changes from one section to the next.
structure Walk where
  place : MechSection
  damage : Nat
  announced : Bool
  tac : Bool
  -- whether no section has taken damage yet
  original : Bool
  plasmaReturns : Nat
  ignition : Option MechSection
  visits : List Visit

inductive Flow
  | Return (course : Course)
  | Break (walk : Walk)
  | Next (walk : Walk)

namespace DamagePacket

variable (p : DamagePacket Weapon)

def start : Walk := ⟨p.place, p.damage, p.announced, p.tac, true, 0, none, []⟩

def damageClass : DamageClass := (p.weaponEffect.map WeaponEffect.damageClass).getD .Ordinary

def ignites (s : MechSection) : Bool :=
  p.rear && s.isTorso &&
    match p.weaponEffect with
    | none | some .AreaEffect | some .Impact => false
    | some _ => true

def isPlasma : Bool :=
  match p.weaponEffect with
  | some .Plasma => true
  | _ => false

def piercing : Option Weapon :=
  match p.weaponEffect with
  | some (.ArmorPiercing weapon) => some weapon
  | _ => none

end DamagePacket

def HARDENED_CRITICAL_PENALTY : Nat := 2

def REFLECTIVE_ARMOR_PIERCING_BONUS : Int := 2

-- The modifiers of the rolls a hit makes at a section.
def rolls (p : DamagePacket Weapon) (w : Walk) (armorDamaged structureDamaged : Bool) : List Int :=
  (if w.tac then
    [-((min (p.criticalPenalty +
      if b.design.hardenedArmor then HARDENED_CRITICAL_PENALTY else 0) 255 : Nat) : Int)]
    else []) ++
  (match p.piercing with
    | some weapon =>
        if w.original ∧ armorDamaged ∧ ¬ structureDamaged ∧ ¬ b.design.hardenedArmor then
          [(if b.design.reflectiveArmor then REFLECTIVE_ARMOR_PIERCING_BONUS else 0) -
            ((min (p.criticalPenalty + b.design.catalog.armorPiercingPenalty weapon) 255 : Nat) : Int)]
        else []
    | none => []) ++
  if structureDamaged then [-(p.criticalPenalty : Int)] else []

structure Struck where
  absorbed : Nat
  left : Nat

def dentStage (facing : ArmorFacing) (special : Option ArmorHit) : Cascade Weapon Unit :=
  match special with
  | some ⟨_, _, some dented⟩ => modify (fun c => c.setUnit (markHardenedDent c.unit facing dented))
  | _ => pure ()

-- Hardened and reflective armor count points in their own way.
def armorStage (p : DamagePacket Weapon) (w : Walk) : Cascade Weapon Struck :=
  if p.internalOnly then return ⟨0, w.damage⟩
  else do
    let m ← unit
    let special := armorHit b.design m w.place p.rear w.damage p.damageClass
    let armor ← damagePhase b w.place ((special.map ArmorHit.removed).getD w.damage) (.Armor p.rear)
    dentStage (ArmorFacing.struck w.place p.rear) special
    recordPhase b armor
    return ⟨armor.absorbed, (special.map ArmorHit.overflow).getD armor.remaining⟩

structure Broken where
  absorbed : Option Nat
  left : Nat
  destroyed : Option DestroyedLocation

-- A section the damage will destroy is surveyed first.
def surveyStage [DecidableEq Weapon] (s : MechSection) (structural : Nat) :
    Cascade Weapon (Option DestroyedLocation) := do
  let m ← unit
  if structural < m.internal s then return none
  else do
    let found ← liftExcept (survey b m s)
    record (.Surveyed found)
    return some found

def breakStage (s : MechSection) (structural : Nat) (found : Option DestroyedLocation) :
    Cascade Weapon Broken := do
  let phase ← damagePhase b s structural .Internal
  recordPhase b phase
  let m ← unit
  return ⟨some phase.absorbed, phase.remaining, found.filter (fun _ => m.internal s = 0)⟩

def structureStage [DecidableEq Weapon] (s : MechSection) (damage : Nat) :
    Cascade Weapon Broken := do
  let m ← unit
  if damage = 0 ∨ m.internal s = 0 then return ⟨none, damage, none⟩
  else do
    let structural := Mech.structureDamage b.design damage
    let found ← surveyStage b s structural
    breakStage b s structural found

-- Only the section a hit struck first is checked for a breach.
def checkHullBreach (p : DamagePacket Weapon) (w : Walk) : Cascade Weapon Unit := do
  let m ← unit
  if ¬ (p.directHit ∧ w.original) ∨ m.internal w.place = 0 then pure ()
  else interlude b (.HullBreach w.place)

def vacuumStage (p : DamagePacket Weapon) (s : MechSection) (penetrating : Bool) (damage : Nat) :
    Cascade Weapon Unit := do
  let m ← unit
  if p.internalOnly then
    if m.internal s = 0 then pure () else checkVacuum b s false
  else if ¬ penetrating ∨ (damage = 0 ∧ m.internal s ≠ 0) then checkVacuum b s penetrating
  else pure ()

def headStage (s : MechSection) : Cascade Weapon Unit :=
  if s = .Head ∧ ¬ b.design.torsoMountedCockpit then interlude b .HeadInjury else pure ()

-- Criticals and exposure of a section whose structure phase is over.
def aftermath [DecidableEq Weapon] (p : DamagePacket Weapon) (w : Walk) (penetrating : Bool)
    (modifiers : List Int) (broken : Broken) (later : Walk) : Cascade Weapon Walk := do
  resolveLocationCriticals b path w.place modifiers broken.destroyed p.vented
  checkHullBreach b p w
  vacuumStage b p w.place penetrating broken.left
  return later

def material [DecidableEq Weapon] (p : DamagePacket Weapon) (w : Walk) : Cascade Weapon Walk := do
  headStage b w.place
  let armor ← armorStage b p w
  let m ← unit
  let armorLeft := (m.sections w.place).struck (ArmorFacing.struck w.place p.rear)
  let penetrating := !p.internalOnly && 0 < armor.left
  let broken ← structureStage b w.place armor.left
  aftermath b path p w penetrating (rolls b p w (0 < armor.absorbed) broken.absorbed.isSome) broken
    { w with
      damage := broken.left
      announced := false
      tac := false
      original := false
      plasmaReturns := w.plasmaReturns + 1
      ignition := if p.ignites w.place then some w.place else w.ignition
      visits := w.visits ++ [⟨w.place, armor.absorbed, armorLeft, broken.absorbed⟩] }

-- An internal blast stays behind CASE.
def contained (p : DamagePacket Weapon) (s : MechSection) : Bool :=
  !p.transfer || (p.internalOnly && b.design.hasCase s)

-- A section that is already gone passes the damage on.
def passThrough (p : DamagePacket Weapon) (w : Walk) : Flow :=
  if contained b p w.place then .Break w
  else
    match w.place.damageTransfer with
    | none => .Break w
    | some next => .Next { w with place := next, announced := false }

-- What is left goes on inward; overflow beyond the core loses its plasma effect.
def transferOn (p : DamagePacket Weapon) (w : Walk) : Flow :=
  if contained b p w.place then .Break w
  else
    match w.place.damageTransfer with
    | none =>
        .Break { w with
          plasmaReturns := if 0 < w.damage then w.plasmaReturns - 1 else w.plasmaReturns }
    | some next => .Next { w with place := next }

def protects (w : Walk) : Cascade Weapon Bool :=
  if w.announced then pure false else enterDamage b

def iteration [DecidableEq Weapon] (p : DamagePacket Weapon) (w : Walk) : Cascade Weapon Flow := do
  spend
  let suppressed ← protects b w
  if suppressed then return .Return ⟨w.visits, .Suppressed, w.place, w.damage⟩
  else do
    let m ← unit
    if m.internal w.place = 0 then return passThrough b p w
    else do
      let intercepted ← intercept w.damage
      if intercepted then return .Return ⟨w.visits, .Intercepted, w.place, w.damage⟩
      else do
        let w ← material b path p w
        return transferOn b p w

def plasmaStage (p : DamagePacket Weapon) (w : Walk) : Cascade Weapon Unit :=
  if p.isPlasma ∧ 0 < w.plasmaReturns then do
    let heat ← roll Dice.d6
    modify (fun c => { c with report := { c.report with plasmaHeat := some heat } })
  else pure ()

def DumpSelection.matchesBin [DecidableEq Weapon] (selection : DumpSelection Weapon)
    (bin : AmmunitionBin Weapon) : Bool :=
  match selection with
  | .All => true
  | .Weapon weapon => bin.weapon = weapon
  | .Section s => bin.location.place = s
  | .Slot location => bin.location = location

-- The loaded bins being dumped; whole-unit and weapon requests start at the rear.
def dumpBins [DecidableEq Weapon] (m : Mech Weapon) (selection : DumpSelection Weapon) : List Nat :=
  let bins := (List.range b.design.loadout.ammunition.length).filter (fun i =>
    b.design.loadout.ammunition[i]?.any (fun bin =>
      DumpSelection.matchesBin selection bin && 0 < m.ammunition i &&
        !m.criticalUnavailable bin.location))
  match selection with
  | .All | .Weapon _ => bins.reverse
  | .Section _ | .Slot _ => bins

def ignition [DecidableEq Weapon] (s : MechSection) : Cascade Weapon (Option DumpIgnition) := do
  let m ← unit
  match m.dumping with
  | none => return none
  | some selection =>
      if dumpBins b m selection = [] then return none
      else do
        let index ← roll (·.die (dumpBins b m selection).length)
        let bin := (dumpBins b m selection)[index - 1]?
        match bin.bind (fun i => b.design.loadout.ammunition[i]?.map (i, ·)) with
        | none => throw "Ammunition index out of bounds"
        | some (i, bin) =>
            let profile := b.design.catalog.profileForAmmunition bin.weapon bin.mode
            let damage := profile.damage * max profile.missiles 1
            return if damage = 0 then none else some ⟨i, s, damage⟩

def endDumping (i : Nat) (m : Mech Weapon) : Mech Weapon :=
  { m with ammunition := Function.update m.ammunition i (m.ammunition i - 1), dumping := none }

-- A dumped salvo strikes the rear armor, by nobody's hand.
def resolveDumpIgnition [DecidableEq Weapon] (s : MechSection) : Cascade Weapon Unit := do
  let found ← ignition b s
  match found with
  | none => pure ()
  | some found => do
      record (.Ignited s)
      let _ ← unattributed (path { DamagePacket.blast s found.damage with
        directHit := true, internalOnly := false, rear := true })
      modify (fun c => { c.setUnit (endDumping found.binIndex c.unit) with
        report := { c.report with dumpIgnitions := c.report.dumpIgnitions ++ [found] } })

def igniteStage [DecidableEq Weapon] (w : Walk) : Cascade Weapon Unit :=
  match w.ignition with
  | none => pure ()
  | some s => resolveDumpIgnition b path s

def finish [DecidableEq Weapon] (p : DamagePacket Weapon) (w : Walk) : Cascade Weapon Course := do
  plasmaStage p w
  igniteStage b path w
  return ⟨w.visits, .Stopped, w.place, w.damage⟩

def OUT_OF_FUEL : Error := "out of fuel"

-- Every step spends work, so fuel beyond the work left is never used up.
def walkFrom [DecidableEq Weapon] :
    Nat → DamagePacket Weapon → Walk → Cascade Weapon Course
  | 0, _, _ => throw OUT_OF_FUEL
  | fuel + 1, p, w =>
      if w.damage = 0 then finish b (fun nested => walkFrom fuel nested nested.start) p w
      else do
        let flow ← iteration b (fun nested => walkFrom fuel nested nested.start) p w
        match flow with
        | .Return course => return course
        | .Break w => finish b (fun nested => walkFrom fuel nested nested.start) p w
        | .Next w => walkFrom fuel p w

def resolvePath [DecidableEq Weapon] (fuel : Nat) (p : DamagePacket Weapon) :
    Cascade Weapon Course := walkFrom b fuel p p.start

def WORK : Nat := 4096

def FUEL : Nat := WORK + 2

def DamagePacket.ofHit (hit : Hit) (damage : Nat) (effect : Option (WeaponEffect Weapon))
    (penalty : Nat) : DamagePacket Weapon where
  announced := true
  directHit := true
  place := hit.place
  damage := damage
  internalOnly := false
  transfer := true
  rear := hit.rearArmor
  tac := hit.throughArmorCritical
  vented := false
  weaponEffect := effect
  criticalPenalty := penalty

-- The hit's course, or none if the whole packet was kept from the unit.
def resolvePacket [DecidableEq Weapon] (hit : Hit) (damage : Nat)
    (effect : Option (WeaponEffect Weapon)) (penalty : Nat) : Cascade Weapon (Option Course) := do
  let suppressed ← enterDamage b
  if suppressed then return none
  else if damage = 0 then return none
  else do
    let course ← resolvePath b FUEL (DamagePacket.ofHit hit damage effect penalty)
    return some course

def Context.start (m : Mech Weapon) (attacker : Option Nat) : Context Weapon :=
  ⟨m, attacker, WORK, ImpactReport.empty, []⟩

end StompyMux.Impact
