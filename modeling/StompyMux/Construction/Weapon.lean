import StompyMux.Construction.System

-- The weapon catalogue.
namespace StompyMux.Construction

open Library.Fallible Library.Text

-- Missile damage is per missile, ammunition is per salvo.
structure WeaponProfile where
  damage : Nat
  missiles : Nat
  minimumRange : Nat
  shortRange : Nat
  mediumRange : Nat
  longRange : Nat
  criticalSlots : Nat
  ammunitionPerTon : Nat
  deriving DecidableEq

inductive Weapon
  | ArrowIv | ClanArrowIv | LongTom | Sniper | Thumper | LongTomCannon | SniperCannon
  | ThumperCannon | APod | ClanAPod | BPod | ClanBPod | INarcBeacon | NarcBeacon | ClanNarcBeacon
  | AntiMissileSystem | ClanAntiMissileSystem | LaserAms | ClanLaserAms | ClanLbx2 | ClanLbx5
  | ClanLbx10 | ClanLbx20 | ClanUltraAc2 | ClanUltraAc5 | ClanUltraAc10 | ClanUltraAc20 | Mml3
  | Mml5 | Mml7 | Mml9 | ClanAtm3 | ClanAtm6 | ClanAtm9 | ClanAtm12 | ClanLrm5 | ClanLrm10
  | ClanLrm15 | ClanLrm20 | ClanSrm2 | ClanSrm4 | ClanSrm6 | ClanStreakSrm2 | ClanStreakSrm4
  | ClanStreakSrm6 | ClanStreakLrm5 | ClanStreakLrm10 | ClanStreakLrm15 | ClanStreakLrm20
  | ClanGaussRifle | ClanApGaussRifle | ClanHag20 | ClanHag30 | ClanHag40 | ClanMachineGun
  | ClanLightMachineGun | ClanHeavyMachineGun | ClanErLargeLaser | ClanErMediumLaser
  | ClanErSmallLaser | ClanErMicroLaser | ClanErPpc | ClanFlamer | ClanHeavyLargeLaser
  | ClanHeavyMediumLaser | ClanHeavySmallLaser | ClanLargePulseLaser | ClanMediumPulseLaser
  | ClanSmallPulseLaser | ClanMicroPulseLaser | ClanErLargePulseLaser | ClanErMediumPulseLaser
  | ClanErSmallPulseLaser | ClanPlasmaCannon | Flamer | HeavyFlamer | VehicleFlamer | PlasmaRifle
  | Thunderbolt5 | Thunderbolt10 | Thunderbolt15 | Thunderbolt20 | HyperAc2 | HyperAc5
  | HyperAc10 | MachineGun | LightMachineGun | HeavyMachineGun | LightAc2 | LightAc5 | SmallLaser
  | MediumLaser | LargeLaser | Ppc | ErSmallLaser | ErMediumLaser | ErLargeLaser | ErPpc
  | SmallPulseLaser | MediumPulseLaser | LargePulseLaser | XSmallPulseLaser | XMediumPulseLaser
  | XLargePulseLaser | LightPpc | HeavyPpc | SnubNosedPpc | Srm2 | Rocket10 | Rocket15 | Rocket20
  | Mrm10 | Mrm20 | Mrm30 | Mrm40 | StreakSrm2 | StreakSrm4 | StreakSrm6 | Elrm5 | Elrm10
  | Elrm15 | Elrm20 | Nlrm5 | Nlrm10 | Nlrm15 | Nlrm20 | Lrt5 | Lrt10 | Lrt15 | Lrt20 | Srt2
  | Srt4 | Srt6 | ClanLrt5 | ClanLrt10 | ClanLrt15 | ClanLrt20 | ClanSrt2 | ClanSrt4 | ClanSrt6
  | Lrm5 | Lrm10 | Lrm15 | Srm4 | Srm6 | Lrm20 | HeavyGaussRifle | GaussRifle | LightGaussRifle
  | MagshotGaussRifle | Lbx2 | Lbx5 | Lbx10 | Lbx20 | Ac2 | Ac5 | Ac10 | Ac20 | UltraAc2
  | UltraAc5 | UltraAc10 | UltraAc20 | RotaryAc2 | RotaryAc5 | ClanRotaryAc2 | ClanRotaryAc5
  deriving DecidableEq

namespace Weapon

-- All identities in declaration order.
def all : List Weapon := (List.range 166).map ofNat

-- What the catalogue states of a weapon. A value of zero says that there is no one-shot version.
structure Entry where
  name : String
  partId : Nat
  oneShotBattleValue : Nat
  profile : WeaponProfile

def entry : Weapon → Entry
  | .ArrowIv => ⟨"IS.ArrowIVSystem", 115, 0, ⟨20, 0, 0, 0, 0, 8, 15, 5⟩⟩
  | .ClanArrowIv => ⟨"CL.ArrowIVSystem", 64, 0, ⟨20, 0, 0, 0, 0, 9, 12, 5⟩⟩
  | .LongTom => ⟨"IS.LongTom", 5, 0, ⟨25, 0, 0, 0, 0, 30, 30, 5⟩⟩
  | .Sniper => ⟨"IS.Sniper", 116, 0, ⟨20, 0, 0, 0, 0, 18, 20, 10⟩⟩
  | .Thumper => ⟨"IS.Thumper", 117, 0, ⟨15, 0, 0, 0, 0, 21, 15, 20⟩⟩
  | .LongTomCannon => ⟨"IS.LongTomCannon", 121, 0, ⟨20, 0, 4, 6, 13, 20, 15, 5⟩⟩
  | .SniperCannon => ⟨"IS.SniperCannon", 122, 0, ⟨10, 0, 2, 4, 8, 12, 10, 10⟩⟩
  | .ThumperCannon => ⟨"IS.ThumperCannon", 123, 0, ⟨5, 0, 3, 4, 9, 14, 7, 20⟩⟩
  | .APod => ⟨"IS.A-Pod", 159, 0, ⟨0, 0, 0, 1, 1, 1, 1, 0⟩⟩
  | .ClanAPod => ⟨"CL.A-Pod", 1, 0, ⟨0, 0, 0, 1, 1, 1, 1, 0⟩⟩
  | .BPod => ⟨"IS.B-Pod", 197, 0, ⟨0, 0, 0, 1, 1, 1, 1, 0⟩⟩
  | .ClanBPod => ⟨"CL.B-Pod", 198, 0, ⟨0, 0, 0, 1, 1, 1, 1, 0⟩⟩
  | .INarcBeacon => ⟨"IS.iNarcBeacon", 142, 15, ⟨6, 1, 0, 4, 9, 15, 3, 4⟩⟩
  | .NarcBeacon => ⟨"IS.NarcBeacon", 141, 6, ⟨4, 1, 0, 3, 6, 9, 2, 6⟩⟩
  | .ClanNarcBeacon => ⟨"CL.NarcBeacon", 73, 6, ⟨4, 1, 0, 4, 8, 12, 1, 6⟩⟩
  | .AntiMissileSystem => ⟨"IS.Anti-MissileSystem", 101, 0, ⟨2, 0, 0, 1, 1, 1, 1, 12⟩⟩
  | .ClanAntiMissileSystem => ⟨"CL.Anti-MissileSystem", 51, 0, ⟨2, 0, 0, 1, 1, 1, 1, 24⟩⟩
  | .LaserAms => ⟨"IS.LaserAMS", 170, 0, ⟨2, 0, 0, 1, 1, 1, 2, 0⟩⟩
  | .ClanLaserAms => ⟨"CL.LaserAMS", 169, 0, ⟨2, 0, 0, 1, 1, 1, 1, 0⟩⟩
  | .ClanLbx2 => ⟨"CL.LB2-XAC", 53, 0, ⟨2, 0, 4, 10, 20, 30, 3, 45⟩⟩
  | .ClanLbx5 => ⟨"CL.LB5-XAC", 54, 0, ⟨5, 0, 3, 8, 15, 24, 4, 20⟩⟩
  | .ClanLbx10 => ⟨"CL.LB10-XAC", 55, 0, ⟨10, 0, 0, 6, 12, 18, 5, 10⟩⟩
  | .ClanLbx20 => ⟨"CL.LB20-XAC", 56, 0, ⟨20, 0, 0, 4, 8, 12, 9, 5⟩⟩
  | .ClanUltraAc2 => ⟨"CL.UltraAC/2", 60, 0, ⟨2, 0, 2, 9, 18, 27, 2, 45⟩⟩
  | .ClanUltraAc5 => ⟨"CL.UltraAC/5", 61, 0, ⟨5, 0, 0, 7, 14, 21, 3, 20⟩⟩
  | .ClanUltraAc10 => ⟨"CL.UltraAC/10", 62, 0, ⟨10, 0, 0, 6, 12, 18, 4, 10⟩⟩
  | .ClanUltraAc20 => ⟨"CL.UltraAC/20", 63, 0, ⟨20, 0, 0, 4, 8, 12, 8, 5⟩⟩
  | .Mml3 => ⟨"IS.MML-3", 126, 0, ⟨2, 3, 0, 3, 6, 9, 2, 33⟩⟩
  | .Mml5 => ⟨"IS.MML-5", 127, 0, ⟨2, 5, 0, 3, 6, 9, 3, 20⟩⟩
  | .Mml7 => ⟨"IS.MML-7", 128, 0, ⟨2, 7, 0, 3, 6, 9, 4, 14⟩⟩
  | .Mml9 => ⟨"IS.MML-9", 129, 0, ⟨2, 9, 0, 3, 6, 9, 5, 11⟩⟩
  | .ClanAtm3 => ⟨"CL.ATM-3", 65, 0, ⟨2, 3, 4, 5, 10, 15, 2, 20⟩⟩
  | .ClanAtm6 => ⟨"CL.ATM-6", 66, 0, ⟨2, 6, 4, 5, 10, 15, 3, 10⟩⟩
  | .ClanAtm9 => ⟨"CL.ATM-9", 67, 0, ⟨2, 9, 4, 5, 10, 15, 4, 7⟩⟩
  | .ClanAtm12 => ⟨"CL.ATM-12", 68, 0, ⟨2, 12, 4, 5, 10, 15, 5, 5⟩⟩
  | .ClanLrm5 => ⟨"CL.LRM-5", 69, 11, ⟨1, 5, 0, 7, 14, 21, 1, 24⟩⟩
  | .ClanLrm10 => ⟨"CL.LRM-10", 70, 22, ⟨1, 10, 0, 7, 14, 21, 1, 12⟩⟩
  | .ClanLrm15 => ⟨"CL.LRM-15", 71, 33, ⟨1, 15, 0, 7, 14, 21, 2, 8⟩⟩
  | .ClanLrm20 => ⟨"CL.LRM-20", 72, 44, ⟨1, 20, 0, 7, 14, 21, 4, 6⟩⟩
  | .ClanSrm2 => ⟨"CL.SRM-2", 74, 4, ⟨2, 2, 0, 3, 6, 9, 1, 50⟩⟩
  | .ClanSrm4 => ⟨"CL.SRM-4", 75, 8, ⟨2, 4, 0, 3, 6, 9, 1, 25⟩⟩
  | .ClanSrm6 => ⟨"CL.SRM-6", 76, 12, ⟨2, 6, 0, 3, 6, 9, 1, 15⟩⟩
  | .ClanStreakSrm2 => ⟨"CL.StreakSRM-2", 2, 8, ⟨2, 2, 0, 4, 8, 12, 1, 50⟩⟩
  | .ClanStreakSrm4 => ⟨"CL.StreakSRM-4", 3, 16, ⟨2, 4, 0, 4, 8, 12, 1, 25⟩⟩
  | .ClanStreakSrm6 => ⟨"CL.StreakSRM-6", 4, 24, ⟨2, 6, 0, 4, 8, 12, 2, 15⟩⟩
  | .ClanStreakLrm5 => ⟨"CL.StreakLRM-5", 155, 17, ⟨1, 5, 0, 7, 14, 21, 1, 24⟩⟩
  | .ClanStreakLrm10 => ⟨"CL.StreakLRM-10", 156, 35, ⟨1, 10, 0, 7, 14, 21, 2, 12⟩⟩
  | .ClanStreakLrm15 => ⟨"CL.StreakLRM-15", 157, 52, ⟨1, 15, 0, 7, 14, 21, 3, 8⟩⟩
  | .ClanStreakLrm20 => ⟨"CL.StreakLRM-20", 158, 69, ⟨1, 20, 0, 7, 14, 21, 5, 6⟩⟩
  | .ClanGaussRifle => ⟨"CL.GaussRifle", 52, 0, ⟨15, 0, 2, 7, 15, 22, 6, 8⟩⟩
  | .ClanApGaussRifle => ⟨"CL.APGaussRifle", 162, 0, ⟨3, 0, 0, 3, 6, 9, 1, 40⟩⟩
  | .ClanHag20 => ⟨"CL.HAG/20", 163, 0, ⟨20, 0, 2, 8, 16, 24, 6, 6⟩⟩
  | .ClanHag30 => ⟨"CL.HAG/30", 166, 0, ⟨30, 0, 2, 8, 16, 24, 8, 4⟩⟩
  | .ClanHag40 => ⟨"CL.HAG/40", 167, 0, ⟨40, 0, 2, 8, 16, 24, 10, 3⟩⟩
  | .ClanMachineGun => ⟨"CL.MachineGun", 57, 0, ⟨2, 0, 0, 1, 2, 3, 1, 200⟩⟩
  | .ClanLightMachineGun => ⟨"CL.LightMachineGun", 58, 0, ⟨1, 0, 0, 2, 4, 6, 1, 200⟩⟩
  | .ClanHeavyMachineGun => ⟨"CL.HeavyMachineGun", 59, 0, ⟨3, 0, 0, 1, 2, 2, 1, 100⟩⟩
  | .ClanErLargeLaser => ⟨"CL.ERLargeLaser", 35, 0, ⟨10, 0, 0, 8, 15, 25, 1, 0⟩⟩
  | .ClanErMediumLaser => ⟨"CL.ERMediumLaser", 36, 0, ⟨7, 0, 0, 5, 10, 15, 1, 0⟩⟩
  | .ClanErSmallLaser => ⟨"CL.ERSmallLaser", 37, 0, ⟨5, 0, 0, 2, 4, 6, 1, 0⟩⟩
  | .ClanErMicroLaser => ⟨"CL.ERMicroLaser", 38, 0, ⟨2, 0, 0, 1, 2, 4, 1, 0⟩⟩
  | .ClanErPpc => ⟨"CL.ERPPC", 39, 0, ⟨15, 0, 0, 7, 14, 23, 2, 0⟩⟩
  | .ClanFlamer => ⟨"CL.Flamer", 40, 0, ⟨2, 0, 0, 1, 2, 3, 1, 0⟩⟩
  | .ClanHeavyLargeLaser => ⟨"CL.HeavyLargeLaser", 41, 0, ⟨16, 0, 0, 5, 10, 15, 3, 0⟩⟩
  | .ClanHeavyMediumLaser => ⟨"CL.HeavyMediumLaser", 42, 0, ⟨10, 0, 0, 3, 6, 9, 2, 0⟩⟩
  | .ClanHeavySmallLaser => ⟨"CL.HeavySmallLaser", 43, 0, ⟨6, 0, 0, 1, 2, 3, 1, 0⟩⟩
  | .ClanLargePulseLaser => ⟨"CL.LargePulseLaser", 44, 0, ⟨10, 0, 0, 6, 14, 20, 2, 0⟩⟩
  | .ClanMediumPulseLaser => ⟨"CL.MediumPulseLaser", 45, 0, ⟨7, 0, 0, 4, 8, 12, 1, 0⟩⟩
  | .ClanSmallPulseLaser => ⟨"CL.SmallPulseLaser", 46, 0, ⟨3, 0, 0, 2, 4, 6, 1, 0⟩⟩
  | .ClanMicroPulseLaser => ⟨"CL.MicroPulseLaser", 47, 0, ⟨3, 0, 0, 1, 2, 3, 1, 0⟩⟩
  | .ClanErLargePulseLaser => ⟨"CL.ERLargePulseLaser", 48, 0, ⟨10, 0, 0, 7, 15, 23, 3, 0⟩⟩
  | .ClanErMediumPulseLaser => ⟨"CL.ERMediumPulseLaser", 49, 0, ⟨7, 0, 0, 5, 9, 14, 2, 0⟩⟩
  | .ClanErSmallPulseLaser => ⟨"CL.ERSmallPulseLaser", 50, 0, ⟨5, 0, 0, 2, 4, 6, 1, 0⟩⟩
  | .ClanPlasmaCannon => ⟨"CL.PlasmaCannon", 168, 0, ⟨0, 0, 0, 6, 12, 18, 1, 10⟩⟩
  | .Flamer => ⟨"IS.Flamer", 81, 0, ⟨2, 0, 0, 1, 2, 3, 1, 0⟩⟩
  | .HeavyFlamer => ⟨"IS.HeavyFlamer", 118, 0, ⟨4, 0, 0, 2, 3, 4, 1, 10⟩⟩
  | .VehicleFlamer => ⟨"IS.VehicleFlamer", 99, 0, ⟨2, 0, 0, 1, 2, 3, 1, 20⟩⟩
  | .PlasmaRifle => ⟨"IS.PlasmaRifle", 125, 0, ⟨10, 0, 0, 5, 10, 15, 2, 10⟩⟩
  | .Thunderbolt5 => ⟨"IS.Thunderbolt-5", 149, 13, ⟨5, 1, 5, 6, 12, 18, 1, 12⟩⟩
  | .Thunderbolt10 => ⟨"IS.Thunderbolt-10", 150, 25, ⟨10, 1, 5, 6, 12, 18, 2, 6⟩⟩
  | .Thunderbolt15 => ⟨"IS.Thunderbolt-15", 151, 46, ⟨15, 1, 5, 6, 12, 18, 3, 4⟩⟩
  | .Thunderbolt20 => ⟨"IS.Thunderbolt-20", 152, 61, ⟨20, 1, 5, 6, 12, 18, 5, 3⟩⟩
  | .HyperAc2 => ⟨"IS.HyperAC/2", 32, 0, ⟨2, 0, 3, 10, 20, 35, 2, 30⟩⟩
  | .HyperAc5 => ⟨"IS.HyperAC/5", 33, 0, ⟨5, 0, 0, 8, 16, 28, 4, 15⟩⟩
  | .HyperAc10 => ⟨"IS.HyperAC/10", 34, 0, ⟨10, 0, 0, 6, 12, 20, 6, 8⟩⟩
  | .MachineGun => ⟨"IS.MachineGun", 100, 0, ⟨2, 0, 0, 1, 2, 3, 1, 200⟩⟩
  | .LightMachineGun => ⟨"IS.LightMachineGun", 161, 0, ⟨1, 0, 0, 2, 4, 6, 1, 200⟩⟩
  | .HeavyMachineGun => ⟨"IS.HeavyMachineGun", 124, 0, ⟨3, 0, 0, 1, 2, 2, 1, 100⟩⟩
  | .LightAc2 => ⟨"IS.LightAC/2", 119, 0, ⟨2, 0, 0, 6, 12, 18, 1, 45⟩⟩
  | .LightAc5 => ⟨"IS.LightAC/5", 120, 0, ⟨5, 0, 0, 5, 10, 15, 2, 20⟩⟩
  | .SmallLaser => ⟨"IS.SmallLaser", 80, 0, ⟨3, 0, 0, 1, 2, 3, 1, 0⟩⟩
  | .MediumLaser => ⟨"IS.MediumLaser", 79, 0, ⟨5, 0, 0, 3, 6, 9, 1, 0⟩⟩
  | .LargeLaser => ⟨"IS.LargeLaser", 78, 0, ⟨8, 0, 0, 5, 10, 15, 2, 0⟩⟩
  | .Ppc => ⟨"IS.PPC", 77, 0, ⟨10, 0, 3, 6, 12, 18, 3, 0⟩⟩
  | .ErSmallLaser => ⟨"IS.ERSmallLaser", 85, 0, ⟨3, 0, 0, 2, 4, 5, 1, 0⟩⟩
  | .ErMediumLaser => ⟨"IS.ERMediumLaser", 84, 0, ⟨5, 0, 0, 4, 8, 12, 1, 0⟩⟩
  | .ErLargeLaser => ⟨"IS.ERLargeLaser", 83, 0, ⟨8, 0, 0, 7, 14, 19, 2, 0⟩⟩
  | .ErPpc => ⟨"IS.ERPPC", 82, 0, ⟨10, 0, 0, 7, 14, 23, 3, 0⟩⟩
  | .SmallPulseLaser => ⟨"IS.SmallPulseLaser", 88, 0, ⟨3, 0, 0, 1, 2, 3, 1, 0⟩⟩
  | .MediumPulseLaser => ⟨"IS.MediumPulseLaser", 87, 0, ⟨6, 0, 0, 2, 4, 6, 1, 0⟩⟩
  | .LargePulseLaser => ⟨"IS.LargePulseLaser", 86, 0, ⟨9, 0, 0, 3, 7, 10, 2, 0⟩⟩
  | .XSmallPulseLaser => ⟨"IS.X-SmallPulseLaser", 91, 0, ⟨3, 0, 0, 2, 4, 5, 1, 0⟩⟩
  | .XMediumPulseLaser => ⟨"IS.X-MediumPulseLaser", 90, 0, ⟨6, 0, 0, 3, 6, 9, 1, 0⟩⟩
  | .XLargePulseLaser => ⟨"IS.X-LargePulseLaser", 89, 0, ⟨9, 0, 0, 5, 10, 15, 2, 0⟩⟩
  | .LightPpc => ⟨"IS.LightPPC", 93, 0, ⟨5, 0, 3, 6, 12, 18, 2, 0⟩⟩
  | .HeavyPpc => ⟨"IS.HeavyPPC", 94, 0, ⟨15, 0, 3, 6, 12, 18, 4, 0⟩⟩
  | .SnubNosedPpc => ⟨"IS.SnubNosedPPC", 92, 0, ⟨10, 0, 0, 9, 13, 15, 2, 0⟩⟩
  | .Srm2 => ⟨"IS.SRM-2", 134, 4, ⟨2, 2, 0, 3, 6, 9, 1, 50⟩⟩
  | .Rocket10 => ⟨"IS.RL-10", 146, 0, ⟨1, 10, 0, 5, 11, 18, 1, 0⟩⟩
  | .Rocket15 => ⟨"IS.RL-15", 147, 0, ⟨1, 15, 0, 4, 9, 15, 2, 0⟩⟩
  | .Rocket20 => ⟨"IS.RL-20", 148, 0, ⟨1, 20, 0, 3, 7, 12, 3, 0⟩⟩
  | .Mrm10 => ⟨"IS.MRM-10", 137, 11, ⟨1, 10, 0, 3, 8, 15, 2, 24⟩⟩
  | .Mrm20 => ⟨"IS.MRM-20", 138, 22, ⟨1, 20, 0, 3, 8, 15, 3, 12⟩⟩
  | .Mrm30 => ⟨"IS.MRM-30", 139, 34, ⟨1, 30, 0, 3, 8, 15, 5, 8⟩⟩
  | .Mrm40 => ⟨"IS.MRM-40", 140, 45, ⟨1, 40, 0, 3, 8, 15, 7, 6⟩⟩
  | .StreakSrm2 => ⟨"IS.StreakSRM-2", 143, 6, ⟨2, 2, 0, 3, 6, 9, 1, 50⟩⟩
  | .StreakSrm4 => ⟨"IS.StreakSRM-4", 144, 12, ⟨2, 4, 0, 3, 6, 9, 1, 25⟩⟩
  | .StreakSrm6 => ⟨"IS.StreakSRM-6", 145, 18, ⟨2, 6, 0, 3, 6, 9, 2, 15⟩⟩
  | .Elrm5 => ⟨"IS.ELRM-5", 21, 13, ⟨1, 5, 10, 12, 22, 38, 1, 18⟩⟩
  | .Elrm10 => ⟨"IS.ELRM-10", 22, 27, ⟨1, 10, 10, 12, 22, 38, 4, 9⟩⟩
  | .Elrm15 => ⟨"IS.ELRM-15", 23, 40, ⟨1, 15, 10, 12, 22, 38, 6, 6⟩⟩
  | .Elrm20 => ⟨"IS.ELRM-20", 24, 54, ⟨1, 20, 10, 12, 22, 38, 8, 4⟩⟩
  | .Nlrm5 => ⟨"IS.NLRM-5", 179, 10, ⟨1, 5, 3, 7, 14, 21, 2, 24⟩⟩
  | .Nlrm10 => ⟨"IS.NLRM-10", 180, 21, ⟨1, 10, 3, 7, 14, 21, 4, 12⟩⟩
  | .Nlrm15 => ⟨"IS.NLRM-15", 181, 31, ⟨1, 15, 3, 7, 14, 21, 6, 8⟩⟩
  | .Nlrm20 => ⟨"IS.NLRM-20", 182, 42, ⟨1, 20, 3, 7, 14, 21, 9, 6⟩⟩
  | .Lrt5 => ⟨"IS.LRT-5", 183, 0, ⟨1, 5, 6, 7, 14, 21, 1, 24⟩⟩
  | .Lrt10 => ⟨"IS.LRT-10", 184, 0, ⟨1, 10, 6, 7, 14, 21, 2, 12⟩⟩
  | .Lrt15 => ⟨"IS.LRT-15", 185, 0, ⟨1, 15, 6, 7, 14, 21, 3, 8⟩⟩
  | .Lrt20 => ⟨"IS.LRT-20", 186, 0, ⟨1, 20, 6, 7, 14, 21, 5, 6⟩⟩
  | .Srt2 => ⟨"IS.SRT-2", 187, 0, ⟨2, 2, 0, 3, 6, 9, 1, 50⟩⟩
  | .Srt4 => ⟨"IS.SRT-4", 188, 0, ⟨2, 4, 0, 3, 6, 9, 1, 25⟩⟩
  | .Srt6 => ⟨"IS.SRT-6", 189, 0, ⟨2, 6, 0, 3, 6, 9, 2, 15⟩⟩
  | .ClanLrt5 => ⟨"CL.LRT-5", 190, 0, ⟨1, 5, 0, 7, 14, 21, 1, 24⟩⟩
  | .ClanLrt10 => ⟨"CL.LRT-10", 191, 0, ⟨1, 10, 0, 7, 14, 21, 1, 12⟩⟩
  | .ClanLrt15 => ⟨"CL.LRT-15", 192, 0, ⟨1, 15, 0, 7, 14, 21, 2, 8⟩⟩
  | .ClanLrt20 => ⟨"CL.LRT-20", 193, 0, ⟨1, 20, 0, 7, 14, 21, 4, 6⟩⟩
  | .ClanSrt2 => ⟨"CL.SRT-2", 194, 0, ⟨2, 2, 0, 3, 6, 9, 1, 50⟩⟩
  | .ClanSrt4 => ⟨"CL.SRT-4", 195, 0, ⟨2, 4, 0, 3, 6, 9, 1, 25⟩⟩
  | .ClanSrt6 => ⟨"CL.SRT-6", 196, 0, ⟨2, 6, 0, 3, 6, 9, 1, 15⟩⟩
  | .Lrm5 => ⟨"IS.LRM-5", 130, 9, ⟨1, 5, 6, 7, 14, 21, 1, 24⟩⟩
  | .Lrm10 => ⟨"IS.LRM-10", 131, 18, ⟨1, 10, 6, 7, 14, 21, 2, 12⟩⟩
  | .Lrm15 => ⟨"IS.LRM-15", 132, 27, ⟨1, 15, 6, 7, 14, 21, 3, 8⟩⟩
  | .Srm4 => ⟨"IS.SRM-4", 135, 8, ⟨2, 4, 0, 3, 6, 9, 1, 25⟩⟩
  | .Srm6 => ⟨"IS.SRM-6", 136, 12, ⟨2, 6, 0, 3, 6, 9, 2, 15⟩⟩
  | .Lrm20 => ⟨"IS.LRM-20", 133, 36, ⟨1, 20, 6, 7, 14, 21, 5, 6⟩⟩
  | .HeavyGaussRifle => ⟨"IS.HeavyGaussRifle", 104, 0, ⟨25, 0, 4, 6, 13, 20, 11, 4⟩⟩
  | .GaussRifle => ⟨"IS.GaussRifle", 102, 0, ⟨15, 0, 2, 7, 15, 22, 7, 8⟩⟩
  | .LightGaussRifle => ⟨"IS.LightGaussRifle", 103, 0, ⟨8, 0, 3, 8, 17, 25, 5, 16⟩⟩
  | .MagshotGaussRifle => ⟨"IS.MagshotGaussRifle", 160, 0, ⟨2, 0, 0, 3, 6, 9, 2, 50⟩⟩
  | .Lbx2 => ⟨"IS.LB2-XAC", 105, 0, ⟨2, 0, 4, 9, 18, 27, 4, 45⟩⟩
  | .Lbx5 => ⟨"IS.LB5-XAC", 106, 0, ⟨5, 0, 3, 7, 14, 21, 5, 20⟩⟩
  | .Lbx10 => ⟨"IS.LB10-XAC", 107, 0, ⟨10, 0, 0, 6, 12, 18, 6, 10⟩⟩
  | .Lbx20 => ⟨"IS.LB20-XAC", 108, 0, ⟨20, 0, 0, 4, 8, 12, 11, 5⟩⟩
  | .Ac2 => ⟨"IS.AC/2", 95, 0, ⟨2, 0, 4, 8, 16, 24, 1, 45⟩⟩
  | .Ac5 => ⟨"IS.AC/5", 96, 0, ⟨5, 0, 3, 6, 12, 18, 4, 20⟩⟩
  | .Ac10 => ⟨"IS.AC/10", 97, 0, ⟨10, 0, 0, 5, 10, 15, 7, 10⟩⟩
  | .Ac20 => ⟨"IS.AC/20", 98, 0, ⟨20, 0, 0, 3, 6, 9, 10, 5⟩⟩
  | .UltraAc2 => ⟨"IS.UltraAC/2", 111, 0, ⟨2, 0, 3, 8, 17, 25, 3, 45⟩⟩
  | .UltraAc5 => ⟨"IS.UltraAC/5", 112, 0, ⟨5, 0, 2, 6, 13, 20, 5, 20⟩⟩
  | .UltraAc10 => ⟨"IS.UltraAC/10", 113, 0, ⟨10, 0, 0, 6, 12, 18, 7, 10⟩⟩
  | .UltraAc20 => ⟨"IS.UltraAC/20", 114, 0, ⟨20, 0, 0, 3, 7, 10, 10, 5⟩⟩
  | .RotaryAc2 => ⟨"IS.RotaryAC/2", 109, 0, ⟨2, 0, 0, 6, 12, 18, 3, 45⟩⟩
  | .RotaryAc5 => ⟨"IS.RotaryAC/5", 110, 0, ⟨5, 0, 0, 5, 10, 15, 6, 20⟩⟩
  | .ClanRotaryAc2 => ⟨"CL.RotaryAC/2", 164, 0, ⟨2, 0, 0, 8, 17, 25, 4, 45⟩⟩
  | .ClanRotaryAc5 => ⟨"CL.RotaryAC/5", 165, 0, ⟨5, 0, 0, 7, 14, 21, 8, 20⟩⟩

def name (weapon : Weapon) : List Char := weapon.entry.name.toList

def partId (weapon : Weapon) : Nat := weapon.entry.partId

def profile (weapon : Weapon) : WeaponProfile := weapon.entry.profile

def oneShotBattleValue (weapon : Weapon) : Option Nat :=
  if 0 < weapon.entry.oneShotBattleValue then some weapon.entry.oneShotBattleValue else none

def fromPartId (id : Nat) : Option Weapon := all.find? (fun weapon => weapon.partId = id)

-- Letter case does not matter.
def parse (text : List Char) : Except Error Weapon :=
  match all.find? (fun weapon => eqIgnoreAsciiCase text weapon.name) with
  | some weapon => .ok weapon
  | none => .error ["Unsupported weapon " ++ String.ofList text]

def isClan (weapon : Weapon) : Bool := (stripNamePrefix weapon.name "CL.".toList).isSome

-- Weapons of eight or more critical slots may span adjacent sections.
def supportsSplitMount (weapon : Weapon) : Bool := 8 ≤ weapon.profile.criticalSlots

def isFlamer (weapon : Weapon) : Bool :=
  [ClanFlamer, Flamer, HeavyFlamer, VehicleFlamer].contains weapon

def supportsHeatMode (weapon : Weapon) : Bool := weapon.isFlamer

def supportsGatling (weapon : Weapon) : Bool :=
  [MachineGun, LightMachineGun, HeavyMachineGun, ClanMachineGun, ClanLightMachineGun,
    ClanHeavyMachineGun].contains weapon

def isRotary (weapon : Weapon) : Bool :=
  [RotaryAc2, RotaryAc5, ClanRotaryAc2, ClanRotaryAc5].contains weapon

def supportsRapidFire (weapon : Weapon) : Bool :=
  [Ac2, Ac5, Ac10, Ac20, LightAc2, LightAc5].contains weapon

def isUltra (weapon : Weapon) : Bool :=
  [UltraAc2, UltraAc5, UltraAc10, UltraAc20, ClanUltraAc2, ClanUltraAc5, ClanUltraAc10,
    ClanUltraAc20].contains weapon

def isThunderbolt (weapon : Weapon) : Bool :=
  [Thunderbolt5, Thunderbolt10, Thunderbolt15, Thunderbolt20].contains weapon

def isRocket (weapon : Weapon) : Bool := [Rocket10, Rocket15, Rocket20].contains weapon

def isLbx (weapon : Weapon) : Bool :=
  [Lbx2, Lbx5, Lbx10, Lbx20, ClanLbx2, ClanLbx5, ClanLbx10, ClanLbx20].contains weapon

def isMml (weapon : Weapon) : Bool := [Mml3, Mml5, Mml7, Mml9].contains weapon

def isAtm (weapon : Weapon) : Bool := [ClanAtm3, ClanAtm6, ClanAtm9, ClanAtm12].contains weapon

def isTorpedo (weapon : Weapon) : Bool :=
  [Lrt5, Lrt10, Lrt15, Lrt20, Srt2, Srt4, Srt6, ClanLrt5, ClanLrt10, ClanLrt15, ClanLrt20, ClanSrt2,
    ClanSrt4, ClanSrt6].contains weapon

def isStandardLrm (weapon : Weapon) : Bool :=
  [Lrm5, Lrm10, Lrm15, Lrm20, Nlrm5, Nlrm10, Nlrm15, Nlrm20, ClanLrm5, ClanLrm10, ClanLrm15,
    ClanLrm20].contains weapon

def isStandardSrm (weapon : Weapon) : Bool :=
  [Srm2, Srm4, Srm6, ClanSrm2, ClanSrm4, ClanSrm6].contains weapon

def isIndirectArtillery (weapon : Weapon) : Bool :=
  [ArrowIv, ClanArrowIv, LongTom, Sniper, Thumper].contains weapon

def isArtillery (weapon : Weapon) : Bool :=
  [ArrowIv, ClanArrowIv, LongTom, Sniper, Thumper, LongTomCannon, SniperCannon,
    ThumperCannon].contains weapon

def supportsThunder (weapon : Weapon) : Bool := weapon.isStandardLrm && !weapon.isClan

def supportsSemiguided (weapon : Weapon) : Bool := weapon.isStandardLrm && !weapon.isClan

def acceptsArtemis (weapon : Weapon) : Bool :=
  weapon.isStandardLrm || weapon.isStandardSrm || weapon.isMml || weapon.isTorpedo

def acceptsNarcRounds (weapon : Weapon) : Bool :=
  weapon.isStandardLrm || weapon.isStandardSrm || weapon.isMml

-- Machine guns alone carry ammunition in half-ton lots.
def allowsHalfTonBins (weapon : Weapon) : Bool := weapon.supportsGatling

def supportsIndirectFire (weapon : Weapon) : Bool :=
  weapon.isRocket || weapon.isMml || weapon.isThunderbolt ||
    [ClanLrm5, ClanLrm10, ClanLrm15, ClanLrm20, Lrm5, Lrm10, Lrm15, Lrm20, Nlrm5, Nlrm10, Nlrm15,
      Nlrm20, Elrm5, Elrm10, Elrm15, Elrm20].contains weapon

def supportsHotload (weapon : Weapon) : Bool :=
  weapon.isIndirectArtillery || (weapon.supportsIndirectFire && !weapon.isRocket)

def mechMountable (weapon : Weapon) : Bool := weapon != LongTom

def oneShotCapable (weapon : Weapon) : Bool := weapon.oneShotBattleValue.isSome

theorem parse_congr {text other : List Char} (h : eqIgnoreAsciiCase text other) {weapon : Weapon}
    (hp : parse text = .ok weapon) : parse other = .ok weapon := by
  have hfolded : toAsciiLowercase text = toAsciiLowercase other := by
    simpa [eqIgnoreAsciiCase] using h
  have hfind : all.find? (fun weapon => eqIgnoreAsciiCase text weapon.name) =
      all.find? (fun weapon => eqIgnoreAsciiCase other weapon.name) := by
    unfold eqIgnoreAsciiCase
    rw [hfolded]
  unfold parse at hp ⊢
  rw [← hfind]
  cases hmatch : all.find? (fun weapon => eqIgnoreAsciiCase text weapon.name) with
  | some found =>
      rw [hmatch] at hp
      exact hp
  | none =>
      rw [hmatch] at hp
      contradiction

end Weapon

end StompyMux.Construction

-- Ammunition types, and how flags select them.
namespace StompyMux.Construction

open Library.Fallible

inductive AmmunitionMode
  | Normal | Cluster | Smoke | Mine | Artemis | Narc | SemiGuided | Swarm | Swarm1
  | MmlLrm | MmlLrmArtemis | MmlLrmNarc | MmlLrmSwarm | MmlLrmSwarm1 | MmlLrmSemiGuided
  | ExtendedRange | HighExplosive
  | INarcExplosive | INarcHaywire | INarcEcm | INarcNemesis
  | Precision | Flechette | ArmorPiercing | Caseless | Inferno
  | ThunderAugmented | ThunderVibrabomb | ThunderActive | Homing
  deriving DecidableEq

namespace AmmunitionMode

-- Which launchers take a round.
def supports (mode : AmmunitionMode) (weapon : Weapon) : Bool :=
  if weapon.isTorpedo then [Normal, Artemis].contains mode
  else
    match mode with
    | Normal => true
    | MmlLrm | MmlLrmArtemis | MmlLrmNarc | MmlLrmSwarm | MmlLrmSwarm1 | MmlLrmSemiGuided =>
        weapon.isMml
    | ExtendedRange | HighExplosive => weapon.isAtm
    | Inferno => weapon.isStandardSrm || weapon.isMml
    | Swarm => weapon.isStandardLrm
    | SemiGuided | Swarm1 => weapon.supportsSemiguided
    | INarcExplosive | INarcHaywire | INarcEcm | INarcNemesis => weapon == .INarcBeacon
    | Cluster => weapon.isLbx || weapon.isIndirectArtillery
    | Smoke =>
        weapon.isIndirectArtillery || weapon.isStandardSrm || weapon.isStandardLrm || weapon.isMml
    | Mine => [Weapon.ArrowIv, .ClanArrowIv, .LongTom, .Sniper].contains weapon || weapon.isStandardLrm
    | ThunderAugmented | ThunderVibrabomb | ThunderActive => weapon.supportsThunder
    | Artemis => weapon.acceptsArtemis
    | Narc => weapon.acceptsNarcRounds || weapon == .NarcBeacon
    | Precision | Flechette | ArmorPiercing | Caseless => weapon.supportsRapidFire
    | Homing => [Weapon.ArrowIv, .ClanArrowIv].contains weapon

-- A single ammunition flag. Firing and mounting flags are not read.
def fromFlag (weapon : Weapon) (flag : String) : Option AmmunitionMode :=
  match flag with
  | "LBX/Cluster" => if weapon.isArtillery then none else some Cluster
  | "Cluster" => if weapon.isArtillery then some Cluster else none
  | "Smoke" => some Smoke
  | "Mine" => some Mine
  | "Artemis/Mine" => some Artemis
  | "Sguided" => some SemiGuided
  | "Swarm" => some Swarm
  | "Swarm1" => some Swarm1
  | "MML_LRM" => some MmlLrm
  | "ExtendedRange" => some ExtendedRange
  | "HighExplosive" => some HighExplosive
  | "Narc/Smoke" => some Narc
  | "iNarc_Explosive" => some INarcExplosive
  | "iNarc_Haywire" => some INarcHaywire
  | "iNarc_ECM" => some INarcEcm
  | "iNarc_Nemesis" => some INarcNemesis
  | "Inferno" => some Inferno
  | "Caseless" => some Caseless
  | "AP" => some ArmorPiercing
  | "Precision" => some Precision
  | "Flechette" => some Flechette
  | "ThunderAug" => some ThunderAugmented
  | "ThunderVibra" => some ThunderVibrabomb
  | "ThunderActive" => some ThunderActive
  | "Homing" => some Homing
  | _ => none

def isMmlLrm (mode : AmmunitionMode) : Bool :=
  [MmlLrm, MmlLrmArtemis, MmlLrmNarc, MmlLrmSwarm, MmlLrmSwarm1, MmlLrmSemiGuided].contains mode

-- The round, whatever the family of its launcher.
def munition : AmmunitionMode → AmmunitionMode
  | MmlLrm => Normal
  | MmlLrmArtemis => Artemis
  | MmlLrmNarc => Narc
  | MmlLrmSwarm => Swarm
  | MmlLrmSwarm1 => Swarm1
  | MmlLrmSemiGuided => SemiGuided
  | mode => mode

-- The round in one of the families, if that family carries it.
def withMmlFamily (mode : AmmunitionMode) (longRange : Bool) : Option AmmunitionMode :=
  if longRange then
    match mode.munition with
    | Normal => some MmlLrm
    | Artemis => some MmlLrmArtemis
    | Narc => some MmlLrmNarc
    | Swarm => some MmlLrmSwarm
    | Swarm1 => some MmlLrmSwarm1
    | SemiGuided => some MmlLrmSemiGuided
    | _ => none
  else if !([Swarm, Swarm1, SemiGuided].contains mode.munition) && mode.munition.supports .Mml3 then
    some mode.munition
  else none

-- The order in which flags of a mount select.
def precedence : List String :=
  ["AP", "Precision", "Flechette", "Caseless", "Cluster", "Smoke", "Mine", "LBX/Cluster",
    "Artemis/Mine", "Narc/Smoke", "Inferno", "iNarc_Explosive", "iNarc_Haywire", "iNarc_ECM",
    "iNarc_Nemesis", "Swarm", "Swarm1", "Sguided", "MML_LRM", "ExtendedRange", "HighExplosive",
    "ThunderAug", "ThunderVibra", "ThunderActive", "Homing"]

def initialSelection (weapon : Weapon) (flags : List String) : AmmunitionMode :=
  let mode := (((precedence.filter (fun flag => !weapon.isMml || flag != "MML_LRM")).find?
    (fun flag => flags.contains flag)).bind (fromFlag weapon)).getD Normal
  if !weapon.isMml then mode
  else
    let longRange := flags.contains "MML_LRM"
    ((mode.withMmlFamily longRange).or (Normal.withMmlFamily longRange)).getD Normal

def single (weapon : Weapon) : List String → Option AmmunitionMode
  | [flag] => (fromFlag weapon flag).filter (fun mode => mode.supports weapon)
  | _ => none

-- The long-range family flag beside a round of that family.
def paired (weapon : Weapon) : List String → Option AmmunitionMode
  | [first, second] =>
      if weapon.isMml && [first, second].contains "MML_LRM" then
        ([first, second].find? (fun flag => flag != "MML_LRM")).bind (fun special =>
          (fromFlag weapon special).bind (fun mode => mode.withMmlFamily true))
      else none
  | _ => none

-- A bin holds one type. Conflicting and unrelated flags are invalid.
def fromFlags (weapon : Weapon) (flags : List String) : Except Error AmmunitionMode :=
  if flags = [] then .ok Normal
  else
    ofOption ("Unsupported ammunition mode " ++ debugTexts flags ++ " for " ++ String.ofList weapon.name)
      ((single weapon flags).or (paired weapon flags))

end AmmunitionMode

namespace Weapon

-- Extended Range and High Explosive missiles trade damage and reach.
def atmProfile (profile : WeaponProfile) (ammunition : AmmunitionMode) : WeaponProfile :=
  match ammunition with
  | .ExtendedRange => { profile with
      damage := 1, minimumRange := 4, shortRange := 9, mediumRange := 18, longRange := 27 }
  | .HighExplosive => { profile with
      damage := 3, minimumRange := 0, shortRange := 3, mediumRange := 6, longRange := 9 }
  | _ => profile

def profileForAmmunition (weapon : Weapon) (ammunition : AmmunitionMode) : WeaponProfile :=
  if weapon.isAtm then atmProfile weapon.profile ammunition
  else if weapon.isMml && ammunition.isMmlLrm then { weapon.profile with
    damage := 1, minimumRange := 6, shortRange := 7, mediumRange := 14, longRange := 21
    ammunitionPerTon := 120 / weapon.profile.missiles }
  else weapon.profile

end Weapon

end StompyMux.Construction
