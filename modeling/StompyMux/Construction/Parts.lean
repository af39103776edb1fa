import StompyMux.Construction.Weapon

-- Loose stock.
namespace StompyMux.Construction

open Library.Fallible Library.Text

inductive PartKind
  | Weapon
  | Ammunition
  | Component
  | Commodity
  | Bomb
  deriving DecidableEq

structure Part where
  partId : Nat
  name : List Char
  kind : PartKind
  deriving DecidableEq

namespace Part

-- Stock beside the weapon catalogue, in the order of the identifiers.
def stock : List (Nat × String × PartKind) :=
  [(6, "PC.Blazer", .Weapon), (7, "PC.Crossbow", .Weapon), (8, "PC.FederatedLongRifle", .Weapon),
    (9, "PC.FlamerPistol", .Weapon), (10, "PC.GyroslugRifle", .Weapon),
    (11, "PC.HeavyGyrojetGun", .Weapon), (12, "PC.IntekLaserRifle", .Weapon),
    (13, "PC.LaserRifle", .Weapon), (14, "PC.PulseLaserPistol", .Weapon),
    (15, "PC.PulseLaserRifle", .Weapon), (16, "PC.SMG", .Weapon), (17, "PC.Shotgun", .Weapon),
    (18, "PC.SternsnachtPistol", .Weapon), (19, "PC.SunbeamLaserPistol", .Weapon),
    (20, "PC.ZeusHeavyRifle", .Weapon), (153, "PC.Sword", .Weapon),
    (154, "PC.Vibroblade", .Weapon), (171, "IS.LightInfantryRifle", .Weapon),
    (172, "IS.InfantryRifle", .Weapon), (173, "IS.HeavyInfantryRifle", .Weapon),
    (174, "IS.InfantryMachineGun", .Weapon), (175, "IS.InfantryLaser", .Weapon),
    (176, "IS.InfantryFlamer", .Weapon), (177, "IS.InfantrySRM", .Weapon),
    (178, "IS.InfantryLRM", .Weapon), (385, "Bomb_10_Inferno", .Bomb),
    (386, "Bomb_10_Cluster", .Bomb), (387, "Bomb_10_Standard", .Bomb),
    (388, "Bomb_50_Inferno", .Bomb), (389, "Bomb_50_Cluster", .Bomb),
    (390, "Bomb_50_Standard", .Bomb), (391, "Bomb_100_Inferno", .Bomb),
    (392, "Bomb_100_Cluster", .Bomb), (393, "Bomb_100_Standard", .Bomb),
    (394, "ShoulderOrHip", .Component), (395, "UpperActuator", .Component),
    (396, "LowerActuator", .Component), (397, "HandOrFootActuator", .Component),
    (398, "LifeSupport", .Component), (399, "Sensors", .Component), (400, "Cockpit", .Component),
    (401, "Engine", .Component), (402, "Gyro", .Component), (403, "HeatSink", .Component),
    (404, "JumpJet", .Component), (405, "CASE", .Component), (406, "FerroFibrous", .Component),
    (407, "EndoSteel", .Component), (408, "TripleStrengthMyomer", .Component),
    (409, "TargetingComputer", .Component), (410, "Masc", .Component),
    (411, "C3Master", .Component), (412, "C3Slave", .Component),
    (413, "BeagleProbe", .Component), (414, "ArtemisIV", .Component), (415, "Ecm", .Component),
    (416, "Axe", .Component), (417, "Sword", .Component), (418, "Mace", .Component),
    (419, "Claw", .Component), (420, "DSAeroDoor", .Component), (421, "DSMechDoor", .Component),
    (422, "Fuel_Tank", .Component), (423, "TAG", .Component), (424, "DSVehicleDoor", .Component),
    (425, "DSCargoDoor", .Component), (426, "LAM_Equipment", .Component),
    (427, "CASE-II", .Component), (428, "StealthArmor", .Component),
    (429, "NullSig_Device", .Component), (430, "C3i", .Component), (431, "AngelEcm", .Component),
    (432, "HvyFerroFibrous", .Component), (433, "LtFerroFibrous", .Component),
    (434, "BloodhoundProbe", .Component), (435, "PurifierArmor", .Component),
    (436, "KageStealthUnit", .Component), (437, "AchileusStealthUnit", .Component),
    (438, "InfiltratorStealthUnit", .Component), (439, "InfiltratorIIStealthUnit", .Component),
    (440, "SuperCharger", .Component), (441, "Dual_Saw", .Component),
    (442, "Light_BAP", .Component), (443, "SplitCrit_Left", .Component),
    (444, "SplitCrit_Right", .Component), (445, "Hardpoint", .Component),
    (446, "Retractable_Blade", .Component), (447, "Lance", .Component),
    (448, "Flail", .Component), (449, "Wrecking_Ball", .Component),
    (450, "Chain_Whip", .Component), (451, "Small_Vibroblade", .Component),
    (452, "Medium_Vibroblade", .Component), (453, "Large_Vibroblade", .Component),
    (454, "LaserReflective", .Component), (455, "ArtemisV", .Component),
    (456, "LightTAG", .Component), (457, "ApolloFCS", .Component), (458, "Talons", .Component),
    (459, "Spikes", .Component), (460, "MGA", .Component), (461, "Cargo", .Component),
    (462, "Communications_Equipment", .Component), (463, "Lift_Hoist", .Component),
    (464, "Backhoe", .Component), (512, "Ammo_LBX2", .Commodity),
    (513, "Ammo_LBX5_LBX", .Commodity), (514, "Ammo_LBX10_LBX", .Commodity),
    (515, "Ammo_LBX20_LBX", .Commodity), (516, "Ammo_LRM", .Commodity),
    (517, "Ammo_SRM", .Commodity), (518, "Ammo_SSRM", .Commodity),
    (519, "Ammo_LRM_NARC", .Commodity), (520, "Ammo_SRM_NARC", .Commodity),
    (521, "Ammo_SSRM_NARC", .Commodity), (522, "Ammo_LRM_Artemis", .Commodity),
    (523, "Ammo_SRM_Artemis", .Commodity), (524, "Ammo_SSRM_Artemis", .Commodity),
    (525, "Petroleum", .Commodity), (526, "Phosphorus", .Commodity),
    (527, "Hydrogen", .Commodity), (528, "Gold", .Commodity),
    (529, "Natural_Extracts", .Commodity), (530, "Marijuana", .Commodity),
    (531, "Sulfur", .Commodity), (532, "Sodium", .Commodity), (533, "Plutonium", .Commodity),
    (534, "Ore", .Commodity), (535, "Steel", .Commodity), (536, "Plastics", .Commodity),
    (537, "Medical_Supplies", .Commodity), (538, "Computers", .Commodity),
    (539, "Explosives", .Commodity), (540, "ES_Internal", .Commodity),
    (541, "FF_Armor", .Commodity), (542, "XL_Engine", .Commodity),
    (543, "Double_HeatSink", .Commodity), (544, "ICE_Engine", .Commodity),
    (545, "Electric", .Commodity), (546, "Internal", .Commodity), (547, "Armor", .Commodity),
    (548, "Actuator", .Commodity), (549, "Aero_Fuel", .Commodity), (550, "DS_Fuel", .Commodity),
    (551, "VTOL_Fuel", .Commodity), (552, "Ammo_LRM_Swarm", .Commodity),
    (553, "Ammo_LRM_Swarm1", .Commodity), (554, "Ammo_SRM_Inferno", .Commodity),
    (555, "XXL_Engine", .Commodity), (556, "Compact_Engine", .Commodity),
    (557, "HD_Armor", .Commodity), (558, "RE_Internals", .Commodity),
    (559, "CO_Internals", .Commodity), (560, "Ammo_MRM", .Commodity),
    (561, "Light_Engine", .Commodity), (562, "CASE-II", .Commodity),
    (563, "STH_Armor", .Commodity), (564, "NullSigSys", .Commodity),
    (565, "Silicon", .Commodity), (566, "HVY_FF_Armor", .Commodity),
    (567, "LT_FF_Armor", .Commodity), (568, "Ammo_iNARC_Explosive", .Commodity),
    (569, "Ammo_iNARC_Haywire", .Commodity), (570, "Ammo_iNARC_ECM", .Commodity),
    (571, "Ammo_iNARC_Nemesis", .Commodity), (572, "Ammo_AC2_Pierce", .Commodity),
    (573, "Ammo_AC5_Pierce", .Commodity), (574, "Ammo_AC10_Pierce", .Commodity),
    (575, "Ammo_AC20_Pierce", .Commodity), (576, "Ammo_LAC2_Pierce", .Commodity),
    (577, "Ammo_LAC5_Pierce", .Commodity), (578, "Ammo_AC2_Flechette", .Commodity),
    (579, "Ammo_AC5_Flechette", .Commodity), (580, "Ammo_AC10_Flechette", .Commodity),
    (581, "Ammo_AC20_Flechette", .Commodity), (582, "Ammo_LAC2_Flechette", .Commodity),
    (583, "Ammo_LAC5_Flechette", .Commodity), (590, "Ammo_AC2_Precision", .Commodity),
    (591, "Ammo_AC5_Precision", .Commodity), (592, "Ammo_AC10_Precision", .Commodity),
    (593, "Ammo_AC20_Precision", .Commodity), (594, "Ammo_LAC2_Precision", .Commodity),
    (595, "Ammo_LAC5_Precision", .Commodity), (598, "Ammo_SLRM", .Commodity),
    (599, "Ammo_ELRM", .Commodity), (600, "BSuit_Sensor", .Commodity),
    (601, "BSuit_LifeSupport", .Commodity), (602, "BSuit_Electronic", .Commodity),
    (603, "Oil", .Commodity), (604, "Water", .Commodity), (605, "Earth", .Commodity),
    (606, "Oxygen", .Commodity), (607, "Nitrogen", .Commodity), (608, "Nickel", .Commodity),
    (609, "Steel", .Commodity), (610, "Iron", .Commodity), (611, "Brass", .Commodity),
    (612, "Platinum", .Commodity), (613, "Copper", .Commodity), (614, "Aluminum", .Commodity),
    (615, "Consumer_Good", .Commodity), (616, "Machinery", .Commodity),
    (617, "Slaves", .Commodity), (618, "Timbiqui_Dark", .Commodity),
    (619, "Cocaine", .Commodity), (620, "Heroine", .Commodity), (621, "Marble", .Commodity),
    (622, "Glass", .Commodity), (623, "Diamond", .Commodity), (624, "Coal", .Commodity),
    (625, "Food", .Commodity), (626, "Zinc", .Commodity), (627, "Fabric", .Commodity),
    (628, "Clothing", .Commodity), (629, "Wood", .Commodity), (630, "Pulp", .Commodity),
    (631, "Lumber", .Commodity), (632, "Rubber", .Commodity), (633, "Seeds", .Commodity),
    (634, "Fertilizer", .Commodity), (635, "Salt", .Commodity), (636, "Lithium", .Commodity),
    (637, "Helium", .Commodity), (638, "Larium", .Commodity), (639, "Uranium", .Commodity),
    (640, "Iridium", .Commodity), (641, "Titanium", .Commodity), (642, "Concrete", .Commodity),
    (643, "FerroCrete", .Commodity), (644, "Building_Supplies", .Commodity),
    (645, "Kevlar", .Commodity), (646, "Waste", .Commodity), (647, "Livestock", .Commodity),
    (648, "Paper", .Commodity), (649, "XL_Gyro", .Commodity),
    (650, "HeavyDuty_Gyro", .Commodity), (651, "Compact_Gyro", .Commodity),
    (652, "Compact_HeatSink", .Commodity), (654, "Ammo_AC2_Caseless", .Commodity),
    (655, "Ammo_AC5_Caseless", .Commodity), (656, "Ammo_AC10_Caseless", .Commodity),
    (657, "Ammo_AC20_Caseless", .Commodity), (658, "Ammo_LAC2_Caseless", .Commodity),
    (659, "Ammo_LAC5_Caseless", .Commodity), (660, "Ammo_LRM_Sguided", .Commodity),
    (661, "Ammo_ATM3_ER", .Commodity), (662, "Ammo_ATM3_HE", .Commodity),
    (663, "Ammo_ATM6_ER", .Commodity), (664, "Ammo_ATM6_HE", .Commodity),
    (665, "Ammo_ATM9_ER", .Commodity), (666, "Ammo_ATM9_HE", .Commodity),
    (667, "Ammo_ATM12_ER", .Commodity), (668, "Ammo_ATM12_HE", .Commodity),
    (669, "SearchLight", .Commodity)]

def ammunitionOffset : Nat := 1024

def weaponOf (id : Nat) : Option Part :=
  match Weapon.fromPartId id with
  | some weapon => some ⟨id, weapon.name, .Weapon⟩
  | none => none

def stockOf (id : Nat) : Option Part :=
  (stock.find? (fun entry => entry.1 = id)).map (fun entry => ⟨id, entry.2.1.toList, entry.2.2⟩)

-- Loose ammunition is a fixed offset above its weapon.
def fromId (id : Nat) : Option Part :=
  match weaponOf id with
  | some part => some part
  | none =>
      if 1025 ≤ id ∧ id ≤ 1408 then
        ((((weaponOf (id - ammunitionOffset)).or (stockOf (id - ammunitionOffset))).filter
          (fun part => part.kind = .Weapon)).map (fun weapon =>
            ⟨id, "Ammo_".toList ++ weapon.name, .Ammunition⟩))
      else stockOf id

-- Every part in the order of the identifiers.
def all : List Part := (List.range 2048).tail.filterMap fromId

-- An exact name, letter case aside. A name that two parts share is refused.
def parse (text : List Char) : Except Error Part :=
  let name := System.stockName text
  match all.filter (fun part => eqIgnoreAsciiCase part.name name) with
  | [] => .error ["Unknown inventory part " ++ String.ofList name]
  | [part] => .ok part
  | _ => .error ["Ambiguous inventory part " ++ String.ofList name ++ "; use its numeric identifier"]

end Part

end StompyMux.Construction
