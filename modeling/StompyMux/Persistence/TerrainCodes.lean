import Mathlib.Data.Finset.Card
import Mathlib.Data.List.Perm.Subperm
import StompyMux.Persistence.TerrainTables

-- The dictionary of a map gains a free code for each new hex.
namespace StompyMux.Persistence.Terrain

open Library Library.Fallible
open StompyMux.Map
open StompyMux.World (ObjectId)

theorem codes_nodup : CODES.Nodup := by
  have hrange : (List.range' 0 (MAX_CODE + 1)).Nodup := List.nodup_range'
  exact hrange.map (fun a b hab => Int.ofNat.inj hab)

theorem codes_length : CODES.length = MAX_CODE + 1 := by
  rw [CODES, List.length_map, List.length_range']

theorem mem_codes (code : Int) : code ∈ CODES ↔ 0 ≤ code ∧ code ≤ (MAX_CODE : Int) := by
  unfold CODES
  rw [List.mem_map]
  constructor
  · rintro ⟨n, hn, rfl⟩
    obtain ⟨i, hi, rfl⟩ := List.mem_range'.mp hn
    show 0 ≤ ((0 + 1 * i : Nat) : Int) ∧ ((0 + 1 * i : Nat) : Int) ≤ (MAX_CODE : Int)
    omega
  · rintro ⟨hlow, hhigh⟩
    refine ⟨code.toNat, List.mem_range'.mpr ⟨code.toNat, by omega, by omega⟩, ?_⟩
    exact Int.toNat_of_nonneg hlow

theorem free_code (occupied : List Int) (h : occupied.length ≤ MAX_CODE) :
    ∃ code, CODES.find? (fun code => code ∉ occupied) = some code := by
  cases hfind : CODES.find? (fun code => code ∉ occupied) with
  | some code => exact ⟨code, rfl⟩
  | none =>
      have hall : CODES ⊆ occupied := by
        intro code hcode
        have hin := List.find?_eq_none.mp hfind code hcode
        simpa using hin
      have hle := (codes_nodup.subperm hall).length_le
      rw [codes_length] at hle
      omega

section Assign

variable (entries : List (Hex × Int))

-- What holds of the codes after some hexes have theirs.
structure Assigned (done : List Hex) (a : Assignment) : Prop where
  dictionary : a.dictionary = a.additions.reverse ++ entries.reverse
  occupied : a.occupied.Perm (a.dictionary.map Prod.snd)
  hexes : (a.dictionary.map Prod.fst).Nodup
  codes : (a.dictionary.map Prod.snd).Nodup
  range : ∀ addition ∈ a.additions, 0 ≤ addition.2 ∧ addition.2 ≤ (MAX_CODE : Int)
  asked : ∀ addition ∈ a.additions, addition.1 ∈ done
  covered : ∀ hex ∈ done, hex ∈ a.dictionary.map Prod.fst

variable {entries} {done : List Hex} {a : Assignment}

theorem lookup_isSome_iff (dictionary : List (Hex × Int)) (hex : Hex) :
    (dictionary.lookup hex).isSome ↔ hex ∈ dictionary.map Prod.fst := by
  rw [List.lookup_isSome_iff, List.mem_map]
  exact exists_congr fun entry => and_congr_right fun _ => beq_iff_eq.trans eq_comm

theorem assigned_start {entries : List (Hex × Int)} (hhexes : (entries.map Prod.fst).Nodup)
    (hcodes : (entries.map Prod.snd).Nodup) :
    Assigned entries [] ⟨entries.reverse, entries.map Prod.snd, []⟩ := by
  refine ⟨rfl, ((List.reverse_perm entries).map Prod.snd).symm,
    ((List.reverse_perm entries).map Prod.fst).nodup_iff.mpr hhexes,
    ((List.reverse_perm entries).map Prod.snd).nodup_iff.mpr hcodes, ?_, ?_, ?_⟩
  all_goals exact fun _ h => by contradiction

theorem assignCode_keeps (h : Assigned entries done a) {hex : Hex} {a' : Assignment}
    (hassign : assignCode a hex = .ok a') : Assigned entries (done ++ [hex]) a' := by
  unfold assignCode at hassign
  by_cases hsome : (a.dictionary.lookup hex).isSome = true
  · rw [if_pos hsome] at hassign
    injection hassign with hassign
    subst hassign
    refine ⟨h.dictionary, h.occupied, h.hexes, h.codes, h.range, fun addition hmem => ?_,
      fun other hother => ?_⟩
    · exact List.mem_append_left _ (h.asked addition hmem)
    · rcases List.mem_append.mp hother with hother | hother
      · exact h.covered other hother
      · exact List.mem_singleton.mp hother ▸ (lookup_isSome_iff _ hex).mp hsome
  · rw [if_neg hsome] at hassign
    obtain ⟨code, hfind, hassign⟩ := ok_of_bind hassign
    have hfind := ok_of_ofOption hfind
    injection hassign with hassign
    subst hassign
    have hin : hex ∉ a.dictionary.map Prod.fst := fun hin => hsome ((lookup_isSome_iff _ hex).mpr hin)
    have hfree : code ∉ a.occupied := by simpa using List.find?_some hfind
    have hrange := (mem_codes code).mp (List.mem_of_find?_eq_some hfind)
    refine ⟨?_, h.occupied.cons code, List.nodup_cons.mpr ⟨hin, h.hexes⟩,
      List.nodup_cons.mpr ⟨fun hmem => hfree (h.occupied.mem_iff.mpr hmem), h.codes⟩,
      fun addition hmem => ?_, fun addition hmem => ?_, fun other hother => ?_⟩
    · show (hex, code) :: a.dictionary = (a.additions ++ [(hex, code)]).reverse ++ entries.reverse
      rw [h.dictionary, List.reverse_append]
      rfl
    · rcases List.mem_append.mp hmem with hmem | hmem
      · exact h.range addition hmem
      · rw [List.mem_singleton.mp hmem]
        exact hrange
    · rcases List.mem_append.mp hmem with hmem | hmem
      · exact List.mem_append_left _ (h.asked addition hmem)
      · rw [List.mem_singleton.mp hmem]
        exact List.mem_append_right _ (List.mem_singleton.mpr rfl)
    · rcases List.mem_append.mp hother with hother | hother
      · exact List.mem_cons_of_mem _ (h.covered other hother)
      · rw [List.mem_singleton.mp hother]
        exact List.mem_cons_self

theorem assignCode_ok {seen : Finset Hex} (h : Assigned entries done a)
    (hentries : ∀ entry ∈ entries, entry.1 ∈ seen) (hdone : ∀ hex ∈ done, hex ∈ seen) {hex : Hex}
    (hhex : hex ∈ seen) (hcard : seen.card ≤ MAX_CODE + 1) : ∃ a', assignCode a hex = .ok a' := by
  unfold assignCode
  by_cases hsome : (a.dictionary.lookup hex).isSome = true
  · exact ⟨a, if_pos hsome⟩
  · rw [if_neg hsome]
    have hin : hex ∉ a.dictionary.map Prod.fst := fun hin => hsome ((lookup_isSome_iff _ hex).mpr hin)
    -- The hexes with a code and this one are among those ever seen.
    have hsub : (hex :: a.dictionary.map Prod.fst) ⊆ seen.toList := by
      intro other hother
      rw [Finset.mem_toList]
      rcases List.mem_cons.mp hother with rfl | hother
      · exact hhex
      · rw [h.dictionary, List.map_append, List.mem_append] at hother
        rcases hother with hother | hother
        · obtain ⟨addition, hmem, rfl⟩ := List.mem_map.mp hother
          exact hdone _ (h.asked addition (List.mem_reverse.mp hmem))
        · obtain ⟨entry, hmem, rfl⟩ := List.mem_map.mp hother
          exact hentries entry (List.mem_reverse.mp hmem)
    have hlength := ((List.nodup_cons.mpr ⟨hin, h.hexes⟩).subperm hsub).length_le
    have hoccupied := h.occupied.length_eq
    rw [List.length_cons, List.length_map, Finset.length_toList] at hlength
    rw [List.length_map] at hoccupied
    obtain ⟨code, hfind⟩ := free_code a.occupied (by omega)
    exact ⟨_, bind_ok (ofOption_ok hfind) rfl⟩

end Assign

theorem mem_distinctHexes (tiles : List Hex) (hex : Hex) : hex ∈ distinctHexes tiles ↔ hex ∈ tiles :=
  (stableSort_perm hexRank tiles.dedup).mem_iff.trans List.mem_dedup

variable (json : HexJson)

structure Dictionary (rows : Int → Option Row) (seen : Finset Hex) : Prop where
  hex : ∀ code row, rows code = some row → ∃ hex ∈ seen, row "hex" = .Text (json.toString hex)
  range : ∀ code row, rows code = some row → 0 ≤ code ∧ code ≤ (MAX_CODE : Int)
  apart : ∀ code other row row', rows code = some row → rows other = some row' →
    row "hex" = row' "hex" → code = other

def Means (rows : Int → Option Row) (code : Int) (hex : Hex) : Prop :=
  ∃ row, rows code = some row ∧ row "hex" = .Text (json.toString hex)

namespace TerrainTables

variable {json} (t : TerrainTables) (id : ObjectId) (seen : Finset Hex) (hjson : json.Faithful)

include hjson

theorem readEntries_ok (h : Dictionary json (fun code => t.codes.get? (id, code)) seen) :
    ∃ entries, (rowsOf t.codes id).mapM (readEntry json) = .ok entries ∧
      (entries.map Prod.fst).Nodup ∧ (entries.map Prod.snd).Nodup ∧
      (∀ entry ∈ entries, entry.1 ∈ seen) ∧
      ∀ hex code, (hex, code) ∈ entries ↔ Means json (fun code => t.codes.get? (id, code)) code hex := by
  let value := fun (row : Row) =>
    ((getText row "hex").toOption.bind json.fromStr).getD (Hex.atLevel 0)
  have hvalue : ∀ row hex, row "hex" = .Text (json.toString hex) → value row = hex := by
    intro row hex hrow
    have htext : getText row "hex" = .ok (json.toString hex) := by rw [getText, hrow]
    show ((getText row "hex").toOption.bind json.fromStr).getD (Hex.atLevel 0) = hex
    rw [htext]
    show (json.fromStr (json.toString hex)).getD (Hex.atLevel 0) = hex
    rw [hjson.read hex]
    rfl
  have hmem : ∀ entry ∈ rowsOf t.codes id, ∃ hex ∈ seen, entry.2 "hex" = .Text (json.toString hex) :=
    fun entry hentry => h.hex entry.1 entry.2 ((mem_rowsOf t.codes id entry.1 entry.2).mp hentry)
  have hread : (rowsOf t.codes id).mapM (readEntry json) =
      .ok ((rowsOf t.codes id).map (fun entry => (value entry.2, entry.1))) := by
    refine mapM_ok _ _ _ fun entry hentry => ?_
    obtain ⟨hex, -, hrow⟩ := hmem entry hentry
    rw [hvalue entry.2 hex hrow]
    unfold readEntry readHex
    rw [hrow]
    show (ofOption "Invalid terrain code" (json.fromStr (json.toString hex)) >>= _) = _
    rw [hjson.read hex]
    rfl
  have hiff : ∀ hex code, (hex, code) ∈ (rowsOf t.codes id).map (fun entry => (value entry.2, entry.1)) ↔
      Means json (fun code => t.codes.get? (id, code)) code hex := by
    intro hex code
    rw [List.mem_map]
    constructor
    · rintro ⟨⟨other, row⟩, hentry, heq⟩
      injection heq with hhex hcode
      obtain ⟨hex', -, hrow⟩ := hmem _ hentry
      subst hcode
      refine ⟨row, (mem_rowsOf t.codes id other row).mp hentry, ?_⟩
      rw [← hhex, hvalue row hex' hrow]
      exact hrow
    · rintro ⟨row, hrow, htext⟩
      refine ⟨(code, row), (mem_rowsOf t.codes id code row).mpr hrow, ?_⟩
      rw [hvalue row hex htext]
  refine ⟨_, hread, ?_, ?_, ?_, hiff⟩
  · -- Two rows with one hex have one code.
    have hkeys : (rowsOf t.codes id).Pairwise (fun a b => a.1 ≠ b.1) :=
      List.pairwise_map.mp (keys_rowsOf t.codes id)
    refine List.pairwise_map.mpr (List.pairwise_map.mpr (hkeys.imp_of_mem ?_))
    rintro ⟨code, row⟩ ⟨other, row'⟩ ha hb hne heq
    obtain ⟨hex, -, hrow⟩ := hmem _ ha
    obtain ⟨hex', -, hrow'⟩ := hmem _ hb
    have hsame : hex = hex' := by
      have heq : value row = value row' := heq
      rwa [hvalue row hex hrow, hvalue row' hex' hrow'] at heq
    refine hne (h.apart code other row row' ((mem_rowsOf _ _ _ _).mp ha) ((mem_rowsOf _ _ _ _).mp hb) ?_)
    exact hrow.trans (hsame ▸ hrow'.symm)
  · rw [List.map_map]
    exact keys_rowsOf t.codes id
  · rintro ⟨hex, code⟩ hentry
    obtain ⟨row, hrow, htext⟩ := (hiff hex code).mp hentry
    obtain ⟨hex', hseen, htext'⟩ := h.hex code row hrow
    rw [htext] at htext'
    injection htext' with htext'
    exact hjson.injective htext' ▸ hseen

-- What the codes hold when a grid has them, whether or not there is a bound on the hexes.
theorem assignCodes_keeps (h : Dictionary json (fun code => t.codes.get? (id, code)) seen)
    {tiles : List Hex} {a : Assignment} (hassign : t.assignCodes json id tiles = .ok a) :
    ∃ entries, (∀ hex code, (hex, code) ∈ entries ↔
        Means json (fun code => t.codes.get? (id, code)) code hex) ∧
      Assigned entries (distinctHexes tiles) a := by
  obtain ⟨entries, hread, hhexes, hcodes, -, hiff⟩ := readEntries_ok t id seen hjson h
  unfold assignCodes at hassign
  rw [hread] at hassign
  exact ⟨entries, hiff, foldlM_keeps (fun done a => Assigned entries done a) (fun done hex rest a a' _ ha hstep => assignCode_keeps ha hstep)
    (assigned_start hhexes hcodes) hassign⟩

theorem assignCodes_ok (h : Dictionary json (fun code => t.codes.get? (id, code)) seen)
    (tiles : List Hex) (htiles : ∀ hex ∈ tiles, hex ∈ seen) (hcard : seen.card ≤ MAX_CODE + 1) :
    ∃ a, t.assignCodes json id tiles = .ok a := by
  obtain ⟨entries, hread, hhexes, hcodes, hseen, -⟩ := readEntries_ok t id seen hjson h
  have hmem : ∀ hex ∈ distinctHexes tiles, hex ∈ seen :=
    fun hex hhex => htiles hex ((mem_distinctHexes tiles hex).mp hhex)
  obtain ⟨a, hrun, -⟩ := foldlM_succeeds (fun done a => Assigned entries done a) assignCode
    (distinctHexes tiles)
    (fun done hex rest a hitems ha => by
      obtain ⟨a', hstep⟩ := assignCode_ok ha hseen
        (fun other hother => hmem other (by rw [hitems]; exact List.mem_append_left _ hother))
        (hmem hex (by rw [hitems]; exact List.mem_append_right _ List.mem_cons_self)) hcard
      exact ⟨a', hstep, assignCode_keeps ha hstep⟩)
    _ (assigned_start hhexes hcodes)
  exact ⟨a, bind_ok hread hrun⟩

-- What the insertions of some codes leave in the table.
variable (json) in
structure Inserted (codes codes' : Table (ObjectId × Int) Row) (additions : List (Hex × Int)) : Prop where
  added : ∀ addition ∈ additions,
    Means json (fun code => codes'.get? (id, code)) addition.2 addition.1
  kept : ∀ key, (∀ addition ∈ additions, key ≠ (id, addition.2)) → codes'.get? key = codes.get? key

theorem insertCode_ok {codes : Table (ObjectId × Int) Row}
    {addition : Hex × Int} (hfree : codes.get? (id, addition.2) = none)
    (hnew : ∀ code, ¬ Means json (fun code => codes.get? (id, code)) code addition.1)
    (hrange : 0 ≤ addition.2 ∧ addition.2 ≤ (MAX_CODE : Int)) :
    ∃ codes', t.insertCode json id codes addition = .ok codes' ∧ Inserted json id codes codes' [addition] := by
  have hunique : (rowsOf codes id).all
      (fun entry => entry.2 "hex" ≠ .Text (json.toString addition.1)) = true := by
    refine List.all_eq_true.mpr fun entry hentry => decide_eq_true fun htext => ?_
    exact hnew entry.1 ⟨entry.2, (mem_rowsOf codes id entry.1 entry.2).mp hentry, htext⟩
  have hfield : ∀ row : Row, assign (codeFields json addition.1) row "hex" =
      .Text (json.toString addition.1) := fun row => rfl
  have hcheck : (t.codesSchema json).check (id, addition.2)
      (assign (codeFields json addition.1) ((codes.get? (id, addition.2)).getD (t.codesSchema json).defaults)) := by
    show ((decide (0 ≤ addition.2) && decide (addition.2 ≤ 65535)) && jsonColumn json "hex" _) = true
    have hmax : (MAX_CODE : Int) = 65535 := rfl
    rw [decide_eq_true hrange.1, decide_eq_true (hmax ▸ hrange.2), jsonColumn, hfield]
    exact hjson.valid addition.1
  obtain ⟨codes', changed, hrow, hget⟩ := row_ok (t.codesSchema json) codes (id, addition.2) none
    (codeFields json addition.1) (List.nodup_singleton _) hcheck (by rw [hfree]; trivial)
  refine ⟨codes', ?_, fun other hother => ?_, fun key hkey => ?_⟩
  · exact bind_ok (ensure_ok hunique) (bind_ok hrow rfl)
  · rw [List.mem_singleton.mp hother]
    exact ⟨_, (hget _).trans (if_pos rfl), hfield _⟩
  · rw [hget, if_neg (hkey addition (List.mem_singleton.mpr rfl))]

theorem insertCodes_ok (codes : Table (ObjectId × Int) Row)
    {additions : List (Hex × Int)} (hhexes : (additions.map Prod.fst).Nodup)
    (hcodes : (additions.map Prod.snd).Nodup)
    (hfree : ∀ addition ∈ additions, codes.get? (id, addition.2) = none)
    (hnew : ∀ addition ∈ additions, ∀ code,
      ¬ Means json (fun code => codes.get? (id, code)) code addition.1)
    (hrange : ∀ addition ∈ additions, 0 ≤ addition.2 ∧ addition.2 ≤ (MAX_CODE : Int)) :
    ∃ codes', additions.foldlM (t.insertCode json id) codes = .ok codes' ∧
      Inserted json id codes codes' additions := by
  refine foldlM_succeeds (fun done codes' => Inserted json id codes codes' done)
    (t.insertCode json id) additions ?_ codes ⟨fun _ h => by contradiction, fun key _ => rfl⟩
  rintro done addition rest codes₁ rfl h
  have hmem : addition ∈ done ++ addition :: rest := List.mem_append_right _ List.mem_cons_self
  rw [List.map_append, List.nodup_append] at hhexes hcodes
  have hapart : ∀ other ∈ done, addition.1 ≠ other.1 ∧ addition.2 ≠ other.2 := fun other hother =>
    ⟨fun heq => hhexes.2.2 _ (List.mem_map_of_mem hother) _ List.mem_cons_self heq.symm,
      fun heq => hcodes.2.2 _ (List.mem_map_of_mem hother) _ List.mem_cons_self heq.symm⟩
  have hkept := h.kept (id, addition.2) fun other hother heq =>
    (hapart other hother).2 (Prod.mk.inj heq).2
  obtain ⟨codes₂, hinsert, hlast⟩ := insertCode_ok t id hjson
    (hkept.trans (hfree addition hmem))
    (by
      rintro code ⟨row, hrow, htext⟩
      by_cases hold : ∃ other ∈ done, code = other.2
      · obtain ⟨other, hother, rfl⟩ := hold
        obtain ⟨row', hrow', htext'⟩ := h.added other hother
        have hsame := Option.some.inj (hrow.symm.trans hrow')
        rw [← hsame, htext] at htext'
        injection htext' with htext'
        exact (hapart other hother).1 (hjson.injective htext')
      · have hkept := h.kept (id, code) fun other hother heq => hold ⟨other, hother, (Prod.mk.inj heq).2⟩
        exact hnew addition hmem code ⟨row, hkept.symm.trans hrow, htext⟩)
    (hrange addition hmem)
  refine ⟨codes₂, hinsert, fun other hother => ?_, fun key hkey => ?_⟩
  · rcases List.mem_append.mp hother with hother | hother
    · obtain ⟨row, hrow, htext⟩ := h.added other hother
      refine ⟨row, ?_, htext⟩
      show codes₂.get? (id, other.2) = some row
      rw [hlast.kept (id, other.2) fun last hlast' heq => ?_]
      · exact hrow
      · rw [List.mem_singleton.mp hlast'] at heq
        exact (hapart other hother).2 (Prod.mk.inj heq).2.symm
    · exact hlast.added other hother
  · rw [hlast.kept key fun other hother => hkey other (List.mem_append_right _ hother)]
    exact h.kept key fun other hother => hkey other (List.mem_append_left _ hother)

-- Every hex of the grid has a code afterwards, and no code changes the hex it stands for.
variable (json) in
structure CodesSaved (codes : Table (ObjectId × Int) Row) (dictionary : List (Hex × Int))
    (tiles : List Hex) : Prop where
  coded : Dictionary json (fun code => codes.get? (id, code)) seen
  tiles : ∀ hex ∈ tiles, ∃ code, dictionary.lookup hex = some code ∧
    Means json (fun code => codes.get? (id, code)) code hex
  kept : ∀ key row, t.codes.get? key = some row → codes.get? key = some row
  others : ∀ other, other ≠ id → ∀ code, codes.get? (other, code) = t.codes.get? (other, code)

theorem saveCodes_ok (h : Dictionary json (fun code => t.codes.get? (id, code)) seen)
    (tiles : List Hex) (htiles : ∀ hex ∈ tiles, hex ∈ seen) (hcard : seen.card ≤ MAX_CODE + 1)
    (t' : TerrainTables) :
    ∃ a codes, t.assignCodes json id tiles = .ok a ∧
      a.additions.foldlM (t'.insertCode json id) t.codes = .ok codes ∧
      CodesSaved json t id seen codes a.dictionary tiles := by
  obtain ⟨a, hassign⟩ := assignCodes_ok t id seen hjson h tiles htiles hcard
  obtain ⟨entries, hiff, ha⟩ := assignCodes_keeps t id seen hjson h hassign
  have hhexes := ha.hexes
  have hcodes := ha.codes
  rw [ha.dictionary, List.map_append, List.nodup_append, List.map_reverse, List.nodup_reverse] at hhexes hcodes
  have hadded : ∀ addition ∈ a.additions, addition.1 ∉ entries.map Prod.fst ∧
      addition.2 ∉ entries.map Prod.snd := fun addition hmem =>
    ⟨fun hin => hhexes.2.2 _ (List.mem_reverse.mpr (List.mem_map_of_mem hmem)) _
        (by rwa [List.map_reverse, List.mem_reverse]) rfl,
      fun hin => hcodes.2.2 _ (List.mem_reverse.mpr (List.mem_map_of_mem hmem)) _
        (by rwa [List.map_reverse, List.mem_reverse]) rfl⟩
  have hfree : ∀ addition ∈ a.additions, t.codes.get? (id, addition.2) = none := by
    intro addition hmem
    cases hget : t.codes.get? (id, addition.2) with
    | none => rfl
    | some row =>
        obtain ⟨hex, -, htext⟩ := h.hex addition.2 row hget
        exact absurd (List.mem_map.mpr ⟨(hex, addition.2), (hiff _ _).mpr ⟨row, hget, htext⟩, rfl⟩)
          (hadded addition hmem).2
  have hnew : ∀ addition ∈ a.additions, ∀ code,
      ¬ Means json (fun code => t.codes.get? (id, code)) code addition.1 :=
    fun addition hmem code hmeans =>
      (hadded addition hmem).1 (List.mem_map.mpr ⟨_, (hiff _ _).mpr hmeans, rfl⟩)
  obtain ⟨codes, hinsert, hi⟩ := insertCodes_ok t' id hjson t.codes hhexes.1 hcodes.1
    hfree hnew ha.range
  have hkept : ∀ key row, t.codes.get? key = some row → codes.get? key = some row := by
    intro key row hrow
    rw [hi.kept key fun addition hmem heq => ?_]
    · exact hrow
    · rw [heq, hfree addition hmem] at hrow
      contradiction
  -- Each code of the dictionary stands for its hex.
  have hmeans : ∀ entry ∈ a.dictionary, Means json (fun code => codes.get? (id, code)) entry.2 entry.1 := by
    intro entry hentry
    rw [ha.dictionary, List.mem_append, List.mem_reverse, List.mem_reverse] at hentry
    rcases hentry with hentry | hentry
    · exact hi.added entry hentry
    · obtain ⟨row, hrow, htext⟩ := (hiff entry.1 entry.2).mp hentry
      exact ⟨row, hkept _ row hrow, htext⟩
  have hrows : ∀ code row, codes.get? (id, code) = some row →
      ∃ hex, (hex, code) ∈ a.dictionary ∧ row "hex" = .Text (json.toString hex) := by
    intro code row hrow
    by_cases hold : ∃ addition ∈ a.additions, code = addition.2
    · obtain ⟨addition, hmem, rfl⟩ := hold
      obtain ⟨row', hrow', htext⟩ := hi.added addition hmem
      refine ⟨addition.1, ?_, Option.some.inj (hrow'.symm.trans hrow) ▸ htext⟩
      rw [ha.dictionary]
      exact List.mem_append_left _ (List.mem_reverse.mpr hmem)
    · rw [hi.kept (id, code) fun addition hmem heq => hold ⟨addition, hmem, (Prod.mk.inj heq).2⟩] at hrow
      obtain ⟨hex, -, htext⟩ := h.hex code row hrow
      refine ⟨hex, ?_, htext⟩
      rw [ha.dictionary]
      exact List.mem_append_right _ (List.mem_reverse.mpr ((hiff hex code).mpr ⟨row, hrow, htext⟩))
  have hseen : ∀ entry ∈ a.dictionary, entry.1 ∈ seen ∧ 0 ≤ entry.2 ∧ entry.2 ≤ (MAX_CODE : Int) := by
    intro entry hentry
    rw [ha.dictionary, List.mem_append, List.mem_reverse, List.mem_reverse] at hentry
    rcases hentry with hentry | hentry
    · exact ⟨htiles _ ((mem_distinctHexes tiles _).mp (ha.asked entry hentry)), ha.range entry hentry⟩
    · obtain ⟨row, hrow, htext⟩ := (hiff entry.1 entry.2).mp hentry
      obtain ⟨hex, hmem, htext'⟩ := h.hex entry.2 row hrow
      rw [htext] at htext'
      injection htext' with htext'
      exact ⟨hjson.injective htext' ▸ hmem, h.range entry.2 row hrow⟩
  refine ⟨a, codes, hassign, hinsert, ⟨fun code row hrow => ?_, fun code row hrow => ?_, ?_⟩,
    fun hex hhex => ?_, hkept, fun other hother code => ?_⟩
  · obtain ⟨hex, hmem, htext⟩ := hrows code row hrow
    exact ⟨hex, (hseen _ hmem).1, htext⟩
  · obtain ⟨hex, hmem, -⟩ := hrows code row hrow
    exact (hseen _ hmem).2
  · intro code other row row' hrow hrow' heq
    obtain ⟨hex, hmem, htext⟩ := hrows code row hrow
    obtain ⟨hex', hmem', htext'⟩ := hrows other row' hrow'
    rw [htext, htext'] at heq
    injection heq with heq
    have hhex : hex = hex' := hjson.injective heq
    subst hhex
    have hsame := List.inj_on_of_nodup_map ha.hexes hmem hmem' rfl
    exact (Prod.mk.inj hsame).2
  · have hcovered := ha.covered hex ((mem_distinctHexes tiles hex).mpr hhex)
    obtain ⟨⟨hex', code⟩, hmem, heq⟩ := List.mem_map.mp hcovered
    have heq : hex' = hex := heq
    subst heq
    exact ⟨code, (lookup_eq_some_iff_mem ha.hexes _ _).mpr hmem, hmeans _ hmem⟩
  · exact hi.kept _ fun addition _ heq => hother (Prod.mk.inj heq).1

end TerrainTables

end StompyMux.Persistence.Terrain
