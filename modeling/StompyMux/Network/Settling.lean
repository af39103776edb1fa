import StompyMux.Network.Linking

-- A pool that was formed has nothing left to form.
namespace StompyMux.Network

open StompyMux.Btech (Error)
open Library
open StompyMux.World (ObjectId)

def linkedAt (pool : List Candidate) (link : Nat) : List Candidate :=
  pool.filter (fun c => c.link = some link)

-- A pool as a pass finds it once the stale links are gone.
structure Ready (kind : CommandNetwork) (pool : List Candidate) (nextLink : Nat) : Prop where
  ids : (pool.map Candidate.id).Nodup
  healthy : ∀ link, linkedAt pool link = [] ∨ Healthy kind (linkedAt pool link)
  bounded : ∀ c ∈ pool, ∀ link, c.link = some link → link < nextLink

section

variable (pool : List Candidate)

theorem seatedAt_linkedIn (link : Nat) : seatedAt (linkedIn pool) link = linkedAt pool link := by
  unfold seatedAt linkedIn linkedAt
  induction pool with
  | nil => rfl
  | cons c pool ih =>
      cases hlink : c.link with
      | none =>
          simp only [List.filterMap_cons, hlink, Option.map_none, List.filter_cons]
          simpa using ih
      | some other =>
          simp only [List.filterMap_cons, hlink, Option.map_some, List.filter_cons,
            Option.some.injEq]
          by_cases h : other = link
          · simpa [h] using ih
          · simpa [h] using ih

theorem mem_linkedIn (c : Candidate) (link : Nat) :
    (c, link) ∈ linkedIn pool ↔ c ∈ pool ∧ c.link = some link := by
  unfold linkedIn
  rw [List.mem_filterMap]
  constructor
  · rintro ⟨d, hd, hmap⟩
    obtain ⟨other, hother, hpair⟩ := Option.map_eq_some_iff.mp hmap
    injection hpair with hsame hlink
    rw [← hsame, ← hlink]
    exact ⟨hd, hother⟩
  · rintro ⟨hc, hlink⟩
    exact ⟨c, hc, by rw [hlink]; rfl⟩

theorem mem_unlinked (c : Candidate) :
    c ∈ unlinked pool ↔ c ∈ pool ∧ c.link = none ∧ c.joinable := by
  unfold unlinked
  rw [(bySeniority_perm _).mem_iff, List.mem_filter, Bool.and_eq_true, Option.isNone_iff_eq_none]

theorem unlinked_nodup (h : pool.Nodup) : (unlinked pool).Nodup :=
  (bySeniority_perm _).nodup_iff.mpr (h.filter _)

end

section

variable (kind : CommandNetwork)

theorem seatAll_nextLink (f g : Formation) (waiting : List Candidate)
    (h : seatAll kind f waiting = .ok g) : f.nextLink ≤ g.nextLink := by
  induction waiting generalizing f with
  | nil =>
      injection h with h
      rw [h]
  | cons c waiting ih =>
      unfold seatAll at h
      split at h
      · contradiction
      · rename_i seated hseat
        have hrest := ih seated h
        cases seat_cases kind f seated c hseat with
        | Join link ht => exact hrest
        | Refuse ht hk hm => exact hrest
        | Found ht hm => exact (Nat.le_succ _).trans hrest

theorem nextIdentity_error {link : Nat} {e : Error} (h : nextIdentity kind link = .error e) :
    e = kind.name ++ " network identities exhausted" := by
  unfold nextIdentity at h
  split at h
  · contradiction
  · injection h with h
    exact h.symm

theorem form_error (pool : List Candidate) (n : Nat) (e : Error) (h : form kind pool n = .error e) :
    e = kind.name ++ " network identities exhausted" := by
  have hseats : ∀ (waiting : List Candidate) (f : Formation), seatAll kind f waiting = .error e →
      e = kind.name ++ " network identities exhausted" := by
    intro waiting
    induction waiting with
    | nil =>
        intro f h
        contradiction
    | cons c waiting ih =>
        intro f h
        unfold seatAll at h
        split at h
        · rename_i seated hseat
          injection h with h
          subst h
          unfold seat at hseat
          split at hseat
          · contradiction
          · split at hseat
            · contradiction
            · split at hseat
              · rename_i hnext
                injection hseat with hseat
                subst hseat
                exact nextIdentity_error kind hnext
              · contradiction
        · exact ih _ h
  exact hseats _ _ h

theorem form_nextLink (pool : List Candidate) (n : Nat) (f : Formation)
    (h : form kind pool n = .ok f) : n ≤ f.nextLink := seatAll_nextLink kind _ f _ h

-- Who was placed in a formed pool and who found no seat.
structure Formed (pool : List Candidate) (f : Formation) (placed : List (Candidate × Nat))
    (left : List Candidate) : Prop where
  seating : Seating kind (linkedIn pool) f placed left []
  perm : (placed.map Prod.fst ++ left).Perm (unlinked pool)

theorem form_formed {pool : List Candidate} {n : Nat} {f : Formation} (hr : Ready kind pool n)
    (h : form kind pool n = .ok f) : ∃ placed left, Formed kind pool f placed left := by
  have hat : ∀ link, seatedAt (linkedIn pool ++ []) link = linkedAt pool link := by
    intro link
    rw [List.append_nil, seatedAt_linkedIn]
  have hstart : Seating kind (linkedIn pool) ⟨pool.foldl addExisting OrderedMap.empty, n, []⟩ [] []
      (unlinked pool) := by
    refine ⟨?_, ?_, ?_, rfl, ?_, ?_, ?_, bySeniority_mastersFirst _⟩
    · rw [List.append_nil]
      exact tracks_existing pool
    · rintro ⟨c, link⟩ hp
      rw [List.append_nil] at hp
      obtain ⟨hc, hlink⟩ := (mem_linkedIn pool c link).mp hp
      exact hr.bounded c hc link hlink
    · intro link
      rw [hat]
      rcases hr.healthy link with hempty | hhealthy
      · rw [hempty]
        exact Nat.zero_le _
      · exact hhealthy.fits
    · rintro ⟨c, link⟩ hp
      obtain ⟨hc, hlink⟩ := (mem_linkedIn pool c link).mp hp
      rw [hat]
      have hmem : c ∈ linkedAt pool link := List.mem_filter.mpr ⟨hc, by simpa using hlink⟩
      rcases hr.healthy link with hempty | hhealthy
      · rw [hempty] at hmem
        contradiction
      · exact hhealthy.peers
    · exact fun hnone => absurd rfl hnone
    · intro link hone
      rw [hat] at hone
      rcases hr.healthy link with hempty | hhealthy
      · rw [hempty] at hone
        contradiction
      · have hpeers := hhealthy.peers
        omega
  obtain ⟨placed, left, hseating, hperm⟩ := seatAll_seating kind _ _ f [] [] _ hstart h
  exact ⟨placed, left, hseating, by simpa using hperm⟩

end

section

variable (kind : CommandNetwork) (pool : List Candidate) (f : Formation)
  (placed : List (Candidate × Nat)) (left : List Candidate) (hf : Formed kind pool f placed left)
  (hids : (pool.map Candidate.id).Nodup)

section

include hf

theorem Formed.placed_unlinked {c : Candidate} {link : Nat} (h : (c, link) ∈ placed) :
    c ∈ pool ∧ c.link = none ∧ c.joinable := by
  rw [← mem_unlinked, ← hf.perm.mem_iff]
  exact List.mem_append_left _ (List.mem_map_of_mem h)

theorem Formed.mem_newcomers (group : Group) (id : ObjectId) :
    id ∈ newcomers f.joined group ↔ ∃ c, (c, group.link) ∈ placed ∧ c.id = id := by
  unfold newcomers
  rw [hf.seating.joined]
  simp only [List.mem_map, List.mem_filter, decide_eq_true_eq]
  constructor
  · rintro ⟨pair, ⟨⟨⟨c, link⟩, hc, rfl⟩, rfl⟩, rfl⟩
    exact ⟨c, hc, rfl⟩
  · rintro ⟨c, hc, rfl⟩
    exact ⟨(c.id, group.link), ⟨⟨(c, group.link), hc, rfl⟩, rfl⟩, rfl⟩

include hids

theorem Formed.placed_nodup : (placed.map Prod.fst).Nodup := by
  have hnodup := hf.perm.nodup_iff.mpr (unlinked_nodup pool (List.Nodup.of_map _ hids))
  exact (List.nodup_append.mp hnodup).1

theorem Formed.placed_once {c : Candidate} {link other : Nat}
    (h : (c, link) ∈ linkedIn pool ++ placed) (h' : (c, other) ∈ linkedIn pool ++ placed) :
    link = other := by
  have hapart : ∀ a b, (c, a) ∈ linkedIn pool → (c, b) ∉ placed := by
    intro a b ha hb
    have hsome := ((mem_linkedIn pool c a).mp ha).2
    rw [(hf.placed_unlinked kind pool f placed left hb).2.1] at hsome
    contradiction
  rcases List.mem_append.mp h with hold | hnew
  · rcases List.mem_append.mp h' with hold' | hnew'
    · have ha := ((mem_linkedIn pool c link).mp hold).2
      have hb := ((mem_linkedIn pool c other).mp hold').2
      rw [ha] at hb
      exact Option.some.inj hb
    · exact absurd hnew' (hapart link other hold)
  · rcases List.mem_append.mp h' with hold' | hnew'
    · exact absurd hnew (hapart other link hold')
    · have hpair := List.inj_on_of_nodup_map (hf.placed_nodup kind pool f placed left hids) hnew hnew' rfl
      exact congrArg Prod.snd hpair

theorem Formed.seated_nodup (link : Nat) : (seatedAt (linkedIn pool ++ placed) link).Nodup := by
  have hpool : pool.Nodup := List.Nodup.of_map _ hids
  have hold : (seatedAt (linkedIn pool) link).Nodup := by
    rw [seatedAt_linkedIn]
    exact hpool.filter _
  have hnew : (seatedAt placed link).Nodup :=
    (hf.placed_nodup kind pool f placed left hids).sublist (List.filter_sublist.map _)
  rw [seatedAt_append]
  apply hold.append hnew
  intro c hc hc'
  have hsome := ((mem_linkedIn pool c link).mp ((mem_seatedAt _ c link).mp hc)).2
  rw [(hf.placed_unlinked kind pool f placed left ((mem_seatedAt _ c link).mp hc')).2.1] at hsome
  contradiction

end

section

include hf

-- A written link is one that a placed unit was given, in a group of at least two.
theorem Formed.assignments_placed {id : ObjectId} {link : Nat} (h : (id, link) ∈ assignments f) :
    2 ≤ (seatedAt (linkedIn pool ++ placed) link).length ∧ ∃ c, (c, link) ∈ placed ∧ c.id = id := by
  unfold assignments at h
  obtain ⟨group, hgroup, hwritten⟩ := List.mem_flatMap.mp h
  split at hwritten
  · contradiction
  · rename_i hjoins
    obtain ⟨other, hother, hpair⟩ := List.mem_map.mp hwritten
    injection hpair with hsame hlink
    obtain ⟨⟨key, same⟩, hentry, rfl⟩ := List.mem_map.mp hgroup
    have hget := (f.groups.get?_eq_some_iff key same).mpr hentry
    obtain ⟨hkey, hmembers, -⟩ := hf.seating.tracks.group key same hget
    dsimp only at hlink hjoins
    have hlength : same.members.length = (seatedAt (linkedIn pool ++ placed) link).length := by
      rw [hmembers, List.length_map, ← hkey, hlink]
    obtain ⟨c, hc, hid⟩ := (hf.mem_newcomers kind pool f placed left same other).mp hother
    rw [hlink] at hc
    exact ⟨by omega, c, hc, hid.trans hsame⟩

-- Links are written for those who joined a group that got its second member.
include hids in
theorem Formed.mem_assignments (c : Candidate) (hc : c ∈ pool) (link : Nat) : (c.id, link) ∈ assignments f ↔
      (c, link) ∈ placed ∧ 2 ≤ (seatedAt (linkedIn pool ++ placed) link).length := by
  constructor
  · intro h
    obtain ⟨hlarge, d, hd, hid⟩ := hf.assignments_placed kind pool f placed left h
    have hdpool := (hf.placed_unlinked kind pool f placed left hd).1
    rw [candidate_unique pool hids hdpool hc hid] at hd
    exact ⟨hd, hlarge⟩
  · rintro ⟨hplaced, hlarge⟩
    have hopen : seatedAt (linkedIn pool ++ placed) link ≠ [] := by
      intro hnil
      rw [hnil] at hlarge
      contradiction
    obtain ⟨group, hget⟩ := Option.isSome_iff_exists.mp ((hf.seating.tracks.open' link).mpr hopen)
    obtain ⟨hlink, hmembers, -⟩ := hf.seating.tracks.group link group hget
    have hnew : c.id ∈ newcomers f.joined group := by
      rw [hf.mem_newcomers kind pool f placed left, hlink]
      exact ⟨c, hplaced, rfl⟩
    have hjoins : ¬ (group.members.length < 2 ∨ newcomers f.joined group = []) := by
      rintro (hsmall | hnone)
      · rw [hmembers, List.length_map] at hsmall
        omega
      · rw [hnone] at hnew
        contradiction
    unfold assignments
    refine List.mem_flatMap.mpr ⟨group, ?_, ?_⟩
    · exact List.mem_map_of_mem ((f.groups.get?_eq_some_iff link group).mp hget)
    · rw [if_neg hjoins]
      exact List.mem_map.mpr ⟨c.id, hnew, by rw [hlink]⟩

end

end

section

variable (batch : List (ObjectId × Nat)) (c : Candidate)

@[simp] theorem assign_map : (c.assign batch).map = c.map := by
  rcases assign_cases batch c with h | ⟨link, -, h⟩ <;> rw [h]

@[simp] theorem assign_team : (c.assign batch).team = c.team := by
  rcases assign_cases batch c with h | ⟨link, -, h⟩ <;> rw [h]

@[simp] theorem assign_eligible : (c.assign batch).eligible = c.eligible := by
  rcases assign_cases batch c with h | ⟨link, -, h⟩ <;> rw [h]

@[simp] theorem assign_joinable : (c.assign batch).joinable = c.joinable := by
  rcases assign_cases batch c with h | ⟨link, -, h⟩ <;> rw [h]

@[simp] theorem assign_masters : (c.assign batch).workingMasters = c.workingMasters := by
  rcases assign_cases batch c with h | ⟨link, -, h⟩ <;> rw [h]

end

section

variable (kind : CommandNetwork) (pool : List Candidate) (f : Formation)
  (placed : List (Candidate × Nat)) (left : List Candidate) (hf : Formed kind pool f placed left)
  (hids : (pool.map Candidate.id).Nodup) (batch : List (ObjectId × Nat))
  (hbatch : ∀ c ∈ pool, ∀ link, (c.id, link) ∈ batch ↔ (c.id, link) ∈ assignments f)

include hf hids hbatch

theorem assigned_link {c : Candidate} (hc : c ∈ pool) (link : Nat) :
    (c.assign batch).link = some link ↔ (c, link) ∈ linkedIn pool ++ placed ∧
      2 ≤ (seatedAt (linkedIn pool ++ placed) link).length := by
  have hwritten : ∀ other, (c.id, other) ∈ batch ↔
      (c, other) ∈ placed ∧ 2 ≤ (seatedAt (linkedIn pool ++ placed) other).length := by
    intro other
    rw [hbatch c hc, hf.mem_assignments kind pool f placed left hids c hc]
  by_cases hsome : ∃ other, (c.id, other) ∈ batch
  · obtain ⟨other, hother⟩ := hsome
    obtain ⟨hplaced, hlarge⟩ := (hwritten other).mp hother
    have hone : ∀ another, (c.id, another) ∈ batch → another = other := by
      intro another hanother
      exact hf.placed_once kind pool f placed left hids
        (List.mem_append_right _ ((hwritten another).mp hanother).1) (List.mem_append_right _ hplaced)
    rw [assign_mem batch c hother hone, Option.some.injEq]
    constructor
    · rintro rfl
      exact ⟨List.mem_append_right _ hplaced, hlarge⟩
    · rintro ⟨hmem, -⟩
      exact hf.placed_once kind pool f placed left hids (List.mem_append_right _ hplaced) hmem
  · have hnone : ∀ other, (c.id, other) ∉ batch := fun other hother => hsome ⟨other, hother⟩
    rw [assign_other batch c hnone]
    constructor
    · intro hlink
      have hold := (mem_linkedIn pool c link).mpr ⟨hc, hlink⟩
      exact ⟨List.mem_append_left _ hold, hf.seating.existing (c, link) hold⟩
    · rintro ⟨hmem, hlarge⟩
      rcases List.mem_append.mp hmem with hold | hnew
      · exact ((mem_linkedIn pool c link).mp hold).2
      · exact absurd ((hwritten link).mpr ⟨hnew, hlarge⟩) (hnone link)

-- Each network of the result is one that was formed, with the same masters.
theorem assigned_group (link : Nat) :
    ∃ members : List Candidate, linkedAt (pool.map (Candidate.assign batch)) link =
        members.map (Candidate.assign batch) ∧
      (2 ≤ (seatedAt (linkedIn pool ++ placed) link).length →
        members.Perm (seatedAt (linkedIn pool ++ placed) link)) ∧
      ((seatedAt (linkedIn pool ++ placed) link).length < 2 → members = []) := by
  have hpool : pool.Nodup := List.Nodup.of_map _ hids
  refine ⟨pool.filter (fun c => (c.assign batch).link = some link), ?_, ?_, ?_⟩
  · unfold linkedAt
    rw [List.filter_map]
    rfl
  · intro hlarge
    apply (List.perm_ext_iff_of_nodup (hpool.filter _)
      (hf.seated_nodup kind pool f placed left hids link)).mpr
    intro c
    rw [List.mem_filter, decide_eq_true_eq, mem_seatedAt]
    constructor
    · rintro ⟨hc, hlink⟩
      exact ((assigned_link kind pool f placed left hf hids batch hbatch hc link).mp hlink).1
    · intro hmem
      have hc : c ∈ pool := by
        rcases List.mem_append.mp hmem with hold | hnew
        · exact ((mem_linkedIn pool c link).mp hold).1
        · exact (hf.placed_unlinked kind pool f placed left hnew).1
      exact ⟨hc, (assigned_link kind pool f placed left hf hids batch hbatch hc link).mpr
        ⟨hmem, hlarge⟩⟩
  · intro hsmall
    apply List.filter_eq_nil_iff.mpr
    intro c hc hlink
    have hlarge := ((assigned_link kind pool f placed left hf hids batch hbatch hc link).mp
      (of_decide_eq_true hlink)).2
    omega

omit hf hids hbatch in
theorem masters_assign (group : List Candidate) :
    masters (group.map (Candidate.assign batch)) = masters group := by
  unfold masters
  rw [List.map_map]
  congr 1
  apply List.map_congr_left
  intro c _
  exact assign_masters batch c

theorem assigned_sizes (link : Nat) :
    linkedAt (pool.map (Candidate.assign batch)) link = [] ∨
      2 ≤ (seatedAt (linkedIn pool ++ placed) link).length ∧
      (linkedAt (pool.map (Candidate.assign batch)) link).length =
        (seatedAt (linkedIn pool ++ placed) link).length ∧
      masters (linkedAt (pool.map (Candidate.assign batch)) link) =
        masters (seatedAt (linkedIn pool ++ placed) link) := by
  obtain ⟨members, hgroup, hlarge, hsmall⟩ :=
    assigned_group kind pool f placed left hf hids batch hbatch link
  rw [hgroup]
  by_cases h : 2 ≤ (seatedAt (linkedIn pool ++ placed) link).length
  · have hperm := hlarge h
    refine Or.inr ⟨h, ?_, ?_⟩
    · rw [List.length_map, hperm.length_eq]
    · rw [masters_assign, masters_perm hperm]
  · rw [hsmall (by omega)]
    exact Or.inl rfl

theorem assigned_healthy (link : Nat) :
    linkedAt (pool.map (Candidate.assign batch)) link = [] ∨
      Healthy kind (linkedAt (pool.map (Candidate.assign batch)) link) := by
  rcases assigned_sizes kind pool f placed left hf hids batch hbatch link with hempty | ⟨hlarge, hlen, hm⟩
  · exact Or.inl hempty
  · have hfits := hf.seating.fits link
    unfold Fits at hfits
    refine Or.inr ⟨by omega, ?_⟩
    unfold Fits
    rw [hlen, hm]
    exact hfits

-- Who still waits was refused, or was left alone in a group.
theorem assigned_waiting {d : Candidate} (hd : d ∈ unlinked (pool.map (Candidate.assign batch))) :
    ∃ c, d = c.assign batch ∧ (c ∈ left ∨
      ∃ link, seatedAt (linkedIn pool ++ placed) link = [c] ∧ (c, link) ∈ placed) := by
  obtain ⟨hmem, hlink, hjoinable⟩ := (mem_unlinked _ d).mp hd
  obtain ⟨c, hc, rfl⟩ := List.mem_map.mp hmem
  refine ⟨c, rfl, ?_⟩
  have hnone : c.link = none := by
    cases hl : c.link with
    | none => rfl
    | some link =>
        have hold := (mem_linkedIn pool c link).mpr ⟨hc, hl⟩
        have hkept := (assigned_link kind pool f placed left hf hids batch hbatch hc link).mpr
          ⟨List.mem_append_left _ hold, hf.seating.existing (c, link) hold⟩
        rw [hlink] at hkept
        contradiction
  rw [assign_joinable] at hjoinable
  have hwaited := hf.perm.mem_iff.mpr ((mem_unlinked pool c).mpr ⟨hc, hnone, hjoinable⟩)
  rcases List.mem_append.mp hwaited with hplaced | hleft
  · obtain ⟨⟨e, link⟩, he, rfl⟩ := List.mem_map.mp hplaced
    right
    refine ⟨link, ?_, he⟩
    have hin : e ∈ seatedAt (linkedIn pool ++ placed) link :=
      (mem_seatedAt _ e link).mpr (List.mem_append_right _ he)
    have hsmall : (seatedAt (linkedIn pool ++ placed) link).length < 2 := by
      by_contra hlarge
      have hwritten := (assigned_link kind pool f placed left hf hids batch hbatch hc link).mpr
        ⟨List.mem_append_right _ he, by omega⟩
      rw [hlink] at hwritten
      contradiction
    have hone := List.length_pos_of_mem hin
    obtain ⟨only, honly⟩ := List.length_eq_one_iff.mp (by omega :
      (seatedAt (linkedIn pool ++ placed) link).length = 1)
    rw [honly] at hin ⊢
    rw [List.mem_singleton.mp hin]
  · exact Or.inl hleft

-- After a refusal the units that wait bring no seats, and every group has used up its own.
theorem waiting_slaves (h : left ≠ []) : kind = .C3 ∧
    (∀ d ∈ unlinked (pool.map (Candidate.assign batch)), d.workingMasters = 0) ∧
      ∀ link, linkedAt (pool.map (Candidate.assign batch)) link ≠ [] →
        limit kind (masters (linkedAt (pool.map (Candidate.assign batch)) link)) ≤
          (linkedAt (pool.map (Candidate.assign batch)) link).length := by
  obtain ⟨hk, hslaves, hfull⟩ := hf.seating.full h
  refine ⟨hk, ?_, ?_⟩
  · intro d hd
    obtain ⟨c, rfl, hc | ⟨link, hone, -⟩⟩ :=
      assigned_waiting kind pool f placed left hf hids batch hbatch hd
    · rw [assign_masters]
      exact hslaves c (List.mem_append_left _ hc)
    · have hsingle := (hf.seating.single link (by rw [hone]; rfl)).1
      have hlimit := limit_peers kind _ hsingle
      have hused := hfull link (by rw [hone]; exact List.cons_ne_nil _ _)
      have hlength : (seatedAt (linkedIn pool ++ placed) link).length = 1 := by rw [hone]; rfl
      omega
  · intro link hopen
    rcases assigned_sizes kind pool f placed left hf hids batch hbatch link with hempty | ⟨hlarge, hlen, hm⟩
    · exact absurd hempty hopen
    · rw [hlen, hm]
      apply hfull
      intro hnil
      rw [hnil] at hlarge
      contradiction

-- Without a refusal one unit at most waits, and every group is as large as can be.
theorem waiting_single (h : left = []) (d : Candidate)
    (hd : d ∈ unlinked (pool.map (Candidate.assign batch))) :
    (∀ e ∈ unlinked (pool.map (Candidate.assign batch)), e = d) ∧
      ∀ link, linkedAt (pool.map (Candidate.assign batch)) link ≠ [] →
        kind.maximum ≤ (linkedAt (pool.map (Candidate.assign batch)) link).length := by
  have hsize : 2 ≤ kind.maximum := by cases kind <;> decide
  have hlone : ∀ e ∈ unlinked (pool.map (Candidate.assign batch)), ∃ c link, e = c.assign batch ∧
      seatedAt (linkedIn pool ++ placed) link = [c] := by
    intro e he
    obtain ⟨c, hassign, hc | ⟨link, hone, -⟩⟩ :=
      assigned_waiting kind pool f placed left hf hids batch hbatch he
    · rw [h] at hc
      contradiction
    · exact ⟨c, link, hassign, hone⟩
  obtain ⟨c, at', hassign, hone⟩ := hlone d hd
  have hothers := (hf.seating.single at' (by rw [hone]; rfl)).2
  constructor
  · intro e he
    obtain ⟨c', other, hassign', hone'⟩ := hlone e he
    by_cases hsame : other = at'
    · rw [hsame, hone] at hone'
      injection hone' with hc
      rw [hassign, hassign', hc]
    · have hlarge := hothers other hsame (by rw [hone']; exact List.cons_ne_nil _ _)
      rw [hone', List.length_singleton] at hlarge
      omega
  · intro link hopen
    rcases assigned_sizes kind pool f placed left hf hids batch hbatch link with hempty | ⟨hlarge, hlen, hm⟩
    · exact absurd hempty hopen
    · have hne : link ≠ at' := by
        intro hsame
        rw [hsame, hone, List.length_singleton] at hlarge
        omega
      rw [hlen]
      apply hothers link hne
      intro hnil
      rw [hnil] at hlarge
      contradiction

-- Forming the result once more joins nobody to anybody.
theorem assigned_quiet (m : Nat) (g : Formation)
    (hr : Ready kind (pool.map (Candidate.assign batch)) m)
    (hg : form kind (pool.map (Candidate.assign batch)) m = .ok g) : Quiet g := by
  obtain ⟨again, rest, hagain⟩ := form_formed kind hr hg
  have hwaiting : ∀ e ∈ again.map Prod.fst, e ∈ unlinked (pool.map (Candidate.assign batch)) :=
    fun e he => hagain.perm.mem_iff.mp (List.mem_append_left _ he)
  have halone : ∀ d link, (d, link) ∈ again →
      (seatedAt (linkedIn (pool.map (Candidate.assign batch)) ++ again) link).length < 2 := by
    intro d link hd
    have hd' := hwaiting d (List.mem_map_of_mem hd)
    have hsplit := seatedAt_append (linkedIn (pool.map (Candidate.assign batch))) again link
    rw [seatedAt_linkedIn] at hsplit
    have hnew : 1 ≤ (seatedAt again link).length :=
      List.length_pos_of_mem ((mem_seatedAt again d link).mpr hd)
    have hin : ∀ e ∈ seatedAt again link, e ∈ unlinked (pool.map (Candidate.assign batch)) := by
      intro e he
      exact hwaiting e (List.mem_map_of_mem ((mem_seatedAt again e link).mp he))
    have hfits := hagain.seating.fits link
    have hmaximum := limit_le_maximum kind
      (masters (seatedAt (linkedIn (pool.map (Candidate.assign batch)) ++ again) link))
    unfold Fits at hfits
    by_contra hlarge
    rw [hsplit, List.length_append] at hfits hlarge
    rw [hsplit] at hmaximum
    by_cases hleft : left = []
    · obtain ⟨honly, hfull⟩ :=
        waiting_single kind pool f placed left hf hids batch hbatch hleft d hd'
      by_cases hopen : linkedAt (pool.map (Candidate.assign batch)) link = []
      · have hnodup : (seatedAt again link).Nodup :=
          (hagain.placed_nodup kind _ g again rest hr.ids).sublist (List.filter_sublist.map _)
        have hone : (seatedAt again link).length ≤ 1 := by
          have hsame := List.eq_replicate_of_mem (fun e he => honly e (hin e he))
          rw [hsame] at hnodup
          exact List.nodup_replicate.mp hnodup
        rw [hopen, List.length_nil] at hlarge
        omega
      · have hsize := hfull link hopen
        omega
    · obtain ⟨hk, hslaves, hfull⟩ :=
        waiting_slaves kind pool f placed left hf hids batch hbatch hleft
      rw [masters_append, masters_zero _ (fun e he => hslaves e (hin e he)), Nat.add_zero] at hfits
      by_cases hopen : linkedAt (pool.map (Candidate.assign batch)) link = []
      · rw [hopen, hk] at hfits
        have hone : limit .C3 (masters []) = 1 := rfl
        rw [hone] at hfits
        rw [hopen] at hlarge
        omega
      · have hused := hfull link hopen
        omega
  intro group hgroup
  obtain ⟨⟨link, same⟩, hentry, rfl⟩ := List.mem_map.mp hgroup
  obtain ⟨hlink, hmembers, -⟩ :=
    hagain.seating.tracks.group link same ((g.groups.get?_eq_some_iff link same).mpr hentry)
  by_cases hnone : newcomers g.joined same = []
  · exact Or.inr hnone
  · obtain ⟨id, hid⟩ := List.exists_mem_of_ne_nil _ hnone
    obtain ⟨d, hd, -⟩ := (hagain.mem_newcomers kind _ g again rest same id).mp hid
    rw [hlink] at hd
    rw [hmembers, List.length_map]
    exact Or.inl (halone d link hd)

end

end StompyMux.Network
