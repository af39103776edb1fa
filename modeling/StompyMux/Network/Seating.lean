import Mathlib.Algebra.BigOperators.Group.List.Basic
import StompyMux.Network.Topology

-- Who sits where while a pool is formed.
namespace StompyMux.Network

open StompyMux.Btech (Error)
open Library
open StompyMux.World (ObjectId)

def masters (group : List Candidate) : Nat := (group.map Candidate.workingMasters).sum

-- No more members than seats.
def Fits (kind : CommandNetwork) (group : List Candidate) : Prop :=
  group.length ≤ limit kind (masters group)

section

variable (kind : CommandNetwork)

theorem masters_append (a b : List Candidate) : masters (a ++ b) = masters a + masters b := by
  unfold masters
  rw [List.map_append, List.sum_append]

theorem masters_perm {a b : List Candidate} (h : a.Perm b) : masters a = masters b :=
  (h.map Candidate.workingMasters).sum_eq

theorem limit_le_maximum (m : Nat) : limit kind m ≤ kind.maximum := by
  cases kind with
  | C3 => exact Nat.min_le_right _ _
  | C3i => exact Nat.le_refl 6

theorem limit_pos (m : Nat) : 1 ≤ limit kind m := by
  cases kind with
  | C3 =>
      unfold limit
      dsimp only
      omega
  | C3i => exact Nat.le_add_left 1 5

-- A master's group has room for peers.
theorem limit_peers (m : Nat) (h : kind = .C3 → 0 < m) : 2 ≤ limit kind m := by
  cases kind with
  | C3 =>
      have hpos := h rfl
      unfold limit
      dsimp only
      omega
  | C3i => exact Nat.le_add_left 2 4

-- A group that cannot take a unit with masters is as large as the family allows.
theorem limit_saturated {m added len : Nat} (hf : len ≤ limit kind m)
    (hr : limit kind (m + added) ≤ len) (ha : kind = .C3 → 0 < added) : kind.maximum ≤ len := by
  cases kind with
  | C3 =>
      have hpos := ha rfl
      unfold limit at hf hr
      unfold CommandNetwork.maximum
      dsimp only at hf hr ⊢
      omega
  | C3i => exact hr

end

-- The units seated in a network, in the order they came.
def seatedAt (placed : List (Candidate × Nat)) (link : Nat) : List Candidate :=
  (placed.filter (fun p => p.2 = link)).map Prod.fst

section

variable (placed : List (Candidate × Nat))

theorem seatedAt_append (later : List (Candidate × Nat)) (link : Nat) :
    seatedAt (placed ++ later) link = seatedAt placed link ++ seatedAt later link := by
  unfold seatedAt
  rw [List.filter_append, List.map_append]

variable (groups : OrderedMap Nat Group) (link : Nat) (c : Candidate)

theorem seatedAt_join (link other : Nat) : seatedAt (placed ++ [(c, link)]) other =
      if other = link then seatedAt placed other ++ [c] else seatedAt placed other := by
  rw [seatedAt_append]
  by_cases h : other = link
  · rw [if_pos h]
    simp [seatedAt, h]
  · rw [if_neg h]
    simp [seatedAt, Ne.symm h]

theorem mem_seatedAt (link : Nat) : c ∈ seatedAt placed link ↔ (c, link) ∈ placed := by
  unfold seatedAt
  simp only [List.mem_map, List.mem_filter, decide_eq_true_eq]
  constructor
  · rintro ⟨⟨d, other⟩, ⟨hmem, rfl⟩, rfl⟩
    exact hmem
  · exact fun h => ⟨(c, link), ⟨h, rfl⟩, rfl⟩

-- The groups are those of the placed units.
structure Tracks (groups : OrderedMap Nat Group) : Prop where
  group : ∀ link g, groups.get? link = some g → g.link = link ∧
    g.members = (seatedAt placed link).map Candidate.id ∧
      g.workingMasters = masters (seatedAt placed link)
  open' : ∀ link, (groups.get? link).isSome ↔ seatedAt placed link ≠ []

theorem get?_addMember (link other : Nat) (c : Candidate) : (addMember groups link c).get? other =
      (groups.get? other).map (fun g => if other = link then { g with
        members := g.members ++ [c.id]
        workingMasters := g.workingMasters + c.workingMasters } else g) := by
  unfold addMember
  apply Option.ext
  intro g
  rw [OrderedMap.get?_eq_some_iff, OrderedMap.mem_modify, Option.map_eq_some_iff]
  constructor
  · rintro (⟨hne, hmem⟩ | ⟨rfl, before, hmem, rfl⟩)
    · exact ⟨g, (groups.get?_eq_some_iff other g).mpr hmem, if_neg hne⟩
    · exact ⟨before, (groups.get?_eq_some_iff other before).mpr hmem, if_pos rfl⟩
  · rintro ⟨before, hget, rfl⟩
    have hmem := (groups.get?_eq_some_iff other before).mp hget
    by_cases h : other = link
    · subst h
      rw [if_pos rfl]
      exact Or.inr ⟨rfl, before, hmem, rfl⟩
    · rw [if_neg h]
      exact Or.inl ⟨h, hmem⟩

theorem Tracks.add (groups opened : OrderedMap Nat Group) (link : Nat) (c : Candidate)
    (h : Tracks placed groups) (hother : ∀ other, other ≠ link → opened.get? other = groups.get? other)
    (hsame : ∃ g, opened.get? link = some g ∧ g.link = link ∧
      g.members = (seatedAt placed link).map Candidate.id ∧
        g.workingMasters = masters (seatedAt placed link)) :
    Tracks (placed ++ [(c, link)]) (addMember opened link c) := by
  constructor
  · intro other g hg
    rw [get?_addMember] at hg
    rw [seatedAt_join]
    obtain ⟨before, hbefore, rfl⟩ := Option.map_eq_some_iff.mp hg
    by_cases ho : other = link
    · subst ho
      obtain ⟨first, hfirst, hlink, hmembers, hmasters⟩ := hsame
      rw [hfirst] at hbefore
      injection hbefore with hbefore
      subst hbefore
      rw [if_pos rfl, if_pos rfl]
      refine ⟨hlink, ?_, ?_⟩
      · simp [hmembers]
      · rw [masters_append]
        simp [hmasters, masters]
    · rw [if_neg ho, if_neg ho]
      rw [hother other ho] at hbefore
      exact h.group other before hbefore
  · intro other
    rw [get?_addMember, Option.isSome_map, seatedAt_join]
    by_cases ho : other = link
    · subst ho
      obtain ⟨first, hfirst, -⟩ := hsame
      rw [if_pos rfl, hfirst]
      simp
    · rw [if_neg ho, hother other ho]
      exact h.open' other

theorem Tracks.addOpen (fresh : Bool) (c : Candidate)
    (h : Tracks placed groups) (hempty : seatedAt placed link = []) :
    Tracks (placed ++ [(c, link)]) (addMember (groups.insert link ⟨link, [], 0, fresh⟩) link c) := by
  apply h.add
  · intro other hne
    rw [OrderedMap.get?_insert, if_neg hne]
  · refine ⟨⟨link, [], 0, fresh⟩, ?_, rfl, ?_, ?_⟩
    · rw [OrderedMap.get?_insert, if_pos rfl]
    · rw [hempty]
      rfl
    · rw [hempty]
      rfl

theorem Tracks.addSeat (h : Tracks placed groups) (hopen : seatedAt placed link ≠ []) :
    Tracks (placed ++ [(c, link)]) (addMember groups link c) := by
  obtain ⟨g, hg⟩ := Option.isSome_iff_exists.mp ((h.open' link).mpr hopen)
  exact h.add _ groups groups link c (fun _ _ => rfl) ⟨g, hg, h.group link g hg⟩

theorem Tracks.addExisting (groups : OrderedMap Nat Group) (c : Candidate) (link : Nat)
    (h : Tracks placed groups) (hl : c.link = some link) :
    Tracks (placed ++ [(c, link)]) (addExisting groups c) := by
  unfold Network.addExisting
  rw [hl]
  dsimp only
  split
  · rename_i g hg
    exact h.addSeat _ groups link c ((h.open' link).mp (by rw [hg]; rfl))
  · rename_i hnone
    apply h.addOpen
    by_contra hne
    have hsome := (h.open' link).mpr hne
    rw [hnone] at hsome
    contradiction

end

-- The units a pool starts with in networks.
def linkedIn (pool : List Candidate) : List (Candidate × Nat) :=
  pool.filterMap (fun c => c.link.map (fun link => (c, link)))

theorem tracks_existing (pool : List Candidate) :
    Tracks (linkedIn pool) (pool.foldl addExisting OrderedMap.empty) := by
  have hfold : ∀ (pool : List Candidate) (placed : List (Candidate × Nat))
      (groups : OrderedMap Nat Group), Tracks placed groups →
        Tracks (placed ++ linkedIn pool) (pool.foldl addExisting groups) := by
    intro pool
    induction pool with
    | nil =>
        intro placed groups h
        simpa [linkedIn] using h
    | cons c pool ih =>
        intro placed groups h
        cases hl : c.link with
        | none =>
            have hsame : addExisting groups c = groups := by
              unfold addExisting
              rw [hl]
            have hplaced : linkedIn (c :: pool) = linkedIn pool := by
              simp [linkedIn, hl]
            rw [List.foldl_cons, hsame, hplaced]
            exact ih placed groups h
        | some link =>
            have hplaced : linkedIn (c :: pool) = (c, link) :: linkedIn pool := by
              simp [linkedIn, hl]
            rw [List.foldl_cons, hplaced, ← List.singleton_append, ← List.append_assoc]
            exact ih _ _ (h.addExisting _ groups c link hl)
  have hempty : Tracks [] OrderedMap.empty := by
    constructor
    · intro link g hg
      contradiction
    · intro link
      simp [OrderedMap.empty, OrderedMap.get?, seatedAt]
  simpa using hfold pool [] OrderedMap.empty hempty

section

variable (kind : CommandNetwork)

theorem roomier_mem (groups : List Group) (best : Option Group) :
    ∀ g, groups.foldl (roomier kind) best = some g → g ∈ groups ∨ best = some g := by
  induction groups generalizing best with
  | nil => exact fun g hg => Or.inr hg
  | cons first groups ih =>
      intro g hg
      rcases ih _ g hg with hmem | hbest
      · exact Or.inl (List.mem_cons_of_mem _ hmem)
      · unfold roomier at hbest
        split at hbest
        · injection hbest with hbest
          exact Or.inl (hbest ▸ List.mem_cons_self)
        · split at hbest
          · injection hbest with hbest
            exact Or.inl (hbest ▸ List.mem_cons_self)
          · exact Or.inr hbest

theorem roomier_none (groups : List Group) (h : groups.foldl (roomier kind) none = none) :
    groups = [] := by
  have hstays : ∀ (groups : List Group) (best : Group),
      groups.foldl (roomier kind) (some best) ≠ none := by
    intro groups
    induction groups with
    | nil => exact fun best => Option.some_ne_none best
    | cons first groups ih =>
        intro best
        rw [List.foldl_cons]
        unfold roomier
        dsimp only
        split
        · exact ih first
        · exact ih best
  cases groups with
  | nil => rfl
  | cons first groups => exact absurd h (hstays groups first)

variable (placed : List (Candidate × Nat)) (groups : OrderedMap Nat Group) (h : Tracks placed groups)

include h

theorem target_some {c : Candidate} {link : Nat} (ht : target kind groups c = some link) :
    seatedAt placed link ≠ [] ∧
      (seatedAt placed link).length < limit kind (masters (seatedAt placed link) + c.workingMasters) := by
  unfold target at ht
  obtain ⟨g, hg, rfl⟩ := Option.map_eq_some_iff.mp ht
  rcases roomier_mem kind _ none g hg with hmem | hnone
  · obtain ⟨hvalue, hadmits⟩ := List.mem_filter.mp hmem
    obtain ⟨⟨link, same⟩, hentry, hsame⟩ := List.mem_map.mp hvalue
    subst hsame
    have hget := (groups.get?_eq_some_iff link same).mpr hentry
    obtain ⟨hlink, hmembers, hmasters⟩ := h.group link same hget
    unfold Group.admits at hadmits
    rw [decide_eq_true_eq, hmembers, hmasters, List.length_map] at hadmits
    rw [hlink]
    exact ⟨(h.open' link).mp (by rw [hget]; rfl), hadmits⟩
  · contradiction

theorem target_none {c : Candidate} (ht : target kind groups c = none) {link : Nat}
    (hopen : seatedAt placed link ≠ []) :
    limit kind (masters (seatedAt placed link) + c.workingMasters) ≤ (seatedAt placed link).length := by
  unfold target at ht
  have hempty := roomier_none kind _ (Option.map_eq_none_iff.mp ht)
  obtain ⟨g, hg⟩ := Option.isSome_iff_exists.mp ((h.open' link).mpr hopen)
  obtain ⟨-, hmembers, hmasters⟩ := h.group link g hg
  have hvalue : g ∈ groups.values := List.mem_map_of_mem ((groups.get?_eq_some_iff link g).mp hg)
  have hrefused := List.filter_eq_nil_iff.mp hempty g hvalue
  unfold Group.admits at hrefused
  rw [decide_eq_true_eq, hmembers, hmasters, List.length_map] at hrefused
  omega

end

-- The state of a formation: who was placed before, who joined, who found no seat, who waits.
structure Seating (kind : CommandNetwork) (before : List (Candidate × Nat)) (f : Formation)
    (new : List (Candidate × Nat)) (refused waiting : List Candidate) : Prop where
  tracks : Tracks (before ++ new) f.groups
  bounded : ∀ p ∈ before ++ new, p.2 < f.nextLink
  fits : ∀ link, Fits kind (seatedAt (before ++ new) link)
  joined : f.joined = new.map (fun p => (p.1.id, p.2))
  existing : ∀ p ∈ before, 2 ≤ (seatedAt (before ++ new) p.2).length
  -- a refused unit carries no peers, and no group had or will have a seat for one
  full : refused ≠ [] → kind = .C3 ∧ (∀ c ∈ refused ++ waiting, c.workingMasters = 0) ∧
    ∀ link, seatedAt (before ++ new) link ≠ [] →
      limit kind (masters (seatedAt (before ++ new) link)) ≤ (seatedAt (before ++ new) link).length
  -- beside a lone unit every other group is as large as can be
  single : ∀ link, (seatedAt (before ++ new) link).length = 1 →
    (kind = .C3 → 0 < masters (seatedAt (before ++ new) link)) ∧
      ∀ other, other ≠ link → seatedAt (before ++ new) other ≠ [] →
        kind.maximum ≤ (seatedAt (before ++ new) other).length
  mastersFirst : waiting.Pairwise (fun a b => a.workingMasters = 0 → b.workingMasters = 0)

section

variable (kind : CommandNetwork) (before new : List (Candidate × Nat)) (f g : Formation)
  (refused waiting : List Candidate) (c : Candidate)

-- What seating one unit can do.
inductive Seated : Formation → Prop
  | Join (link : Nat) (ht : target kind f.groups c = some link) : Seated (f.join link c)
  | Refuse (ht : target kind f.groups c = none) (hk : kind = .C3) (hm : c.workingMasters = 0) :
      Seated f
  | Found (ht : target kind f.groups c = none) (hm : kind = .C3 → 0 < c.workingMasters) :
      Seated ({ f with
        groups := f.groups.insert f.nextLink ⟨f.nextLink, [], 0, true⟩
        nextLink := f.nextLink + 1 }.join f.nextLink c)

theorem seat_cases (h : seat kind f c = .ok g) : Seated kind f c g := by
  unfold seat at h
  split at h
  · rename_i link ht
    injection h with h
    subst h
    exact .Join link ht
  · rename_i ht
    split at h
    · rename_i hslave
      injection h with h
      subst h
      exact .Refuse ht hslave.1 hslave.2
    · rename_i hmaster
      unfold nextIdentity at h
      by_cases hnext : f.nextLink + 1 < 2 ^ 64
      · rw [if_pos hnext] at h
        injection h with h
        subst h
        apply Seated.Found ht
        intro hk
        rcases Nat.eq_zero_or_pos c.workingMasters with hzero | hpos
        · exact absurd ⟨hk, hzero⟩ hmaster
        · exact hpos
      · rw [if_neg hnext] at h
        contradiction

variable (h : Seating kind before f new refused (c :: waiting))

include h

theorem Seating.join (link : Nat) (ht : target kind f.groups c = some link) :
    Seating kind before (f.join link c) (new ++ [(c, link)]) refused waiting := by
  obtain ⟨hopen, hseat⟩ := target_some kind _ _ h.tracks ht
  have hlen : 1 ≤ (seatedAt (before ++ new) link).length := List.length_pos_iff.mpr hopen
  have happend : before ++ (new ++ [(c, link)]) = before ++ new ++ [(c, link)] :=
    (List.append_assoc ..).symm
  have hat := seatedAt_join (before ++ new) c link
  have hmaximum := limit_le_maximum kind (masters (seatedAt (before ++ new) link) + c.workingMasters)
  obtain ⟨-, hsorted⟩ := List.pairwise_cons.mp h.mastersFirst
  refine ⟨?_, ?_, ?_, ?_, ?_, ?_, ?_, hsorted⟩
  · rw [happend]
    exact h.tracks.addSeat _ f.groups link c hopen
  · intro p hp
    rw [happend] at hp
    rcases List.mem_append.mp hp with hold | hnew
    · exact h.bounded p hold
    · obtain ⟨member, hmember⟩ := List.exists_mem_of_ne_nil _ hopen
      have hbound := h.bounded (member, link) ((mem_seatedAt _ member link).mp hmember)
      rw [List.mem_singleton.mp hnew]
      exact hbound
  · intro other
    rw [happend, hat]
    by_cases ho : other = link
    · subst ho
      rw [if_pos rfl]
      have hone : masters [c] = c.workingMasters := by simp [masters]
      unfold Fits
      rw [masters_append, List.length_append, hone, List.length_singleton]
      exact hseat
    · rw [if_neg ho]
      exact h.fits other
  · unfold Formation.join
    rw [h.joined, List.map_append]
    rfl
  · intro p hp
    have hbefore := h.existing p hp
    rw [happend, hat]
    split
    · rw [List.length_append]
      omega
    · exact hbefore
  · -- a refusal found every group full for units like this one
    intro hrefused
    obtain ⟨-, hslaves, hfull⟩ := h.full hrefused
    have hslave := hslaves c (List.mem_append_right _ List.mem_cons_self)
    have hlink := hfull link hopen
    rw [hslave, Nat.add_zero] at hseat
    omega
  · intro other hone
    rw [happend, hat] at hone
    by_cases ho : other = link
    · rw [if_pos ho, ho, List.length_append] at hone
      simp only [List.length_singleton] at hone
      omega
    · rw [if_neg ho] at hone
      have hsaturated := (h.single other hone).2 link (Ne.symm ho) hopen
      omega

theorem Seating.refuse (ht : target kind f.groups c = none) (hk : kind = .C3)
    (hm : c.workingMasters = 0) : Seating kind before f new (refused ++ [c]) waiting := by
  obtain ⟨hfirst, hsorted⟩ := List.pairwise_cons.mp h.mastersFirst
  refine ⟨h.tracks, h.bounded, h.fits, h.joined, h.existing, ?_, h.single, hsorted⟩
  intro _
  refine ⟨hk, ?_, ?_⟩
  · intro d hd
    rw [List.append_assoc, List.mem_append, List.singleton_append, List.mem_cons] at hd
    rcases hd with hrefused | rfl | hwaiting
    · have hsome : refused ≠ [] := List.ne_nil_of_mem hrefused
      exact (h.full hsome).2.1 d (List.mem_append_left _ hrefused)
    · exact hm
    · exact hfirst d hwaiting hm
  intro link hopen
  have hseat := target_none kind _ _ h.tracks ht hopen
  rwa [hm, Nat.add_zero] at hseat

theorem Seating.found (ht : target kind f.groups c = none) (hm : kind = .C3 → 0 < c.workingMasters) :
    Seating kind before ({ f with
        groups := f.groups.insert f.nextLink ⟨f.nextLink, [], 0, true⟩
        nextLink := f.nextLink + 1 }.join f.nextLink c) (new ++ [(c, f.nextLink)]) refused waiting := by
  have hempty : seatedAt (before ++ new) f.nextLink = [] := by
    apply List.eq_nil_iff_forall_not_mem.mpr
    intro member hmember
    have hbound := h.bounded (member, f.nextLink) ((mem_seatedAt _ member f.nextLink).mp hmember)
    exact absurd hbound (Nat.lt_irrefl _)
  have happend : before ++ (new ++ [(c, f.nextLink)]) = before ++ new ++ [(c, f.nextLink)] :=
    (List.append_assoc ..).symm
  have hat := seatedAt_join (before ++ new) c f.nextLink
  have hsaturated : ∀ other, seatedAt (before ++ new) other ≠ [] →
      kind.maximum ≤ (seatedAt (before ++ new) other).length := by
    intro other hopen
    have hrefused := target_none kind _ _ h.tracks ht hopen
    exact limit_saturated kind (h.fits other) hrefused hm
  have hsize : 2 ≤ kind.maximum := by cases kind <;> decide
  obtain ⟨-, hsorted⟩ := List.pairwise_cons.mp h.mastersFirst
  refine ⟨?_, ?_, ?_, ?_, ?_, ?_, ?_, hsorted⟩
  · rw [happend]
    exact h.tracks.addOpen _ f.groups f.nextLink true c hempty
  · intro p hp
    rw [happend] at hp
    show p.2 < f.nextLink + 1
    rcases List.mem_append.mp hp with hold | hnew
    · have hbound := h.bounded p hold
      omega
    · rw [List.mem_singleton.mp hnew]
      exact Nat.lt_succ_self _
  · intro other
    rw [happend, hat]
    by_cases ho : other = f.nextLink
    · rw [if_pos ho, ho, hempty, List.nil_append]
      exact limit_pos kind _
    · rw [if_neg ho]
      exact h.fits other
  · unfold Formation.join
    rw [h.joined, List.map_append]
    rfl
  · intro p hp
    have hbound := h.bounded p (List.mem_append_left _ hp)
    rw [happend, hat, if_neg (by omega)]
    exact h.existing p hp
  · -- after a refusal only units without masters wait
    intro hrefused
    obtain ⟨hk, hslaves, -⟩ := h.full hrefused
    have hslave := hslaves c (List.mem_append_right _ List.mem_cons_self)
    have hpos := hm hk
    omega
  · intro other hone
    rw [happend, hat] at hone
    by_cases ho : other = f.nextLink
    · subst ho
      rw [happend, hat, if_pos rfl, hempty, List.nil_append]
      constructor
      · intro hk
        have hpos := hm hk
        simpa [masters] using hpos
      · intro another hne hopen
        rw [hat, if_neg hne] at hopen ⊢
        exact hsaturated another hopen
    · rw [if_neg ho] at hone
      have hopen : seatedAt (before ++ new) other ≠ [] := by
        intro hnil
        rw [hnil] at hone
        contradiction
      have hlarge := hsaturated other hopen
      omega

end

-- Every waiting unit ends up placed or refused.
theorem seatAll_seating (kind : CommandNetwork) (before : List (Candidate × Nat)) (f g : Formation)
    (new : List (Candidate × Nat)) (refused waiting : List Candidate)
    (h : Seating kind before f new refused waiting) (hr : seatAll kind f waiting = .ok g) :
    ∃ placed left, Seating kind before g placed left [] ∧
      (placed.map Prod.fst ++ left).Perm (new.map Prod.fst ++ refused ++ waiting) := by
  induction waiting generalizing f new refused with
  | nil =>
      injection hr with hr
      subst hr
      exact ⟨new, refused, h, by simp⟩
  | cons c waiting ih =>
      unfold seatAll at hr
      split at hr
      · contradiction
      · rename_i seated hseat
        have hmove : ∀ link, ((new ++ [(c, link)]).map Prod.fst ++ refused ++ waiting).Perm
            (new.map Prod.fst ++ refused ++ c :: waiting) := by
          intro link
          rw [List.map_append, List.map_singleton, List.append_assoc, List.append_assoc,
            List.append_assoc]
          have hmiddle : (refused ++ c :: waiting).Perm (c :: (refused ++ waiting)) := List.perm_middle
          exact hmiddle.symm.append_left _
        cases seat_cases kind f seated c hseat with
        | Join link ht =>
            obtain ⟨placed, left, hlast, hperm⟩ :=
              ih _ _ _ (h.join kind before new f refused waiting c link ht) hr
            exact ⟨placed, left, hlast, hperm.trans (hmove link)⟩
        | Refuse ht hk hm =>
            obtain ⟨placed, left, hlast, hperm⟩ :=
              ih _ _ _ (h.refuse kind before new f refused waiting c ht hk hm) hr
            refine ⟨placed, left, hlast, ?_⟩
            simpa using hperm
        | Found ht hm =>
            obtain ⟨placed, left, hlast, hperm⟩ :=
              ih _ _ _ (h.found kind before new f refused waiting c ht hm) hr
            exact ⟨placed, left, hlast, hperm.trans (hmove f.nextLink)⟩

end StompyMux.Network
