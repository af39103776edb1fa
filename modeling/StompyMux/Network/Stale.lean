import StompyMux.Network.Seating

-- Which links a pass drops, and what is left of the networks.
namespace StompyMux.Network

open StompyMux.World (ObjectId)

-- Between two units and as many as the masters carry.
structure Healthy (kind : CommandNetwork) (group : List Candidate) : Prop where
  peers : 2 ≤ group.length
  fits : Fits kind group

def together (all : List Candidate) (map : ObjectId) (team : Int) (link : Nat) : List Candidate :=
  all.filter (shares map team link)

-- No link leads to fewer than two eligible units.
structure Settled (kind : CommandNetwork) (all : List Candidate) : Prop where
  eligible : ∀ c ∈ all, c.link.isSome → c.eligible
  healthy : ∀ map team link, together all map team link = [] ∨
    Healthy kind (together all map team link)

theorem healthy_perm {kind : CommandNetwork} {a b : List Candidate} (hp : a.Perm b)
    (h : Healthy kind a) : Healthy kind b where
  peers := hp.length_eq ▸ h.peers
  fits := by
    have hfits := h.fits
    unfold Fits at hfits ⊢
    rwa [hp.length_eq, masters_perm hp] at hfits

def MastersFirst (group : List Candidate) : Prop :=
  group.Pairwise (fun a b => a.workingMasters = 0 → b.workingMasters = 0)

variable (group : List Candidate)

theorem bySeniority_perm : (bySeniority group).Perm group :=
  List.perm_insertionSort _ _

theorem bySeniority_mastersFirst : MastersFirst (bySeniority group) := by
  have hsorted := List.pairwise_insertionSort (fun a b => seniority a ≤ seniority b) group
  apply hsorted.imp
  intro a b hkey ha
  unfold seniority at hkey
  rw [Prod.Lex.toLex_le_toLex, ha] at hkey
  by_contra hb
  simp only [hb, decide_true, decide_false, Bool.lt_iff] at hkey
  simp at hkey

theorem masters_zero (h : ∀ c ∈ group, c.workingMasters = 0) : masters group = 0 := by
  unfold masters
  induction group with
  | nil => rfl
  | cons c group ih =>
      rw [List.map_cons, List.sum_cons, h c List.mem_cons_self,
        ih (fun d hd => h d (List.mem_cons_of_mem _ hd))]

-- Either only masters are taken, or every master is.
theorem masters_take (seats : Nat) (h : MastersFirst group) :
    seats ≤ masters (group.take seats) ∨ masters (group.take seats) = masters group := by
  induction group generalizing seats with
  | nil => exact Or.inr (by simp)
  | cons c group ih =>
      obtain ⟨hfirst, hrest⟩ := List.pairwise_cons.mp h
      cases seats with
      | zero => exact Or.inl (Nat.zero_le _)
      | succ seats =>
          have hcons : ∀ tail : List Candidate, masters (c :: tail) = c.workingMasters + masters tail := by
            intro tail
            simp [masters]
          rw [List.take_succ_cons, hcons, hcons]
          rcases Nat.eq_zero_or_pos c.workingMasters with hzero | hpos
          · right
            have hslaves := fun d hd => hfirst d hd hzero
            rw [masters_zero group hslaves,
              masters_zero (group.take seats) (fun d hd => hslaves d (List.mem_of_mem_take hd))]
          · rcases ih seats hrest with htaken | hall
            · left
              omega
            · right
              rw [hall]

section

variable (kind : CommandNetwork) (group : List Candidate)

-- Who keeps the link.
def survivors : List Candidate :=
  let seats := limit kind (group.map Candidate.workingMasters).sum
  let kept := if 2 ≤ seats then seats else 0
  if min (bySeniority group).length kept < 2 then [] else (bySeniority group).take kept

theorem survivors_healthy : survivors kind group = [] ∨ Healthy kind (survivors kind group) := by
  unfold survivors
  extract_lets seats kept
  split
  · exact Or.inl rfl
  · rename_i hlarge
    right
    have hkept : kept = seats := by
      dsimp only [kept] at hlarge ⊢
      split at hlarge
      · rename_i hseats
        exact if_pos hseats
      · omega
    have hperm := masters_perm (bySeniority_perm group)
    have htake := masters_take (bySeniority group) seats (bySeniority_mastersFirst group)
    have hseats : seats = limit kind (masters group) := rfl
    rw [hkept] at hlarge ⊢
    constructor
    · rw [List.length_take]
      omega
    · unfold Fits
      rw [List.length_take]
      rcases htake with htaken | hall
      · cases kind with
        | C3 =>
            unfold limit at hseats ⊢
            dsimp only at hseats ⊢
            omega
        | C3i => exact (Nat.min_le_left _ _).trans (Nat.le_of_eq hseats)
      · rw [hall, hperm, ← hseats]
        exact Nat.min_le_left _ _

theorem mem_staleMembers (hn : group.Nodup) (c : Candidate) :
    c ∈ staleMembers kind group ↔ c ∈ group ∧ c ∉ survivors kind group := by
  have hperm := bySeniority_perm group
  have hnodup : (bySeniority group).Nodup := hperm.nodup_iff.mpr hn
  unfold staleMembers survivors
  extract_lets seats kept ranked
  have hsplit : ranked = ranked.take kept ++ ranked.drop kept := (List.take_append_drop kept ranked).symm
  have hmem : c ∈ group ↔ c ∈ ranked.take kept ∨ c ∈ ranked.drop kept := by
    rw [← List.mem_append, ← hsplit]
    exact hperm.mem_iff.symm
  have hapart : c ∈ ranked.take kept → c ∉ ranked.drop kept := by
    intro htake hdrop
    have hboth : (ranked.take kept ++ ranked.drop kept).Nodup := by
      rw [List.take_append_drop]
      exact hnodup
    exact List.disjoint_of_nodup_append hboth htake hdrop
  split
  · rw [List.mem_append, hmem, or_comm]
    simp
  · rw [List.append_nil, hmem]
    tauto

theorem staleMembers_healthy (h : Healthy kind group) : staleMembers kind group = [] := by
  have hlength : (bySeniority group).length = group.length := (bySeniority_perm group).length_eq
  have hpeers := h.peers
  have hfits : group.length ≤ limit kind (group.map Candidate.workingMasters).sum := h.fits
  unfold staleMembers
  extract_lets seats kept ranked
  have hkept : kept = seats := if_pos (by omega)
  have hranked : ranked.length = group.length := hlength
  rw [hkept, List.drop_eq_nil_of_le (by omega), if_neg (by omega)]
  rfl

end

section

variable (kind : CommandNetwork) (all : List Candidate) (hids : (all.map Candidate.id).Nodup)

include hids

theorem candidate_unique {c d : Candidate} (hc : c ∈ all) (hd : d ∈ all) (h : c.id = d.id) : c = d :=
  List.inj_on_of_nodup_map hids hc hd h

variable (c : Candidate) (map : ObjectId) (team : Int) (link : Nat)

theorem together_nodup : (together all map team link).Nodup := (List.Nodup.of_map _ hids).filter _

omit hids in
theorem mem_together : c ∈ together all map team link ↔
      c ∈ all ∧ c.eligible ∧ c.map = map ∧ c.team = team ∧ c.link = some link := by
  unfold together shares
  rw [List.mem_filter]
  simp [and_assoc]

theorem mem_staleLinks (hc : c ∈ all) :
    c.id ∈ staleLinks all kind ↔ c.link.isSome ∧ (c.eligible = false ∨
      ∃ link, c.link = some link ∧ c ∈ staleMembers kind (together all c.map c.team link)) := by
  unfold staleLinks
  extract_lets ineligible overflow
  have hlist : c.id ∈ (((ineligible ++ overflow).map Candidate.id).insertionSort (fun a b => a ≤ b)).dedup ↔
      ∃ d, d ∈ ineligible ++ overflow ∧ d.id = c.id := by
    rw [List.mem_dedup, List.mem_insertionSort, List.mem_map]
  have hstale : ∀ d, d ∈ overflow ↔ ∃ e ∈ all, ∃ link, e.link = some link ∧
      d ∈ staleMembers kind (together all e.map e.team link) := by
    intro d
    unfold overflow
    rw [List.mem_flatMap]
    apply exists_congr
    intro e
    apply and_congr_right
    intro _
    cases e.link with
    | none => simp
    | some link => simp [together]
  have hgroup : ∀ d map team link, d ∈ staleMembers kind (together all map team link) →
      d ∈ all ∧ d.eligible ∧ d.map = map ∧ d.team = team ∧ d.link = some link := by
    intro d map team link hd
    have hmem := (mem_staleMembers kind _ (together_nodup all hids map team link) d).mp hd
    exact (mem_together all d map team link).mp hmem.1
  rw [hlist]
  constructor
  · rintro ⟨d, hd, hid⟩
    rcases List.mem_append.mp hd with hineligible | hover
    · obtain ⟨hall, hflags⟩ := List.mem_filter.mp hineligible
      rw [candidate_unique all hids hc hall hid.symm]
      rw [Bool.and_eq_true, Bool.not_eq_true'] at hflags
      exact ⟨hflags.1, Or.inl hflags.2⟩
    · obtain ⟨e, he, link, hlink, hd⟩ := (hstale d).mp hover
      obtain ⟨hall, -, hmap, hteam, hdlink⟩ := hgroup d _ _ _ hd
      rw [candidate_unique all hids hc hall hid.symm]
      refine ⟨by rw [hdlink]; rfl, Or.inr ⟨link, hdlink, ?_⟩⟩
      rwa [hmap, hteam]
  · rintro ⟨hsome, hineligible | ⟨link, hlink, hmember⟩⟩
    · refine ⟨c, List.mem_append_left _ (List.mem_filter.mpr ⟨hc, ?_⟩), rfl⟩
      rw [hsome, hineligible]
      rfl
    · exact ⟨c, List.mem_append_right _ ((hstale c).mpr ⟨c, hc, link, hlink, hmember⟩), rfl⟩

theorem healthy_kept {map : ObjectId} {team : Int}
    (hc : c ∈ together all map team link) (h : Healthy kind (together all map team link)) :
    c.id ∉ staleLinks all kind := by
  obtain ⟨hall, heligible, hmap, hteam, hlink⟩ := (mem_together all c map team link).mp hc
  rw [mem_staleLinks kind all hids c hall]
  rintro ⟨-, hineligible | ⟨other, hother, hmember⟩⟩
  · rw [heligible] at hineligible
    contradiction
  · rw [hlink] at hother
    injection hother with hother
    subst hother
    rw [hmap, hteam, staleMembers_healthy kind _ h] at hmember
    contradiction

theorem staleLinks_settled (h : Settled kind all) : staleLinks all kind = [] := by
  have hnone : ∀ c ∈ all, c.id ∉ staleLinks all kind := by
    intro c hc hstale
    obtain ⟨hsome, -⟩ := (mem_staleLinks kind all hids c hc).mp hstale
    obtain ⟨link, hlink⟩ := Option.isSome_iff_exists.mp hsome
    have hmem : c ∈ together all c.map c.team link :=
      (mem_together all c _ _ _).mpr ⟨hc, h.eligible c hc hsome, rfl, rfl, hlink⟩
    rcases h.healthy c.map c.team link with hempty | hhealthy
    · rw [hempty] at hmem
      contradiction
    · exact healthy_kept kind all hids c link hmem hhealthy hstale
  apply List.eq_nil_iff_forall_not_mem.mpr
  intro id hid
  obtain ⟨c, hc, rfl⟩ : ∃ c ∈ all, c.id = id := by
    unfold staleLinks at hid
    rw [List.mem_dedup, List.mem_insertionSort, List.mem_map] at hid
    obtain ⟨d, hd, rfl⟩ := hid
    refine ⟨d, ?_, rfl⟩
    rcases List.mem_append.mp hd with hineligible | hover
    · exact (List.mem_filter.mp hineligible).1
    · obtain ⟨e, -, he⟩ := List.mem_flatMap.mp hover
      cases hlink : e.link with
      | none =>
          rw [hlink] at he
          contradiction
      | some link =>
          rw [hlink] at he
          have hnodup := together_nodup all hids e.map e.team link
          have hgroup := (mem_staleMembers kind _ hnodup d).mp he
          exact (List.mem_filter.mp hgroup.1).1
  exact hnone c hc hid

-- Dropping the stale links leaves the survivors of every network.
theorem cleared_together : (together (all.map (unlink (staleLinks all kind))) map team link).Perm
      (survivors kind (together all map team link)) := by
  have hlist : together (all.map (unlink (staleLinks all kind))) map team link =
      (together all map team link).filter (fun c => c.id ∉ staleLinks all kind) := by
    unfold together
    rw [List.filter_map, List.filter_filter]
    have hsame : all.filter (shares map team link ∘ unlink (staleLinks all kind)) =
        all.filter (fun c => decide (c.id ∉ staleLinks all kind) && shares map team link c) := by
      apply List.filter_congr
      intro c _
      unfold unlink shares
      by_cases h : c.id ∈ staleLinks all kind
      · simp [h]
      · simp [h]
    rw [hsame]
    conv_rhs => rw [← List.map_id (all.filter _)]
    apply List.map_congr_left
    intro c hc
    have hkept := (List.mem_filter.mp hc).2
    rw [Bool.and_eq_true, decide_eq_true_eq] at hkept
    unfold unlink
    rw [if_neg hkept.1]
    rfl
  have hnodup := together_nodup all hids map team link
  have hsurvivors : (survivors kind (together all map team link)).Nodup := by
    unfold survivors
    extract_lets seats kept
    split
    · exact List.nodup_nil
    · exact ((bySeniority_perm _).nodup_iff.mpr hnodup).sublist (List.take_sublist _ _)
  rw [hlist]
  apply (List.perm_ext_iff_of_nodup (hnodup.filter _) hsurvivors).mpr
  intro c
  rw [List.mem_filter, decide_eq_true_eq]
  have hstale := mem_staleMembers kind _ hnodup c
  constructor
  · rintro ⟨hmem, hkept⟩
    obtain ⟨hall, heligible, hmap, hteam, hlink⟩ := (mem_together all c map team link).mp hmem
    by_contra hgone
    apply hkept
    rw [mem_staleLinks kind all hids c hall]
    refine ⟨by rw [hlink]; rfl, Or.inr ⟨link, hlink, ?_⟩⟩
    rw [hmap, hteam]
    exact hstale.mpr ⟨hmem, hgone⟩
  · intro hmem
    have hgroup : c ∈ together all map team link := by
      unfold survivors at hmem
      extract_lets seats kept at hmem
      split at hmem
      · contradiction
      · exact (bySeniority_perm _).mem_iff.mp (List.mem_of_mem_take hmem)
    refine ⟨hgroup, ?_⟩
    obtain ⟨hall, heligible, hmap, hteam, hlink⟩ := (mem_together all c map team link).mp hgroup
    rw [mem_staleLinks kind all hids c hall]
    rintro ⟨-, hineligible | ⟨other, hother, hmember⟩⟩
    · rw [heligible] at hineligible
      contradiction
    · rw [hlink] at hother
      injection hother with hother
      subst hother
      rw [hmap, hteam] at hmember
      exact (hstale.mp hmember).2 hmem

theorem cleared_settled : Settled kind (all.map (unlink (staleLinks all kind))) where
  eligible := by
    intro d hd hsome
    obtain ⟨c, hc, rfl⟩ := List.mem_map.mp hd
    unfold unlink at hsome ⊢
    split at hsome
    · contradiction
    · rename_i hkept
      rw [if_neg hkept]
      by_contra hineligible
      apply hkept
      rw [mem_staleLinks kind all hids c hc]
      exact ⟨hsome, Or.inl (by simpa using hineligible)⟩
  healthy := by
    intro map team link
    have hperm := cleared_together kind all hids map team link
    rcases survivors_healthy kind (together all map team link) with hempty | hhealthy
    · rw [hempty] at hperm
      exact Or.inl hperm.eq_nil
    · exact Or.inr (healthy_perm hperm.symm hhealthy)

end

end StompyMux.Network
