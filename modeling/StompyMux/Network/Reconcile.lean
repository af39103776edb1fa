import StompyMux.Network.Settling

-- What a whole pass leaves behind.
namespace StompyMux.Network

open StompyMux.Btech (Error)
open Library
open StompyMux.World (ObjectId)

def poolKey (c : Candidate) : PoolKey := toLex (c.map, c.team)

section

variable (all : List Candidate)

theorem mem_poolKeys (key : PoolKey) :
    key ∈ (poolKeys all).keys ↔ ∃ c ∈ all, c.eligible ∧ poolKey c = key := by
  have hfold : ∀ (group : List Candidate) (keys : OrderedMap PoolKey Unit),
      key ∈ (group.foldl (fun keys c => keys.insert (toLex (c.map, c.team)) ()) keys).keys ↔
        key ∈ keys.keys ∨ ∃ c ∈ group, poolKey c = key := by
    intro group
    induction group with
    | nil =>
        intro keys
        simp
    | cons c group ih =>
        intro keys
        rw [List.foldl_cons, ih, OrderedMap.mem_keys_insert]
        constructor
        · rintro ((rfl | hkeys) | ⟨d, hd, hkey⟩)
          · exact Or.inr ⟨c, List.mem_cons_self, rfl⟩
          · exact Or.inl hkeys
          · exact Or.inr ⟨d, List.mem_cons_of_mem _ hd, hkey⟩
        · rintro (hkeys | ⟨d, hd, hkey⟩)
          · exact Or.inl (Or.inr hkeys)
          · rcases List.mem_cons.mp hd with rfl | hd
            · exact Or.inl (Or.inl hkey.symm)
            · exact Or.inr ⟨d, hd, hkey⟩
  unfold poolKeys
  rw [hfold]
  constructor
  · rintro (hnone | ⟨c, hc, hkey⟩)
    · contradiction
    · obtain ⟨hall, heligible⟩ := List.mem_filter.mp hc
      exact ⟨c, hall, heligible, hkey⟩
  · rintro ⟨c, hc, heligible, hkey⟩
    exact Or.inr ⟨c, List.mem_filter.mpr ⟨hc, heligible⟩, hkey⟩

theorem mem_poolAt (c : Candidate) (key : PoolKey) :
    c ∈ poolAt all key ↔ c ∈ all ∧ c.eligible ∧ poolKey c = key := by
  unfold poolAt poolKey
  rw [List.mem_filter, Bool.and_eq_true, decide_eq_true_eq]

theorem linkedAt_pool (map : ObjectId) (team : Int) (link : Nat) :
    linkedAt (poolAt all (toLex (map, team))) link = together all map team link := by
  unfold linkedAt poolAt together
  rw [List.filter_filter]
  apply List.filter_congr
  intro c _
  unfold shares
  by_cases hmap : c.map = map
  · by_cases hteam : c.team = team
    · simp [hmap, hteam, Bool.and_comm]
    · simp [hmap, hteam]
  · simp [hmap]

theorem poolAt_assign (batch : List (ObjectId × Nat)) (key : PoolKey) :
    poolAt (all.map (Candidate.assign batch)) key = (poolAt all key).map (Candidate.assign batch) := by
  unfold poolAt
  rw [List.filter_map]
  congr 1
  apply List.filter_congr
  intro c _
  simp

-- The first identity a pass may hand out is above all that are in use.
theorem nextIdentity_bound (kind : CommandNetwork) (nextLink : Nat)
    (h : nextIdentity kind ((all.filterMap Candidate.link).max?.getD 0) = .ok nextLink) :
    ∀ c ∈ all, ∀ link, c.link = some link → link < nextLink := by
  intro c hc link hlink
  have hmem : link ∈ all.filterMap Candidate.link := List.mem_filterMap.mpr ⟨c, hc, hlink⟩
  have hle : link ≤ (all.filterMap Candidate.link).max?.getD 0 := List.le_max?_getD_of_mem hmem
  unfold nextIdentity at h
  split at h
  · injection h with h
    omega
  · contradiction

end

def written (all : List Candidate) (formed : PoolKey → Formation) : List (ObjectId × Nat) :=
  (poolKeys all).keys.flatMap (fun key => assignments (formed key))

section

variable (kind : CommandNetwork) (all : List Candidate) (nextLink : Nat)
  (hids : (all.map Candidate.id).Nodup) (hsettled : Settled kind all)
  (hbound : ∀ c ∈ all, ∀ link, c.link = some link → link < nextLink)

include hids hsettled hbound

theorem pool_ready (key : PoolKey) {n : Nat} (hn : nextLink ≤ n) : Ready kind (poolAt all key) n where
  ids := hids.sublist (List.filter_sublist.map _)
  healthy := by
    intro link
    have hgroup := linkedAt_pool all (ofLex key).1 (ofLex key).2 link
    have hkey : (toLex ((ofLex key).1, (ofLex key).2) : PoolKey) = key := rfl
    rw [hkey] at hgroup
    rw [hgroup]
    exact hsettled.healthy _ _ link
  bounded := by
    intro c hc link hlink
    exact (hbound c ((mem_poolAt all c key).mp hc).1 link hlink).trans_le hn

variable (formed : PoolKey → Formation)
  (hformed : ∀ key ∈ (poolKeys all).keys,
    ∃ n, nextLink ≤ n ∧ form kind (poolAt all key) n = .ok (formed key))

include hformed

theorem mem_written {c : Candidate} (hc : c ∈ all) (link : Nat) :
    (c.id, link) ∈ written all formed ↔
      c.eligible ∧ (c.id, link) ∈ assignments (formed (poolKey c)) := by
  unfold written
  rw [List.mem_flatMap]
  constructor
  · rintro ⟨key, hkey, hmem⟩
    obtain ⟨n, hn, hform⟩ := hformed key hkey
    obtain ⟨placed, left, hf⟩ :=
      form_formed kind (pool_ready kind all nextLink hids hsettled hbound key hn) hform
    obtain ⟨-, d, hd, hid⟩ := hf.assignments_placed kind _ _ placed left hmem
    have hpool := (hf.placed_unlinked kind _ _ placed left hd).1
    obtain ⟨hall, heligible, hsame⟩ := (mem_poolAt all d key).mp hpool
    rw [candidate_unique all hids hall hc hid] at heligible hsame
    rw [hsame]
    exact ⟨heligible, hmem⟩
  · rintro ⟨heligible, hmem⟩
    exact ⟨poolKey c, (mem_poolKeys all _).mpr ⟨c, hc, heligible, rfl⟩, hmem⟩

theorem written_kept {c : Candidate} (hc : c ∈ all) {link : Nat} (hlink : c.link = some link) :
    c.assign (written all formed) = c := by
  apply assign_other
  intro other hmem
  obtain ⟨heligible, hassigned⟩ :=
    (mem_written kind all nextLink hids hsettled hbound formed hformed hc other).mp hmem
  obtain ⟨n, hn, hform⟩ := hformed _ ((mem_poolKeys all _).mpr ⟨c, hc, heligible, rfl⟩)
  obtain ⟨placed, left, hf⟩ :=
    form_formed kind (pool_ready kind all nextLink hids hsettled hbound _ hn) hform
  obtain ⟨-, d, hd, hid⟩ := hf.assignments_placed kind _ _ placed left hassigned
  obtain ⟨hpool, hnone, -⟩ := hf.placed_unlinked kind _ _ placed left hd
  rw [candidate_unique all hids ((mem_poolAt all d _).mp hpool).1 hc hid, hlink] at hnone
  contradiction

theorem written_pool (key : PoolKey) :
    (∀ link, linkedAt (poolAt (all.map (Candidate.assign (written all formed))) key) link = [] ∨
      Healthy kind (linkedAt (poolAt (all.map (Candidate.assign (written all formed))) key) link)) ∧
    ∀ m g, Ready kind (poolAt (all.map (Candidate.assign (written all formed))) key) m →
      form kind (poolAt (all.map (Candidate.assign (written all formed))) key) m = .ok g →
        Quiet g := by
  rw [poolAt_assign]
  by_cases hkey : key ∈ (poolKeys all).keys
  · obtain ⟨n, hn, hform⟩ := hformed key hkey
    have hready := pool_ready kind all nextLink hids hsettled hbound key hn
    obtain ⟨placed, left, hf⟩ := form_formed kind hready hform
    have hbatch : ∀ c ∈ poolAt all key, ∀ link,
        (c.id, link) ∈ written all formed ↔ (c.id, link) ∈ assignments (formed key) := by
      intro c hc link
      obtain ⟨hall, heligible, hsame⟩ := (mem_poolAt all c key).mp hc
      rw [mem_written kind all nextLink hids hsettled hbound formed hformed hall link, hsame]
      exact and_iff_right heligible
    exact ⟨assigned_healthy kind _ _ placed left hf hready.ids _ hbatch,
      assigned_quiet kind _ _ placed left hf hready.ids _ hbatch⟩
  · have hempty : poolAt all key = [] := by
      apply List.eq_nil_iff_forall_not_mem.mpr
      intro c hc
      obtain ⟨hall, heligible, hsame⟩ := (mem_poolAt all c key).mp hc
      exact hkey ((mem_poolKeys all key).mpr ⟨c, hall, heligible, hsame⟩)
    rw [hempty]
    constructor
    · exact fun link => Or.inl rfl
    · intro m g _ hg
      have hwaiting : unlinked [] = [] := (bySeniority_perm []).eq_nil
      have hstart : form kind [] m = .ok ⟨OrderedMap.empty, m, []⟩ := by
        unfold form
        rw [hwaiting]
        rfl
      rw [List.map_nil, hstart] at hg
      injection hg with hg
      rw [← hg]
      intro group hgroup
      contradiction

theorem written_settled : Settled kind (all.map (Candidate.assign (written all formed))) where
  eligible := by
    intro d hd hsome
    obtain ⟨c, hc, rfl⟩ := List.mem_map.mp hd
    rw [assign_eligible]
    rcases assign_cases (written all formed) c with hsame | ⟨link, hmem, -⟩
    · rw [hsame] at hsome
      exact hsettled.eligible c hc hsome
    · exact ((mem_written kind all nextLink hids hsettled hbound formed hformed hc link).mp hmem).1
  healthy := by
    intro map team link
    rw [← linkedAt_pool]
    exact (written_pool kind all nextLink hids hsettled hbound formed hformed _).1 link

end

section

variable (kind : CommandNetwork)

-- What a pass that succeeded did.
theorem reconcileFor_ok {w v : Theater} {notices : List Notice}
    (h : reconcileFor kind w = .ok notices v) :
    ∃ all, candidates w kind = .ok all ∧ (all = [] ∧ v = w ∨
      all ≠ [] ∧ ∃ nextLink formed,
        nextIdentity kind
          (((all.map (unlink (staleLinks all kind))).filterMap Candidate.link).max?.getD 0) =
            .ok nextLink ∧
        (∀ key ∈ (poolKeys (all.map (unlink (staleLinks all kind)))).keys, ∃ n, nextLink ≤ n ∧
          form kind (poolAt (all.map (unlink (staleLinks all kind))) key) n = .ok (formed key)) ∧
        v = assignAll ((staleLinks all kind).foldl (fun w id => setLink w id kind none) w) kind
          (written (all.map (unlink (staleLinks all kind))) formed) ∧
        validate v = .ok ()) := by
  obtain ⟨read, same, hget, hrest⟩ := Update.ok_of_bind _ _ _ _ _ h
  injection hget with hread hsame
  rw [← hread, ← hsame] at hrest
  obtain ⟨all, same', hall, hrest⟩ := Update.ok_of_bind _ _ _ _ _ hrest
  obtain ⟨hcandidates, hsame'⟩ := lift_ok hall
  rw [hsame'] at hrest
  refine ⟨all, hcandidates, ?_⟩
  split at hrest
  · rename_i hnone
    injection hrest with hnotices hv
    exact Or.inl ⟨hnone, hv.symm⟩
  · rename_i hsome
    right
    refine ⟨hsome, ?_⟩
    obtain ⟨u, cleared, hclear, hrest⟩ := Update.ok_of_bind _ _ _ _ _ hrest
    injection hclear with _ hcleared
    obtain ⟨nextLink, same'', hnext, hrest⟩ := Update.ok_of_bind _ _ _ _ _ hrest
    obtain ⟨hidentity, hsame''⟩ := lift_ok hnext
    rw [hsame''] at hrest
    obtain ⟨told, linked, hlink, hrest⟩ := Update.ok_of_bind _ _ _ _ _ hrest
    obtain ⟨formed, hformed, hlinked⟩ := linkPools_ok kind _ _ (OrderedMap.keys_nodup _) nextLink
      cleared linked told hlink (form_nextLink kind)
    obtain ⟨read', same₃, hget', hrest⟩ := Update.ok_of_bind _ _ _ _ _ hrest
    injection hget' with hread' hsame₃
    rw [← hread', ← hsame₃] at hrest
    obtain ⟨u', last, hvalidate, hpure⟩ := Update.ok_of_bind _ _ _ _ _ hrest
    obtain ⟨hvalid, hlast⟩ := lift_ok hvalidate
    injection hpure with hnotices hv
    rw [← hv, hlast, hlinked, ← hcleared]
    refine ⟨nextLink, formed, hidentity, hformed, rfl, ?_⟩
    rw [hcleared, ← hlinked]
    exact hvalid

theorem reconcileFor_settled {w : Theater} {all : List Candidate} (hall : candidates w kind = .ok all)
    (hids : (all.map Candidate.id).Nodup) (hsettled : Settled kind all) (hvalid : validate w = .ok ())
    (hquiet : ∀ key n f, Ready kind (poolAt all key) n → form kind (poolAt all key) n = .ok f →
      Quiet f) :
    reconcileFor kind w = .ok [] w ∨
      reconcileFor kind w = .error (kind.name ++ " network identities exhausted") w := by
  have hstale := staleLinks_settled kind all hids hsettled
  have hsame : all.map (unlink []) = all := by
    have hid : unlink [] = id := by
      funext c
      simp [unlink]
    rw [hid, List.map_id]
  have hread : (get : Update Theater Error Theater) w = .ok w w := rfl
  have hlift : ∀ {α : Type} (a : α), lift (.ok a : Except Error α) w = .ok a w := fun _ => rfl
  unfold reconcileFor
  rw [Update.bind_ok _ _ w w w hread, hall, Update.bind_ok _ _ w w all (hlift all)]
  split
  · exact Or.inl rfl
  · dsimp only
    rw [hstale, hsame]
    have hclear : (modify (fun w => List.foldl (fun w id => setLink w id kind none) w []) :
        Update Theater Error PUnit) w = .ok ⟨⟩ w := rfl
    rw [Update.bind_ok _ _ w w _ hclear]
    cases hnext : nextIdentity kind ((all.filterMap Candidate.link).max?.getD 0) with
    | error e =>
        rw [nextIdentity_error kind hnext]
        exact Or.inr rfl
    | ok nextLink =>
        rw [Update.bind_ok _ _ w w nextLink (hlift nextLink)]
        have hbound := nextIdentity_bound all kind nextLink hnext
        have hpools := linkPools_quiet kind all (poolKeys all).keys nextLink w (form_nextLink kind) _
          (form_error kind) (fun key _ n f hn hf =>
            hquiet key n f (pool_ready kind all nextLink hids hsettled hbound key hn) hf)
        rcases hpools with hok | herror
        · rw [Update.bind_ok _ _ w w [] hok, Update.bind_ok _ _ w w w hread, hvalid]
          exact Or.inl rfl
        · rw [Update.bind_error _ _ w herror]
          exact Or.inr rfl

end

-- The computers that share a map, a team and a link.
def groupAt (all : List Candidate) (map : ObjectId) (team : Int) (link : Nat) : List Candidate :=
  all.filter (fun c => c.map = map && c.team = team && c.link = some link)

-- Every member may take part, there are at least two and each has a seat.
structure Sound (kind : CommandNetwork) (group : List Candidate) : Prop where
  eligible : ∀ c ∈ group, c.eligible
  healthy : Healthy kind group

section

variable (all : List Candidate) (map : ObjectId) (team : Int) (link : Nat)

theorem groupAt_together (h : ∀ c ∈ groupAt all map team link, c.eligible) :
    groupAt all map team link = together all map team link := by
  unfold groupAt together
  apply List.filter_congr
  intro c hc
  have hgroup : shares map team link c =
      (c.eligible && (c.map = map && c.team = team && c.link = some link)) := by
    unfold shares
    rw [Bool.and_assoc, Bool.and_assoc, Bool.and_assoc]
  rw [hgroup]
  by_cases hin : c ∈ groupAt all map team link
  · rw [h c hin, Bool.true_and]
  · have hout : (decide (c.map = map) && decide (c.team = team) && decide (c.link = some link)) = false := by
      by_contra hmember
      exact hin (List.mem_filter.mpr ⟨hc, eq_true_of_ne_false hmember⟩)
    rw [hout, Bool.and_false]

theorem settled_sound {kind : CommandNetwork} (h : Settled kind all) :
    groupAt all map team link = [] ∨ Sound kind (groupAt all map team link) := by
  have heligible : ∀ c ∈ groupAt all map team link, c.eligible := by
    intro c hc
    obtain ⟨hall, hmember⟩ := List.mem_filter.mp hc
    rw [Bool.and_eq_true, decide_eq_true_eq] at hmember
    exact h.eligible c hall (by rw [hmember.2]; rfl)
  have hsame := groupAt_together all map team link heligible
  rcases h.healthy map team link with hempty | hhealthy
  · exact Or.inl (hsame.trans hempty)
  · rw [← hsame] at hhealthy
    exact Or.inr ⟨heligible, hhealthy⟩

end

-- Among the placed units with computers a pass leaves sound groups only, keeps those that were
-- sound, and has nothing left to do.
theorem reconcileFor_reconciles (kind : CommandNetwork) (w v : Theater) (notices : List Notice)
    (h : reconcileFor kind w = .ok notices v) :
    ∃ before after, candidates w kind = .ok before ∧ candidates v kind = .ok after ∧
      (∀ map team link, groupAt after map team link = [] ∨ Sound kind (groupAt after map team link)) ∧
      (∀ map team link, Sound kind (groupAt before map team link) →
        ∀ c ∈ groupAt before map team link, c ∈ groupAt after map team link) ∧
      (reconcileFor kind v = .ok [] v ∨
        reconcileFor kind v = .error (kind.name ++ " network identities exhausted") v) := by
  obtain ⟨all, hall, ⟨hnone, hv⟩ | ⟨-, nextLink, formed, hnext, hformed, hv, hvalid⟩⟩ :=
    reconcileFor_ok kind h
  · subst hnone hv
    refine ⟨[], [], hall, hall, fun _ _ _ => Or.inl rfl, fun _ _ _ _ c hc => hc, Or.inl ?_⟩
    have hread : (get : Update Theater Error Theater) v = .ok v v := rfl
    have hlift : lift (.ok [] : Except Error (List Candidate)) v = .ok [] v := rfl
    unfold reconcileFor
    rw [Update.bind_ok _ _ v v v hread, hall, Update.bind_ok _ _ v v [] hlift]
    rfl
  · have hids := candidates_ids w kind hall
    have hcleared := candidates_unlink w kind (staleLinks all kind) all hall
    have hsettled := cleared_settled kind all hids
    have hafter := candidates_assignAll _ kind
      (written (all.map (unlink (staleLinks all kind))) formed) _ hcleared
    rw [← hv] at hafter
    have hids' := candidates_ids _ kind hcleared
    have hbound := nextIdentity_bound _ kind nextLink hnext
    have hlast := written_settled kind _ nextLink hids' hsettled hbound formed hformed
    refine ⟨all, _, hall, hafter, ?_, ?_, ?_⟩
    · exact fun map team link => settled_sound _ map team link hlast
    · intro map team link hsound c hc
      have hmember := hc
      rw [groupAt_together all map team link hsound.eligible] at hmember
      have hhealthy := hsound.healthy
      rw [groupAt_together all map team link hsound.eligible] at hhealthy
      obtain ⟨hin, -, -, -, hlink⟩ := (mem_together all c map team link).mp hmember
      have hfresh := healthy_kept kind all hids c link hmember hhealthy
      have hstays : unlink (staleLinks all kind) c = c := if_neg hfresh
      have hin' : c ∈ all.map (unlink (staleLinks all kind)) := List.mem_map.mpr ⟨c, hin, hstays⟩
      have hkept := written_kept kind _ nextLink hids' hsettled hbound formed hformed hin' hlink
      obtain ⟨-, hshared⟩ := List.mem_filter.mp hc
      exact List.mem_filter.mpr ⟨List.mem_map.mpr ⟨c, hin', hkept⟩, hshared⟩
    · apply reconcileFor_settled kind hafter (candidates_ids v kind hafter) hlast hvalid
      intro key n f hready hform
      exact (written_pool kind _ nextLink hids' hsettled hbound formed hformed key).2 n f hready hform

def unitsAt (w : Theater) (kind : CommandNetwork) (map : ObjectId) (team : Int) (link : Nat) :
    List (ObjectId × NetworkUnit) :=
  w.units.entries.filter (fun entry =>
    entry.2.map = some map && entry.2.team = team && kind.link entry.2 = some link)

section

-- Three masters, two of them in a network with a lost one, and a unit that lost its computer.
def fieldUnit (link : Option Nat) (masters workingMasters : Nat) : NetworkUnit where
  map := some 5
  team := 0
  power := .Running
  automation := ⟨true, true⟩
  c3Network := link
  c3iNetwork := none
  c3Hardware := .ok ⟨masters, workingMasters, 0 < masters, false, false, false, false⟩

def field : Theater where
  units := ⟨[(1, fieldUnit (some 7) 0 0), (2, fieldUnit (some 8) 1 1), (3, fieldUnit (some 8) 1 1),
    (4, fieldUnit (some 8) 1 0), (6, fieldUnit none 1 1)], by decide⟩
  going := fun _ => false
  displayId := fun _ other => .ok (toString other)

def succeeds (x : Update Theater Error (List Notice)) (w : Theater) : Bool :=
  match x w with
  | .ok _ _ => true
  | .error _ _ => false

theorem reconcileFor_reconciles_field : ∃ notices v, reconcileFor .C3 field = .ok notices v ∧
    ∃ before after, candidates field .C3 = .ok before ∧ candidates v .C3 = .ok after ∧
      (∀ map team link, groupAt after map team link = [] ∨ Sound .C3 (groupAt after map team link)) ∧
      (∀ map team link, Sound .C3 (groupAt before map team link) →
        ∀ c ∈ groupAt before map team link, c ∈ groupAt after map team link) ∧
      (reconcileFor .C3 v = .ok [] v ∨
        reconcileFor .C3 v = .error "C3 network identities exhausted" v) := by
  have hran : succeeds (reconcileFor .C3) field = true := by decide +kernel
  unfold succeeds at hran
  split at hran
  · rename_i notices v hrun
    exact ⟨notices, v, hrun, reconcileFor_reconciles .C3 field v notices hrun⟩
  · contradiction

-- A unit without a computer is no business of the pass: its link stays, with nobody else on it.
theorem reconcileFor_leaves_unequipped : ¬ ∀ kind w notices v, reconcileFor kind w = .ok notices v →
    ∀ map team link, unitsAt v kind map team link = [] ∨ 2 ≤ (unitsAt v kind map team link).length := by
  intro hclaim
  have hlone : (unitsAt ((reconcileFor .C3).after field) .C3 5 0 7).length = 1 := by decide +kernel
  have hran : succeeds (reconcileFor .C3) field = true := by decide +kernel
  unfold succeeds at hran
  split at hran
  · rename_i notices v hrun
    rw [Update.after_ok _ _ hrun] at hlone
    rcases hclaim .C3 field notices v hrun 5 0 7 with hempty | hlarge
    · rw [hempty] at hlone
      contradiction
    · omega
  · contradiction

end

end StompyMux.Network
