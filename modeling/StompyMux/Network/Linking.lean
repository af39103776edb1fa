import StompyMux.Network.Stale

-- The links a pass writes, and the candidates it leaves.
namespace StompyMux.Network

open StompyMux.Btech (Error)
open Library
open StompyMux.World (ObjectId)

namespace NetworkUnit

section

variable (kind : CommandNetwork) (value : Option Nat) (unit : NetworkUnit)

@[simp] theorem withLink_map : (unit.withLink kind value).map = unit.map := by cases kind <;> rfl

@[simp] theorem withLink_team : (unit.withLink kind value).team = unit.team := by cases kind <;> rfl

@[simp] theorem withLink_power : (unit.withLink kind value).power = unit.power := by
  cases kind <;> rfl

@[simp] theorem withLink_automation : (unit.withLink kind value).automation = unit.automation := by
  cases kind <;> rfl

@[simp] theorem withLink_hardware : (unit.withLink kind value).c3Hardware = unit.c3Hardware := by
  cases kind <;> rfl

@[simp] theorem withLink_link : kind.link (unit.withLink kind value) = value := by cases kind <;> rfl

end

end NetworkUnit

-- Give one unit a link, or take it.
def Candidate.relink (id : ObjectId) (value : Option Nat) (c : Candidate) : Candidate :=
  if c.id = id then { c with link := value } else c

section

variable (w : Theater) (kind : CommandNetwork) (id : ObjectId) (value : Option Nat)

theorem candidateOf_id {entry : ObjectId × NetworkUnit} {c : Candidate}
    (h : candidateOf w kind entry = .ok (some c)) : c.id = entry.1 := by
  unfold candidateOf at h
  split at h
  · simp at h
  · split at h
    · contradiction
    · split at h
      · injection h with h
        injection h with h
        rw [← h]
      · simp at h

theorem candidateOf_setLink (entry : ObjectId × NetworkUnit) :
    candidateOf (setLink w id kind value) kind
        (if entry.1 = id then (entry.1, entry.2.withLink kind value) else entry) =
      (candidateOf w kind entry).map (Option.map (Candidate.relink id value)) := by
  unfold candidateOf
  by_cases hid : entry.1 = id
  · rw [if_pos hid]
    simp only [NetworkUnit.withLink_map, NetworkUnit.withLink_hardware, NetworkUnit.withLink_team,
      NetworkUnit.withLink_power, NetworkUnit.withLink_automation, NetworkUnit.withLink_link]
    cases entry.2.map with
    | none => rfl
    | some map =>
        cases entry.2.c3Hardware with
        | error e => rfl
        | ok hardware =>
            dsimp only
            split
            · simp [Except.map, Candidate.relink, hid, setLink]
            · rfl
  · rw [if_neg hid]
    cases entry.2.map with
    | none => rfl
    | some map =>
        cases entry.2.c3Hardware with
        | error e => rfl
        | ok hardware =>
            dsimp only
            split
            · simp [Except.map, Candidate.relink, hid, setLink]
            · rfl

theorem candidatesOf_setLink (entries : List (ObjectId × NetworkUnit)) (all : List Candidate)
    (h : candidatesOf w kind entries = .ok all) :
    candidatesOf (setLink w id kind value) kind
      (entries.map (fun e => if e.1 = id then (e.1, e.2.withLink kind value) else e)) =
        .ok (all.map (Candidate.relink id value)) := by
  induction entries generalizing all with
  | nil =>
      injection h with h
      rw [← h]
      rfl
  | cons entry entries ih =>
      unfold candidatesOf at h
      rw [List.map_cons, candidatesOf, candidateOf_setLink]
      cases hcandidate : candidateOf w kind entry with
      | error e =>
          rw [hcandidate] at h
          contradiction
      | ok candidate =>
          rw [hcandidate] at h
          cases hrest : candidatesOf w kind entries with
          | error e =>
              rw [hrest] at h
              contradiction
          | ok rest =>
              rw [hrest] at h
              injection h with h
              show Except.map _ _ = _
              rw [ih rest hrest, ← h]
              cases candidate <;> rfl

theorem candidates_setLink {all : List Candidate} (h : candidates w kind = .ok all) :
    candidates (setLink w id kind value) kind = .ok (all.map (Candidate.relink id value)) :=
  candidatesOf_setLink w kind id value w.units.entries all h

theorem candidates_ids {all : List Candidate} (h : candidates w kind = .ok all) :
    (all.map Candidate.id).Nodup := by
  have hsub : ∀ (entries : List (ObjectId × NetworkUnit)) (all : List Candidate),
      candidatesOf w kind entries = .ok all →
        (all.map Candidate.id).Sublist (entries.map Prod.fst) := by
    intro entries
    induction entries with
    | nil =>
        intro all h
        injection h with h
        rw [← h]
        exact List.Sublist.refl _
    | cons entry entries ih =>
        intro all h
        unfold candidatesOf at h
        cases hcandidate : candidateOf w kind entry with
        | error e =>
            rw [hcandidate] at h
            contradiction
        | ok candidate =>
            rw [hcandidate] at h
            cases hrest : candidatesOf w kind entries with
            | error e =>
                rw [hrest] at h
                contradiction
            | ok rest =>
                rw [hrest] at h
                injection h with h
                rw [← h, List.map_append, List.map_cons]
                cases candidate with
                | none => exact (ih rest hrest).cons _
                | some c =>
                    have hid := candidateOf_id w kind hcandidate
                    rw [Option.toList_some, List.map_singleton, List.singleton_append, hid]
                    exact (ih rest hrest).cons_cons _
  exact w.units.keys_nodup.sublist (hsub w.units.entries all h)

end

def assignAll (w : Theater) (kind : CommandNetwork) (batch : List (ObjectId × Nat)) : Theater :=
  batch.foldl (fun w p => setLink w p.1 kind (some p.2)) w

def Candidate.assign (batch : List (ObjectId × Nat)) (c : Candidate) : Candidate :=
  batch.foldl (fun c p => c.relink p.1 (some p.2)) c

section

variable (w : Theater) (kind : CommandNetwork)

theorem candidates_assignAll (batch : List (ObjectId × Nat)) (all : List Candidate)
    (h : candidates w kind = .ok all) :
    candidates (assignAll w kind batch) kind = .ok (all.map (Candidate.assign batch)) := by
  induction batch generalizing w all with
  | nil =>
      have hid : all.map (Candidate.assign []) = all := List.map_id all
      rw [hid]
      exact h
  | cons p batch ih =>
      have hone := candidates_setLink w kind p.1 (some p.2) h
      have hrest := ih _ _ hone
      rw [List.map_map] at hrest
      exact hrest

theorem candidates_unlink (stale : List ObjectId) (all : List Candidate)
    (h : candidates w kind = .ok all) :
    candidates (stale.foldl (fun w id => setLink w id kind none) w) kind =
      .ok (all.map (unlink stale)) := by
  induction stale generalizing w all with
  | nil =>
      have hid : all.map (unlink []) = all := by
        have hsame : unlink [] = id := by
          funext c
          simp [unlink]
        rw [hsame, List.map_id]
      rw [hid]
      exact h
  | cons id stale ih =>
      have hone := candidates_setLink w kind id none h
      have hrest := ih _ _ hone
      rw [List.map_map] at hrest
      rw [List.foldl_cons, hrest]
      congr 1
      apply List.map_congr_left
      intro c _
      unfold unlink Candidate.relink
      by_cases hid : c.id = id
      · by_cases hlater : id ∈ stale
        · simp [hid, hlater]
        · simp [hid, hlater]
      · by_cases hlater : c.id ∈ stale
        · simp [hid, hlater]
        · simp [hid, hlater]

end

section

variable (batch : List (ObjectId × Nat)) (c : Candidate)

theorem assign_other (h : ∀ link, (c.id, link) ∉ batch) : c.assign batch = c := by
  unfold Candidate.assign
  induction batch with
  | nil => rfl
  | cons p batch ih =>
      have hne : c.id ≠ p.1 := by
        intro heq
        apply h p.2
        rw [heq]
        exact List.mem_cons_self
      have hsame : c.relink p.1 (some p.2) = c := if_neg hne
      rw [List.foldl_cons, hsame]
      exact ih (fun link hmem => h link (List.mem_cons_of_mem _ hmem))

-- Only the link changes, and it is one that was written.
theorem assign_cases : c.assign batch = c ∨
    ∃ link, (c.id, link) ∈ batch ∧ c.assign batch = { c with link := some link } := by
  unfold Candidate.assign
  induction batch generalizing c with
  | nil => exact Or.inl rfl
  | cons p batch ih =>
      rw [List.foldl_cons]
      by_cases hid : c.id = p.1
      · have hone : c.relink p.1 (some p.2) = { c with link := some p.2 } := if_pos hid
        rw [hone]
        rcases ih { c with link := some p.2 } with hsame | ⟨link, hmem, hlast⟩
        · refine Or.inr ⟨p.2, ?_, hsame⟩
          rw [hid]
          exact List.mem_cons_self
        · exact Or.inr ⟨link, List.mem_cons_of_mem _ hmem, hlast⟩
      · have hone : c.relink p.1 (some p.2) = c := if_neg hid
        rw [hone]
        rcases ih c with hsame | ⟨link, hmem, hlast⟩
        · exact Or.inl hsame
        · exact Or.inr ⟨link, List.mem_cons_of_mem _ hmem, hlast⟩

theorem assign_mem {link : Nat} (h : (c.id, link) ∈ batch)
    (hone : ∀ other, (c.id, other) ∈ batch → other = link) :
    c.assign batch = { c with link := some link } := by
  have hlinked : ∀ (batch : List (ObjectId × Nat)) (c : Candidate),
      c.link = some link → (∀ other, (c.id, other) ∈ batch → other = link) →
        (c.assign batch).link = some link := by
    intro batch c hl hsame
    rcases assign_cases batch c with hkept | ⟨other, hmem, hlast⟩
    · rw [hkept, hl]
    · rw [hlast, hsame other hmem]
  have hlink : (c.assign batch).link = some link := by
    unfold Candidate.assign
    induction batch generalizing c with
    | nil => contradiction
    | cons p batch ih =>
        rw [List.foldl_cons]
        by_cases hid : c.id = p.1
        · have hp : p.2 = link := by
            apply hone
            rw [hid]
            exact List.mem_cons_self
          have hfirst : c.relink p.1 (some p.2) = { c with link := some p.2 } := if_pos hid
          rw [hfirst, hp]
          exact hlinked batch _ rfl (fun other hmem => hone other (List.mem_cons_of_mem _ hmem))
        · have hfirst : c.relink p.1 (some p.2) = c := if_neg hid
          rw [hfirst]
          rcases List.mem_cons.mp h with heq | hlater
          · rw [← heq] at hid
            exact absurd rfl hid
          · exact ih c hlater (fun other hmem => hone other (List.mem_cons_of_mem _ hmem))
  rcases assign_cases batch c with hkept | ⟨other, hmem, hlast⟩
  · rw [hkept] at hlink ⊢
    rw [← hlink]
  · rw [hlast, hone other hmem]

end

-- The links that a formed pool writes.
def assignments (f : Formation) : List (ObjectId × Nat) :=
  f.groups.values.flatMap (fun group =>
    if group.members.length < 2 ∨ newcomers f.joined group = [] then []
    else (newcomers f.joined group).map (fun id => (id, group.link)))

section

variable (kind : CommandNetwork)

theorem lift_ok {α : Type} {x : Except Error α} {w v : Theater} {a : α} (h : lift x w = .ok a v) :
    x = .ok a ∧ v = w := by
  cases x with
  | ok b =>
      injection h with ha hv
      rw [ha]
      exact ⟨rfl, hv.symm⟩
  | error e => contradiction

theorem establish_ok {joined : List (ObjectId × Nat)} {group : Group} {w v : Theater}
    {notices : List Notice} (h : establish kind joined group w = .ok notices v) :
    v = assignAll w kind
      (if group.members.length < 2 ∨ newcomers joined group = [] then []
      else (newcomers joined group).map (fun id => (id, group.link))) := by
  unfold establish at h
  split at h
  · rename_i hidle
    rw [if_pos hidle]
    injection h with hnotices hv
    exact hv.symm
  · rename_i hjoins
    rw [if_neg hjoins]
    obtain ⟨u, linked, hmodify, hrest⟩ := Update.ok_of_bind _ _ _ _ _ h
    obtain ⟨read, same, hget, hlift⟩ := Update.ok_of_bind _ _ _ _ _ hrest
    injection hmodify with _ hlinked
    injection hget with hread hsame
    obtain ⟨-, hv⟩ := lift_ok hlift
    rw [hv, ← hsame, ← hlinked]
    unfold linkAll assignAll
    rw [List.foldl_map]

theorem assignAll_append (w : Theater) (a b : List (ObjectId × Nat)) :
    assignAll w kind (a ++ b) = assignAll (assignAll w kind a) kind b := List.foldl_append ..

theorem establishAll_ok (joined : List (ObjectId × Nat)) (groups : List Group) (w v : Theater)
    (notices : List Notice) (h : establishAll kind joined groups w = .ok notices v) :
    v = assignAll w kind (groups.flatMap (fun group =>
      if group.members.length < 2 ∨ newcomers joined group = [] then []
      else (newcomers joined group).map (fun id => (id, group.link)))) := by
  induction groups generalizing w notices with
  | nil =>
      injection h with hnotices hv
      exact hv.symm
  | cons group groups ih =>
      obtain ⟨first, mid, hfirst, hrest⟩ := Update.ok_of_bind _ _ _ _ _ h
      obtain ⟨others, last, hothers, hpure⟩ := Update.ok_of_bind _ _ _ _ _ hrest
      injection hpure with hnotices hv
      subst hv
      rw [List.flatMap_cons, assignAll_append, ← establish_ok kind hfirst]
      exact ih mid others hothers

theorem linkPools_ok (all : List Candidate) (keys : List PoolKey) (hn : keys.Nodup) (nextLink : Nat)
    (w v : Theater) (notices : List Notice) (h : linkPools kind all keys nextLink w = .ok notices v)
    (hnext : ∀ pool n f, form kind pool n = .ok f → n ≤ f.nextLink) :
    ∃ formed : PoolKey → Formation,
      (∀ key ∈ keys, ∃ n, nextLink ≤ n ∧ form kind (poolAt all key) n = .ok (formed key)) ∧
        v = assignAll w kind (keys.flatMap (fun key => assignments (formed key))) := by
  induction keys generalizing nextLink w notices with
  | nil =>
      injection h with hnotices hv
      exact ⟨fun _ => ⟨OrderedMap.empty, 0, []⟩, fun key hkey => absurd hkey List.not_mem_nil, hv.symm⟩
  | cons key keys ih =>
      obtain ⟨hkey, hrest⟩ := List.nodup_cons.mp hn
      obtain ⟨f, same, hform, hlater⟩ := Update.ok_of_bind _ _ _ _ _ h
      obtain ⟨hf, hsame⟩ := lift_ok hform
      rw [hsame] at hlater
      obtain ⟨first, mid, hfirst, hmore⟩ := Update.ok_of_bind _ _ _ _ _ hlater
      obtain ⟨others, last, hothers, hpure⟩ := Update.ok_of_bind _ _ _ _ _ hmore
      injection hpure with hnotices hv
      subst hv
      obtain ⟨formed, hformed, hlast⟩ := ih hrest f.nextLink mid others hothers
      refine ⟨Function.update formed key f, ?_, ?_⟩
      · intro other hother
        rcases List.mem_cons.mp hother with rfl | hother
        · exact ⟨nextLink, Nat.le_refl _, by rw [Function.update_self, hf]⟩
        · obtain ⟨n, hn', hformn⟩ := hformed other hother
          have hne : other ≠ key := fun heq => hkey (heq ▸ hother)
          refine ⟨n, (hnext _ _ _ hf).trans hn', ?_⟩
          rw [Function.update_of_ne hne, hformn]
      · have hsame : keys.flatMap (fun other => assignments (Function.update formed key f other)) =
            keys.flatMap (fun other => assignments (formed other)) := by
          apply List.flatMap_congr
          intro other hother
          have hne : other ≠ key := fun heq => hkey (heq ▸ hother)
          rw [Function.update_of_ne hne]
        have hmid := establishAll_ok kind f.joined f.groups.values w mid first hfirst
        rw [List.flatMap_cons, assignAll_append, Function.update_self, hsame, hlast, hmid]
        rfl

-- Nothing is written, and nobody is told.
def Quiet (f : Formation) : Prop :=
  ∀ group ∈ f.groups.values, group.members.length < 2 ∨ newcomers f.joined group = []

theorem establishAll_quiet (joined : List (ObjectId × Nat)) (groups : List Group)
    (h : ∀ group ∈ groups, group.members.length < 2 ∨ newcomers joined group = []) (w : Theater) :
    establishAll kind joined groups w = .ok [] w := by
  induction groups with
  | nil => rfl
  | cons group groups ih =>
      have hfirst : establish kind joined group w = .ok [] w := by
        unfold establish
        rw [if_pos (h group List.mem_cons_self)]
        rfl
      have hrest := ih (fun other hother => h other (List.mem_cons_of_mem _ hother))
      unfold establishAll
      rw [Update.bind_ok _ _ w w [] hfirst, Update.bind_ok _ _ w w [] hrest]
      rfl

theorem linkPools_quiet (all : List Candidate) (keys : List PoolKey) (nextLink : Nat) (w : Theater)
    (hnext : ∀ pool n f, form kind pool n = .ok f → n ≤ f.nextLink) (stop : Error)
    (hstop : ∀ pool n e, form kind pool n = .error e → e = stop)
    (h : ∀ key ∈ keys, ∀ n f, nextLink ≤ n → form kind (poolAt all key) n = .ok f → Quiet f) :
    linkPools kind all keys nextLink w = .ok [] w ∨
      linkPools kind all keys nextLink w = .error stop w := by
  induction keys generalizing nextLink with
  | nil => exact Or.inl rfl
  | cons key keys ih =>
      unfold linkPools
      cases hf : form kind (poolAt all key) nextLink with
      | error e =>
          rw [← hstop _ _ e hf]
          exact Or.inr rfl
      | ok f =>
          have hquiet := h key List.mem_cons_self nextLink f (Nat.le_refl _) hf
          have hlift : lift (Except.ok f : Except Error Formation) w = .ok f w := rfl
          rw [Update.bind_ok _ _ w w f hlift,
            Update.bind_ok _ _ w w [] (establishAll_quiet kind f.joined _ hquiet w)]
          have hle := hnext _ _ _ hf
          have hrest := ih f.nextLink (fun other hother n g hn hg =>
            h other (List.mem_cons_of_mem _ hother) n g (hle.trans hn) hg)
          rcases hrest with hok | herror
          · rw [Update.bind_ok _ _ w w [] hok]
            exact Or.inl rfl
          · rw [Update.bind_error _ _ w herror]
            exact Or.inr rfl

end

end StompyMux.Network
