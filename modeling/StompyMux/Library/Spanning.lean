import Mathlib.Algebra.BigOperators.Group.List.Basic
import Mathlib.Algebra.Order.Ring.Nat
import Mathlib.Logic.Relation

-- Links between places, and the tree grown from one place by its shortest link outwards.
namespace StompyMux.Library.Spanning

variable {V : Type*}

def Joined (links : List (V × V)) (u v : V) : Prop := (u, v) ∈ links ∨ (v, u) ∈ links

def Connected (links : List (V × V)) : V → V → Prop := Relation.ReflTransGen (Joined links)

def total (length : V → V → Nat) (links : List (V × V)) : Nat := (links.map fun link => length link.1 link.2).sum

theorem Joined.symm (links : List (V × V)) (u v : V) (h : Joined links u v) : Joined links v u := Or.symm h

theorem Connected.symm (links : List (V × V)) (u v : V) (h : Connected links u v) : Connected links v u := by
  induction h with
  | refl => exact .refl
  | tail _ hjoined ih => exact .head (Joined.symm links _ _ hjoined) ih

theorem Connected.mono (links others : List (V × V)) (hsub : links ⊆ others) (u v : V)
    (h : Connected links u v) : Connected others u v := by
  refine Relation.ReflTransGen.mono (fun a b hjoined => ?_) u v h
  exact hjoined.imp (fun hmem => hsub hmem) fun hmem => hsub hmem

@[simp] theorem total_append (length : V → V → Nat) (links others : List (V × V)) :
    total length (links ++ others) = total length links + total length others := by simp [total]

@[simp] theorem total_cons (length : V → V → Nat) (link : V × V) (links : List (V × V)) :
    total length (link :: links) = length link.1 link.2 + total length links := by simp [total]

@[simp] theorem total_nil (length : V → V → Nat) : total length [] = 0 := rfl

theorem total_erase [DecidableEq V] (length : V → V → Nat) {links : List (V × V)} {link : V × V}
    (h : link ∈ links) : total length links = length link.1 link.2 + total length (links.erase link) := by
  have hperm := (List.perm_cons_erase h).map fun link => length link.1 link.2
  have hsum := hperm.sum_eq
  simpa [total] using hsum

-- Where a way from inside leaves for the last time.
theorem Connected.leaves (Inside : V → Prop) {links : List (V × V)} {a b : V} (h : Connected links a b)
    (ha : Inside a) (hb : ¬ Inside b) : ∃ u v, Joined links u v ∧ Inside u ∧ ¬ Inside v ∧
      Relation.ReflTransGen (fun x y => Joined links x y ∧ ¬ Inside x ∧ ¬ Inside y) v b := by
  induction h with
  | refl => exact absurd ha hb
  | @tail c d _ hjoined ih =>
    by_cases hc : Inside c
    · exact ⟨c, d, hjoined, hc, hb, .refl⟩
    · obtain ⟨u, v, hfirst, hu, hv, hway⟩ := ih hc
      exact ⟨u, v, hfirst, hu, hv, hway.tail ⟨hjoined, hc, hb⟩⟩

-- A link from inside to outside takes the place of one of the others that does the same.
theorem exchange [DecidableEq V] (Inside : V → Prop) (kept rest : List (V × V)) (a b : V) (ha : Inside a)
    (hb : ¬ Inside b) (hkept : ∀ link ∈ kept, Inside link.1 ∧ Inside link.2)
    (hinside : ∀ u, Inside u → Connected kept a u) (h : Connected (kept ++ rest) a b) :
    ∃ link ∈ rest, (Inside link.1 ∧ ¬ Inside link.2 ∨ Inside link.2 ∧ ¬ Inside link.1) ∧
      ∀ x y, Connected (kept ++ rest) x y → Connected (kept ++ (a, b) :: rest.erase link) x y := by
  obtain ⟨u, v, hjoined, hu, hv, hway⟩ := Connected.leaves Inside h ha hb
  obtain ⟨link, hmem, hlink⟩ : ∃ link ∈ kept ++ rest, link = (u, v) ∨ link = (v, u) := by
    rcases hjoined with hmem | hmem
    · exact ⟨_, hmem, .inl rfl⟩
    · exact ⟨_, hmem, .inr rfl⟩
  have hcross : Inside link.1 ∧ ¬ Inside link.2 ∨ Inside link.2 ∧ ¬ Inside link.1 := by
    rcases hlink with rfl | rfl
    · exact .inl ⟨hu, hv⟩
    · exact .inr ⟨hu, hv⟩
  have hrest : link ∈ rest := by
    rcases List.mem_append.mp hmem with hold | hrest
    · have hboth := hkept link hold
      rcases hcross with hout | hout
      · exact absurd hboth.2 hout.2
      · exact absurd hboth.1 hout.2
    · exact hrest
  refine ⟨link, hrest, hcross, ?_⟩
  have hstays : ∀ other, other ∈ kept ++ rest → other ≠ link → other ∈ kept ++ (a, b) :: rest.erase link := by
    intro other hother hne
    rcases List.mem_append.mp hother with hold | hnew
    · exact List.mem_append_left _ hold
    · exact List.mem_append_right _ (List.mem_cons_of_mem _ ((List.mem_erase_of_ne hne).mpr hnew))
  -- Outside, the way to the new link does without the old one.
  have houtside : Connected (kept ++ (a, b) :: rest.erase link) v b := by
    refine Relation.ReflTransGen.mono (fun x y hstep => ?_) v b hway
    obtain ⟨hxy, hx, hy⟩ := hstep
    refine hxy.imp (fun hmem => hstays _ hmem ?_) fun hmem => hstays _ hmem ?_
    · rintro rfl
      rcases hcross with hout | hout
      · exact hx hout.1
      · exact hy hout.1
    · rintro rfl
      rcases hcross with hout | hout
      · exact hy hout.1
      · exact hx hout.1
  have hback : Connected (kept ++ (a, b) :: rest.erase link) u v := by
    have hnear := Connected.mono kept (kept ++ (a, b) :: rest.erase link) (List.subset_append_left _ _) a u (hinside u hu)
    have hlinked : Joined (kept ++ (a, b) :: rest.erase link) a b :=
      .inl (List.mem_append_right _ List.mem_cons_self)
    exact ((hnear.symm _ _ _).tail hlinked).trans (houtside.symm _ _ _)
  intro x y hxy
  induction hxy with
  | refl => exact .refl
  | @tail y z _ hyz ih =>
    refine ih.trans ?_
    have hstep : ∀ p q, (p, q) ∈ kept ++ rest → Connected (kept ++ (a, b) :: rest.erase link) p q := by
      intro p q hpq
      by_cases hsame : (p, q) = link
      · rcases hlink with he | he
        · obtain ⟨rfl, rfl⟩ := Prod.mk.inj (hsame.trans he)
          exact hback
        · obtain ⟨rfl, rfl⟩ := Prod.mk.inj (hsame.trans he)
          exact hback.symm _ _ _
      · exact .single (.inl (hstays _ hpq hsame))
    rcases hyz with hmem | hmem
    · exact hstep y z hmem
    · exact (hstep z y hmem).symm _ _ _

-- The shortest link out of the tree so far, again and again.
inductive Grown (Place : V → Prop) (length : V → V → Nat) (root : V) : (V → Prop) → List (V × V) → Prop
  | root : Grown Place length root (fun v => v = root) []
  | link (Inside : V → Prop) (links : List (V × V)) (a b : V) (h : Grown Place length root Inside links)
      (ha : Inside a) (hb : Place b ∧ ¬ Inside b)
      (hleast : ∀ u v, Inside u → Place v → ¬ Inside v → length a b ≤ length u v) :
      Grown Place length root (fun v => Inside v ∨ v = b) (links ++ [(a, b)])

section Tree

variable (Place : V → Prop) (length : V → V → Nat) (root : V)

theorem Grown.connected (Inside : V → Prop) (links : List (V × V)) (h : Grown Place length root Inside links)
    (hroot : Place root) : (∀ u, Inside u → Place u ∧ Connected links root u) ∧
      ∀ link ∈ links, Inside link.1 ∧ Inside link.2 := by
  induction h with
  | root =>
    refine ⟨?_, fun link hlink => absurd hlink List.not_mem_nil⟩
    rintro u rfl
    exact ⟨hroot, .refl⟩
  | link Inside links a b _ ha hb _ ih =>
    obtain ⟨hinside, hlinks⟩ := ih
    have hmono := fun u => Connected.mono links (links ++ [(a, b)]) (List.subset_append_left _ _) root u
    have hjoined : Joined (links ++ [(a, b)]) a b := .inl (List.mem_append_right _ List.mem_cons_self)
    refine ⟨?_, ?_⟩
    · rintro u (hu | rfl)
      · exact ⟨(hinside u hu).1, hmono u (hinside u hu).2⟩
      · exact ⟨hb.1, (hmono a (hinside a ha).2).tail hjoined⟩
    · intro link hlink
      rcases List.mem_append.mp hlink with hold | hnew
      · exact ⟨.inl (hlinks link hold).1, .inl (hlinks link hold).2⟩
      · rw [List.mem_singleton.mp hnew]
        exact ⟨.inl ha, .inr rfl⟩

-- Links that connect every place can be traded for those of the tree, at no greater length.
theorem Grown.completes [DecidableEq V] (hsymm : ∀ u v, length u v = length v u) (hroot : Place root)
    (others : List (V × V)) (hothers : ∀ link ∈ others, Place link.1 ∧ Place link.2)
    (hspan : ∀ u v, Place u → Place v → Connected others u v) (Inside : V → Prop) (links : List (V × V))
    (h : Grown Place length root Inside links) :
    ∃ rest, (∀ link ∈ rest, Place link.1 ∧ Place link.2) ∧
      (∀ u v, Place u → Place v → Connected (links ++ rest) u v) ∧
      total length (links ++ rest) ≤ total length others := by
  induction h with
  | root => exact ⟨others, hothers, hspan, le_refl _⟩
  | link Inside links a b hgrown ha hb hleast ih =>
    obtain ⟨rest, hrest, hconnected, hle⟩ := ih
    obtain ⟨hinside, hlinks⟩ := hgrown.connected Place length root Inside links hroot
    have htree : ∀ u, Inside u → Connected links a u := fun u hu =>
      ((hinside a ha).2.symm _ _ _).trans (hinside u hu).2
    obtain ⟨link, hlink, hcross, hkeeps⟩ := exchange Inside links rest a b ha hb.2 hlinks htree
      (hconnected a b (hinside a ha).1 hb.1)
    have hshorter : length a b ≤ length link.1 link.2 := by
      rcases hcross with hout | hout
      · exact hleast _ _ hout.1 (hrest link hlink).2 hout.2
      · rw [hsymm link.1]
        exact hleast _ _ hout.1 (hrest link hlink).1 hout.2
    refine ⟨rest.erase link, fun other hother => hrest other (List.mem_of_mem_erase hother), fun u v hu hv => ?_, ?_⟩
    · rw [List.append_assoc, List.singleton_append]
      exact hkeeps u v (hconnected u v hu hv)
    · have herase := total_erase length hlink
      simp only [total_append, total_cons, total_nil] at hle ⊢
      omega

-- Once it holds every place, the tree is no longer than any links that connect them all.
theorem Grown.least [DecidableEq V] (hsymm : ∀ u v, length u v = length v u) (hroot : Place root)
    (links : List (V × V)) (Inside : V → Prop) (h : Grown Place length root Inside links)
    (others : List (V × V)) (hothers : ∀ link ∈ others, Place link.1 ∧ Place link.2)
    (hspan : ∀ u v, Place u → Place v → Connected others u v) : total length links ≤ total length others := by
  obtain ⟨rest, -, -, hle⟩ := h.completes Place length root hsymm hroot others hothers hspan
  rw [total_append] at hle
  omega

end Tree

end StompyMux.Library.Spanning
