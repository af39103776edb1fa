import StompyMux.Communication.Channels

-- The online list of a channel is exactly who can hear it.
namespace StompyMux.Communication

open Library Library.Fallible
open StompyMux.World (ObjectId Kind)

namespace Channel

def members (c : Channel) : List ObjectId := c.users.map Membership.who

-- The online list is right for everyone but the one excepted.
structure Exact (eligible : ObjectId → Bool) (excepted : Option ObjectId) (c : Channel) : Prop where
  nodup : c.online.Nodup
  mem : ∀ p, some p ≠ excepted → (p ∈ c.online ↔ p ∈ c.members ∧ eligible p = true)

structure Kept (eligible : ObjectId → Bool) (excepted : Option ObjectId) (c : Channel) : Prop where
  sorted : c.users.Pairwise fun a b => a.who < b.who
  online : c.onlineInitialized = true → Exact eligible excepted c

variable {eligible : ObjectId → Bool} {excepted : Option ObjectId} {c : Channel}

theorem Kept.members_nodup (h : Kept eligible excepted c) : c.members.Nodup :=
  List.pairwise_map.mpr (h.sorted.imp fun hlt => ne_of_lt hlt)

theorem Exact.except (h : Exact eligible none c) (excepted : Option ObjectId) :
    Exact eligible excepted c := ⟨h.nodup, fun p _ => h.mem p nofun⟩

theorem Kept.except (h : Kept eligible none c) (excepted : Option ObjectId) :
    Kept eligible excepted c := ⟨h.sorted, fun hinit => (h.online hinit).except excepted⟩

theorem Kept.congr (h : Kept eligible excepted c) {eligible' : ObjectId → Bool}
    (heq : ∀ p, some p ≠ excepted → eligible' p = eligible p) : Kept eligible' excepted c where
  sorted := h.sorted
  online hinit := by
    refine ⟨(h.online hinit).nodup, fun p hp => ?_⟩
    rw [heq p hp]
    exact (h.online hinit).mem p hp

theorem Kept.of_same (h : Kept eligible excepted c) {c' : Channel} (hsame : c'.members = c.members)
    (hsorted : c'.users.Pairwise fun a b => a.who < b.who) (honline : c'.online = c.online)
    (hinit : c'.onlineInitialized = c.onlineInitialized) : Kept eligible excepted c' where
  sorted := hsorted
  online hc := by
    have hexact := h.online (hinit ▸ hc)
    refine ⟨honline ▸ hexact.nodup, fun p hp => ?_⟩
    rw [honline, hsame]
    exact hexact.mem p hp

theorem sorted_of_members {c c' : Channel} (hsame : c'.members = c.members)
    (hsorted : c.users.Pairwise fun a b => a.who < b.who) :
    c'.users.Pairwise fun a b => a.who < b.who := by
  have hmembers : c.members.Pairwise (· < ·) := List.pairwise_map.mpr hsorted
  rw [← hsame] at hmembers
  exact List.pairwise_map.mp hmembers

theorem members_setListening (who : ObjectId) (listening : Bool) :
    (c.setListening who listening).members = c.members := by
  unfold members setListening
  refine List.ext_getElem? fun i => ?_
  rw [List.getElem?_map, List.getElem?_map, List.getElem?_modify]
  cases c.users[i]? with
  | none => rfl
  | some u =>
      simp only [Option.map_eq_map, Option.map_some]
      split <;> rfl

theorem mem_present (p : ObjectId) :
    p ∈ (c.users.filter fun u => eligible u.who).map Membership.who ↔
      p ∈ c.members ∧ eligible p = true := by
  unfold members
  rw [List.mem_map, List.mem_map]
  constructor
  · rintro ⟨u, hu, rfl⟩
    obtain ⟨hmem, heligible⟩ := List.mem_filter.mp hu
    exact ⟨⟨u, hmem, rfl⟩, heligible⟩
  · rintro ⟨⟨u, hu, rfl⟩, heligible⟩
    exact ⟨u, List.mem_filter.mpr ⟨hu, heligible⟩, rfl⟩

theorem reconcile_initialized : (c.reconcile eligible).onlineInitialized = true := by
  unfold reconcile
  cases c.onlineInitialized <;> rfl

theorem reconcile_users : (c.reconcile eligible).users = c.users := by
  unfold reconcile
  cases c.onlineInitialized <;> rfl

theorem reconcile_history : (c.reconcile eligible).history = c.history := by
  unfold reconcile
  cases c.onlineInitialized <;> rfl

-- Whatever the list held before, it now holds the eligible members.
theorem Kept.reconcile (h : Kept eligible excepted c) :
    Kept eligible excepted (c.reconcile eligible) where
  sorted := by
    rw [reconcile_users]
    exact h.sorted
  online _ := by
    unfold Channel.reconcile
    cases hinit : c.onlineInitialized with
    | true =>
        have hexact := h.online hinit
        refine ⟨hexact.nodup.filter _, fun p hp => ?_⟩
        show p ∈ c.online.filter _ ↔ _
        rw [List.mem_filter, List.contains_iff_mem, mem_present]
        exact and_iff_right_of_imp (hexact.mem p hp).mpr
    | false =>
        refine ⟨?_, fun p _ => ?_⟩
        · have hsub : ((c.users.filter fun u => eligible u.who).map Membership.who).Sublist
              c.members := List.filter_sublist.map _
          exact List.nodup_reverse.mpr (h.members_nodup.sublist hsub)
        · show p ∈ (List.map _ _).reverse ↔ _
          rw [List.mem_reverse]
          exact mem_present p

theorem Kept.withoutOnline (h : Kept eligible excepted c) {who : ObjectId}
    (hexcepted : ∀ p, excepted = some p → p = who) :
    Kept eligible (some who) (c.withoutOnline who) where
  sorted := h.sorted
  online hinit := by
    have hexact := h.online hinit
    refine ⟨hexact.nodup.filter _, fun p hp => ?_⟩
    have hne : p ≠ who := fun heq => hp (congrArg some heq)
    show p ∈ c.online.filter _ ↔ _
    rw [List.mem_filter, decide_eq_true_eq, and_iff_left hne]
    exact hexact.mem p fun heq => hne (hexcepted p heq.symm)

theorem mem_withoutMember (c : Channel) (who p : ObjectId) :
    p ∈ (c.withoutMember who).members ↔ p ∈ c.members ∧ p ≠ who := by
  unfold members withoutMember
  simp only [List.mem_map, List.mem_filter, decide_eq_true_eq]
  constructor
  · rintro ⟨u, ⟨hu, hne⟩, rfl⟩
    exact ⟨⟨u, hu, rfl⟩, hne⟩
  · rintro ⟨⟨u, hu, rfl⟩, hne⟩
    exact ⟨u, ⟨hu, hne⟩, rfl⟩

theorem Kept.withoutMember (h : Kept eligible excepted c) {who : ObjectId}
    (hexcepted : ∀ p, excepted = some p → p = who) :
    Kept eligible none (c.withoutMember who) where
  sorted := h.sorted.filter _
  online hinit := by
    have hexact := (h.withoutOnline hexcepted).online hinit
    refine ⟨hexact.nodup, fun p _ => ?_⟩
    rw [mem_withoutMember]
    by_cases heq : p = who
    · refine iff_of_false (fun hmem => ?_) fun hboth => hboth.1.2 heq
      have hkept := (List.mem_filter.mp hmem).2
      rw [decide_eq_true_eq] at hkept
      exact hkept heq
    · rw [and_iff_left heq]
      exact hexact.mem p fun hsome => heq (Option.some_inj.mp hsome)

-- A member whose connection changed is put on the list or taken off it.
theorem Kept.present (h : Kept eligible excepted c) {who : ObjectId} {connected : Bool}
    (hexcepted : ∀ p, excepted = some p → p = who) (hmember : who ∈ c.members)
    (hconnected : eligible who = connected) : Kept eligible none (c.present who connected) where
  sorted := by
    unfold Channel.present
    cases connected <;> exact h.sorted
  online hinit := by
    have hnot : who ∉ (c.withoutOnline who).online := by
      intro hmem
      have hkept := (List.mem_filter.mp hmem).2
      rw [decide_eq_true_eq] at hkept
      exact hkept rfl
    unfold Channel.present at hinit ⊢
    cases connected with
    | true =>
        have hexact := (h.withoutOnline hexcepted).online hinit
        refine ⟨List.nodup_cons.mpr ⟨hnot, hexact.nodup⟩, fun p _ => ?_⟩
        show p ∈ who :: _ ↔ p ∈ c.members ∧ _
        rw [List.mem_cons]
        by_cases heq : p = who
        · exact iff_of_true (Or.inl heq) (heq ▸ ⟨hmember, hconnected⟩)
        · rw [or_iff_right heq]
          exact hexact.mem p fun hsome => heq (Option.some_inj.mp hsome)
    | false =>
        have hexact := (h.withoutOnline hexcepted).online hinit
        refine ⟨hexact.nodup, fun p _ => ?_⟩
        by_cases heq : p = who
        · refine iff_of_false (heq ▸ hnot) fun hboth => ?_
          rw [heq, hconnected] at hboth
          exact Bool.noConfusion hboth.2
        · exact hexact.mem p fun hsome => heq (Option.some_inj.mp hsome)

theorem Kept.setListening (h : Kept eligible excepted c) (who : ObjectId) (listening : Bool) :
    Kept eligible excepted (c.setListening who listening) :=
  h.of_same (members_setListening who listening)
    (sorted_of_members (members_setListening who listening) h.sorted) rfl rfl

theorem member_isSome_iff (who : ObjectId) : (c.member who).isSome = true ↔ who ∈ c.members := by
  unfold member members
  rw [List.find?_isSome, List.mem_map]
  simp only [decide_eq_true_eq]

theorem who_of_member {who : ObjectId} {u : Membership} (h : c.member who = some u) :
    u.who = who := by
  have hfound := List.find?_some h
  rwa [decide_eq_true_eq] at hfound

theorem mem_enrol (who : ObjectId) (online : Bool) (p : ObjectId) :
    p ∈ (c.enrol who online).members ↔ p = who ∨ p ∈ c.members := by
  unfold enrol
  split
  case isTrue hmember =>
    rw [members_setListening]
    refine ⟨Or.inr, fun h => h.elim (fun heq => ?_) fun hmem => hmem⟩
    rw [heq]
    exact (member_isSome_iff who).mp hmember
  case isFalse =>
    unfold members
    simp only [List.mem_map, (stableSort_perm Membership.who _).mem_iff, List.mem_append,
      List.mem_singleton]
    constructor
    · rintro ⟨u, hu | rfl, rfl⟩
      · exact Or.inr ⟨u, hu, rfl⟩
      · exact Or.inl rfl
    · rintro (rfl | ⟨u, hu, rfl⟩)
      · exact ⟨⟨p, true⟩, Or.inr rfl, rfl⟩
      · exact ⟨u, Or.inl hu, rfl⟩

-- Members stay in order, and a new one is online exactly when it is connected.
theorem Kept.enrol (h : Kept eligible none c) (who : ObjectId) (online : Bool)
    (honline : eligible who = online) : Kept eligible none (c.enrol who online) := by
  have hmem := mem_enrol (c := c) who online
  unfold Channel.enrol at hmem ⊢
  split at hmem
  case isTrue hmember =>
    rw [if_pos hmember]
    exact h.setListening who true
  case isFalse hmember =>
    rw [if_neg hmember]
    have hnew : who ∉ c.members := fun hwho => hmember ((member_isSome_iff who).mpr hwho)
    have hdistinct : (c.users ++ [Membership.mk who true]).Pairwise
        fun a b : Membership => a.who ≠ b.who := by
      refine List.pairwise_append.mpr ⟨h.sorted.imp fun hlt => ne_of_lt hlt,
        List.pairwise_singleton _ _, fun a ha b hb heq => hnew ?_⟩
      rw [List.mem_singleton.mp hb] at heq
      exact List.mem_map.mpr ⟨a, ha, heq⟩
    refine ⟨(ranked_stableSort hdistinct).imp fun hranked => ?_, fun hinit => ?_⟩
    · exact hranked.elim (fun hlt => hlt) fun htie => absurd htie.1 htie.2
    · have hexact := h.online hinit
      have hoff : who ∉ c.online := fun hwho => hnew ((hexact.mem who nofun).mp hwho).1
      refine ⟨?_, fun p _ => ?_⟩
      · show (if online then who :: c.online else c.online).Nodup
        split
        · exact List.nodup_cons.mpr ⟨hoff, hexact.nodup⟩
        · exact hexact.nodup
      · rw [hmem p]
        show p ∈ (if online then who :: c.online else c.online) ↔ _
        cases honl : online with
        | true =>
            rw [if_pos rfl, List.mem_cons]
            by_cases heq : p = who
            · exact iff_of_true (Or.inl heq) ⟨Or.inl heq, by rw [heq, honline, honl]⟩
            · rw [or_iff_right heq, or_iff_right heq]
              exact hexact.mem p nofun
        | false =>
            rw [if_neg Bool.false_ne_true]
            by_cases heq : p = who
            · refine iff_of_false (heq ▸ hoff) fun hboth => ?_
              rw [heq, honline, honl] at hboth
              exact Bool.noConfusion hboth.2
            · rw [or_iff_right heq]
              exact hexact.mem p nofun

end Channel

end StompyMux.Communication
