import Mathlib.Data.List.Basic
import Mathlib.Logic.Function.Basic

-- Lists threaded through a table of next pointers, ended by a pointer to nothing.
namespace StompyMux.Library.Chain

variable {K : Type} (nil : K)

-- From a pointer on, the members in their order and then the end.
def Chained (next : K → K) : K → List K → Prop
  | p, [] => p = nil
  | p, k :: rest => p = k ∧ Chained next (next k) rest

section

variable (next other : K → K)

theorem Chained.pointer {p : K} {order : List K} (h : Chained nil next p order) :
    p = order.headD nil := by
  cases order with
  | nil => exact h
  | cons k rest => exact h.1

theorem Chained.unique (p : K) (a b : List K) (ha : Chained nil next p a) (hb : Chained nil next p b)
    (hna : nil ∉ a) (hnb : nil ∉ b) : a = b := by
  induction a generalizing p b with
  | nil =>
      cases b with
      | nil => rfl
      | cons j rest =>
          have hnil : nil = j := ha.symm.trans hb.1
          exact absurd (hnil ▸ List.mem_cons_self) hnb
  | cons k rest ih =>
      cases b with
      | nil =>
          have hnil : nil = k := hb.symm.trans ha.1
          exact absurd (hnil ▸ List.mem_cons_self) hna
      | cons j tail =>
          obtain ⟨hk, hrest⟩ := ha
          obtain ⟨hj, htail⟩ := hb
          have hjk : j = k := hj.symm.trans hk
          subst hjk
          rw [ih (next j) tail hrest htail (fun h => hna (List.mem_cons_of_mem _ h))
            (fun h => hnb (List.mem_cons_of_mem _ h))]

theorem Chained.frame (p : K) (order : List K) (h : Chained nil next p order)
    (hsame : ∀ k ∈ order, other k = next k) : Chained nil other p order := by
  induction order generalizing p with
  | nil => exact h
  | cons k rest ih =>
      refine ⟨h.1, ?_⟩
      rw [hsame k List.mem_cons_self]
      exact ih (next k) h.2 (fun j hj => hsame j (List.mem_cons_of_mem _ hj))

theorem Chained.agree (p q : K) (order : List K) (h : Chained nil next p order)
    (h' : Chained nil other q order) : ∀ k ∈ order, next k = other k := by
  induction order generalizing p q with
  | nil => exact fun k hk => absurd hk List.not_mem_nil
  | cons j rest ih =>
      intro k hk
      rcases List.mem_cons.mp hk with rfl | hk
      · rw [h.2.pointer nil next, h'.2.pointer nil other]
      · exact ih (next j) (other j) h.2 h'.2 k hk

end

section

variable [DecidableEq K]

-- Write the pointers of a list, in its order.
def thread (next : K → K) : List K → K → K
  | [] => next
  | k :: rest => thread (Function.update next k (rest.headD nil)) rest

theorem thread_other (next : K → K) {order : List K} {k : K} (h : k ∉ order) :
    thread nil next order k = next k := by
  induction order generalizing next with
  | nil => rfl
  | cons j rest ih =>
      have hne : k ≠ j := fun hkj => h (List.mem_cons.mpr (Or.inl hkj))
      rw [thread, ih _ (fun hk => h (List.mem_cons_of_mem _ hk)), Function.update_of_ne hne]

theorem thread_chained (next : K → K) (order : List K) (h : order.Nodup) :
    Chained nil (thread nil next order) (order.headD nil) order := by
  induction order generalizing next with
  | nil => rfl
  | cons k rest ih =>
      obtain ⟨hk, hrest⟩ := List.nodup_cons.mp h
      refine ⟨rfl, ?_⟩
      rw [thread, thread_other nil _ hk, Function.update_self]
      exact ih _ hrest

end

end StompyMux.Library.Chain
