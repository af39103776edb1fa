import Mathlib.Data.List.Basic
import Mathlib.Data.List.Induction

-- Computations that may fail, with the message and the contexts of a failure.
namespace StompyMux.Library.Fallible

-- The outermost context first, the cause last.
abbrev Error := List String

def ensure (condition : Bool) (message : String) : Except Error Unit :=
  if condition then .ok () else .error [message]

def withContext {α : Type} (context : String) : Except Error α → Except Error α
  | .ok a => .ok a
  | .error e => .error (context :: e)

def ofOption {α : Type} (message : String) : Option α → Except Error α
  | some a => .ok a
  | none => .error [message]

section

variable {α β ε : Type}

variable {condition : Bool} {message : String} {x : Except ε α} {f : α → Except ε β}
  {context : String} {γ : Type}

theorem ok_of_bind {b : β} (h : (x >>= f) = .ok b) : ∃ a, x = .ok a ∧ f a = .ok b := by
  cases x with
  | ok a => exact ⟨a, rfl, h⟩
  | error e => contradiction

theorem bind_ok {a : α} {b : β} (hx : x = .ok a) (hf : f a = .ok b) : (x >>= f) = .ok b := by
  rw [hx]
  exact hf

theorem bind_ok_iff {b : β} : (x >>= f) = .ok b ↔ ∃ a, x = .ok a ∧ f a = .ok b :=
  ⟨ok_of_bind, fun ⟨_, hx, hf⟩ => bind_ok hx hf⟩

theorem ok_of_ensure {f : Unit → Except Error β} {b : β}
    (h : (ensure condition message >>= f) = .ok b) : condition = true ∧ f () = .ok b := by
  cases condition with
  | true => exact ⟨rfl, h⟩
  | false => contradiction

@[simp] theorem ensure_true_bind {f : Unit → Except Error β} :
    (ensure true message >>= f) = f () := rfl

theorem ok_of_withContext {x : Except Error α} {a : α}
    (h : withContext context x = .ok a) : x = .ok a := by
  cases x with
  | ok b => exact h
  | error e => contradiction

theorem ok_of_ofOption {x : Option α} {a : α} (h : ofOption message x = .ok a) : x = some a := by
  cases x with
  | some b =>
      injection h with h
      rw [h]
  | none => contradiction

theorem ensure_ok (h : condition = true) : ensure condition message = .ok () := by
  rw [h]
  rfl

theorem ensure_ok_iff : ensure condition message = .ok () ↔ condition = true := by
  refine ⟨fun h => ?_, ensure_ok⟩
  cases condition with
  | true => rfl
  | false => contradiction

theorem ensure_bind_ok_iff {f : Unit → Except Error β} {b : β} :
    (ensure condition message >>= f) = .ok b ↔ condition = true ∧ f () = .ok b := by
  refine ⟨ok_of_ensure, fun ⟨hc, hf⟩ => ?_⟩
  exact bind_ok (ensure_ok hc) hf

theorem ofOption_ok {x : Option α} {a : α} (h : x = some a) : ofOption message x = .ok a := by
  rw [h]
  rfl

theorem ofOption_ok_iff {x : Option α} {a : α} : ofOption message x = .ok a ↔ x = some a :=
  ⟨ok_of_ofOption, ofOption_ok⟩

theorem forM_ok {f : α → Except ε Unit} {items : List α} (h : ∀ a ∈ items, f a = .ok ()) :
    items.forM f = .ok () := by
  induction items with
  | nil => rfl
  | cons a items ih =>
      have ⟨ha, hlater⟩ := List.forall_mem_cons.mp h
      show (f a >>= fun _ => items.forM f) = .ok ()
      rw [ha]
      exact ih hlater

theorem ok_of_forM {f : α → Except ε Unit} {items : List α} (h : items.forM f = .ok ()) :
    ∀ a ∈ items, f a = .ok () := by
  induction items with
  | nil => exact fun a ha => by contradiction
  | cons a items ih =>
      obtain ⟨⟨⟩, ha, hrest⟩ := ok_of_bind h
      exact List.forall_mem_cons.mpr ⟨ha, ih hrest⟩

theorem mapM_ok (f : α → Except ε β) (g : α → β) (items : List α)
    (h : ∀ a ∈ items, f a = .ok (g a)) : items.mapM f = .ok (items.map g) := by
  induction items with
  | nil => rfl
  | cons a items ih =>
      have ⟨ha, hlater⟩ := List.forall_mem_cons.mp h
      rw [List.mapM_cons, ha, ih hlater]
      rfl

theorem length_of_mapM (f : α → Except ε β) (items : List α) (results : List β)
    (h : items.mapM f = .ok results) : results.length = items.length := by
  induction items generalizing results with
  | nil =>
      injection h with h
      subst h
      rfl
  | cons a items ih =>
      rw [List.mapM_cons] at h
      obtain ⟨b, -, h⟩ := ok_of_bind h
      obtain ⟨rest, hrest, h⟩ := ok_of_bind h
      injection h with h
      subst h
      rw [List.length_cons, List.length_cons, ih rest hrest]

theorem of_mapM (P : β → Prop) (f : α → Except ε β) (items : List α)
    (hf : ∀ a ∈ items, ∀ b, f a = .ok b → P b) (results : List β) (h : items.mapM f = .ok results) :
    ∀ b ∈ results, P b := by
  induction items generalizing results with
  | nil =>
      injection h with h
      subst h
      exact fun b hb => by contradiction
  | cons a items ih =>
      have ⟨ha, hlater⟩ := List.forall_mem_cons.mp hf
      rw [List.mapM_cons] at h
      obtain ⟨b, hb, h⟩ := ok_of_bind h
      obtain ⟨rest, hrest, h⟩ := ok_of_bind h
      injection h with h
      subst h
      exact List.forall_mem_cons.mpr ⟨ha b hb, ih hlater rest hrest⟩

theorem withContext_ok {x : Except Error α} {a : α} (h : x = .ok a) :
    withContext context x = .ok a := by
  rw [h]
  rfl

theorem withContext_ok_iff {x : Except Error Unit} : withContext context x = .ok () ↔ x = .ok () :=
  ⟨ok_of_withContext, withContext_ok⟩

theorem unit_bind_ok_iff {x : Except ε Unit} {f : Unit → Except ε β} {b : β} :
    (x >>= f) = .ok b ↔ x = .ok () ∧ f () = .ok b := by
  refine ⟨fun h => ?_, fun ⟨hx, hf⟩ => bind_ok hx hf⟩
  obtain ⟨⟨⟩, hx, hf⟩ := ok_of_bind h
  exact ⟨hx, hf⟩

-- What holds before a run and is kept by each step holds after it.
theorem foldlM_keeps (I : List α → β → Prop) {f : β → α → Except ε β} {items : List α}
    (hstep : ∀ before a after b c, items = before ++ a :: after → I before b → f b a = .ok c →
      I (before ++ [a]) c) {b c : β} (hstart : I [] b) (h : items.foldlM f b = .ok c) : I items c := by
  have hrun : ∀ (rest before : List α) (b : β), items = before ++ rest → I before b →
      rest.foldlM f b = .ok c → I items c := by
    intro rest
    induction rest with
    | nil =>
        intro before b hitems hb hr
        injection hr with hr
        rw [hitems, List.append_nil, ← hr]
        exact hb
    | cons a rest ih =>
        intro before b hitems hb hr
        rw [List.foldlM_cons] at hr
        obtain ⟨d, hd, hr⟩ := ok_of_bind hr
        apply ih (before ++ [a]) d
        · rw [hitems, List.append_assoc, List.singleton_append]
        · exact hstep before a rest b d hitems hb hd
        · exact hr
  exact hrun items [] b rfl hstart h

-- A run that collects keys, none of them twice.
theorem distinct_of_foldlM {K : Type} (key : α → K) (P : α → Prop) {f : List K → α → Except ε (List K)}
    (hstep : ∀ seen a seen', f seen a = .ok seen' → key a ∉ seen ∧ P a ∧ seen' = key a :: seen)
    {items : List α} {seen : List K} (h : items.foldlM f [] = .ok seen) :
    (items.map key).Nodup ∧ ∀ a ∈ items, P a := by
  have hall := foldlM_keeps (fun done seen =>
      (∀ k, k ∈ seen ↔ k ∈ done.map key) ∧ (done.map key).Nodup ∧ ∀ a ∈ done, P a)
    (by
      rintro done a rest seen seen' - ⟨hseen, hnodup, hdone⟩ hf
      obtain ⟨hnew, ha, rfl⟩ := hstep seen a seen' hf
      have hmap : (done ++ [a]).map key = done.map key ++ [key a] := List.map_append
      refine ⟨fun k => ?_, ?_, fun b hb => ?_⟩
      · rw [hmap, List.mem_cons, List.mem_append, List.mem_singleton, hseen, or_comm]
      · rw [hmap, List.nodup_append]
        refine ⟨hnodup, List.pairwise_singleton _ _, fun k hk k' hk' heq => hnew ?_⟩
        rw [hseen, ← List.mem_singleton.mp hk', ← heq]
        exact hk
      · rcases List.mem_append.mp hb with hb | hb
        · exact hdone b hb
        · exact List.mem_singleton.mp hb ▸ ha) ⟨fun k => Iff.rfl, List.nodup_nil, fun a ha => by contradiction⟩ h
  exact hall.2

-- A run succeeds when each step does from what holds before it.
theorem foldlM_succeeds (I : List α → β → Prop) (f : β → α → Except ε β) (items : List α)
    (hstep : ∀ before a after b, items = before ++ a :: after → I before b →
      ∃ c, f b a = .ok c ∧ I (before ++ [a]) c) (b : β) (hstart : I [] b) :
    ∃ c, items.foldlM f b = .ok c ∧ I items c := by
  have hrun : ∀ (rest before : List α) (b : β), items = before ++ rest → I before b →
      ∃ c, rest.foldlM f b = .ok c ∧ I items c := by
    intro rest
    induction rest with
    | nil =>
        intro before b hitems hb
        rw [hitems, List.append_nil]
        exact ⟨b, rfl, hb⟩
    | cons a rest ih =>
        intro before b hitems hb
        obtain ⟨c, hc, hnext⟩ := hstep before a rest b hitems hb
        obtain ⟨d, hd, hlast⟩ := ih (before ++ [a]) c
          (by rw [hitems, List.append_assoc, List.singleton_append]) hnext
        refine ⟨d, ?_, hlast⟩
        rw [List.foldlM_cons, hc]
        exact hd
  exact hrun items [] b rfl hstart

-- The same over the numbered items of a list, from what holds before each number.
theorem foldlM_zipIdx_succeeds (I : Nat → β → Prop) (f : β → α × Nat → Except ε β) (items : List α)
    (hstep : ∀ i a b, items[i]? = some a → I i b → ∃ c, f b (a, i) = .ok c ∧ I (i + 1) c) (b : β)
    (hstart : I 0 b) : ∃ c, items.zipIdx.foldlM f b = .ok c ∧ I items.length c := by
  have h := foldlM_succeeds (fun before b => I before.length b) f items.zipIdx
    (by
      rintro before ⟨a, i⟩ after b hitems hb
      have hget : items.zipIdx[before.length]? = some (a, i) := by
        rw [hitems, List.getElem?_append_right (Nat.le_refl _), Nat.sub_self]
        rfl
      rw [List.getElem?_zipIdx, Option.map_eq_some_iff] at hget
      obtain ⟨a', ha, heq⟩ := hget
      injection heq with ha' hi
      have hi : before.length = i := by omega
      subst ha' hi
      obtain ⟨c, hc, hI⟩ := hstep before.length a' b ha hb
      exact ⟨c, hc, by rwa [List.length_append, List.length_singleton]⟩)
    b hstart
  obtain ⟨c, hc, hI⟩ := h
  exact ⟨c, hc, by rwa [List.length_zipIdx] at hI⟩

theorem mapM_range (items : List γ) (f : Nat → Except ε β) (g : γ → β)
    (h : ∀ i a, items[i]? = some a → f i = .ok (g a)) :
    (List.range items.length).mapM f = .ok (items.map g) := by
  induction items using List.reverseRecOn with
  | nil => rfl
  | append_singleton items a ih =>
      have hfront := ih (by
        intro i b hi
        obtain ⟨hlt, -⟩ := List.getElem?_eq_some_iff.mp hi
        exact h i b (by rw [List.getElem?_append_left hlt, hi]))
      have hlast := h items.length a (by simp)
      rw [List.length_append, List.length_singleton, List.range_succ, List.mapM_append, hfront]
      show ((fun rest => items.map g ++ rest) <$> [items.length].mapM f) = _
      rw [List.mapM_cons, hlast, List.map_append]
      rfl

-- A run on a part of the state, whose steps follow the successful steps on the whole.
theorem foldlM_project (f : β → α → Except ε β) (g : γ → α → Except ε γ) (part : β → γ)
    (items : List α)
    (hstep : ∀ a ∈ items, ∀ b c, f b a = .ok c → g (part b) a = .ok (part c)) (b c : β)
    (h : items.foldlM f b = .ok c) : items.foldlM g (part b) = .ok (part c) := by
  induction items generalizing b with
  | nil =>
      injection h with h
      rw [h]
      rfl
  | cons a items ih =>
      rw [List.foldlM_cons] at h ⊢
      obtain ⟨d, hd, hrest⟩ := ok_of_bind h
      rw [hstep a List.mem_cons_self b d hd]
      exact ih (fun e he => hstep e (List.mem_cons_of_mem _ he)) d hrest

theorem foldlM_agrees {f : β → α → Except ε β} (g : β → α → Except ε β) {items : List α}
    (hstep : ∀ a ∈ items, ∀ b c, f b a = .ok c → g b a = .ok c) {b c : β}
    (h : items.foldlM f b = .ok c) : items.foldlM g b = .ok c :=
  foldlM_project f g id items hstep b c h

end

end StompyMux.Library.Fallible
