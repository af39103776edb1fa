-- Programs that change a state and may fail, with the state they failed in.
namespace StompyMux.Library

abbrev Update (σ ε α : Type) := EStateM ε σ α

-- What holds between the state before and the state after, however long the program runs.
structure Journey {σ : Type} (R : σ → σ → Prop) : Prop where
  refl : ∀ s, R s s
  trans : ∀ s t u, R s t → R t u → R s u

namespace Update

variable {σ ε α β : Type}

def after (x : Update σ ε α) (s : σ) : σ :=
  match x s with
  | .ok _ t => t
  | .error _ t => t

variable (x : Update σ ε α) (f : α → Update σ ε β)

theorem after_ok (s : σ) {t : σ} {a : α} (h : x s = .ok a t) : x.after s = t := by
  rw [after, h]

theorem after_error (s t : σ) (e : ε) (h : x s = .error e t) : x.after s = t := by
  rw [after, h]

theorem bind_ok (s t : σ) (a : α) (h : x s = .ok a t) : (x >>= f) s = f a t := by
  show EStateM.bind x f s = f a t
  rw [EStateM.bind, h]

theorem bind_error (s : σ) {t : σ} {e : ε} (h : x s = .error e t) : (x >>= f) s = .error e t := by
  show EStateM.bind x f s = .error e t
  rw [EStateM.bind, h]

theorem ok_of_bind (s u : σ) (b : β)
    (h : (x >>= f) s = .ok b u) : ∃ a t, x s = .ok a t ∧ f a t = .ok b u := by
  cases hx : x s with
  | ok a t => exact ⟨a, t, rfl, (bind_ok x f s t a hx).symm.trans h⟩
  | error e t =>
      rw [bind_error x f s hx] at h
      contradiction

-- However the program ends, the state it leaves is related to the one it started in.
def Within (R : σ → σ → Prop) (x : Update σ ε α) : Prop := ∀ s, R s (x.after s)

section

variable {R : σ → σ → Prop} (hR : Journey R)

include hR

theorem within_pure (a : α) : Within R (pure a : Update σ ε α) := fun s => hR.refl s

theorem within_get : Within R (get : Update σ ε σ) := fun s => hR.refl s

-- What follows may rely on how the first part ended.
theorem within_bind_of {x : Update σ ε α} (f : α → Update σ ε β) {s : σ} (hx : R s (x.after s))
    (hf : ∀ a t, x s = .ok a t → R t ((f a).after t)) : R s ((x >>= f).after s) := by
  cases h : x s with
  | ok a t =>
      rw [after, h] at hx
      rw [after, bind_ok x f s t a h, ← after]
      exact hR.trans s t _ hx (hf a t h)
  | error e t =>
      rw [after, h] at hx
      rwa [after, bind_error x f s h]

theorem within_bind {x : Update σ ε α} (f : α → Update σ ε β) (hx : Within R x)
    (hf : ∀ a, Within R (f a)) : Within R (x >>= f) :=
  fun s => within_bind_of hR f (hx s) (fun a t _ => hf a t)

end

theorem within_modify {R : σ → σ → Prop} (f : σ → σ) (h : ∀ s, R s (f s)) :
    Within R (modify f : Update σ ε Unit) := h

-- A program after which the state is clean started in a clean state.
def Tidy (clean : σ → Prop) (x : Update σ ε α) : Prop :=
  Within (fun s t => clean t → clean s) x

theorem tidy_bind {clean : σ → Prop} {x : Update σ ε α} (f : α → Update σ ε β)
    (hx : Tidy clean x) (hf : ∀ a, Tidy clean (f a)) : Tidy clean (x >>= f) :=
  within_bind ⟨fun _ h => h, fun _ _ _ h h' hclean => h (h' hclean)⟩ f hx hf

-- Two runs side by side, from related states to related states. Runs that leave an unclean
-- state are let off.
def Twin {ω : Type} (R : σ → σ → Prop) (clean : σ → Prop) (S : α → ω → Prop)
    (x : Update σ ε α) (y : Update σ ε ω) : Prop :=
  ∀ s t, R s t → clean (x.after s) → clean (y.after t) →
    (∃ a b s' t', x s = .ok a s' ∧ y t = .ok b t' ∧ S a b ∧ R s' t') ∨
      ∃ e s' t', x s = .error e s' ∧ y t = .error e t' ∧ R s' t'

section

variable {ω δ : Type} {R : σ → σ → Prop} {clean : σ → Prop}

theorem twin_pure (S : α → ω → Prop) (a : α) (b : ω) (h : S a b) :
    Twin R clean S (pure a : Update σ ε α) (pure b : Update σ ε ω) :=
  fun s t hr _ _ => Or.inl ⟨a, b, s, t, rfl, rfl, h, hr⟩

theorem twin_throw (S : α → ω → Prop) (e : ε) :
    Twin R clean S (throw e : Update σ ε α) (throw e : Update σ ε ω) :=
  fun s t hr _ _ => Or.inr ⟨e, s, t, rfl, rfl, hr⟩

theorem tidy_first {x : Update σ ε α} {f : α → Update σ ε β} (hf : ∀ a, Tidy clean (f a)) {s : σ}
    (h : clean ((x >>= f).after s)) : clean (x.after s) := by
  cases hx : x s with
  | ok a t =>
      rw [after, bind_ok x f s t a hx, ← after] at h
      rw [after, hx]
      exact hf a t h
  | error e t =>
      rw [after, bind_error x f s hx] at h
      rwa [after, hx]

theorem twin_bind {S : α → ω → Prop} (T : β → δ → Prop) {x : Update σ ε α} {y : Update σ ε ω}
    (f : α → Update σ ε β) (g : ω → Update σ ε δ) (hx : Twin R clean S x y)
    (hf : ∀ a b, S a b → Twin R clean T (f a) (g b)) (tf : ∀ a, Tidy clean (f a))
    (tg : ∀ b, Tidy clean (g b)) : Twin R clean T (x >>= f) (y >>= g) := by
  intro s t hr hs ht
  rcases hx s t hr (tidy_first tf hs) (tidy_first tg ht) with
    ⟨a, b, s', t', hxs, hyt, hab, hr'⟩ | ⟨e, s', t', hxs, hyt, hr'⟩
  · rw [after, bind_ok x f s s' a hxs, ← after] at hs
    rw [after, bind_ok y g t t' b hyt, ← after] at ht
    rw [bind_ok x f s s' a hxs, bind_ok y g t t' b hyt]
    exact hf a b hab s' t' hr' hs ht
  · exact Or.inr ⟨e, s', t', bind_error x f s hxs, bind_error y g t hyt, hr'⟩

end

end Update

end StompyMux.Library
