import StompyMux.Telnet.Environment

namespace StompyMux.Telnet

-- What one message does to a variable: a value is stored, a variable without one is removed.
structure Update where
  kind : Kind
  name : List UInt8
  value : Option (List UInt8)
  deriving DecidableEq

-- A replacement of the whole environment or a patch of it.
inductive Subcommand
  | Is
  | Info
  deriving DecidableEq

def Subcommand.toByte : Subcommand → UInt8
  | .Is => 0
  | .Info => 2

def Kind.toByte : Kind → UInt8
  | .Var => 0
  | .UserVar => 3

-- The structural bytes of a message are escaped where they are payload.
def protect (field : List UInt8) : List UInt8 :=
  field.flatMap (fun b => if b ≤ 3 then [2, b] else [b])

namespace Update

def encode (update : Update) : List UInt8 :=
  update.kind.toByte :: (protect update.name ++
    match update.value with
    | none => []
    | some value => 1 :: protect value)

def apply (environment : Environment) (update : Update) : Environment :=
  match update.value with
  | none => environment.erase (update.kind, update.name)
  | some value => environment.insert (update.kind, update.name) value

structure Fits (update : Update) : Prop where
  name : update.name.length ≤ Environment.MAX_NAME
  value : ∀ value ∈ update.value, value.length ≤ Environment.MAX_VALUE

end Update

def message (verb : Subcommand) (updates : List Update) : List UInt8 :=
  verb.toByte :: updates.flatMap Update.encode

namespace Environment

-- The call on the connection's storage: what it leaves there, and its outcome. The storage is
-- written once, after the whole message.
def updateSelf (environment : Environment) (p : List UInt8) :
    Environment × Except EnvironmentError Unit :=
  match environment.update p with
  | .ok next => (next, .ok ())
  | .error e => (environment, .error e)

def Stored (environment : Environment) : Prop :=
  environment.size ≤ MAX_VARIABLES ∧ environment.bytes ≤ MAX_BYTES

instance (environment : Environment) : Decidable environment.Stored :=
  inferInstanceAs (Decidable (_ ∧ _))

-- One update with the check that follows it.
def store (environment : Environment) (update : Update) : Except EnvironmentError Environment :=
  if Stored (update.apply environment) then .ok (update.apply environment) else .error .StorageLimit

def base (environment : Environment) : Subcommand → Environment
  | .Is => ∅
  | .Info => environment

def StoredThroughout (environment : Environment) (updates : List Update) : Prop :=
  ∀ before update after, updates = before ++ update :: after →
    Stored ((before ++ [update]).foldl Update.apply environment)

-- A field ends where the message does or at an unescaped structural byte.
def Stops (rest : List UInt8) : Prop := ∀ b ∈ rest.head?, b = 0 ∨ b = 1 ∨ b = 3

theorem protect_cons (b : UInt8) (field : List UInt8) :
    protect (b :: field) = (if b ≤ 3 then [2, b] else [b]) ++ protect field := rfl

theorem read_stops (limit : Nat) (out rest : List UInt8) (hs : Stops rest) :
    read limit false out rest = .ok (out, rest) := by
  cases rest with
  | nil => rfl
  | cons b rest =>
      have hb : b = 0 ∨ b = 1 ∨ b = 3 := hs b rfl
      simp [read, hb]

theorem read_protect (limit : Nat) (field out rest : List UInt8) (hs : Stops rest)
    (hl : (out ++ field).length ≤ limit) :
    read limit false out (protect field ++ rest) = .ok (out ++ field, rest) := by
  induction field generalizing out with
  | nil =>
      rw [List.append_nil]
      exact read_stops limit out rest hs
  | cons b field ih =>
      have hone : (out ++ [b]).length ≤ limit := by
        simp only [List.length_append, List.length_cons, List.length_nil] at hl ⊢
        omega
      have hrest := ih (out ++ [b]) (by simpa using hl)
      rw [List.append_assoc, List.singleton_append] at hrest
      rw [protect_cons]
      by_cases hb : b ≤ 3
      · -- the escape byte, then the payload byte whatever it is
        rw [if_pos hb, List.append_assoc, List.cons_append, List.cons_append, List.nil_append, read,
          if_neg (by decide), if_pos (by decide), read, if_neg (by simp), if_neg (by simp),
          if_pos hone]
        exact hrest
      · have hplain : ¬(b = 0 ∨ b = 1 ∨ b = 3) := by
          rintro (rfl | rfl | rfl)
          · exact hb (by decide)
          · exact hb (by decide)
          · exact hb (by decide)
        have hescape : b ≠ 2 := by
          rintro rfl
          exact hb (by decide)
        rw [if_neg hb, List.append_assoc, List.cons_append, List.nil_append, read,
          if_neg (by simp [hplain]), if_neg (by simp [hescape]), if_pos hone]
        exact hrest

variable (updates : List Update) (environment : Environment)

theorem stops_encode : Stops (updates.flatMap Update.encode) := by
  cases updates with
  | nil => simp [Stops]
  | cons update updates =>
      intro b hb
      obtain rfl : update.kind.toByte = b := Option.some.inj hb
      cases update.kind <;> simp [Kind.toByte]

theorem kindOf_toByte (kind : Kind) : kindOf kind.toByte = some kind := by
  cases kind <;> rfl

theorem patch_encode {update : Update} {rest : List UInt8}
    (hf : update.Fits) (hs : Stops rest) (hmark : rest.head? ≠ some 1) :
    patch environment update.kind (update.encode.tail ++ rest) =
      .ok (update.apply environment, rest) := by
  obtain ⟨kind, name, value⟩ := update
  have hname := hf.name
  cases value with
  | none =>
      have hread := read_protect MAX_NAME name [] rest hs hname
      simp only [Update.encode, Update.apply, List.tail_cons, List.append_nil]
      unfold patch
      rw [hread]
      split
      · rename_i h
        cases h
      · rename_i found tail h
        cases h
        exact absurd rfl hmark
      · rename_i found tail _ h
        cases h
        rfl
  | some value =>
      have hvalue := hf.value value rfl
      have hread := read_protect MAX_NAME name [] (1 :: (protect value ++ rest))
        (fun b hb => by simp_all) hname
      have hread' := read_protect MAX_VALUE value [] rest hs hvalue
      simp only [Update.encode, Update.apply, List.tail_cons]
      unfold patch
      rw [List.append_assoc, List.cons_append, hread]
      simp only [List.nil_append, hread']

-- The updates of one message in order, with the storage checked after each of them.
theorem patches_encode (left : Nat) (environment : Environment)
    (hleft : updates.length ≤ left) (hf : ∀ update ∈ updates, update.Fits) :
    patches left environment (updates.flatMap Update.encode) =
      updates.foldlM store environment := by
  induction updates generalizing left environment with
  | nil => cases left <;> rfl
  | cons update updates ih =>
      obtain ⟨hfirst, hlater⟩ := List.forall_mem_cons.mp hf
      obtain ⟨left, rfl⟩ : ∃ n, left = n + 1 := Nat.exists_eq_add_one.mpr (by simp at hleft; omega)
      have hmark : (updates.flatMap Update.encode).head? ≠ some 1 := by
        intro h
        cases updates with
        | nil => cases h
        | cons next updates =>
            have hkind : next.kind.toByte = 1 := Option.some.inj h
            cases hk : next.kind <;> rw [hk] at hkind <;> exact absurd hkind (by decide)
      have hpatch := patch_encode environment hfirst (stops_encode updates) hmark
      have hsplit : (update :: updates).flatMap Update.encode =
          update.kind.toByte :: (update.encode.tail ++ updates.flatMap Update.encode) := rfl
      rw [hsplit, patches, kindOf_toByte, List.foldlM_cons, store]
      simp only [hpatch]
      by_cases hstored : Stored (update.apply environment)
      · rw [if_pos hstored]
        exact (if_pos hstored).trans (ih left _ (by simpa using hleft) hlater)
      · rw [if_neg hstored]
        exact if_neg hstored

theorem storedThroughout_cons (update : Update)
    (updates : List Update) : StoredThroughout environment (update :: updates) ↔
      Stored (update.apply environment) ∧ StoredThroughout (update.apply environment) updates := by
  constructor
  · intro h
    refine ⟨h [] update updates rfl, ?_⟩
    intro before next after heq
    exact h (update :: before) next after (by rw [heq, List.cons_append])
  · rintro ⟨hfirst, hlater⟩ before next after heq
    cases before with
    | nil =>
        obtain ⟨rfl, rfl⟩ := List.cons.inj heq
        exact hfirst
    | cons first before =>
        obtain ⟨rfl, rfl⟩ := List.cons.inj heq
        exact hlater before next after rfl

theorem foldlM_store (environment after : Environment) :
    updates.foldlM store environment = .ok after ↔
      StoredThroughout environment updates ∧ after = updates.foldl Update.apply environment := by
  induction updates generalizing environment with
  | nil =>
      constructor
      · intro h
        cases h
        exact ⟨fun before update rest heq => by simp at heq, rfl⟩
      · rintro ⟨-, rfl⟩
        rfl
  | cons update updates ih =>
      rw [List.foldlM_cons, storedThroughout_cons, List.foldl_cons, store]
      by_cases hstored : Stored (update.apply environment)
      · rw [if_pos hstored]
        exact (ih _).trans ⟨fun h => ⟨⟨hstored, h.1⟩, h.2⟩, fun h => ⟨h.1.2, h.2⟩⟩
      · rw [if_neg hstored]
        exact ⟨fun h => (by cases h), fun h => absurd h.1.1 hstored⟩

theorem update_message (environment after : Environment) (subcommand : Subcommand)
    {updates : List Update} (hcount : updates.length ≤ MAX_UPDATES)
    (hf : ∀ update ∈ updates, update.Fits) :
    environment.update (message subcommand updates) = .ok after ↔
      StoredThroughout (environment.base subcommand) updates ∧
        after = updates.foldl Update.apply (environment.base subcommand) := by
  rw [← foldlM_store, ← patches_encode updates MAX_UPDATES _ hcount hf]
  cases subcommand <;> rfl

-- A message is applied as the fold of its updates or not at all.
theorem updates_exact (environment : Environment) :
    (∀ (subcommand : Subcommand) (updates : List Update), updates.length ≤ MAX_UPDATES →
      (∀ update ∈ updates, update.Fits) →
      StoredThroughout (environment.base subcommand) updates →
      environment.updateSelf (message subcommand updates) =
        (updates.foldl Update.apply (environment.base subcommand), .ok ())) ∧
    ∀ (p : List UInt8) (e : EnvironmentError), (environment.updateSelf p).2 = .error e →
      (environment.updateSelf p).1 = environment := by
  constructor
  · intro subcommand updates hcount hf hstored
    have hok := (update_message environment _ subcommand hcount hf).mpr ⟨hstored, rfl⟩
    rw [updateSelf, hok]
  · intro p e h
    unfold updateSelf at h ⊢
    split at h
    · cases h
    · rfl

-- A repeated name, an empty one, escaped bytes and a removal.
def sampleUpdates : List Update :=
  [⟨.Var, [0, 1], some [2, 255]⟩, ⟨.UserVar, [], some []⟩, ⟨.Var, [0, 1], some [3]⟩,
    ⟨.UserVar, [], none⟩]

theorem updates_exact_sample :
    message .Is sampleUpdates =
        [0, 0, 2, 0, 2, 1, 1, 2, 2, 255, 3, 1, 0, 2, 0, 2, 1, 1, 2, 3, 3] ∧
      (updateSelf ∅ (message .Is sampleUpdates)).1.toList = [((.Var, [0, 1]), [3])] := by
  have hf : ∀ update ∈ sampleUpdates, update.Fits := by
    intro update hupdate
    simp only [sampleUpdates, List.mem_cons, List.not_mem_nil, or_false] at hupdate
    rcases hupdate with rfl | rfl | rfl | rfl <;> exact ⟨by decide, by simp [MAX_VALUE]⟩
  have hstored : StoredThroughout ((∅ : Environment).base .Is) sampleUpdates := by
    unfold sampleUpdates
    simp only [storedThroughout_cons]
    refine ⟨by decide, by decide, by decide, by decide, ?_⟩
    intro before update after heq
    simp at heq
  have h := (updates_exact ∅).1 .Is sampleUpdates (by decide) hf hstored
  exact ⟨rfl, by rw [h]; rfl⟩

end Environment

end StompyMux.Telnet
