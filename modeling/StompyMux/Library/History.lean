import Mathlib.Data.List.Basic

-- Editing with undo and redo, on whole contents, and trails of edits that lead from one content
-- to another in both directions.
namespace StompyMux.Library.History

structure Session (K C : Type) where
  content : C
  -- the kind of the edit in progress and the content that it began with
  running : Option (K × C)
  -- the contents at the edit boundaries, the latest first
  past : List C
  -- the contents that were undone, the next one to come back first
  future : List C
  saved : C
  recorded : Nat

inductive Action (K C : Type) where
  | skip
  | alter (kind : K) (f : C → C)
  | close
  | commit (f : C → C)
  | replace (f : C → C)
  | undo
  | redo
  | save (accepts : C → Bool)

def Action.isUndoOrRedo {K C : Type} : Action K C → Bool
  | undo | redo => true
  | _ => false

namespace Session

variable {K C : Type}

def opened (content : C) : Session K C := ⟨content, none, [], [], content, 0⟩

def base (s : Session K C) : C :=
  match s.running with
  | some (_, start) => start
  | none => s.content

def Settled (s : Session K C) : Prop := s.base = s.content

-- A new boundary, after which nothing can be redone.
def record (s : Session K C) (start : C) : Session K C :=
  { s with past := start :: s.past, future := [], recorded := s.recorded + 1 }

variable [DecidableEq K] [DecidableEq C]

-- The edit in progress ends, and is recorded if it changed anything.
def close (s : Session K C) : Session K C :=
  if s.base = s.content then { s with running := none }
  else { s.record s.base with running := none }

def start (s : Session K C) (kind : K) : Session K C :=
  if s.running.map Prod.fst = some kind then s
  else { s.close with running := some (kind, s.content) }

def alter (s : Session K C) (kind : K) (f : C → C) : Session K C :=
  { s.start kind with content := f s.content }

def commit (s : Session K C) (f : C → C) : Session K C :=
  if s.content = f s.content then s.close
  else { s.close.record s.content with content := f s.content }

def replace (s : Session K C) (f : C → C) : Session K C :=
  { s.close.record s.content with content := f s.content }

def undo (s : Session K C) : Session K C :=
  match s.close.past with
  | [] => s.close
  | before :: past =>
      { s.close with content := before, past := past, future := s.content :: s.close.future }

def redo (s : Session K C) : Session K C :=
  match s.close.future with
  | [] => s.close
  | after :: future =>
      { s.close with content := after, past := s.content :: s.close.past, future := future }

def save (s : Session K C) (accepts : C → Bool) : Session K C :=
  if accepts s.content then { s.close with saved := s.content } else s.close

def step (s : Session K C) : Action K C → Session K C
  | .skip => s
  | .alter kind f => s.alter kind f
  | .close => s.close
  | .commit f => s.commit f
  | .replace f => s.replace f
  | .undo => s.undo
  | .redo => s.redo
  | .save accepts => s.save accepts

def run (s : Session K C) (actions : List (Action K C)) : Session K C := actions.foldl step s

variable (s : Session K C) (kind : K)

theorem run_append (actions rest : List (Action K C)) :
    s.run (actions ++ rest) = (s.run actions).run rest := List.foldl_append ..

omit [DecidableEq K] in
@[simp] theorem content_close : s.close.content = s.content := by
  unfold close
  split <;> rfl

omit [DecidableEq K] in
@[simp] theorem running_close : s.close.running = none := by
  unfold close
  split <;> rfl

omit [DecidableEq K] in
theorem settled_close : s.close.Settled := by
  simp [Settled, base]

omit [DecidableEq K] in
theorem close_of_settled (h : s.Settled) : s.close = { s with running := none } :=
  if_pos h

omit [DecidableEq K] [DecidableEq C] in
theorem settled_of_running (h : s.running = none) : s.Settled := by
  simp [Settled, base, h]

-- The contents that some number of undos would give back.
def before (s : Session K C) (k : Nat) : Option C := (s.content :: s.past)[k]?

section Undo

variable (k : Nat) (s : Session K C)

omit [DecidableEq K] in
theorem undo_settled (h : s.Settled) {earlier : C} {past : List C}
    (hpast : s.past = earlier :: past) :
    s.undo = { s with content := earlier, running := none, past := past, future := s.content :: s.future } := by
  simp only [undo, s.close_of_settled h, hpast]

omit [DecidableEq K] in
theorem redo_settled (h : s.Settled) {later : C} {future : List C}
    (hfuture : s.future = later :: future) :
    s.redo = { s with content := later, running := none, past := s.content :: s.past, future := future } := by
  simp only [redo, s.close_of_settled h, hfuture]

theorem run_undo (h : s.Settled) {earlier : C} (hk : s.before k = some earlier) :
    (s.run (List.replicate k .undo)).content = earlier ∧ (s.run (List.replicate k .undo)).Settled ∧
      (s.run (List.replicate k .undo)).past = s.past.drop k ∧
      (s.run (List.replicate k .undo)).future = ((s.content :: s.past).take k).reverse ++ s.future := by
  induction k generalizing s with
  | zero =>
      simp only [before, List.getElem?_cons_zero, Option.some.injEq] at hk
      exact ⟨hk, h, rfl, rfl⟩
  | succ k ih =>
      cases hpast : s.past with
      | nil => simp [before, hpast] at hk
      | cons latest past =>
          have hundo := s.undo_settled h hpast
          have hafter : s.undo.before k = some earlier := by
            rw [hundo]
            simpa [before, hpast] using hk
          have hsettled : s.undo.Settled := settled_of_running _ (by rw [hundo])
          obtain ⟨hcontent, hrest, hleft, hfuture⟩ := ih s.undo hsettled hafter
          have hrun : s.run (List.replicate (k + 1) .undo) = s.undo.run (List.replicate k .undo) := rfl
          rw [hrun]
          refine ⟨hcontent, hrest, ?_, ?_⟩
          · rw [hleft, hundo]
            rfl
          · rw [hfuture, hundo]
            simp

omit [DecidableEq K] in
@[simp] theorem running_undo : s.undo.running = none := by
  unfold undo
  split <;> exact s.running_close

theorem running_run_undo : (s.run (List.replicate (k + 1) .undo)).running = none := by
  have hlast : s.run (List.replicate (k + 1) .undo) = (s.run (List.replicate k .undo)).undo := by
    rw [List.replicate_succ', run_append]
    rfl
  rw [hlast, running_undo]

theorem run_redo (h : s.Settled) (later : C) (hk : (s.content :: s.future)[k]? = some later) :
    (s.run (List.replicate k .redo)).content = later := by
  induction k generalizing s with
  | zero =>
      simp only [List.getElem?_cons_zero, Option.some.injEq] at hk
      exact hk
  | succ k ih =>
      cases hfuture : s.future with
      | nil => simp [hfuture] at hk
      | cons next future =>
          have hredo := s.redo_settled h hfuture
          have hsettled : s.redo.Settled := settled_of_running _ (by rw [hredo])
          have hrun : s.run (List.replicate (k + 1) .redo) = s.redo.run (List.replicate k .redo) := rfl
          rw [hrun]
          apply ih s.redo hsettled
          rw [hredo]
          simpa [hfuture] using hk

end Undo

@[simp] theorem content_start : (s.start kind).content = s.content := by
  unfold start
  split
  · rfl
  · exact s.content_close

theorem start_same {begun : C} (h : s.running = some (kind, begun)) :
    s.start kind = s := if_pos (by rw [h]; rfl)

theorem start_fresh (h : ∀ begun, s.running ≠ some (kind, begun)) :
    s.start kind = { s.close with running := some (kind, s.content) } := by
  apply if_neg
  intro hsame
  obtain ⟨⟨_, begun⟩, hrunning, rfl⟩ := Option.map_eq_some_iff.mp hsame
  exact h begun hrunning

theorem running_start : (s.start kind).running = some (kind, (s.start kind).base) := by
  unfold start
  split
  next h =>
    obtain ⟨⟨_, begun⟩, hrunning, rfl⟩ := Option.map_eq_some_iff.mp h
    simp [base, hrunning]
  next => rfl

theorem base_alter (f : C → C) : (s.alter kind f).base = (s.start kind).base := by
  have hrunning : (s.alter kind f).running = (s.start kind).running := rfl
  rw [s.running_start kind] at hrunning
  simp only [base, hrunning]

section Holds

-- A property of every content that can come back.
structure Holds (P : C → Prop) (s : Session K C) : Prop where
  content : P s.content
  base : P s.base
  past : ∀ earlier ∈ s.past, P earlier
  future : ∀ later ∈ s.future, P later

def Keeps (P : C → Prop) : Action K C → Prop
  | .alter _ f | .commit f | .replace f => ∀ content, P content → P (f content)
  | _ => True

variable (P : C → Prop) (s : Session K C) (h : s.Holds P)

include h

omit [DecidableEq K] [DecidableEq C] in
theorem holds_record (start : C) (hstart : P start) : (s.record start).Holds P :=
  ⟨h.content, h.base, List.forall_mem_cons.mpr ⟨hstart, h.past⟩, fun _ hmem => nomatch hmem⟩

omit [DecidableEq K] in
theorem holds_close : s.close.Holds P := by
  unfold close
  split
  · exact ⟨h.content, h.content, h.past, h.future⟩
  · exact ⟨h.content, h.content, List.forall_mem_cons.mpr ⟨h.base, h.past⟩, fun _ hmem => nomatch hmem⟩

theorem holds_start (kind : K) : (s.start kind).Holds P := by
  unfold start
  split
  · exact h
  · have hclosed := s.holds_close P h
    exact ⟨hclosed.content, h.content, hclosed.past, hclosed.future⟩

omit [DecidableEq K] in
theorem holds_committed (f : C → C) (hf : P (f s.content)) :
    ({ s.close.record s.content with content := f s.content } : Session K C).Holds P := by
  have hclosed := holds_record P s.close (s.holds_close P h) s.content h.content
  refine ⟨hf, ?_, hclosed.past, hclosed.future⟩
  have hrunning : (s.close.record s.content).running = none := s.running_close
  simpa [base, hrunning] using hf

theorem holds_step (action : Action K C) (hkeeps : Keeps P action) : (s.step action).Holds P := by
  have hclosed := s.holds_close P h
  cases action with
  | skip => exact h
  | alter kind f =>
      have hstarted := s.holds_start P h kind
      refine ⟨hkeeps _ h.content, ?_, hstarted.past, hstarted.future⟩
      have hbase : (s.step (.alter kind f)).base = (s.start kind).base := s.base_alter kind f
      rw [hbase]
      exact hstarted.base
  | close => exact hclosed
  | commit f =>
      simp only [step, commit]
      split
      · exact hclosed
      · exact s.holds_committed P h f (hkeeps _ h.content)
  | replace f => exact s.holds_committed P h f (hkeeps _ h.content)
  | undo =>
      simp only [step, undo]
      split
      next => exact hclosed
      next earlier past hpast =>
        have hpasts := hclosed.past
        rw [hpast] at hpasts
        obtain ⟨hearlier, hrest⟩ := List.forall_mem_cons.mp hpasts
        refine ⟨hearlier, ?_, hrest, List.forall_mem_cons.mpr ⟨h.content, hclosed.future⟩⟩
        simpa [base] using hearlier
  | redo =>
      simp only [step, redo]
      split
      next => exact hclosed
      next later future hfuture =>
        have hfutures := hclosed.future
        rw [hfuture] at hfutures
        obtain ⟨hlater, hrest⟩ := List.forall_mem_cons.mp hfutures
        refine ⟨hlater, ?_, List.forall_mem_cons.mpr ⟨h.content, hclosed.past⟩, hrest⟩
        simpa [base] using hlater
  | save accepts =>
      simp only [step, save]
      split
      · exact ⟨hclosed.content, hclosed.base, hclosed.past, hclosed.future⟩
      · exact hclosed

end Holds

section Quiet

-- As long as nothing is recorded, the boundaries stay where they are.
structure Still (s next : Session K C) : Prop where
  past : next.past = s.past
  future : next.future = s.future
  base : next.base = s.base

omit [DecidableEq K] in
theorem still_close (s : Session K C) : s.recorded ≤ s.close.recorded ∧
    (s.close.recorded = s.recorded → Still s s.close) := by
  unfold close
  split
  next heq => exact ⟨Nat.le_refl _, fun _ => ⟨rfl, rfl, heq.symm⟩⟩
  next hne =>
    refine ⟨Nat.le_succ _, fun h => ?_⟩
    simp only [record] at h
    omega

theorem still_start (s : Session K C) (kind : K) : s.recorded ≤ (s.start kind).recorded ∧
    ((s.start kind).recorded = s.recorded → Still s (s.start kind)) := by
  unfold start
  split
  next => exact ⟨Nat.le_refl _, fun _ => ⟨rfl, rfl, rfl⟩⟩
  next =>
    obtain ⟨hle, hstill⟩ := s.still_close
    refine ⟨hle, fun h => ?_⟩
    have hclosed := hstill h
    refine ⟨hclosed.past, hclosed.future, ?_⟩
    have hbase : s.content = s.close.base := by simp [base]
    exact hbase.trans hclosed.base

theorem still_step (s : Session K C) {action : Action K C} (h : action.isUndoOrRedo = false) :
    s.recorded ≤ (s.step action).recorded ∧
      ((s.step action).recorded = s.recorded → Still s (s.step action)) := by
  have hrecorded (content : C) (hsame : s.close.recorded + 1 = s.recorded) (P : Prop) : P := by
    have := s.still_close.1
    omega
  cases action with
  | skip => exact ⟨Nat.le_refl _, fun _ => ⟨rfl, rfl, rfl⟩⟩
  | alter kind f =>
      obtain ⟨hle, hstill⟩ := s.still_start kind
      refine ⟨hle, fun h => ?_⟩
      have hstarted := hstill h
      exact ⟨hstarted.past, hstarted.future, (s.base_alter kind f).trans hstarted.base⟩
  | close => exact s.still_close
  | commit f =>
      simp only [step, commit]
      split
      next => exact s.still_close
      next =>
        exact ⟨Nat.le_succ_of_le s.still_close.1, fun h => hrecorded s.content h _⟩
  | replace f =>
      exact ⟨Nat.le_succ_of_le s.still_close.1, fun h => hrecorded s.content h _⟩
  | undo => contradiction
  | redo => contradiction
  | save accepts =>
      simp only [step, save]
      split
      next =>
        obtain ⟨hle, hstill⟩ := s.still_close
        exact ⟨hle, fun h => ⟨(hstill h).past, (hstill h).future, (hstill h).base⟩⟩
      next => exact s.still_close

theorem still_run (actions : List (Action K C)) (s : Session K C)
    (h : ∀ action ∈ actions, action.isUndoOrRedo = false) :
    s.recorded ≤ (s.run actions).recorded ∧
      ((s.run actions).recorded = s.recorded → Still s (s.run actions)) := by
  induction actions generalizing s with
  | nil => exact ⟨Nat.le_refl _, fun _ => ⟨rfl, rfl, rfl⟩⟩
  | cons action actions ih =>
      obtain ⟨hle, hstill⟩ := s.still_step (h action List.mem_cons_self)
      obtain ⟨hrest, hthen⟩ := ih (s.step action) (fun a ha => h a (List.mem_cons_of_mem _ ha))
      have hrun : s.run (action :: actions) = (s.step action).run actions := rfl
      rw [hrun]
      refine ⟨Nat.le_trans hle hrest, fun heq => ?_⟩
      have hfirst := hstill (by omega)
      have hlast := hthen (by omega)
      exact ⟨hlast.past.trans hfirst.past, hlast.future.trans hfirst.future,
        hlast.base.trans hfirst.base⟩

end Quiet

-- Whatever was undone comes back, as long as nothing was recorded in between.
theorem run_undo_redo {k j : Nat} (hj : j ≤ k) {s : Session K C} (h : s.Settled) {earlier : C}
    (hk : s.before k = some earlier) {quiet : List (Action K C)}
    (hquiet : ∀ action ∈ quiet, action.isUndoOrRedo = false)
    (hrecorded : ((s.run (List.replicate k .undo)).run quiet).recorded =
      (s.run (List.replicate k .undo)).recorded)
    (hsettled : ((s.run (List.replicate k .undo)).run quiet).Settled) :
    ((s.run (List.replicate k .undo)).run quiet).content = earlier ∧
      some (((s.run (List.replicate k .undo)).run quiet).run (List.replicate j .redo)).content =
        s.before (k - j) := by
  obtain ⟨hcontent, hundone, -, hfuture⟩ := s.run_undo k h hk
  have hstill := (still_run quiet _ hquiet).2 hrecorded
  have hsame : ((s.run (List.replicate k .undo)).run quiet).content = earlier := by
    rw [← hcontent]
    exact hsettled.symm.trans (hstill.base.trans hundone)
  refine ⟨hsame, ?_⟩
  have hlength : k < (s.content :: s.past).length := by
    by_contra hlong
    rw [before, List.getElem?_eq_none (by omega)] at hk
    contradiction
  have hback : k - j < (s.content :: s.past).length := by omega
  obtain ⟨later, hlater⟩ : ∃ later, (s.content :: s.past)[k - j]? = some later :=
    ⟨_, List.getElem?_eq_getElem hback⟩
  rw [before, hlater, Option.some.injEq]
  apply run_redo j _ hsettled
  rw [hsame, hstill.future, hfuture]
  cases j with
  | zero =>
      have hsame : some earlier = some later := hk.symm.trans hlater
      simpa using hsame
  | succ j =>
      have hin : j < ((s.content :: s.past).take k).length := by
        rw [List.length_take]
        omega
      rw [List.getElem?_cons_succ, List.getElem?_append_left (by rw [List.length_reverse]; exact hin),
        List.getElem?_reverse hin, List.length_take, Nat.min_eq_left (by omega),
        List.getElem?_take_of_lt (by omega), ← hlater]
      congr 1
      omega

end Session

section Trail

variable {E C : Type} (leads : E → Bool → C → C → Prop)

-- Edits that lead one after the other through the contents, and back again.
def Trail (forward : Bool) : List E → C → List C → Prop
  | [], _, [] => True
  | edit :: edits, content, next :: rest =>
      leads edit forward content next ∧ leads edit (!forward) next content ∧
        Trail forward edits next rest
  | _, _, _ => False

theorem Trail.nil_iff (forward : Bool) (content : C) (contents : List C) :
    Trail leads forward [] content contents ↔ contents = [] := by
  cases contents <;> simp [Trail]

theorem Trail.cons_iff (forward : Bool) (edit : E) (edits : List E) (content : C)
    (contents : List C) :
    Trail leads forward (edit :: edits) content contents ↔
      ∃ next rest, contents = next :: rest ∧ leads edit forward content next ∧
        leads edit (!forward) next content ∧ Trail leads forward edits next rest := by
  cases contents <;> simp [Trail]

end Trail

end StompyMux.Library.History
