import StompyMux.Commands.Rotation

-- In what order queued commands run, each executor's own and those of different ones.
namespace StompyMux.Commands

open Library
open StompyMux.World

namespace Record

structure InOrder (s : Record) : Prop where
  -- by due time, then by sequence
  order : ∀ p, (s.runsOf p).Pairwise (fun r r' =>
    Queue.readyOf r.id r.entry ≤ Queue.readyOf r'.id r'.entry)
  contiguous : ∀ p earlier r middle r' later,
    s.runsOf p = earlier ++ r :: (middle ++ r' :: later) → r.id = r'.id → ∀ m ∈ middle, m.id = r.id
  source : ∀ r ∈ s.runs, r.work.execution.executor = r.entry.executor ∧
    ∃ a ∈ s.admissions, a.id = r.id ∧ a.entry.header = r.entry.header
  distinct : (s.admissions.map Admission.id).Nodup
  -- each command once, in the order of its list
  once : ∀ a ∈ s.admissions, ∃ done rest, commands a.entry.text = done ++ rest ∧ s.Ran a.id done

theorem readyOf_id {i j : Nat} {e f : Entry} (h : Queue.readyOf i e = Queue.readyOf j f) : i = j := by
  injection h with _ hrest
  injection hrest

theorem inOrder_of_lined {s : Record} {now : Instant} (h : s.Lined now) : s.InOrder := by
  have horder : ∀ p, (s.runsOf p).Pairwise (fun r r' =>
      Queue.readyOf r.id r.entry ≤ Queue.readyOf r'.id r'.entry) := by
    intro p
    have hfiltered := h.order.filter (fun r => r.entry.executor = p)
    refine hfiltered.imp_of_mem (fun {r r'} hr hr' hle => ?_)
    have hp : r.entry.executor = p := by simpa using (List.mem_filter.mp hr).2
    have hp' : r'.entry.executor = p := by simpa using (List.mem_filter.mp hr').2
    exact hle (hp.trans hp'.symm)
  refine ⟨horder, ?_, fun r hr => (h.runs r hr).2, h.distinct, h.ran⟩
  intro p earlier r middle r' later hsplit hid m hm
  have hsorted := horder p
  rw [hsplit] at hsorted
  obtain ⟨hfirst, hrest⟩ := List.pairwise_cons.mp (List.pairwise_append.mp hsorted).2.1
  have hle := hfirst m (List.mem_append_left _ hm)
  have hge := (List.pairwise_append.mp hrest).2.2 m hm r' List.mem_cons_self
  have hin : ∀ x ∈ r :: (middle ++ r' :: later), x ∈ s.runs := by
    intro x hx
    have hruns : x ∈ s.runsOf p := hsplit ▸ List.mem_append_right _ hx
    exact (List.mem_filter.mp hruns).1
  obtain ⟨-, -, a, ha, haid, hheader⟩ := h.runs r (hin r List.mem_cons_self)
  obtain ⟨-, -, b, hb, hbid, hheader'⟩ := h.runs r'
    (hin r' (List.mem_cons_of_mem _ (List.mem_append_right _ List.mem_cons_self)))
  have hsame : a = b :=
    List.inj_on_of_nodup_map h.distinct ha hb (haid.trans (hid.trans hbid.symm))
  have hkey : Queue.readyOf r'.id r'.entry = Queue.readyOf r.id r.entry := by
    rw [← hid]
    exact readyOf_header _ (hheader'.symm.trans (hsame ▸ hheader))
  rw [hkey] at hge
  exact readyOf_id (le_antisymm hge hle)

-- An executor that is up all the time runs a list to its end before it starts another.
def Finishes (calls : List Call) : Prop :=
  ∀ p g, Stays p g .empty calls → ∀ a ∈ (run calls).admissions, a.entry.executor = p →
    ∀ r ∈ (run calls).runsOf p, r.id ≠ a.id →
      Queue.readyOf a.id a.entry ≤ Queue.readyOf r.id r.entry →
      (run calls).Ran a.id (commands a.entry.text)

theorem kept_run (p : ObjectId) (g : Nat) (s : Record) (now : Instant) (calls : List Call)
    (hs : s.Sound) (hl : s.Lined now) (hk : s.Kept p g)
    (hplain : ∀ call ∈ calls, call.plain = true) (ht : Timed now calls) (hp : Stays p g s calls) :
    (calls.foldl step s).Kept p g := by
  induction calls generalizing s now with
  | nil => exact hk
  | cons call calls ih =>
      obtain ⟨hn, hrest⟩ := ht.tail now call calls
      obtain ⟨hup, hafter, hstays⟩ := hp
      exact ih (s.step call) call.now (s.sound_step hs call) (s.lined_step hs hl hn)
        (s.kept_step now p g hl hk hs (hplain call List.mem_cons_self) hup hafter)
        (fun later hmem => hplain later (List.mem_cons_of_mem _ hmem)) hrest hstays

theorem finishes_of_lined {calls : List Call} {now : Instant} (h : (run calls).Lined now)
    (hk : ∀ p g, Stays p g .empty calls → (run calls).Kept p g) : Finishes calls := by
  intro p g hstays a ha hp r hr hid hbefore
  rcases (hk p g hstays).finished a ha hp with ⟨e, he⟩ | hran
  · exfalso
    obtain ⟨hruns, hexecutor⟩ := List.mem_filter.mp hr
    have hrp : r.entry.executor = p := by simpa using hexecutor
    have hheader := (h.own _ now ha he).1
    have hep : e.executor = r.entry.executor :=
      (executor_header hheader).symm.trans (hp.trans hrp.symm)
    have hfront := h.front r hruns a.id e he hep
    rw [← readyOf_header a.id hheader] at hfront
    exact hid (readyOf_id (le_antisymm hfront hbefore))
  · exact hran

-- The first and the last call run commands of the executor, those between them do not.
structure Consecutive (p : ObjectId) (before : List Call) (first : Call) (middle : List Call)
    (last : Call) : Prop where
  opens : ((run (before ++ [first])).runsOf p).length = ((run before).runsOf p).length + 1
  rests : ((run (before ++ first :: middle)).runsOf p).length =
    ((run (before ++ [first])).runsOf p).length
  closes : ((run (before ++ first :: middle ++ [last])).runsOf p).length =
    ((run (before ++ first :: middle)).runsOf p).length + 1

def turns (q : ObjectId) (before : List Call) (first : Call) (middle : List Call) : Nat :=
  ((run (before ++ first :: middle)).runsOf q).length - ((run (before ++ [first])).runsOf q).length

-- Others that are ready, and stay up, have a turn in between; just one if the executor still has
-- ready lists and stays up itself.
def TakesTurns (calls : List Call) : Prop :=
  ∀ before first middle last, calls = before ++ first :: middle ++ [last] →
    ∀ p q g, p ≠ q → Consecutive p before first middle last →
      (run before).queue.HasReady q g first.now →
      Stays q g (run before) (first :: middle ++ [last]) →
      1 ≤ turns q before first middle ∧
        ∀ generation, (run (before ++ [first])).queue.HasReady p generation first.now →
          Stays p generation (run (before ++ [first])) (middle ++ [last]) →
          turns q before first middle = 1

theorem Stays.left (p : ObjectId) (g : Nat) (s : Record) (calls rest : List Call)
    (h : Stays p g s (calls ++ rest)) : Stays p g s calls := by
  induction calls generalizing s with
  | nil => trivial
  | cons call calls ih => exact ⟨h.1, h.2.1, ih (s.step call) h.2.2⟩

theorem run_append (calls rest : List Call) : run (calls ++ rest) = rest.foldl step (run calls) :=
  List.foldl_append

theorem sound_runs (calls : List Call) : (run calls).Sound :=
  sound_run .empty calls sound_empty

theorem run_takesTurns {calls : List Call} (hplain : ∀ call ∈ calls, call.plain = true)
    (ht : calls.Pairwise (fun a b => a.now ≤ b.now)) : TakesTurns calls := by
  rintro before first middle last rfl p q g hpq hc hready hstays
  obtain ⟨hup, -, hlater⟩ := hstays
  have hs := sound_runs before
  have hopens : run (before ++ [first]) = (run before).step first := run_append before [first]
  have hmiddle : run (before ++ first :: middle) = middle.foldl step (run (before ++ [first])) := by
    rw [run_append, hopens]
    rfl
  have hlast : run (before ++ first :: middle ++ [last]) =
      (run (before ++ first :: middle)).step last := run_append _ [last]
  have hall : run (before ++ first :: middle ++ [last]) =
      (middle ++ [last]).foldl step (run (before ++ [first])) := by
    rw [hlast, hmiddle, List.foldl_append]
    rfl
  have hs1 := sound_runs (before ++ [first])
  have hs2 := sound_runs (before ++ first :: middle)
  -- the calls after the first
  have hrest : ∀ call ∈ middle ++ [last], call.plain = true := by
    intro call hcall
    apply hplain
    rw [List.append_assoc]
    exact List.mem_append_right _ (List.mem_cons_of_mem _ hcall)
  have htimed : Timed first.now (middle ++ [last]) := by
    rw [List.append_assoc] at ht
    have hsuffix : (first :: (middle ++ [last])).Pairwise (fun a b => a.now ≤ b.now) :=
      (List.pairwise_append.mp ht).2.1
    exact List.pairwise_cons.mp hsuffix
  have hwaits : Waits p q g first.now (run (before ++ [first])) := by
    have hgrows := hc.opens
    rw [hopens] at hgrows ⊢
    exact (run before).waits_first first hs p q hpq g hup hready (by omega)
  rw [← hopens] at hlater
  have hgrown := waits_run p q hpq g _ first.now (middle ++ [last]) hs1 hrest htimed hlater hwaits
  rw [← hall] at hgrown
  have hcloses := hc.closes
  rw [hlast] at hcloses hgrown
  have hother := (run (before ++ first :: middle)).runsOf_step_other last hs2 hpq (by omega)
  have hrests := hc.rests
  unfold turns
  refine ⟨by omega, fun generation hreadyp hstaysp => ?_⟩
  have hmost := alternates p q hpq g generation _ first.now middle hs1
    (fun call hcall => hrest call (List.mem_append_left _ hcall))
    ⟨fun call hcall => htimed.1 call (List.mem_append_left _ hcall),
      (List.pairwise_append.mp htimed.2).1⟩
    (hlater.left q g _ middle [last]) (hstaysp.left p generation _ middle [last]) hwaits hreadyp
    (by rw [← hmiddle]; exact hrests)
  rw [← hmiddle] at hmost
  omega

structure Fair (calls : List Call) : Prop where
  inOrder : (run calls).InOrder
  finishes : Finishes calls
  takesTurns : TakesTurns calls

theorem run_fair (calls : List Call) (hplain : ∀ call ∈ calls, call.plain = true)
    (ht : calls.Pairwise (fun a b => a.now ≤ b.now)) : Fair calls := by
  have htimed : Timed 0 calls := ⟨fun call _ => Nat.zero_le _, ht⟩
  obtain ⟨now, hlined⟩ := lined_run .empty 0 calls sound_empty (lined_empty 0) htimed
  refine ⟨inOrder_of_lined hlined, ?_, run_takesTurns hplain ht⟩
  exact finishes_of_lined hlined (fun p g hstays =>
    kept_run p g .empty 0 calls sound_empty (lined_empty 0) (kept_empty p g) hplain htimed hstays)

-- One executor has a list of four commands, the other is admitted one command twice.
def plaza : World := ⟨[(1, ⟨1, .Player, none, ∅⟩), (2, ⟨2, .Thing, none, ∅⟩)], by decide⟩

def adding (executor : ObjectId) (text : String) : Call :=
  ⟨.Apply (.Add executor 1 0 text.toList) 100 8192, plaza, 0⟩

def taking : Call := ⟨.Take true, plaza, 0⟩

def opening : List Call := [adding 1 "look", adding 2 "north;east;south;west"]

def meanwhile : List Call := [taking, taking, adding 1 "score", taking]

theorem run_fair_plaza : Fair (opening ++ taking :: meanwhile ++ [taking]) :=
  run_fair _ (by decide) (by decide)

-- While it has nothing to run itself, an executor waits for more than one turn of another.
theorem run_not_alternating : ¬ ∀ calls : List Call, (∀ call ∈ calls, call.plain = true) →
    calls.Pairwise (fun a b => a.now ≤ b.now) →
    ∀ before first middle last, calls = before ++ first :: middle ++ [last] →
      ∀ p q g, p ≠ q → Consecutive p before first middle last →
        (run before).queue.HasReady q g first.now →
        Stays q g (run before) (first :: middle ++ [last]) → turns q before first middle = 1 := by
  intro hall
  have hone := hall (opening ++ taking :: meanwhile ++ [taking]) (by decide) (by decide) opening
    taking meanwhile taking rfl 1 2 2 (by decide)
    ⟨by decide +kernel, by decide +kernel, by decide +kernel⟩
    ⟨2, ⟨2, 2, 1, 0, "north;east;south;west".toList⟩, by decide +kernel, rfl, rfl, Nat.le_refl 0⟩
    (by decide +kernel)
  have hthree : turns 2 opening taking meanwhile = 3 := by decide +kernel
  omega

end Record

end StompyMux.Commands
