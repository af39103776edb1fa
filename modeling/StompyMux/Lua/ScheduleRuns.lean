import Mathlib.Data.List.Induction
import StompyMux.Lua.Schedules

-- Runs of the schedule queue: each minute is planned once and taken in time.
namespace StompyMux.Lua

open Library StompyMux.World

-- The order of the declarations of a catalog.
def Definition.Before (a b : Definition) : Prop :=
  a.module < b.module ∨ a.module = b.module ∧ a.index < b.index

theorem Catalog.declared_before (catalog : Catalog) {entry : String × List Definition}
    (hentry : entry ∈ catalog.modules.entries) : entry.2.Pairwise Definition.Before := by
  rw [List.pairwise_iff_getElem]
  intro i j hi hj hlt
  obtain ⟨hfirst, hi⟩ := catalog.numbered entry hentry i _ (List.getElem?_eq_getElem hi)
  obtain ⟨hsecond, hj⟩ := catalog.numbered entry hentry j _ (List.getElem?_eq_getElem hj)
  exact Or.inr ⟨hfirst.trans hsecond.symm, by omega⟩

theorem Catalog.module_of_mem (catalog : Catalog) {entry : String × List Definition}
    (hentry : entry ∈ catalog.modules.entries) {d : Definition} (hd : d ∈ entry.2) :
    d.module = entry.1 := by
  obtain ⟨i, hi⟩ := List.mem_iff_getElem?.mp hd
  exact (catalog.numbered entry hentry i d hi).1

theorem Catalog.definitions_before (catalog : Catalog) :
    catalog.definitions.Pairwise Definition.Before := by
  unfold Catalog.definitions OrderedMap.values
  rw [List.pairwise_flatten, List.pairwise_map]
  constructor
  · intro list hlist
    obtain ⟨entry, hentry, rfl⟩ := List.mem_map.mp hlist
    exact catalog.declared_before hentry
  · refine catalog.modules.sorted.imp_of_mem fun {a b} ha hb hlt d hd e he => Or.inl ?_
    rw [catalog.module_of_mem ha hd, catalog.module_of_mem hb he]
    exact hlt

theorem Catalog.mem_definitions (catalog : Catalog) {name : String} {list : List Definition}
    (hlist : catalog.modules.get? name = some list) {d : Definition} (hd : d ∈ list) :
    d ∈ catalog.definitions := by
  have hentry := (OrderedMap.get?_eq_some_iff _ _ _).mp hlist
  exact List.mem_flatten.mpr ⟨list, List.mem_map.mpr ⟨_, hentry, rfl⟩, hd⟩

namespace Job

variable (a b : Job)

def minute : Int := a.due / 60

-- A schedule, the incarnation it runs for and the minute.
def identity : (String × Nat) × Option (ObjectId × Nat) × Int :=
  ((a.definition.module, a.definition.index), a.object, a.minute)

-- Global modules come first, then the objects by their ids.
def Before : Prop :=
  match a.object, b.object with
  | none, none => a.definition.Before b.definition
  | none, some _ => True
  | some _, none => False
  | some x, some y => x.1 < y.1 ∨ x.1 = y.1 ∧ a.definition.index < b.definition.index

variable {a b}

theorem Before.identity_ne (h : Before a b) : a.identity ≠ b.identity := by
  intro heq
  obtain ⟨hschedule, hobject, _⟩ := And.imp_right Prod.mk.inj (Prod.mk.inj heq)
  obtain ⟨hmodule, hindex⟩ := Prod.mk.inj hschedule
  unfold Before at h
  rw [hobject] at h
  cases hb : b.object with
  | none =>
      rw [hb] at h
      rcases h with hlt | ⟨_, hlt⟩
      · exact absurd hmodule (ne_of_lt hlt)
      · omega
  | some y =>
      rw [hb] at h
      rcases h with hlt | ⟨_, hlt⟩
      · exact lt_irrefl _ hlt
      · omega

-- The job belongs to its minute, and its expression matches it.
structure Planned (calendar : Int → Option Date) (catalog : Catalog) (minute : Int)
    (j : Job) : Prop where
  definition : j.definition ∈ catalog.definitions
  start : minute * 60 ≤ j.due
  due : j.due < j.expires
  expires : j.expires = minute * 60 + 60
  matched : j.definition.cron.matches calendar (minute * 60) = true

theorem Planned.minute {calendar : Int → Option Date} {catalog : Catalog} {minute : Int} {j : Job}
    (h : Planned calendar catalog minute j) : j.minute = minute := by
  have hstart := h.start
  have hdue := h.due
  have hexpires := h.expires
  unfold Job.minute
  omega

end Job

theorem jitter_bounds (path name : String) (object : Option ObjectId) (minute : Int) :
    0 ≤ jitter path name object minute ∧ jitter path name object minute < 55 := by
  unfold jitter
  simp only [UInt64.toNat_mod]
  refine ⟨Int.natCast_nonneg _, Int.ofNat_lt.mpr (Nat.mod_lt _ (by decide))⟩

section

variable {calendar : Int → Option Date} {catalog : Catalog} {world : ScriptedWorld}
  {minute start expires : Int} {object : Option (ObjectId × Nat)} {d : Definition} {j : Job}

theorem job_eq_some (h : job calendar minute start expires object d = some j) :
    d.cron.matches calendar start = true ∧ j.definition = d ∧ j.object = object ∧
      j.due = start + jitter d.path d.name (object.map Prod.fst) minute ∧ j.expires = expires := by
  unfold job at h
  split at h
  case isTrue hmatched =>
    rw [← Option.some_inj.mp h]
    exact ⟨hmatched, rfl, rfl, rfl, rfl⟩
  case isFalse => contradiction

theorem planned_of_job (hd : d ∈ catalog.definitions)
    (h : job calendar minute (minute * 60) (minute * 60 + 60) object d = some j) :
    Job.Planned calendar catalog minute j := by
  obtain ⟨hmatched, hdefinition, _, hdue, hexpires⟩ := job_eq_some h
  have hjitter := jitter_bounds d.path d.name (object.map Prod.fst) minute
  refine ⟨hdefinition ▸ hd, ?_, ?_, hexpires, hdefinition ▸ hmatched⟩
  · rw [hdue]
    omega
  · rw [hdue, hexpires]
    omega

theorem globalJobs_planned (h : j ∈ globalJobs calendar catalog minute (minute * 60)
    (minute * 60 + 60)) : j.object = none ∧ Job.Planned calendar catalog minute j := by
  obtain ⟨d, hd, hjob⟩ := List.mem_filterMap.mp h
  exact ⟨(job_eq_some hjob).2.2.1, planned_of_job (List.mem_of_mem_filter hd) hjob⟩

theorem objectJobs_planned {entry : ObjectId × Scripted} (h : j ∈ objectJobs calendar catalog minute
    (minute * 60) (minute * 60 + 60) entry) :
    j.object = some (entry.1, entry.2.generation) ∧ Job.Planned calendar catalog minute j := by
  unfold objectJobs at h
  split at h
  case h_1 => contradiction
  case h_2 list hlist =>
    obtain ⟨d, hd, hjob⟩ := List.mem_filterMap.mp h
    exact ⟨(job_eq_some hjob).2.2.1, planned_of_job (catalog.mem_definitions hlist hd) hjob⟩

theorem collect_planned (h : j ∈ collect calendar catalog world minute (minute * 60)
    (minute * 60 + 60)) : Job.Planned calendar catalog minute j := by
  rcases List.mem_append.mp h with hglobal | hobject
  · exact (globalJobs_planned hglobal).2
  · obtain ⟨entry, _, hjob⟩ := List.mem_flatMap.mp hobject
    exact (objectJobs_planned hjob).2

theorem globalJobs_before :
    (globalJobs calendar catalog minute start expires).Pairwise Job.Before := by
  refine List.pairwise_filterMap.mpr ((catalog.definitions_before.filter _).imp ?_)
  intro d e hbefore a ha b hb
  obtain ⟨_, hda, hoa, _⟩ := job_eq_some ha
  obtain ⟨_, hdb, hob, _⟩ := job_eq_some hb
  unfold Job.Before
  rw [hoa, hob, hda, hdb]
  exact hbefore

theorem objectJobs_before (entry : ObjectId × Scripted) :
    (objectJobs calendar catalog minute start expires entry).Pairwise Job.Before := by
  unfold objectJobs
  split
  case h_1 => exact List.Pairwise.nil
  case h_2 list hlist =>
    have hentry := (OrderedMap.get?_eq_some_iff _ _ _).mp hlist
    refine List.pairwise_filterMap.mpr ((catalog.declared_before hentry).imp_of_mem ?_)
    intro d e hd he hbefore a ha b hb
    obtain ⟨_, hda, hoa, _⟩ := job_eq_some ha
    obtain ⟨_, hdb, hob, _⟩ := job_eq_some hb
    unfold Job.Before
    rw [hoa, hob, hda, hdb]
    refine Or.inr ⟨rfl, hbefore.elim (fun hlt => ?_) And.right⟩
    rw [catalog.module_of_mem hentry hd, catalog.module_of_mem hentry he] at hlt
    exact absurd hlt (lt_irrefl _)

theorem collect_before :
    (collect calendar catalog world minute (minute * 60) (minute * 60 + 60)).Pairwise
      Job.Before := by
  refine List.pairwise_append.mpr ⟨globalJobs_before, ?_, ?_⟩
  · refine List.pairwise_flatMap.mpr ⟨fun entry _ => objectJobs_before entry, ?_⟩
    refine (world.sorted.filter _).imp fun {x y} hlt a ha b hb => ?_
    unfold Job.Before
    rw [(objectJobs_planned ha).1, (objectJobs_planned hb).1]
    exact Or.inl hlt
  · intro a ha b hb
    obtain ⟨entry, _, hb⟩ := List.mem_flatMap.mp hb
    unfold Job.Before
    rw [(globalJobs_planned ha).1, (objectJobs_planned hb).1]
    trivial

end

inductive ScheduleCall
  | observe (world : ScriptedWorld) (now : Int)
  | takeDue (now : Int)
  | clear

namespace ScheduleCall

def time : ScheduleCall → Option Int
  | .observe _ now => some now
  | _ => none

def observed (calls : List ScheduleCall) : List Int := calls.filterMap time

-- The minute was observed, past every minute observed before it, and not as the first.
def Opened (calls : List ScheduleCall) (minute : Int) : Prop :=
  ∃ before world now after, calls = before ++ .observe world now :: after ∧ now / 60 = minute ∧
    observed before ≠ [] ∧ ∀ t ∈ observed before, t / 60 < minute

theorem Opened.append {calls : List ScheduleCall} {minute : Int} (h : Opened calls minute)
    (later : List ScheduleCall) : Opened (calls ++ later) minute := by
  obtain ⟨before, world, now, after, rfl, hrest⟩ := h
  exact ⟨before, world, now, after ++ later, by simp, hrest⟩

end ScheduleCall

open ScheduleCall

-- The queue and what was taken from it, each with its time.
structure ScheduleRun where
  queue : Queue
  taken : List (Int × Job)

section

variable (calendar : Int → Option Date) (catalog : Catalog)

def ScheduleRun.step (r : ScheduleRun) : ScheduleCall → ScheduleRun
  | .observe world now => ⟨r.queue.observe now calendar catalog world, r.taken⟩
  | .takeDue now =>
      ⟨(r.queue.takeDue now).1, r.taken ++ ((r.queue.takeDue now).2.map (now, ·)).toList⟩
  | .clear => ⟨r.queue.clear, r.taken⟩

def ScheduleRun.run (r : ScheduleRun) (calls : List ScheduleCall) : ScheduleRun :=
  calls.foldl (ScheduleRun.step calendar catalog) r

end

section

variable (calendar : Int → Option Date) (catalog : Catalog) (q : Queue) (now : Int)

theorem checked_eq_some {n m : Int} (h : checked n = some m) : m = n := by
  unfold checked at h
  split at h
  case isTrue => exact (Option.some_inj.mp h).symm
  case isFalse => contradiction

theorem Queue.observe_cases (world : ScriptedWorld) :
    (q.highWater = none ∧ q.observe now calendar catalog world =
      ⟨some (now / 60), (q.retain now).jobs⟩) ∨
    ∃ previous, q.highWater = some previous ∧
      ((now / 60 ≤ previous ∧ q.observe now calendar catalog world = q.retain now) ∨
      (previous < now / 60 ∧
        (q.observe now calendar catalog world = ⟨some (now / 60), (q.retain now).jobs⟩ ∨
        q.observe now calendar catalog world =
          ⟨some (now / 60), stableSort Job.due ((q.retain now).jobs ++ collect calendar catalog
            world (now / 60) (now / 60 * 60) (now / 60 * 60 + 60))⟩))) := by
  unfold observe
  have hwater : (q.retain now).highWater = q.highWater := rfl
  simp only [hwater]
  cases hhigh : q.highWater with
  | none => exact Or.inl ⟨rfl, rfl⟩
  | some previous =>
      refine Or.inr ⟨previous, rfl, ?_⟩
      by_cases hle : now / 60 ≤ previous
      · exact Or.inl ⟨hle, if_pos hle⟩
      · refine Or.inr ⟨by omega, ?_⟩
        simp only [if_neg hle]
        split
        case h_1 => exact Or.inl rfl
        case h_2 start hstart =>
          split
          case h_1 => exact Or.inl rfl
          case h_2 expires hexpires =>
            rw [checked_eq_some hexpires, checked_eq_some hstart]
            exact Or.inr rfl

theorem Queue.takeDue_cases : (q.takeDue now).1.highWater = q.highWater ∧ ∃ dropped,
    (q.jobs = dropped ++ (q.takeDue now).1.jobs ∧ (q.takeDue now).2 = none ∨
      ∃ j, q.jobs = dropped ++ j :: (q.takeDue now).1.jobs ∧ (q.takeDue now).2 = some j ∧
        j.due ≤ now ∧ now < j.expires) := by
  have hhead := List.head?_dropWhile_not (fun job : Job => decide (job.expires ≤ now)) q.jobs
  have hsplit := List.takeWhile_append_dropWhile
    (p := fun job : Job => decide (job.expires ≤ now)) (l := q.jobs)
  unfold takeDue ready
  cases hjobs : q.jobs.dropWhile fun job => job.expires ≤ now with
  | nil =>
      rw [hjobs] at hsplit
      exact ⟨rfl, _, Or.inl ⟨hsplit.symm, rfl⟩⟩
  | cons j rest =>
      rw [hjobs] at hhead hsplit
      have hlive : now < j.expires := by simpa using hhead
      by_cases hdue : j.due ≤ now
      · simp only [List.head?_cons, Option.any_some, hdue, decide_true, if_true]
        exact ⟨trivial, _, Or.inr ⟨j, hsplit.symm, rfl, hdue, hlive⟩⟩
      · simp only [List.head?_cons, Option.any_some, hdue, decide_false, Bool.false_eq_true, if_false]
        exact ⟨trivial, _, Or.inl ⟨hsplit.symm, trivial⟩⟩

end

-- What is still queued after some calls, and what was taken.
structure Kept (calendar : Int → Option Date) (catalog : Catalog) (calls : List ScheduleCall)
    (r : ScheduleRun) : Prop where
  ranked : r.queue.jobs.Pairwise (Ranked Job.due Job.Before)
  planned : ∀ j ∈ r.queue.jobs, Job.Planned calendar catalog j.minute j
  current : ∀ j ∈ r.queue.jobs, r.queue.highWater = some j.minute
  taken : ∀ t ∈ r.taken, Job.Planned calendar catalog t.2.minute t.2 ∧
    t.1 / 60 = t.2.minute ∧ t.2.due ≤ t.1
  past : ∀ t ∈ r.taken, ∃ high, r.queue.highWater = some high ∧ t.2.minute ≤ high
  once : ((r.taken.map Prod.snd ++ r.queue.jobs).map Job.identity).Nodup
  opened : ∀ j ∈ r.taken.map Prod.snd ++ r.queue.jobs, Opened calls j.minute
  heard : ∀ high, r.queue.highWater = some high → observed calls ≠ []
  observed : ∀ t ∈ observed calls, ∃ high, r.queue.highWater = some high ∧ t / 60 ≤ high

variable {calendar : Int → Option Date} {catalog : Catalog} {calls : List ScheduleCall}
  {r : ScheduleRun}

theorem kept_default : Kept calendar catalog [] ⟨.default, []⟩ :=
  ⟨List.Pairwise.nil, List.forall_mem_nil _, List.forall_mem_nil _, List.forall_mem_nil _,
    List.forall_mem_nil _, List.nodup_nil, List.forall_mem_nil _,
    fun _ hhigh => (Option.some_ne_none _ hhigh.symm).elim, List.forall_mem_nil _⟩

theorem observed_concat (call : ScheduleCall) :
    observed (calls ++ [call]) = observed calls ++ call.time.toList := by
  unfold observed
  rw [List.filterMap_append]
  cases htime : call.time <;> simp [htime]

theorem Kept.shrink (h : Kept calendar catalog calls r) (jobs : List Job)
    (new : List (Int × Job)) (hsub : (new.map Prod.snd ++ jobs).Sublist r.queue.jobs)
    (hnew : ∀ t ∈ new, t.2.due ≤ t.1 ∧ t.1 < t.2.expires) (call : ScheduleCall)
    (hcall : ∀ t ∈ call.time, ∃ high, r.queue.highWater = some high ∧ t / 60 ≤ high) :
    Kept calendar catalog (calls ++ [call])
      ⟨⟨r.queue.highWater, jobs⟩, r.taken ++ new⟩ where
  ranked := h.ranked.sublist ((List.sublist_append_right _ _).trans hsub)
  planned j hj := h.planned j (hsub.subset (List.mem_append_right _ hj))
  current j hj := h.current j (hsub.subset (List.mem_append_right _ hj))
  taken := by
    intro t ht
    rcases List.mem_append.mp ht with hold | hin
    · exact h.taken t hold
    · have hmem : t.2 ∈ r.queue.jobs :=
        hsub.subset (List.mem_append_left _ (List.mem_map_of_mem hin))
      have hplanned := h.planned t.2 hmem
      obtain ⟨hdue, hlive⟩ := hnew t hin
      have hstart := hplanned.start
      have hexpires := hplanned.expires
      exact ⟨hplanned, by omega, hdue⟩
  past := by
    intro t ht
    rcases List.mem_append.mp ht with hold | hin
    · exact h.past t hold
    · have hmem : t.2 ∈ r.queue.jobs :=
        hsub.subset (List.mem_append_left _ (List.mem_map_of_mem hin))
      exact ⟨t.2.minute, h.current t.2 hmem, le_rfl⟩
  once := by
    show (((r.taken ++ new).map Prod.snd ++ jobs).map Job.identity).Nodup
    rw [List.map_append (f := Prod.snd), List.append_assoc]
    exact h.once.sublist (((List.Sublist.refl _).append hsub).map _)
  opened := by
    intro j hj
    rw [List.map_append, List.append_assoc] at hj
    exact (h.opened j (((List.Sublist.refl _).append hsub).subset hj)).append _
  heard high hhigh := by
    rw [observed_concat]
    exact List.append_ne_nil_of_left_ne_nil (h.heard high hhigh) _
  observed := by
    intro t ht
    rw [observed_concat] at ht
    rcases List.mem_append.mp ht with hold | hin
    · exact h.observed t hold
    · exact hcall t (Option.mem_toList.mp hin)

-- A later minute is planned afresh, when nothing of an earlier one is left.
theorem Kept.advance (h : Kept calendar catalog calls r) (world : ScriptedWorld) (now : Int)
    (hlater : ∀ high, r.queue.highWater = some high → high < now / 60) {jobs : List Job}
    (hranked : jobs.Pairwise (Ranked Job.due Job.Before))
    (hplanned : ∀ j ∈ jobs, Job.Planned calendar catalog (now / 60) j)
    (hfresh : (jobs.map Job.identity).Nodup)
    (hfirst : r.queue.highWater = none → jobs = []) :
    Kept calendar catalog (calls ++ [.observe world now])
      ⟨⟨some (now / 60), jobs⟩, r.taken⟩ where
  ranked := hranked
  planned j hj := by
    rw [(hplanned j hj).minute]
    exact hplanned j hj
  current j hj := congrArg some (hplanned j hj).minute.symm
  taken := h.taken
  past := by
    intro t ht
    obtain ⟨high, hhigh, hle⟩ := h.past t ht
    exact ⟨now / 60, rfl, hle.trans (le_of_lt (hlater high hhigh))⟩
  once := by
    have hold := h.once
    rw [List.map_append] at hold ⊢
    refine List.nodup_append.mpr ⟨(List.nodup_append.mp hold).1, hfresh, ?_⟩
    intro x hx y hy heq
    obtain ⟨a, ha, rfl⟩ := List.mem_map.mp hx
    obtain ⟨t, ht, rfl⟩ := List.mem_map.mp ha
    obtain ⟨b, hb, rfl⟩ := List.mem_map.mp hy
    obtain ⟨high, hhigh, hle⟩ := h.past t ht
    have hminute : t.2.minute = b.minute := congrArg (fun x => x.2.2) heq
    rw [(hplanned b hb).minute] at hminute
    have hlt := hlater high hhigh
    omega
  opened := by
    intro j hj
    rcases List.mem_append.mp hj with hold | hin
    · exact (h.opened j (List.mem_append_left _ hold)).append _
    · rw [(hplanned j hin).minute]
      cases hhigh : r.queue.highWater with
      | none =>
          rw [hfirst hhigh] at hin
          contradiction
      | some high =>
          refine ⟨calls, world, now, [], rfl, rfl, h.heard high hhigh, fun t ht => ?_⟩
          obtain ⟨high', hhigh', hle⟩ := h.observed t ht
          exact lt_of_le_of_lt hle (hlater high' hhigh')
  heard _ _ := by
    rw [observed_concat]
    exact List.append_ne_nil_of_right_ne_nil _ (List.cons_ne_nil _ _)
  observed := by
    intro t ht
    rw [observed_concat] at ht
    rcases List.mem_append.mp ht with hold | hin
    · obtain ⟨high, hhigh, hle⟩ := h.observed t hold
      exact ⟨now / 60, rfl, hle.trans (le_of_lt (hlater high hhigh))⟩
    · rw [List.mem_singleton.mp hin]
      exact ⟨now / 60, rfl, le_rfl⟩

theorem Kept.retain_eq_nil (h : Kept calendar catalog calls r) (now : Int)
    (hlater : ∀ high, r.queue.highWater = some high → high < now / 60) :
    (r.queue.retain now).jobs = [] := by
  refine List.filter_eq_nil_iff.mpr fun j hj => ?_
  have hexpires := (h.planned j hj).expires
  have hlt := hlater j.minute (h.current j hj)
  rw [decide_eq_true_eq]
  omega

theorem Kept.observe (h : Kept calendar catalog calls r) (world : ScriptedWorld) (now : Int) :
    Kept calendar catalog (calls ++ [.observe world now])
      (r.step calendar catalog (.observe world now)) := by
  have hstep : r.step calendar catalog (.observe world now) =
    ⟨r.queue.observe now calendar catalog world, r.taken⟩ := rfl
  rw [hstep]
  rcases r.queue.observe_cases calendar catalog now world with
    ⟨hnone, hobserve⟩ | ⟨previous, hprevious, ⟨hle, hobserve⟩ | ⟨hlt, hobserve⟩⟩
  · rw [hobserve]
    have hlater : ∀ high, r.queue.highWater = some high → high < now / 60 := by
      rw [hnone]
      exact fun _ hhigh => (Option.some_ne_none _ hhigh.symm).elim
    rw [h.retain_eq_nil now hlater]
    exact h.advance world now hlater List.Pairwise.nil (List.forall_mem_nil _) List.nodup_nil
      fun _ => rfl
  · rw [hobserve]
    have hshrink := h.shrink (r.queue.retain now).jobs [] List.filter_sublist
      (List.forall_mem_nil _) (.observe world now) fun t ht => ⟨previous, hprevious, by
        rw [← Option.some_inj.mp ht]
        exact hle⟩
    rw [List.append_nil] at hshrink
    exact hshrink
  · have hlater : ∀ high, r.queue.highWater = some high → high < now / 60 := by
      intro high hhigh
      rw [hprevious, Option.some_inj] at hhigh
      omega
    have hnil := h.retain_eq_nil now hlater
    have hwater : r.queue.highWater ≠ none := by
      rw [hprevious]
      exact Option.some_ne_none _
    rcases hobserve with hobserve | hobserve
    · rw [hobserve, hnil]
      exact h.advance world now hlater List.Pairwise.nil (List.forall_mem_nil _) List.nodup_nil
        fun _ => rfl
    · rw [hobserve, hnil, List.nil_append]
      have hbefore : (collect calendar catalog world (now / 60) (now / 60 * 60)
          (now / 60 * 60 + 60)).Pairwise Job.Before := collect_before
      have hperm := stableSort_perm Job.due (collect calendar catalog world (now / 60)
        (now / 60 * 60) (now / 60 * 60 + 60))
      refine h.advance world now hlater (ranked_stableSort hbefore) (fun j hj => ?_) ?_ ?_
      · exact collect_planned (hperm.mem_iff.mp hj)
      · refine (hperm.map _).nodup_iff.mpr (List.pairwise_map.mpr (hbefore.imp ?_))
        exact fun {a b} hab => hab.identity_ne
      · exact fun hnone => (hwater hnone).elim

-- Without an observation jobs are only dropped, or taken in their order.
theorem ScheduleRun.step_quiet (calendar : Int → Option Date) (catalog : Catalog) (r : ScheduleRun)
    {call : ScheduleCall} (hcall : call.time = none) : ∃ jobs new,
      r.step calendar catalog call = ⟨⟨r.queue.highWater, jobs⟩, r.taken ++ new⟩ ∧
      (new.map Prod.snd ++ jobs).Sublist r.queue.jobs ∧
      ∀ t ∈ new, t.2.due ≤ t.1 ∧ t.1 < t.2.expires := by
  cases call with
  | observe world now => contradiction
  | clear =>
      refine ⟨[], [], ?_, List.nil_sublist _, List.forall_mem_nil _⟩
      rw [List.append_nil]
      rfl
  | takeDue now =>
      obtain ⟨hwater, dropped, hcases⟩ := r.queue.takeDue_cases now
      rw [← hwater]
      rcases hcases with ⟨hjobs, hnone⟩ | ⟨j, hjobs, hsome, hdue, hlive⟩
      · refine ⟨(r.queue.takeDue now).1.jobs, [], ?_, ?_, List.forall_mem_nil _⟩
        · simp only [step, hnone]
          rfl
        · rw [hjobs]
          exact List.sublist_append_right _ _
      · refine ⟨(r.queue.takeDue now).1.jobs, [(now, j)], ?_, ?_, fun t ht => ?_⟩
        · simp only [step, hsome]
          rfl
        · rw [hjobs]
          exact List.sublist_append_right _ _
        · rw [List.mem_singleton.mp ht]
          exact ⟨hdue, hlive⟩

theorem ScheduleRun.run_quiet (calendar : Int → Option Date) (catalog : Catalog)
    (calls : List ScheduleCall) (hcalls : observed calls = []) : ∀ r : ScheduleRun, ∃ new,
      (r.run calendar catalog calls).taken = r.taken ++ new ∧
      (new.map Prod.snd ++ (r.run calendar catalog calls).queue.jobs).Sublist r.queue.jobs := by
  induction calls with
  | nil => exact fun r => ⟨[], (List.append_nil _).symm, List.Sublist.refl _⟩
  | cons call rest ih =>
      intro r
      have hquiet : call.time = none ∧ observed rest = [] := by
        unfold observed at hcalls ⊢
        cases htime : call.time <;> simp_all
      obtain ⟨jobs, first, hstep, hsub, _⟩ := r.step_quiet calendar catalog hquiet.1
      obtain ⟨later, htaken, hlater⟩ := ih hquiet.2 (r.step calendar catalog call)
      have hrun : r.run calendar catalog (call :: rest) =
        (r.step calendar catalog call).run calendar catalog rest := rfl
      have hjobs : (r.step calendar catalog call).queue.jobs = jobs := by rw [hstep]
      rw [hjobs] at hlater
      refine ⟨first ++ later, ?_, ?_⟩
      · rw [hrun, htaken, hstep, List.append_assoc]
      · rw [hrun, List.map_append, List.append_assoc]
        exact ((List.Sublist.refl _).append hlater).trans hsub

theorem Kept.step (h : Kept calendar catalog calls r) (call : ScheduleCall) :
    Kept calendar catalog (calls ++ [call]) (r.step calendar catalog call) := by
  cases htime : call.time with
  | none =>
      obtain ⟨jobs, new, hstep, hsub, hnew⟩ := r.step_quiet calendar catalog htime
      rw [hstep]
      refine h.shrink jobs new hsub hnew call fun t ht => ?_
      rw [htime] at ht
      contradiction
  | some now =>
      cases call with
      | observe world _ => exact h.observe world _
      | takeDue _ => contradiction
      | clear => contradiction

theorem run_concat (call : ScheduleCall) : r.run calendar catalog (calls ++ [call]) =
    (r.run calendar catalog calls).step calendar catalog call := List.foldl_concat ..

theorem run_kept (calendar : Int → Option Date) (catalog : Catalog) (calls : List ScheduleCall) :
    Kept calendar catalog calls (ScheduleRun.run calendar catalog ⟨.default, []⟩ calls) := by
  induction calls using List.reverseRecOn with
  | nil => exact kept_default
  | append_singleton calls call ih =>
      rw [run_concat]
      exact ih.step call

-- Each schedule runs at most once a minute for an incarnation, never late, and in order.
theorem schedule_runs (calendar : Int → Option Date) (catalog : Catalog)
    (calls : List ScheduleCall) :
    let r := ScheduleRun.run calendar catalog ⟨.default, []⟩ calls
    (r.taken.map fun t => t.2.identity).Nodup ∧
    (∀ t ∈ r.taken, t.1 / 60 = t.2.minute ∧ t.2.due ≤ t.1) ∧
    (∀ j ∈ r.taken.map Prod.snd ++ r.queue.jobs, Opened calls j.minute) ∧
    (∀ later, observed later = [] → ∃ new,
      (r.run calendar catalog later).taken = r.taken ++ new ∧
      (new.map Prod.snd).Pairwise (Ranked Job.due Job.Before)) ∧
    ∀ t ∈ r.taken, t.2.definition ∈ catalog.definitions ∧
      t.2.definition.cron.matches calendar (t.2.minute * 60) = true := by
  have hkept := run_kept calendar catalog calls
  refine ⟨?_, fun t ht => (hkept.taken t ht).2, hkept.opened, ?_, ?_⟩
  · have honce := hkept.once
    rw [List.map_append, List.map_map] at honce
    exact (List.nodup_append.mp honce).1
  · intro later hlater
    obtain ⟨new, htaken, hsub⟩ := ScheduleRun.run_quiet calendar catalog later hlater
      (ScheduleRun.run calendar catalog ⟨.default, []⟩ calls)
    exact ⟨new, htaken, hkept.ranked.sublist ((List.sublist_append_left _ _).trans hsub)⟩
  · intro t ht
    exact ⟨(hkept.taken t ht).1.definition, (hkept.taken t ht).1.matched⟩

def everything : Field := ⟨0xffffffffffffffff, true⟩

def noon : Cron := ⟨"30 12 * * *", ⟨0x40000000, false⟩, ⟨0x1000, false⟩, everything, everything, everything⟩

-- A clock of the game and a bell, both at half past twelve.
def chimes : Catalog where
  modules := ⟨[("global_logic/clock", [⟨"global_logic/clock", 1, "chime", noon⟩]),
    ("object_logic/bell", [⟨"object_logic/bell", 1, "ring", noon⟩])], by decide⟩
  numbered := by
    intro entry hentry i d hd
    obtain rfl | rfl : entry = _ ∨ entry = _ := by simpa using hentry
    all_goals
      cases i with
      | zero => obtain rfl := Option.some.inj hd; exact ⟨rfl, rfl⟩
      | succ i => cases hd

def tower : ScriptedWorld := ⟨[(5, ⟨⟨1, .Thing, none, ∅⟩, "bell"⟩)], List.pairwise_singleton _ _⟩

def halfPast (timestamp : Int) : Option Date := if timestamp = 1788697800 then some ⟨30, 12, 6, 9, 0⟩ else none

-- Half past twelve is observed twice, and each is run once.
theorem schedule_runs_chimes :
    let r := ScheduleRun.run halfPast chimes ⟨.default, []⟩ [.observe tower 1788697790, .observe tower 1788697801,
      .takeDue 1788697815, .observe tower 1788697830, .takeDue 1788697859, .takeDue 1788697859]
    r.taken.map (fun t => (t.1, t.2.definition.name, t.2.object)) =
        [(1788697815, "ring", some (5, 1)), (1788697859, "chime", none)] ∧
      (r.taken.map fun t => t.2.identity).Nodup ∧ (∀ t ∈ r.taken, t.1 / 60 = t.2.minute ∧ t.2.due ≤ t.1) ∧
      ∀ t ∈ r.taken, t.2.definition ∈ chimes.definitions := by
  intro r
  obtain ⟨honce, htimes, -, -, hmatches⟩ := schedule_runs halfPast chimes [.observe tower 1788697790,
    .observe tower 1788697801, .takeDue 1788697815, .observe tower 1788697830, .takeDue 1788697859, .takeDue 1788697859]
  exact ⟨by decide +kernel, honce, htimes, fun t ht => (hmatches t ht).1⟩

end StompyMux.Lua
