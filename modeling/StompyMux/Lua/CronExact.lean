import Mathlib.Data.List.TakeWhile
import StompyMux.Lua.Cron

-- Exactly the expressions of the grammar are read, and they match the moments that they denote.
namespace StompyMux.Lua

open Library Library.Fallible Library.Text

section Fields

variable (minimum maximum : Nat) (hmax : maximum < 64)

include hmax

theorem addParts_sound (parts : List (List Char)) (mask mask' : UInt64)
    (h : parts.foldlM (Field.addPart minimum maximum) mask = .ok mask') :
    ∃ sets, List.Forall₂ (Element minimum maximum) parts sets ∧ ∀ v < 64,
      (Masks.holds mask' v = true ↔ Masks.holds mask v = true ∨ ∃ set ∈ sets, v ∈ set) := by
  induction parts generalizing mask with
  | nil =>
      cases h
      exact ⟨[], List.Forall₂.nil, fun v _ => by simp⟩
  | cons part parts ih =>
      rw [List.foldlM_cons] at h
      obtain ⟨middle, hpart, hrest⟩ := ok_of_bind h
      obtain ⟨set, helement, hfirst⟩ := addPart_sound minimum maximum hmax hpart
      obtain ⟨sets, helements, hothers⟩ := ih middle hrest
      refine ⟨set :: sets, List.Forall₂.cons helement helements, fun v hv => ?_⟩
      simp only [hothers v hv, hfirst v hv, List.mem_cons, exists_eq_or_imp, or_assoc]

theorem addParts_complete (hrange : minimum ≤ maximum) {parts : List (List Char)}
    {sets : List (Set Nat)} (h : List.Forall₂ (Element minimum maximum) parts sets) (mask : UInt64) :
    ∃ mask', parts.foldlM (Field.addPart minimum maximum) mask = .ok mask' ∧ ∀ v < 64,
      (Masks.holds mask' v = true ↔ Masks.holds mask v = true ∨ ∃ set ∈ sets, v ∈ set) := by
  induction h generalizing mask with
  | nil => exact ⟨mask, rfl, fun v _ => by simp⟩
  | @cons part set parts sets helement helements ih =>
      obtain ⟨middle, hpart, hfirst⟩ :=
        addPart_complete minimum maximum hmax hrange mask helement
      obtain ⟨mask', hrest, hothers⟩ := ih middle
      refine ⟨mask', ?_, fun v hv => ?_⟩
      · rw [List.foldlM_cons, hpart]
        exact hrest
      · simp only [hothers v hv, hfirst v hv, List.mem_cons, exists_eq_or_imp, or_assoc]

theorem Field.parse_sound (text : List Char) (field : Field)
    (h : Field.parse text minimum maximum = .ok field) :
    ∃ numbers, Denotes minimum maximum text numbers := by
  obtain ⟨mask, hparts, -⟩ := ok_of_bind h
  obtain ⟨sets, helements, -⟩ := addParts_sound minimum maximum hmax _ _ _ hparts
  exact ⟨_, text.splitOn ',', sets, List.splitOn_ne_nil ',' text, (List.intercalate_splitOn ',').symm,
    helements, rfl⟩

theorem Field.parse_complete (hrange : minimum ≤ maximum) (text : List Char) (numbers : Set Nat)
    (h : Denotes minimum maximum text numbers) :
    ∃ field, Field.parse text minimum maximum = .ok field ∧ field.wildcard = decide (text = ['*']) ∧
      ∀ v < 64, (field.matches v = true ↔ v ∈ numbers) := by
  obtain ⟨parts, sets, hne, rfl, helements, rfl⟩ := h
  have hcommas : ∀ part ∈ parts, ',' ∉ part := by
    intro part hpart hmem
    obtain ⟨i, hi, rfl⟩ := List.mem_iff_getElem.mp hpart
    have helement := helements.get hi (helements.length_eq ▸ hi)
    rcases helement.chars _ _ _ _ ',' hmem with hd | hs | hm | hl
    · exact absurd hd (by decide)
    · exact absurd hs (by decide)
    · exact absurd hm (by decide)
    · exact absurd hl (by decide)
  obtain ⟨mask, hparts, hholds⟩ :=
    addParts_complete minimum maximum hmax hrange helements 0
  refine ⟨⟨mask, decide (List.intercalate [','] parts = ['*'])⟩, ?_, rfl, fun v hv => ?_⟩
  · unfold Field.parse
    rw [List.splitOn_intercalate ',' hcommas hne, hparts]
    rfl
  · have hmatches : Field.matches ⟨mask, decide (List.intercalate [','] parts = ['*'])⟩ v =
        Masks.holds mask v := rfl
    rw [hmatches, hholds v hv, Masks.holds_zero v hv]
    simp

end Fields

section Words

theorem words_blank (c : Char) (rest : List Char) (hc : isBlank c = true) :
    words (c :: rest) = words rest := by
  unfold words
  rw [List.splitOnP_cons_eq_if_modifyHead, if_pos hc]
  rfl

theorem words_gap {gap : List Char} (rest : List Char) (h : Blank gap) : words (gap ++ rest) = words rest := by
  induction gap with
  | nil => rfl
  | cons c gap ih =>
      rw [List.cons_append, words_blank c _ (h c List.mem_cons_self)]
      exact ih (fun d hd => h d (List.mem_cons_of_mem c hd))

theorem words_word {word : List Char} (h : Solid word) : words word = [word] := by
  unfold words
  rw [List.splitOnP_eq_singleton h.2]
  cases word with
  | nil => exact absurd rfl h.1
  | cons c word => rfl

theorem words_more (word rest : List Char) (c : Char) (h : Solid word) (hc : isBlank c = true) :
    words (word ++ c :: rest) = word :: words rest := by
  unfold words
  rw [List.splitOnP_append_cons_of_forall_mem h.2 c hc]
  cases word with
  | nil => exact absurd rfl h.1
  | cons c word => rfl

theorem words_of_separated {fields : List (List Char)} {source : List Char}
    (h : Separated fields source) : words source = fields := by
  induction h with
  | none gap h =>
      have hgap := words_gap [] h
      rw [List.append_nil] at hgap
      exact hgap
  | last gap word hgap hword => rw [words_gap word hgap, words_word hword]
  | more gap word rest c fields hgap hword hc h ih =>
      rw [List.append_assoc, words_gap _ hgap, words_more word rest c hword hc, ih]

theorem separated_words (source : List Char) : Separated (words source) source := by
  induction hn : source.length using Nat.strongRecOn generalizing source with
  | ind n ih =>
      subst hn
      have hgap : Blank (source.takeWhile isBlank) := fun c hc => List.mem_takeWhile_imp hc
      have hsource := List.takeWhile_append_dropWhile (p := isBlank) (l := source)
      cases hrest : source.dropWhile isBlank with
      | nil =>
          rw [hrest, List.append_nil] at hsource
          rw [← hsource]
          have hnone := words_gap [] hgap
          rw [List.append_nil] at hnone
          rw [hnone]
          exact Separated.none _ hgap
      | cons d later =>
          have hd : isBlank d = false := by
            have hhead := List.head_dropWhile_not isBlank (l := source) (by simp [hrest])
            simpa [hrest] using hhead
          let word := (d :: later).takeWhile (fun c => !isBlank c)
          have hword : Solid word := by
            refine ⟨by simp [word, hd], fun c hc => ?_⟩
            have himp := List.mem_takeWhile_imp hc
            simpa using himp
          have hlater := List.takeWhile_append_dropWhile (p := fun c => !isBlank c) (l := d :: later)
          rw [← hsource, hrest]
          cases htail : (d :: later).dropWhile (fun c => !isBlank c) with
          | nil =>
              rw [htail, List.append_nil] at hlater
              rw [words_gap _ hgap, ← hlater, words_word hword]
              exact Separated.last _ word hgap hword
          | cons c rest =>
              have hc : isBlank c = true := by
                have hhead := List.head_dropWhile_not (fun c => !isBlank c) (l := d :: later)
                  (by simp [htail])
                simpa [htail] using hhead
              rw [htail] at hlater
              rw [words_gap _ hgap, ← hlater, words_more word rest c hword hc, ← List.append_assoc]
              apply Separated.more _ word rest c _ hgap hword hc
              apply ih rest.length _ rest rfl
              have hlength := congrArg List.length hsource
              have hlength' := congrArg List.length hlater
              rw [hrest] at hlength
              simp only [List.length_append, List.length_cons] at hlength hlength'
              omega

end Words

section Expressions

-- What is known of a field that was read from an element of an expression.
structure Reads (text : List Char × Set Nat) (field : Field) : Prop where
  wildcard : field.wildcard = decide (text.1 = ['*'])
  holds : ∀ v < 64, (field.matches v = true ↔ v ∈ text.2)

-- Five texts are read as five fields, one after the other.
theorem mapM_fields (a b c d e : List Char) :
    (([a, b, c, d, e].zip RANGES).zipIdx.mapM (fun ((text, range), index) =>
      withContext s!"cron field {index + 1}" (Field.parse text range.1 range.2)) :
        Except Error (List Field)) =
      (withContext "cron field 1" (Field.parse a 0 59) >>= fun minute =>
        withContext "cron field 2" (Field.parse b 0 23) >>= fun hour =>
        withContext "cron field 3" (Field.parse c 1 31) >>= fun day =>
        withContext "cron field 4" (Field.parse d 1 12) >>= fun month =>
        withContext "cron field 5" (Field.parse e 0 6) >>= fun weekday =>
        pure [minute, hour, day, month, weekday]) := by
  simp only [RANGES, List.zip_cons_cons, List.zip_nil_left, List.zipIdx_cons, List.zipIdx_nil,
    List.mapM_cons, List.mapM_nil, bind_assoc, pure_bind]
  rfl

variable (source : String)

theorem Cron.parse_sound (cron : Cron) (h : Cron.parse source = .ok cron) :
    ∃ fields, Expression source.toList fields := by
  obtain ⟨hshort, h⟩ := ok_of_ensure h
  obtain ⟨hfive, h⟩ := ok_of_ensure h
  rw [decide_eq_true_eq] at hshort hfive
  have hseparated := separated_words source.toList
  obtain ⟨a, b, c, d, e, hwords⟩ : ∃ a b c d e, words source.toList = [a, b, c, d, e] := by
    match hw : words source.toList, hfive with
    | [a, b, c, d, e], _ => exact ⟨a, b, c, d, e, rfl⟩
  rw [hwords, mapM_fields] at h
  rw [hwords] at hseparated
  obtain ⟨parsed, hparsed, -⟩ := ok_of_bind h
  obtain ⟨minute, hminute, hparsed⟩ := ok_of_bind hparsed
  obtain ⟨hour, hhour, hparsed⟩ := ok_of_bind hparsed
  obtain ⟨day, hday, hparsed⟩ := ok_of_bind hparsed
  obtain ⟨month, hmonth, hparsed⟩ := ok_of_bind hparsed
  obtain ⟨weekday, hweekday, -⟩ := ok_of_bind hparsed
  obtain ⟨minutes, hminutes⟩ :=
    Field.parse_sound 0 59 (by decide) a minute (ok_of_withContext hminute)
  obtain ⟨hours, hhours⟩ := Field.parse_sound 0 23 (by decide) b hour (ok_of_withContext hhour)
  obtain ⟨days, hdays⟩ := Field.parse_sound 1 31 (by decide) c day (ok_of_withContext hday)
  obtain ⟨months, hmonths⟩ :=
    Field.parse_sound 1 12 (by decide) d month (ok_of_withContext hmonth)
  obtain ⟨weekdays, hweekdays⟩ :=
    Field.parse_sound 0 6 (by decide) e weekday (ok_of_withContext hweekday)
  refine ⟨[(a, minutes), (b, hours), (c, days), (d, months), (e, weekdays)], hshort, hseparated, ?_⟩
  exact .cons hminutes (.cons hhours (.cons hdays (.cons hmonths (.cons hweekdays .nil))))

theorem Cron.parse_complete (minute hour day month weekday : List Char × Set Nat)
    (h : Expression source.toList [minute, hour, day, month, weekday]) :
    ∃ cron, Cron.parse source = .ok cron ∧ Reads minute cron.minute ∧
      Reads hour cron.hour ∧ Reads day cron.day ∧ Reads month cron.month ∧
      Reads weekday cron.weekday := by
  have hwords := words_of_separated h.separated
  have hdenotes := h.denotes
  simp only [RANGES, List.forall₂_cons, List.forall₂_nil_left_iff, and_true] at hdenotes
  obtain ⟨hminute, hhour, hday, hmonth, hweekday⟩ := hdenotes
  obtain ⟨minutes, hminutes, hm⟩ := Field.parse_complete 0 59 (by decide) (by decide) _ _ hminute
  obtain ⟨hours, hhours, hh⟩ := Field.parse_complete 0 23 (by decide) (by decide) _ _ hhour
  obtain ⟨days, hdays, hd⟩ := Field.parse_complete 1 31 (by decide) (by decide) _ _ hday
  obtain ⟨months, hmonths, hn⟩ := Field.parse_complete 1 12 (by decide) (by decide) _ _ hmonth
  obtain ⟨weekdays, hweekdays, hw⟩ := Field.parse_complete 0 6 (by decide) (by decide) _ _ hweekday
  refine ⟨⟨source, minutes, hours, days, months, weekdays⟩, ?_, ⟨hm.1, hm.2⟩, ⟨hh.1, hh.2⟩,
    ⟨hd.1, hd.2⟩, ⟨hn.1, hn.2⟩, ⟨hw.1, hw.2⟩⟩
  unfold Cron.parse
  simp only [List.map_cons, List.map_nil] at hwords
  rw [decide_eq_true h.short, ensure_true_bind]
  dsimp only
  rw [hwords, mapM_fields, decide_eq_true (by rfl), ensure_true_bind, hminutes, hhours, hdays, hmonths,
    hweekdays]
  rfl

def CalendarRanges (calendar : Int → Option Date) : Prop :=
  ∀ timestamp date, calendar timestamp = some date → date.minute < 60 ∧ date.hour < 24 ∧
    date.day < 32 ∧ date.month < 13 ∧ date.weekday < 7

-- A source is read exactly when it is an expression of the grammar, and then it matches exactly the
-- moments that its fields denote.
theorem Cron.parse_exact (calendar : Int → Option Date) (hcalendar : CalendarRanges calendar) :
    ((∃ cron, Cron.parse source = .ok cron) ↔ ∃ fields, Expression source.toList fields) ∧
    ∀ cron minute hour day month weekday, Cron.parse source = .ok cron →
      Expression source.toList [minute, hour, day, month, weekday] →
      ∀ timestamp date, calendar timestamp = some date →
        (cron.matches calendar timestamp = true ↔
          date.minute ∈ minute.2 ∧ date.hour ∈ hour.2 ∧ date.month ∈ month.2 ∧
          if day.1 ≠ ['*'] ∧ weekday.1 ≠ ['*'] then
            date.day ∈ day.2 ∨ date.weekday ∈ weekday.2
          else date.day ∈ day.2 ∧ date.weekday ∈ weekday.2) := by
  constructor
  · constructor
    · rintro ⟨cron, h⟩
      exact Cron.parse_sound source cron h
    · rintro ⟨fields, h⟩
      have hfive := h.denotes.length_eq
      match fields, hfive with
      | [minute, hour, day, month, weekday], _ =>
          obtain ⟨cron, hparse, -⟩ := Cron.parse_complete source minute hour day month weekday h
          exact ⟨cron, hparse⟩
  · intro cron minute hour day month weekday hparse h timestamp date hdate
    obtain ⟨cron', hparse', hminute, hhour, hday, hmonth, hweekday⟩ :=
      Cron.parse_complete source minute hour day month weekday h
    rw [hparse] at hparse'
    cases hparse'
    obtain ⟨hm, hh, hd, hn, hw⟩ := hcalendar timestamp date hdate
    simp only [Cron.matches, hdate, Bool.and_eq_true]
    rw [hminute.holds _ (by omega), hhour.holds _ (by omega), hmonth.holds _ (by omega),
      hday.wildcard, hweekday.wildcard, and_assoc, and_assoc]
    have hdays := hday.holds date.day (by omega)
    have hweekdays := hweekday.holds date.weekday (by omega)
    by_cases hfirst : day.1 = ['*']
    · simp [hfirst, hdays, hweekdays]
    · by_cases hsecond : weekday.1 = ['*']
      · simp [hfirst, hsecond, hdays, hweekdays]
      · simp [hfirst, hsecond, hdays, hweekdays]

end Expressions

-- A Sunday at half past twelve.
def sunday : Int → Option Date :=
  fun timestamp => if timestamp = 1788697800 then some ⟨30, 12, 6, 9, 0⟩ else none

theorem sunday_ranges : CalendarRanges sunday := by
  intro timestamp date h
  unfold sunday at h
  split at h
  · cases h
    decide
  · contradiction

-- A day of the month that is another one and the weekday that it is.
theorem Cron.parse_exact_sunday :
    ∃ cron minute hour day month weekday, Cron.parse "0,15,30	10-14/2 7 *  0" = .ok cron ∧
      Expression "0,15,30	10-14/2 7 *  0".toList [minute, hour, day, month, weekday] ∧
      cron.matches sunday 1788697800 = true ∧ 30 ∈ minute.2 ∧ 12 ∈ hour.2 ∧ 9 ∈ month.2 ∧
      if day.1 ≠ ['*'] ∧ weekday.1 ≠ ['*'] then 6 ∈ day.2 ∨ 0 ∈ weekday.2 else 6 ∈ day.2 ∧ 0 ∈ weekday.2 := by
  obtain ⟨hexact, hmatches⟩ := Cron.parse_exact "0,15,30	10-14/2 7 *  0" sunday sunday_ranges
  have hread : (Cron.parse "0,15,30	10-14/2 7 *  0").map (fun cron => cron.matches sunday 1788697800) = .ok true := by
    decide +kernel
  obtain ⟨cron, hparse, hmatch⟩ : ∃ cron, Cron.parse "0,15,30	10-14/2 7 *  0" = .ok cron ∧
      cron.matches sunday 1788697800 = true := by
    cases hparse : Cron.parse "0,15,30	10-14/2 7 *  0" with
    | ok cron =>
        rw [hparse] at hread
        exact ⟨cron, rfl, Except.ok.inj hread⟩
    | error e =>
        rw [hparse] at hread
        cases hread
  obtain ⟨fields, hfields⟩ := hexact.mp ⟨cron, hparse⟩
  match fields, hfields.denotes.length_eq with
  | [minute, hour, day, month, weekday], _ =>
      exact ⟨cron, minute, hour, day, month, weekday, hparse, hfields, hmatch,
        (hmatches cron minute hour day month weekday hparse hfields 1788697800 _ rfl).mp hmatch⟩

end StompyMux.Lua
