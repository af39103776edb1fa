import StompyMux.StyledText.Parser

-- What the tag parser does with text and with one tag.
namespace StompyMux.StyledText

open Library.Text

def escape (s : List Char) : List Char := s.flatMap (fun c => if c = '[' then ['[', '['] else [c])

def shownText (s : List Char) : List Char := s.filter isShown

theorem escape_bracket (s : List Char) : escape ('[' :: s) = '[' :: '[' :: escape s := rfl

theorem escape_plain (c : Char) (s : List Char) (hc : c ≠ '[') :
    escape (c :: s) = c :: escape s := by
  rw [escape, List.flatMap_cons, if_neg hc, ← escape, List.singleton_append]

theorem mem_escape {s : List Char} {c : Char} (hc : c ∈ escape s) : c ∈ s := by
  obtain ⟨d, hd, hcd⟩ := List.mem_flatMap.mp hc
  split at hcd
  · rename_i h
    have hbracket : c = '[' := by simpa using hcd
    rwa [hbracket, ← h]
  · rwa [List.mem_singleton.mp hcd]

-- A span that is not shown leaves nothing behind.
def emitted (span : Span) : List Span := if span.text = [] then [] else [span]

-- The characters of a tag, up to the bracket that closes it.
def Closes (tag : List Char) : Prop := tagEnd 1 false false (tag ++ [']']) = some (tag, [])

theorem tagEnd_append (i : Nat) (quoted escaped : Bool) (text rest tag after : List Char)
    (h : tagEnd i quoted escaped text = some (tag, after)) :
    tagEnd i quoted escaped (text ++ rest) = some (tag, after ++ rest) := by
  induction text generalizing i quoted escaped tag with
  | nil => simp [tagEnd] at h
  | cons c text ih =>
      -- the scan goes on after `c` in the same way
      have hnext : ∀ j q e, (tagEnd j q e text).map (fun found => (c :: found.1, found.2)) =
          some (tag, after) →
          (tagEnd j q e (text ++ rest)).map (fun found => (c :: found.1, found.2)) =
            some (tag, after ++ rest) := by
        intro j q e hmap
        obtain ⟨⟨scanned, left⟩, hfound, heq⟩ := Option.map_eq_some_iff.mp hmap
        simp only [Prod.mk.injEq] at heq
        rw [ih j q e scanned (by rw [hfound, heq.2]), Option.map_some, heq.1]
      rw [List.cons_append]
      unfold tagEnd at h ⊢
      dsimp only at h ⊢
      split_ifs at h ⊢
      · exact hnext _ _ _ h
      · exact hnext _ _ _ h
      all_goals first
        | exact hnext _ _ _ h
        | simp_all

theorem Closes.end (tag rest : List Char) (h : Closes tag) :
    tagEnd 1 false false (tag ++ ']' :: rest) = some (tag, rest) := by
  have hwhole := tagEnd_append 1 false false _ rest tag [] h
  rwa [List.append_assoc, List.singleton_append, List.nil_append] at hwhole

theorem Closes.head (tag rest : List Char) (h : Closes tag) :
    (tag ++ ']' :: rest).head? ≠ some '[' := by
  cases tag with
  | nil => simp
  | cons c tag =>
      rintro hc
      obtain rfl : c = '[' := Option.some.inj hc
      have hnone : tagEnd 1 false false ('[' :: tag ++ [']']) = none := by simp [tagEnd]
      rw [Closes, hnone] at h
      cases h

namespace ParseState

variable (p : Palette) (strict : Bool)

theorem run_step {st next : ParseState} {c : Char} {tail rest : List Char}
    (h : step p strict st c tail = .ok (next, rest)) :
    run p strict st (c :: tail) = run p strict next rest := by
  rw [run]
  split
  · rename_i error herror
    rw [h] at herror
    cases herror
  · rename_i after left hok
    rw [h] at hok
    cases hok
    rfl

variable (st : ParseState) (c : Char) (s : List Char)

theorem flush_spans : st.flush.spans = st.spans ++ emitted st.current := by
  unfold flush emitted
  split
  · rw [List.append_nil]
  · rfl

@[simp] theorem flush_stack : st.flush.stack = st.stack := by
  unfold flush
  split <;> rfl

@[simp] theorem flush_imageText : st.flush.imageText = st.imageText := by
  unfold flush
  split <;> rfl

theorem flush_current : st.flush.current = { st.current with text := [] } := by
  unfold flush
  split
  · rename_i h
    rw [← h]
  · rfl

-- Escaped text is read as it was written, without its control characters.
theorem run_escape (s rest : List Char) (hs : ESC ∉ s) :
    run p strict st (escape s ++ rest) = run p strict (s.foldl literal st) rest := by
  induction s generalizing st with
  | nil => rfl
  | cons c s ih =>
      rw [List.mem_cons, not_or] at hs
      rw [List.foldl_cons]
      by_cases hc : c = '['
      · subst hc
        have hstep : step p strict st '[' ('[' :: (escape s ++ rest)) =
            .ok (st.literal '[', escape s ++ rest) := rfl
        rw [escape_bracket, List.cons_append, List.cons_append, run_step p strict hstep]
        exact ih _ hs.2
      · have hstep : step p strict st c (escape s ++ rest) =
            .ok (st.literal c, escape s ++ rest) := by
          unfold step
          rw [if_neg (Ne.symm hs.1), if_neg hc]
        rw [escape_plain c s hc, List.cons_append, run_step p strict hstep]
        exact ih _ hs.2

theorem literal_current : (st.literal c).current =
      { st.current with text := st.current.text ++ shownText [c] } := by
  unfold literal shownText
  by_cases hc : isShown c = true
  · rw [if_pos hc, List.filter_cons_of_pos hc]
    rfl
  · rw [if_neg hc, List.filter_cons_of_neg hc, List.filter_nil, List.append_nil]

theorem literal_spans : (st.literal c).spans = st.spans := by
  unfold literal
  split <;> rfl

theorem literal_stack : (st.literal c).stack = st.stack := by
  unfold literal
  split <;> rfl

theorem typed_current : (s.foldl literal st).current =
      { st.current with text := st.current.text ++ shownText s } := by
  induction s generalizing st with
  | nil => simp [shownText]
  | cons c s ih =>
      have hsplit : shownText (c :: s) = shownText [c] ++ shownText s :=
        List.filter_append (p := isShown) [c] s
      rw [List.foldl_cons, ih, literal_current, hsplit, ← List.append_assoc]

theorem typed_spans : (s.foldl literal st).spans = st.spans := by
  induction s generalizing st with
  | nil => rfl
  | cons c s ih => rw [List.foldl_cons, ih, literal_spans]

theorem typed_stack : (s.foldl literal st).stack = st.stack := by
  induction s generalizing st with
  | nil => rfl
  | cons c s ih => rw [List.foldl_cons, ih, literal_stack]

theorem run_tag (tag rest : List Char) (opened : Opened) (hc : Closes tag)
    (ho : openTag p strict st (trim tag) = .ok opened) :
    run p strict st ('[' :: (tag ++ ']' :: rest)) = run p strict (st.enter opened) rest := by
  apply run_step
  unfold step
  rw [if_neg (by decide), if_pos rfl, if_neg (Closes.head tag rest hc), Closes.end tag rest hc]
  simp only [ho]

end ParseState

end StompyMux.StyledText
