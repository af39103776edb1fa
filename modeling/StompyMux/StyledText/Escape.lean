import StompyMux.StyledText.Reading

-- Escaped text between tags.
namespace StompyMux.StyledText

open Library.Text

def NUL : Char := Char.ofNat 0

-- Text that strict parsing does not refuse at once.
def Printed (text : List Char) : Prop := ESC ∉ text ∧ NUL ∉ text

theorem ok_of_change {α : Type} {x : Except Error α} (f g : α → Style) {next : Style}
    (h : (x >>= fun a => pure (f a)) = .ok next) :
    ∃ after, (x >>= fun a => pure (g a)) = Except.ok after := by
  obtain ⟨a, ha, -⟩ := bind_eq_ok _ _ _ h
  exact ⟨g a, by rw [ha]; rfl⟩

theorem ite_ok_of_change {c : Prop} [Decidable c] {x y x' y' : Except Error Style} {next : Style}
    (h : (if c then x else y) = .ok next) (hx : x = .ok next → ∃ after, x' = Except.ok after)
    (hy : y = .ok next → ∃ after, y' = Except.ok after) :
    ∃ after, (if c then x' else y') = Except.ok after := by
  by_cases hc : c
  · rw [if_pos hc] at h ⊢
    exact hx h
  · rw [if_neg hc] at h ⊢
    exact hy h

-- Whether a property applies does not depend on the style it is applied to.
theorem applyStyle_any (p : Palette) (style other next : Style) (d : Directive)
    (h : applyStyle p style d = .ok next) : ∃ after, applyStyle p other d = .ok after := by
  unfold applyStyle at h ⊢
  -- one round for each property that sets something
  repeat
    refine ite_ok_of_change h (ok_of_change _ _) fun h => ?_
  cases h

theorem foldlM_applyStyle_any (p : Palette) (ds : List Directive) (style other next : Style)
    (h : ds.foldlM (applyStyle p) style = .ok next) :
    ∃ after, ds.foldlM (applyStyle p) other = .ok after := by
  induction ds generalizing style other with
  | nil => exact ⟨other, rfl⟩
  | cons d ds ih =>
      rw [List.foldlM_cons] at h
      obtain ⟨middle, hfirst, hrest⟩ := bind_eq_ok _ _ _ h
      obtain ⟨first, hother⟩ := applyStyle_any p style other middle d hfirst
      obtain ⟨after, hafter⟩ := ih middle first hrest
      refine ⟨after, ?_⟩
      rw [List.foldlM_cons, hother]
      exact hafter

-- A tag that sets the style: its own bracket closes it, and all its properties apply.
structure StyleTag (p : Palette) where
  text : List Char
  properties : List Directive
  printed : Printed text
  closes : Closes text
  opens : trim text ≠ ['/'] ∧ eqIgnoreAsciiCase (trim text) "reset".toList = false
  lexed : Directive.directives (trim text) = .ok properties
  kind : ∃ d ds, properties = d :: ds ∧ isLinkName d.name = false ∧ d.name ≠ "image".toList
  applies : ∃ style, properties.foldlM (applyStyle p) Style.default = .ok style

variable {p : Palette}

def StyleTag.apply (tag : StyleTag p) (style : Style) : Style :=
  match tag.properties.foldlM (applyStyle p) style with
  | .ok next => next
  | .error _ => style

theorem StyleTag.apply_ok (tag : StyleTag p) (style : Style) :
    tag.properties.foldlM (applyStyle p) style = .ok (tag.apply style) := by
  obtain ⟨next, hnext⟩ := tag.applies
  obtain ⟨after, hafter⟩ := foldlM_applyStyle_any p _ _ style next hnext
  unfold apply
  rw [hafter]

inductive Mark (p : Palette)
  | Open (tag : StyleTag p)
  | Close
  | Reset

-- The style text is shown in, and the styles to return to.
structure Scope where
  style : Style
  stack : List Style

def Scope.outermost : Scope := ⟨Style.default, []⟩

namespace Mark

def source : Mark p → List Char
  | .Open tag => '[' :: (tag.text ++ [']'])
  | .Close => "[/]".toList
  | .Reset => "[reset]".toList

theorem source_open (tag : StyleTag p) : (Open tag).source = '[' :: (tag.text ++ [']']) := rfl

def enter (scope : Scope) : Mark p → Scope
  | .Open tag => ⟨tag.apply scope.style, scope.style :: scope.stack⟩
  | .Close => ⟨scope.stack.headD scope.style, scope.stack.tail⟩
  | .Reset => Scope.outermost

-- A tag must not open more scopes than the parser keeps, nor close one that is not open.
def Allowed (scope : Scope) : Mark p → Prop
  | .Open _ => scope.stack.length < MAX_NESTING
  | .Close => scope.stack ≠ []
  | .Reset => True

end Mark

def Allowed (scope : Scope) : List (Mark p) → Prop
  | [] => True
  | mark :: marks => mark.Allowed scope ∧ Allowed (mark.enter scope) marks

-- Text with the tags, at least one, that part it from the text before.
structure Passage (p : Palette) where
  mark : Mark p
  more : List (Mark p)
  text : List Char

def Passage.marks (passage : Passage p) : List (Mark p) := passage.mark :: passage.more

structure Passages (p : Palette) where
  first : List Char
  later : List (Passage p)
  last : List (Mark p)

namespace Passages

def marks (passages : Passages p) : List (Mark p) :=
  passages.later.flatMap Passage.marks ++ passages.last

def texts (passages : Passages p) : List (List Char) :=
  passages.first :: passages.later.map Passage.text

def source (passages : Passages p) : List Char :=
  escape passages.first ++
    (passages.later.flatMap (fun passage =>
      passage.marks.flatMap Mark.source ++ escape passage.text) ++
      passages.last.flatMap Mark.source)

-- The tags are in order, and every scope is left at the end.
structure WellNested (passages : Passages p) : Prop where
  allowed : Allowed Scope.outermost passages.marks
  closed : (passages.marks.foldl Mark.enter Scope.outermost).stack = []

end Passages

def Scope.show (scope : Scope) (text : List Char) : Span :=
  { Span.plain (shownText text) with style := scope.style }

def shownFrom (scope : Scope) : List (Passage p) → List Span
  | [] => []
  | passage :: passages =>
      let scope := passage.marks.foldl Mark.enter scope
      emitted (scope.show passage.text) ++ shownFrom scope passages

-- A parser that has read `spans` and stands before `text` in a scope without link or image.
def reading (spans : List Span) (scope : Scope) (text : List Char) : ParseState :=
  ⟨spans, scope.show text, scope.stack.map (fun style => (style, none, none)), false⟩

section Steps

open ParseState

theorem reading_typed (spans : List Span) (scope : Scope) (text : List Char) :
    text.foldl literal (reading spans scope []) = reading spans scope text := by
  have hflag : ∀ (st : ParseState) (s : List Char), st.current.image = none →
      (s.foldl literal st).imageText = st.imageText := by
    intro st s
    induction s generalizing st with
    | nil => exact fun _ => rfl
    | cons c s ih =>
        intro himage
        have hone : (st.literal c).imageText = st.imageText := by
          unfold literal
          split
          · simp [push, himage]
          · rfl
        rw [List.foldl_cons, ih _ (by rw [literal_current]; exact himage), hone]
  have hcurrent := typed_current (reading spans scope []) text
  have hspans := typed_spans (reading spans scope []) text
  have hstack := typed_stack (reading spans scope []) text
  have himage := hflag (reading spans scope []) text rfl
  generalize text.foldl literal (reading spans scope []) = st at *
  obtain ⟨found, current, stack, imageText⟩ := st
  simp only at hcurrent hspans hstack himage
  rw [hcurrent, hspans, hstack, himage]
  rfl

theorem reading_flush (spans : List Span) (scope : Scope) (text : List Char) :
    (reading spans scope text).flush.spans = spans ++ emitted (scope.show text) :=
  flush_spans _

theorem run_mark {mark : Mark p} (spans : List Span) {scope : Scope} (text rest : List Char)
    (ha : mark.Allowed scope) :
    run p true (reading spans scope text) (mark.source ++ rest) =
      run p true (reading (spans ++ emitted (scope.show text)) (mark.enter scope) []) rest := by
  -- the state after a tag that keeps clear of links and images
  have henter : ∀ opened : Opened, opened.link = none → opened.image = none →
      opened.style = (mark.enter scope).style →
      (if opened.pop then (scope.stack.map (fun style => (style, (none : Option Link), (none : Option Image)))).tail
        else if opened.reset then []
        else (scope.style, none, none) :: scope.stack.map (fun style => (style, none, none))) =
          (mark.enter scope).stack.map (fun style => (style, none, none)) →
      (reading spans scope text).enter opened =
        reading (spans ++ emitted (scope.show text)) (mark.enter scope) [] := by
    intro opened hlink himage hstyle hstack
    have hcurrent := flush_current (reading spans scope text)
    have hkept : (reading spans scope text).flush.stack =
        scope.stack.map (fun style => (style, none, none)) := flush_stack _
    have hflag : (reading spans scope text).flush.imageText = false := flush_imageText _
    unfold ParseState.enter
    simp only [reading_flush, hcurrent, hkept, hflag, himage, hlink, hstyle]
    have hstyles : (reading spans scope text).current.style = scope.style := rfl
    have hlinks : (reading spans scope text).current.link = none := rfl
    have himages : (reading spans scope text).current.image = none := rfl
    rw [hstyles, hlinks, himages, hstack, ite_self]
    rfl
  cases mark with
  | Open tag =>
      have hopen : openTag p true (reading spans scope text) (trim tag.text) =
          .ok ⟨tag.apply scope.style, none, none, false, false⟩ := by
        obtain ⟨d, ds, hds, hlink, himage⟩ := tag.kind
        have hdepth : (reading spans scope text).stack.length < MAX_NESTING := by
          show (scope.stack.map _).length < MAX_NESTING
          rw [List.length_map]
          exact ha
        have hensure : ensure (decide ((reading spans scope text).stack.length < MAX_NESTING))
            "style nesting is too deep" = .ok () := by
          rw [ensure, if_pos (decide_eq_true hdepth)]
        have happly := tag.apply_ok scope.style
        rw [hds] at happly
        unfold openTag
        rw [if_neg tag.opens.1, if_neg (by rw [tag.opens.2]; exact Bool.false_ne_true), hensure,
          tag.lexed, hds]
        show (if d.name = "image".toList then _ else if isLinkName d.name = true then _ else _) = _
        rw [if_neg himage, if_neg (by rw [hlink]; exact Bool.false_ne_true)]
        show ((d :: ds).foldlM (applyStyle p) scope.style >>= _) = _
        rw [happly]
        rfl
      rw [Mark.source_open, List.cons_append, List.append_assoc, List.singleton_append,
        run_tag p true _ _ _ _ tag.closes hopen, henter _ rfl rfl rfl rfl]
  | Close =>
      obtain ⟨outer, stack, hstack⟩ := List.exists_cons_of_ne_nil ha
      have hopen : openTag p true (reading spans scope text) (trim ['/']) =
          .ok ⟨outer, none, none, true, false⟩ := by
        have hkept : (reading spans scope text).stack =
            (outer, none, none) :: stack.map (fun style => (style, none, none)) := by
          simp [reading, hstack]
        have htrim : trim ['/'] = ['/'] := rfl
        unfold openTag
        rw [htrim, if_pos rfl, hkept]
        rfl
      have hc : Closes ['/'] := rfl
      have hsource : (Mark.Close : Mark p).source ++ rest = '[' :: (['/'] ++ ']' :: rest) := rfl
      rw [hsource, run_tag p true _ _ _ _ hc hopen, henter _ rfl rfl]
      · simp [Mark.enter, hstack]
      · simp [Mark.enter, hstack]
  | Reset =>
      have hopen : openTag p true (reading spans scope text) (trim "reset".toList) =
          .ok ⟨Style.default, none, none, false, true⟩ := rfl
      have hc : Closes "reset".toList := rfl
      have hsource : (Mark.Reset : Mark p).source ++ rest =
          '[' :: ("reset".toList ++ ']' :: rest) := rfl
      rw [hsource, run_tag p true _ _ _ _ hc hopen, henter _ rfl rfl rfl rfl]

theorem emitted_nothing (scope : Scope) : emitted (scope.show []) = [] := rfl

theorem run_marks (mark : Mark p) (marks : List (Mark p)) (spans : List Span) (scope : Scope)
    (text rest : List Char) (ha : Allowed scope (mark :: marks)) :
    run p true (reading spans scope text) ((mark :: marks).flatMap Mark.source ++ rest) =
      run p true (reading (spans ++ emitted (scope.show text))
        ((mark :: marks).foldl Mark.enter scope) []) rest := by
  induction marks generalizing mark spans scope text with
  | nil =>
      rw [List.flatMap_cons, List.flatMap_nil, List.append_nil, run_mark _ _ _ ha.1]
      rfl
  | cons next marks ih =>
      rw [List.flatMap_cons, List.append_assoc, run_mark _ _ _ ha.1, ih _ _ _ _ ha.2,
        emitted_nothing, List.append_nil]
      rfl

theorem allowed_append (marks more : List (Mark p)) (scope : Scope) :
    Allowed scope (marks ++ more) ↔
      Allowed scope marks ∧ Allowed (marks.foldl Mark.enter scope) more := by
  induction marks generalizing scope with
  | nil => simp [Allowed]
  | cons mark marks ih =>
      rw [List.cons_append, Allowed, Allowed, ih, List.foldl_cons, and_assoc]

theorem run_passages (passages : List (Passage p)) (spans : List Span) (scope : Scope)
    (text rest : List Char) (ha : Allowed scope (passages.flatMap Passage.marks))
    (hp : ∀ passage ∈ passages, ESC ∉ passage.text) :
    ∃ before last, (spans ++ emitted (scope.show text)) ++ shownFrom scope passages =
        before ++ emitted (((passages.flatMap Passage.marks).foldl Mark.enter scope).show last) ∧
      run p true (reading spans scope text)
          (passages.flatMap (fun passage =>
            passage.marks.flatMap Mark.source ++ escape passage.text) ++ rest) =
        run p true
          (reading before ((passages.flatMap Passage.marks).foldl Mark.enter scope) last) rest := by
  induction passages generalizing spans scope text with
  | nil => exact ⟨spans, text, by simp [shownFrom], rfl⟩
  | cons passage passages ih =>
      obtain ⟨hfirst, hlater⟩ := List.forall_mem_cons.mp hp
      rw [List.flatMap_cons, allowed_append] at ha
      obtain ⟨before, last, hspans, hrun⟩ := ih (spans ++ emitted (scope.show text))
        (passage.marks.foldl Mark.enter scope) passage.text ha.2 hlater
      refine ⟨before, last, ?_, ?_⟩
      · rw [List.flatMap_cons, List.foldl_append, ← hspans, shownFrom, List.append_assoc,
          List.append_assoc, List.append_assoc]
      · rw [List.flatMap_cons, List.append_assoc, List.append_assoc, Passage.marks,
          run_marks _ _ _ _ _ _ ha.1, run_escape p true _ _ _ hfirst, reading_typed, ← Passage.marks,
          hrun, List.flatMap_cons, List.foldl_append]

end Steps

theorem texts_shownFrom (passages : List (Passage p)) (scope : Scope) :
    (shownFrom scope passages).map Span.text =
      ((passages.map Passage.text).map shownText).filter (· ≠ []) := by
  have hone : ∀ (scope : Scope) (text : List Char),
      (emitted (scope.show text)).map Span.text = [shownText text].filter (· ≠ []) := by
    intro scope text
    unfold emitted
    have htext : (scope.show text).text = shownText text := rfl
    rw [htext]
    by_cases h : shownText text = []
    · simp [h]
    · simp [h, htext]
  induction passages generalizing scope with
  | nil => rfl
  | cons passage passages ih =>
      have hsplit : ((passage :: passages).map Passage.text).map shownText =
          [shownText passage.text] ++ (passages.map Passage.text).map shownText := rfl
      rw [shownFrom, List.map_append, ih, hone, hsplit, List.filter_append]

theorem Mark.printed_source (mark : Mark p) : Printed mark.source := by
  cases mark with
  | Open tag =>
      obtain ⟨hescape, hnul⟩ := tag.printed
      have hbracket : ESC ≠ '[' ∧ ESC ≠ ']' ∧ NUL ≠ '[' ∧ NUL ≠ ']' := by decide
      simp [Printed, source_open, hescape, hnul, hbracket]
  | Close =>
      have hclose : ESC ∉ "[/]".toList ∧ NUL ∉ "[/]".toList := by decide
      exact hclose
  | Reset =>
      have hreset : ESC ∉ "[reset]".toList ∧ NUL ∉ "[reset]".toList := by decide
      exact hreset

theorem Passages.printed_source (passages : Passages p)
    (ht : ∀ text ∈ passages.texts, Printed text) : Printed passages.source := by
  have hmarks : ∀ (marks : List (Mark p)) (c : Char), c = ESC ∨ c = NUL →
      c ∉ marks.flatMap Mark.source := by
    intro marks c hc hmem
    obtain ⟨mark, -, hmark⟩ := List.mem_flatMap.mp hmem
    rcases hc with rfl | rfl
    · exact mark.printed_source.1 hmark
    · exact mark.printed_source.2 hmark
  have htexts : ∀ text ∈ passages.texts, ∀ c, c = ESC ∨ c = NUL → c ∉ escape text := by
    intro text htext c hc hmem
    rcases hc with rfl | rfl
    · exact (ht text htext).1 (mem_escape hmem)
    · exact (ht text htext).2 (mem_escape hmem)
  have hall : ∀ c, c = ESC ∨ c = NUL → c ∉ passages.source := by
    intro c hc hmem
    rcases List.mem_append.mp hmem with hmem | hmem
    · exact htexts _ List.mem_cons_self c hc hmem
    rcases List.mem_append.mp hmem with hmem | hmem
    · obtain ⟨passage, hpassage, hmem⟩ := List.mem_flatMap.mp hmem
      rcases List.mem_append.mp hmem with hmem | hmem
      · exact hmarks _ c hc hmem
      · exact htexts _ (List.mem_cons_of_mem _ (List.mem_map_of_mem hpassage)) c hc hmem
    · exact hmarks _ c hc hmem
  exact ⟨hall ESC (.inl rfl), hall NUL (.inr rfl)⟩

theorem run_last {marks : List (Mark p)} (spans : List Span) {scope : Scope} (text : List Char)
    (ha : Allowed scope marks) :
    ∃ st, ParseState.run p true (reading spans scope text) (marks.flatMap Mark.source) = .ok st ∧
      st.flush.spans = spans ++ emitted (scope.show text) ∧
      st.stack = (marks.foldl Mark.enter scope).stack.map (fun style => (style, none, none)) := by
  cases marks with
  | nil =>
      refine ⟨reading spans scope text, ?_, reading_flush spans scope text, rfl⟩
      rw [List.flatMap_nil, ParseState.run]
  | cons mark marks =>
      have hrun := run_marks mark marks spans scope text [] ha
      rw [List.append_nil, ParseState.run.eq_1] at hrun
      refine ⟨_, hrun, ?_, rfl⟩
      rw [reading_flush, emitted_nothing, List.append_nil]

def Passages.spans (passages : Passages p) : List Span :=
  emitted (Scope.outermost.show passages.first) ++ shownFrom Scope.outermost passages.later

-- Escaped text comes back as it was, whatever it looks like and whatever tags stand around it.
theorem escape_exact (passages : Passages p) (hn : passages.WellNested)
    (ht : ∀ text ∈ passages.texts, Printed text) :
    parse p passages.source true = .ok passages.spans ∧
      passages.spans.map Span.text = (passages.texts.map shownText).filter (· ≠ []) ∧
      ∀ span ∈ passages.spans, span.link = none ∧ span.image = none := by
  obtain ⟨hescape, hnul⟩ := passages.printed_source ht
  have hfirst : Printed passages.first := ht _ List.mem_cons_self
  have hlater : ∀ passage ∈ passages.later, ESC ∉ passage.text := fun passage hp =>
    (ht _ (List.mem_cons_of_mem _ (List.mem_map_of_mem hp))).1
  obtain ⟨hbefore, hlast⟩ := (allowed_append _ _ _).mp hn.allowed
  have hclosed := hn.closed
  rw [Passages.marks, List.foldl_append] at hclosed
  obtain ⟨before, last, hspans, hrun⟩ := run_passages passages.later [] Scope.outermost
    passages.first (passages.last.flatMap Mark.source) hbefore hlater
  obtain ⟨st, hend, hflush, hstack⟩ := run_last before last hlast
  refine ⟨?_, ?_, ?_⟩
  · have hallowed : (!true || !(passages.source.contains ESC ||
        passages.source.contains (Char.ofNat 0))) = true := by
      have hnul : (Char.ofNat 0) ∉ passages.source := hnul
      simp [hescape, hnul]
    have hstart : (⟨[], Span.default, [], false⟩ : ParseState) =
        reading [] Scope.outermost [] := rfl
    have hread : ParseState.run p true ⟨[], Span.default, [], false⟩ passages.source = .ok st := by
      rw [hstart, Passages.source, ParseState.run_escape p true _ _ _ hfirst.1, reading_typed, hrun,
        hend]
    have hempty : st.stack.isEmpty = true := by
      rw [hstack, hclosed]
      rfl
    have hresult : st.flush.spans = passages.spans := by
      rw [hflush, ← hspans]
      rfl
    unfold parse
    rw [ensure, if_pos hallowed, hread, ← hresult]
    show (ensure (!true || st.stack.isEmpty) _ >>= _) = _
    rw [hempty]
    rfl
  · have htexts := texts_shownFrom (⟨.Close, [], passages.first⟩ :: passages.later) Scope.outermost
    exact htexts
  · have hplain : ∀ (scope : Scope) (text : List Char), ∀ span ∈ emitted (scope.show text),
        span.link = none ∧ span.image = none := by
      intro scope text span hspan
      unfold emitted at hspan
      split at hspan
      · cases hspan
      · rw [List.mem_singleton.mp hspan]
        exact ⟨rfl, rfl⟩
    have hfrom : ∀ (later : List (Passage p)) (scope : Scope), ∀ span ∈ shownFrom scope later,
        span.link = none ∧ span.image = none := by
      intro later
      induction later with
      | nil => exact fun scope span hspan => by cases hspan
      | cons passage later ih =>
          intro scope span hspan
          rcases List.mem_append.mp hspan with hspan | hspan
          · exact hplain _ _ span hspan
          · exact ih _ span hspan
    intro span hspan
    rcases List.mem_append.mp hspan with hspan | hspan
    · exact hplain _ _ span hspan
    · exact hfrom _ _ span hspan

def boldTag : StyleTag ⟨∅, ∅⟩ where
  text := "bold".toList
  properties := [⟨"bold".toList, none, false⟩]
  printed := ⟨by decide, by decide⟩
  closes := rfl
  opens := ⟨by decide, by decide⟩
  lexed := rfl
  kind := ⟨_, _, rfl, by decide, by decide⟩
  applies := ⟨_, rfl⟩

-- Brackets before and behind real tags, and text that looks like tags itself.
def samplePassages : Passages ⟨∅, ∅⟩ where
  first := "[[/]".toList
  later := [⟨.Open boldTag, [], "[bold]\x07\"[".toList⟩]
  last := [.Close]

theorem escape_exact_sample :
    samplePassages.source = "[[[[/][bold][[bold]\x07\"[[[/]".toList ∧
      samplePassages.spans.map Span.text = ["[[/]".toList, "[bold]\"[".toList] ∧
      parse ⟨∅, ∅⟩ samplePassages.source true = .ok samplePassages.spans := by
  have hn : samplePassages.WellNested :=
    ⟨⟨(by decide : 0 < MAX_NESTING), List.cons_ne_nil _ _, trivial⟩, rfl⟩
  have ht : ∀ text ∈ samplePassages.texts, Printed text := by
    intro text htext
    rcases List.mem_cons.mp htext with rfl | htext
    · exact ⟨by decide, by decide⟩
    · rw [List.mem_singleton.mp htext]
      exact ⟨by decide, by decide⟩
  have h := escape_exact samplePassages hn ht
  exact ⟨rfl, h.2.1, h.1⟩

end StompyMux.StyledText
