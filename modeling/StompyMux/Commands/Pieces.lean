import Mathlib.Algebra.Ring.Parity
import Mathlib.Data.List.Induction
import Mathlib.Logic.Function.Iterate
import StompyMux.Commands.Queue

-- The commands of a list end at the semicolons that nothing opened in them encloses.
namespace StompyMux.Commands

open Library.Text

def IsOpener (c : Char) : Prop := c = '(' ∨ c = '['

def closerOf (opener : Char) : Char := if opener = '(' then ')' else ']'

-- Inside braces, where every brace is closed again.
inductive Braced : List Char → Prop
  | nil : Braced []
  | plain (c : Char) (rest : List Char) (hescape : c ≠ '\\') (hleft : c ≠ '\x7b') (hright : c ≠ '\x7d')
      (h : Braced rest) : Braced (c :: rest)
  | escape (c : Char) (rest : List Char) (h : Braced rest) : Braced ('\\' :: c :: rest)
  | group (inner rest : List Char) (hinner : Braced inner) (h : Braced rest) :
      Braced ('\x7b' :: inner ++ '\x7d' :: rest)

-- Everything opened is closed, inside a number of brackets of which the innermost one waits for the
-- given closer. Outside all brackets there is no semicolon of its own.
inductive Complete : Nat → Option Char → List Char → Prop
  | nil (depth : Nat) (closer : Option Char) : Complete depth closer []
  | plain (depth : Nat) (closer : Option Char) (c : Char) (rest : List Char) (hescape : c ≠ '\\')
      (hbrace : c ≠ '\x7b') (hopener : ¬ (IsOpener c ∧ depth < 32)) (hcloser : closer ≠ some c)
      (hsemicolon : c = ';' → closer ≠ none) (h : Complete depth closer rest) :
      Complete depth closer (c :: rest)
  | escape (depth : Nat) (closer : Option Char) (c : Char) (rest : List Char)
      (h : Complete depth closer rest) : Complete depth closer ('\\' :: c :: rest)
  | braces (depth : Nat) (closer : Option Char) (inner rest : List Char) (hinner : Braced inner)
      (h : Complete depth closer rest) : Complete depth closer ('\x7b' :: inner ++ '\x7d' :: rest)
  | group (depth : Nat) (closer : Option Char) (opener : Char) (inner rest : List Char)
      (hopener : IsOpener opener) (hdepth : depth < 32)
      (hinner : Complete (depth + 1) (some (closerOf opener)) inner) (h : Complete depth closer rest) :
      Complete depth closer (opener :: inner ++ closerOf opener :: rest)

-- The text leaves open the brackets that wait for these closers, the innermost first, and inside them
-- a number of braces.
inductive Leaves : List Char → Nat → List Char → Prop
  | closed (text : List Char) (h : Complete 0 none text) : Leaves [] 0 text
  | bracket (closers : List Char) (text : List Char) (opener : Char) (inner : List Char)
      (h : Leaves closers 0 text) (hopener : IsOpener opener) (hdepth : closers.length < 32)
      (hinner : Complete (closers.length + 1) (some (closerOf opener)) inner) :
      Leaves (closerOf opener :: closers) 0 (text ++ opener :: inner)
  | brace (closers : List Char) (braces : Nat) (text inner : List Char)
      (h : Leaves closers braces text) (hinner : Braced inner) :
      Leaves closers (braces + 1) (text ++ '\x7b' :: inner)

-- The last backslash of an odd run is not part of a pair.
def Unpaired (text : List Char) : Prop := Odd (text.reverse.takeWhile (fun c => c = '\\')).length

def scan (s : Scan) (text : List Char) : Option Scan := text.foldlM Scan.next s

theorem scan_append (s : Scan) (text rest : List Char) :
    scan s (text ++ rest) = (scan s text).bind (fun later => scan later rest) := by
  unfold scan
  rw [List.foldlM_append]
  rfl

theorem scan_cons (s : Scan) (c : Char) (rest : List Char) :
    scan s (c :: rest) = (s.next c).bind (fun later => scan later rest) := rfl

section Steps

variable (braces : Nat) (stack : List Char)

theorem next_escaped (c : Char) : (Scan.mk braces stack true).next c = some ⟨braces, stack, false⟩ := rfl

theorem next_escape : (Scan.mk braces stack false).next '\\' = some ⟨braces, stack, true⟩ := rfl

theorem next_brace : (Scan.mk braces stack false).next '\x7b' = some ⟨braces + 1, stack, false⟩ := rfl

theorem next_unbrace :
    (Scan.mk (braces + 1) stack false).next '\x7d' = some ⟨braces, stack, false⟩ := by
  simp [Scan.next]

theorem next_braced {c : Char} (hescape : c ≠ '\\') (hleft : c ≠ '\x7b') (hright : c ≠ '\x7d') :
    (Scan.mk (braces + 1) stack false).next c = some ⟨braces + 1, stack, false⟩ := by
  simp [Scan.next, hescape, hleft, hright]

theorem next_open {opener : Char} (hopener : IsOpener opener) (hdepth : stack.length < 32) :
    (Scan.mk 0 stack false).next opener = some ⟨0, closerOf opener :: stack, false⟩ := by
  rcases hopener with rfl | rfl <;> simp [Scan.next, closerOf, hdepth]

theorem next_close {opener : Char} (hopener : IsOpener opener) :
    (Scan.mk 0 (closerOf opener :: stack) false).next (closerOf opener) =
      some ⟨0, stack, false⟩ := by
  rcases hopener with rfl | rfl <;> simp [Scan.next, closerOf]

theorem next_plain {c : Char} (hescape : c ≠ '\\') (hbrace : c ≠ '\x7b')
    (hopener : ¬ (IsOpener c ∧ stack.length < 32)) (hcloser : stack.head? ≠ some c)
    (hsemicolon : c = ';' → stack.head? ≠ none) :
    (Scan.mk 0 stack false).next c = some ⟨0, stack, false⟩ := by
  have hend : ¬ (c = ';' ∧ stack = []) := by
    rintro ⟨hc, rfl⟩
    exact hsemicolon hc rfl
  unfold IsOpener at hopener
  simp [Scan.next, hescape, hbrace, hopener, hcloser, hend]

theorem next_semicolon (s : Scan) : s.next ';' = none ↔ s = ⟨0, [], false⟩ := by
  constructor
  · intro h
    obtain ⟨braces, stack, escaped⟩ := s
    cases escaped with
    | true => simp [Scan.next] at h
    | false =>
        by_cases hend : braces = 0 ∧ stack = []
        · rw [hend.1, hend.2]
        · simp [Scan.next, hend] at h
  · rintro rfl
    rfl

end Steps

section Reading

-- Reading a closed text leaves the reader as it was.
theorem scan_braced {text : List Char} (h : Braced text) (braces : Nat) (stack : List Char) :
    scan ⟨braces + 1, stack, false⟩ text = some ⟨braces + 1, stack, false⟩ := by
  induction h generalizing braces with
  | nil => rfl
  | plain c rest hescape hleft hright h ih =>
      rw [scan_cons, next_braced braces stack hescape hleft hright]
      exact ih braces
  | escape c rest h ih => exact ih braces
  | group inner rest hinner h ihinner ih =>
      rw [List.cons_append, scan_cons, next_brace, Option.bind_some, scan_append, ihinner,
        Option.bind_some, scan_cons, next_unbrace, Option.bind_some]
      exact ih braces

theorem scan_complete (depth : Nat) (closer : Option Char) (text : List Char)
    (h : Complete depth closer text) (stack : List Char) (hdepth : stack.length = depth)
    (hcloser : stack.head? = closer) :
    scan ⟨0, stack, false⟩ text = some ⟨0, stack, false⟩ := by
  induction h generalizing stack with
  | nil => rfl
  | plain depth closer c rest hescape hbrace hopener hother hsemicolon h ih =>
      rw [scan_cons, next_plain stack hescape hbrace (by rw [hdepth]; exact hopener)
        (by rw [hcloser]; exact hother) (by rw [hcloser]; exact hsemicolon)]
      exact ih stack hdepth hcloser
  | escape depth closer c rest h ih => exact ih stack hdepth hcloser
  | braces depth closer inner rest hinner h ih =>
      rw [List.cons_append, scan_cons, next_brace, Option.bind_some, scan_append,
        scan_braced hinner, Option.bind_some, scan_cons, next_unbrace, Option.bind_some]
      exact ih stack hdepth hcloser
  | group depth closer opener inner rest hopener hlt hinner h ihinner ih =>
      rw [List.cons_append, scan_cons, next_open stack hopener (by rw [hdepth]; exact hlt),
        Option.bind_some, scan_append,
        ihinner (closerOf opener :: stack) (by rw [List.length_cons, hdepth]) rfl, Option.bind_some,
        scan_cons, next_close stack hopener, Option.bind_some]
      exact ih stack hdepth hcloser

theorem Leaves.scan (closers : List Char) (braces : Nat) (text : List Char)
    (h : Leaves closers braces text) : Commands.scan .start text = some ⟨braces, closers, false⟩ := by
  induction h with
  | closed text h => exact scan_complete 0 none text h [] rfl rfl
  | bracket closers text opener inner h hopener hdepth hinner ih =>
      rw [scan_append, ih, Option.bind_some, scan_cons, next_open closers hopener hdepth,
        Option.bind_some]
      exact scan_complete _ _ inner hinner _ rfl rfl
  | brace closers braces text inner h hinner ih =>
      rw [scan_append, ih, Option.bind_some, scan_cons, next_brace, Option.bind_some]
      exact scan_braced hinner braces closers

end Reading

section Growing

theorem Braced.append (text rest : List Char) (h : Braced text) (hrest : Braced rest) :
    Braced (text ++ rest) := by
  induction h with
  | nil => exact hrest
  | plain c text hescape hleft hright h ih => exact Braced.plain c _ hescape hleft hright ih
  | escape c text h ih => exact Braced.escape c _ ih
  | group inner text hinner h ihinner ih =>
      rw [List.cons_append, List.cons_append, List.append_assoc]
      exact Braced.group inner _ hinner ih

theorem Complete.append (depth : Nat) (closer : Option Char) (text rest : List Char)
    (h : Complete depth closer text) (hrest : Complete depth closer rest) :
    Complete depth closer (text ++ rest) := by
  induction h with
  | nil => exact hrest
  | plain depth closer c text hescape hbrace hopener hcloser hsemicolon h ih =>
      exact Complete.plain _ _ c _ hescape hbrace hopener hcloser hsemicolon (ih hrest)
  | escape depth closer c text h ih => exact Complete.escape _ _ c _ (ih hrest)
  | braces depth closer inner text hinner h ih =>
      rw [List.cons_append, List.cons_append, List.append_assoc]
      exact Complete.braces _ _ inner _ hinner (ih hrest)
  | group depth closer opener inner text hopener hlt hinner h ihinner ih =>
      rw [List.cons_append, List.cons_append, List.append_assoc]
      exact Complete.group _ _ opener inner _ hopener hlt hinner (ih hrest)

-- A closed item goes to the innermost part that is open.
theorem Leaves.append (closers : List Char) (braces : Nat) (text item : List Char)
    (h : Leaves closers braces text)
    (hcomplete : braces = 0 → Complete closers.length closers.head? item)
    (hbraced : 0 < braces → Braced item) : Leaves closers braces (text ++ item) := by
  cases h with
  | closed text h => exact Leaves.closed _ (h.append _ _ _ _ (hcomplete rfl))
  | bracket closers text opener inner h hopener hdepth hinner =>
      rw [List.append_assoc, List.cons_append]
      exact Leaves.bracket closers text opener _ h hopener hdepth
        (hinner.append _ _ _ _ (hcomplete rfl))
  | brace closers braces text inner h hinner =>
      rw [List.append_assoc, List.cons_append]
      exact Leaves.brace closers braces text _ h (hinner.append _ _ (hbraced (Nat.succ_pos _)))

-- What is known of a text from where its reading stands.
def Known (s : Scan) (text : List Char) : Prop :=
  if s.escaped then ∃ before, text = before ++ ['\\'] ∧ Leaves s.stack s.braces before
  else Leaves s.stack s.braces text

variable (text : List Char) (c : Char)

theorem known_braced {braces : Nat} {stack : List Char} (h : Leaves stack (braces + 1) text)
    {s : Scan} (hescape : c ≠ '\\') (hleft : c ≠ '\x7b')
    (hnext : (Scan.mk (braces + 1) stack false).next c = some s) : Known s (text ++ [c]) := by
  by_cases hright : c = '\x7d'
  · subst hright
    rw [next_unbrace] at hnext
    cases hnext
    cases h with
    | brace closers braces before inner h hinner =>
        have hitem : before ++ '\x7b' :: inner ++ ['\x7d'] =
            before ++ ('\x7b' :: inner ++ '\x7d' :: []) := by simp
        rw [hitem]
        exact h.append _ _ _ _ (fun _ => Complete.braces _ _ inner [] hinner (Complete.nil _ _))
          (fun _ => Braced.group inner [] hinner Braced.nil)
  · rw [next_braced braces stack hescape hleft hright] at hnext
    cases hnext
    exact h.append _ _ _ _ (fun hzero => nomatch hzero)
      (fun _ => Braced.plain c [] hescape hleft hright Braced.nil)

theorem known_bracketed {stack : List Char} (h : Leaves stack 0 text) {s : Scan} (hescape : c ≠ '\\')
    (hbrace : c ≠ '\x7b') (hnext : (Scan.mk 0 stack false).next c = some s) :
    Known s (text ++ [c]) := by
  by_cases hopener : IsOpener c ∧ stack.length < 32
  · rw [next_open stack hopener.1 hopener.2] at hnext
    cases hnext
    exact Leaves.bracket stack text c [] h hopener.1 hopener.2 (Complete.nil _ _)
  · by_cases hcloser : stack.head? = some c
    · cases h with
      | closed => simp at hcloser
      | bracket closers before opener inner h hopens hdepth hinner =>
          rw [List.head?_cons, Option.some.injEq] at hcloser
          subst hcloser
          rw [next_close closers hopens] at hnext
          cases hnext
          have hitem : before ++ opener :: inner ++ [closerOf opener] =
              before ++ (opener :: inner ++ closerOf opener :: []) := by simp
          rw [hitem]
          exact h.append _ _ _ _ (fun _ => Complete.group _ _ opener inner [] hopens hdepth hinner
            (Complete.nil _ _)) (fun hpos => absurd hpos (Nat.lt_irrefl 0))
    · by_cases hend : c = ';' ∧ stack.head? = none
      · have hnone : (Scan.mk 0 stack false).next c = none := by
          rw [hend.1, List.head?_eq_none_iff.mp hend.2]
          rfl
        rw [hnone] at hnext
        contradiction
      · have hsemicolon : c = ';' → stack.head? ≠ none := fun hc hnone => hend ⟨hc, hnone⟩
        rw [next_plain stack hescape hbrace hopener hcloser hsemicolon] at hnext
        cases hnext
        exact h.append _ _ _ _ (fun _ => Complete.plain _ _ c [] hescape hbrace hopener hcloser
          hsemicolon (Complete.nil _ _)) (fun hpos => absurd hpos (Nat.lt_irrefl 0))

theorem known_next {s later : Scan} (h : Known s text) (hnext : s.next c = some later) :
    Known later (text ++ [c]) := by
  obtain ⟨braces, stack, escaped⟩ := s
  cases escaped with
  | true =>
      obtain ⟨before, rfl, hbefore⟩ := h
      rw [next_escaped] at hnext
      cases hnext
      have hitem : before ++ ['\\'] ++ [c] = before ++ '\\' :: c :: [] := by simp
      rw [hitem]
      exact hbefore.append _ _ _ _ (fun _ => Complete.escape _ _ c [] (Complete.nil _ _))
        (fun _ => Braced.escape c [] Braced.nil)
  | false =>
      have hleaves : Leaves stack braces text := h
      by_cases hescape : c = '\\'
      · subst hescape
        rw [next_escape] at hnext
        cases hnext
        exact ⟨text, rfl, hleaves⟩
      · by_cases hbrace : c = '\x7b'
        · subst hbrace
          rw [next_brace] at hnext
          cases hnext
          exact Leaves.brace stack braces text [] hleaves Braced.nil
        · cases braces with
          | zero => exact known_bracketed text c hleaves hescape hbrace hnext
          | succ braces => exact known_braced text c hleaves hescape hbrace hnext

theorem known_scan (s : Scan) (h : scan .start text = some s) : Known s text := by
  induction text using List.reverseRecOn generalizing s with
  | nil =>
      cases h
      exact Leaves.closed [] (Complete.nil _ _)
  | append_singleton text c ih =>
      rw [scan_append] at h
      obtain ⟨before, hbefore, hlast⟩ := Option.bind_eq_some_iff.mp h
      rw [scan_cons] at hlast
      obtain ⟨later, hnext, hdone⟩ := Option.bind_eq_some_iff.mp hlast
      cases hdone
      exact known_next text c (ih before hbefore) hnext

end Growing

theorem Leaves.complete (text : List Char) (h : Leaves [] 0 text) : Complete 0 none text := by
  cases h with
  | closed _ h => exact h

section Boundaries

theorem separate_iff (s : Scan) (source piece rest : List Char) :
    separate s source = (piece, some rest) ↔
      source = piece ++ ';' :: rest ∧ ∃ later, scan s piece = some later ∧ later.next ';' = none := by
  induction source generalizing s piece with
  | nil =>
      unfold separate
      constructor
      · intro h
        cases h
      · rintro ⟨h, -⟩
        simp at h
  | cons c source ih =>
      unfold separate
      cases hnext : s.next c with
      | none =>
          have hc := s.next_none c hnext
          subst hc
          constructor
          · intro h
            cases h
            exact ⟨rfl, s, rfl, hnext⟩
          · rintro ⟨hsource, later, hscan, -⟩
            cases piece with
            | nil =>
                cases hsource
                rfl
            | cons d piece =>
                obtain ⟨rfl, -⟩ := List.cons.inj hsource
                rw [scan_cons, hnext] at hscan
                contradiction
      | some later =>
          constructor
          · intro h
            obtain ⟨hpiece, hrest⟩ := Prod.mk.inj h
            obtain ⟨hsource, last, hscan, hlast⟩ := (ih _ (separate _ source).1).mp
              (Prod.ext rfl hrest)
            rw [← hpiece]
            refine ⟨congrArg (c :: ·) hsource, last, ?_, hlast⟩
            rw [scan_cons, hnext]
            exact hscan
          · rintro ⟨hsource, last, hscan, hlast⟩
            cases piece with
            | nil =>
                obtain ⟨rfl, -⟩ := List.cons.inj hsource
                cases hscan
                rw [hnext] at hlast
                contradiction
            | cons d piece =>
                obtain ⟨rfl, htail⟩ := List.cons.inj hsource
                rw [scan_cons, hnext, Option.bind_some] at hscan
                have hpiece := (ih later piece).mpr ⟨htail, last, hscan, hlast⟩
                dsimp only
                rw [hpiece]

-- A boundary falls on a semicolon exactly when everything opened before it is closed.
theorem boundary_iff (source piece rest : List Char) :
    splitCommand source false = (piece, some rest) ↔
      source = piece ++ ';' :: rest ∧ Complete 0 none piece := by
  have hsplit : splitCommand source false = separate .start source := rfl
  rw [hsplit, separate_iff]
  constructor
  · rintro ⟨hsource, later, hscan, hlast⟩
    rw [next_semicolon] at hlast
    subst hlast
    exact ⟨hsource, Leaves.complete piece (known_scan piece _ hscan)⟩
  · rintro ⟨hsource, h⟩
    exact ⟨hsource, _, scan_complete 0 none piece h [] rfl rfl, rfl⟩

theorem unpaired_append (text : List Char) (c : Char) :
    Unpaired (text ++ [c]) ↔ c = '\\' ∧ ¬ Unpaired text := by
  unfold Unpaired
  rw [List.reverse_append, List.reverse_singleton, List.singleton_append, List.takeWhile_cons]
  by_cases hc : c = '\\'
  · rw [if_pos (by rw [hc]; rfl), List.length_cons, Nat.odd_add_one]
    exact ⟨fun h => ⟨hc, h⟩, And.right⟩
  · rw [if_neg (by simpa using hc)]
    exact ⟨fun h => absurd h Nat.not_odd_zero, fun h => absurd h.1 hc⟩

theorem next_escaped_iff {s later : Scan} {c : Char} (h : s.next c = some later) :
    later.escaped = true ↔ c = '\\' ∧ ¬ s.escaped = true := by
  unfold Scan.next at h
  repeat' split at h
  all_goals first
    | contradiction
    | cases h
      simp_all

theorem escaped_iff (text : List Char) (s : Scan) (h : scan .start text = some s) :
    s.escaped = true ↔ Unpaired text := by
  induction text using List.reverseRecOn generalizing s with
  | nil =>
      cases h
      exact ⟨fun h => absurd h Bool.false_ne_true, fun h => absurd h Nat.not_odd_zero⟩
  | append_singleton text c ih =>
      rw [scan_append] at h
      obtain ⟨before, hbefore, hlast⟩ := Option.bind_eq_some_iff.mp h
      rw [scan_cons] at hlast
      obtain ⟨later, hnext, hdone⟩ := Option.bind_eq_some_iff.mp hlast
      cases hdone
      rw [unpaired_append, next_escaped_iff hnext, ih before hbefore]

theorem Complete.paired (piece : List Char) (h : Complete 0 none piece) : ¬ Unpaired piece := by
  rw [← escaped_iff piece _ (scan_complete 0 none piece h [] rfl rfl)]
  exact Bool.false_ne_true

theorem not_leaves (piece : List Char) (h : Complete 0 none piece) (closers : List Char)
    (braces : Nat) (hleaves : Leaves closers braces piece) : closers = [] ∧ braces = 0 := by
  have hopen := hleaves.scan
  have hclosed := (Leaves.closed piece h).scan
  rw [hclosed] at hopen
  cases hopen
  exact ⟨rfl, rfl⟩

end Boundaries

end StompyMux.Commands

-- Command lists taken apart, command by command and byte by byte.
namespace StompyMux.Commands

open Library.Text

section Bytes

-- The byte at which the loop stops, from the byte its text starts at.
def stop : Scan → Nat → List Char → Option Nat
  | _, _, [] => none
  | s, i, c :: source =>
      match s.next c with
      | none => some i
      | some later => stop later (i + c.utf8Size) source

-- A text is only divided between characters.
def splitAt : Nat → List Char → Option (List Char × List Char)
  | 0, source => some ([], source)
  | _ + 1, [] => none
  | i + 1, c :: source =>
      if c.utf8Size ≤ i + 1 then
        (splitAt (i + 1 - c.utf8Size) source).map (fun parts => (c :: parts.1, parts.2))
      else none

def splitBytes (source : List Char) : Option (List Char × Option (List Char)) :=
  let last := (stop .start 0 source).getD (utf8Len source)
  (splitAt last source).bind (fun parts =>
    if last < utf8Len source then
      (splitAt (last + 1) source).map (fun later => (parts.1, some later.2))
    else some (parts.1, none))

theorem splitAt_append (piece rest : List Char) :
    splitAt (utf8Len piece) (piece ++ rest) = some (piece, rest) := by
  induction piece with
  | nil => cases rest <;> rfl
  | cons c piece ih =>
      have hpos := c.utf8Size_pos
      rw [utf8Len_cons, List.cons_append]
      obtain ⟨i, hi⟩ : ∃ i, c.utf8Size + utf8Len piece = i + 1 := ⟨_, (Nat.succ_pred_eq_of_pos
        (by omega)).symm⟩
      rw [hi, splitAt, if_pos (by omega), show i + 1 - c.utf8Size = utf8Len piece by omega, ih]
      rfl

theorem stop_eq (s : Scan) (i : Nat) (source : List Char) :
    stop s i source = (separate s source).2.map (fun _ => i + utf8Len (separate s source).1) := by
  induction source generalizing s i with
  | nil => rfl
  | cons c source ih =>
      unfold stop separate
      cases hnext : s.next c with
      | none => rfl
      | some later =>
          dsimp only
          rw [ih, utf8Len_cons, Nat.add_assoc]

-- The bytes where a list is divided are between its characters.
theorem splitBytes_eq (source : List Char) :
    splitBytes source = some (splitCommand source false) := by
  have happend := separate_append .start source
  have hsplit : splitCommand source false = separate .start source := rfl
  unfold splitBytes
  rw [hsplit, stop_eq]
  generalize separate .start source = parts at happend ⊢
  obtain ⟨piece, rest⟩ := parts
  cases rest with
  | none =>
      have hwhole := splitAt_append piece []
      rw [List.append_nil] at hwhole
      rw [← happend]
      simp [hwhole]
  | some rest =>
      have hlast := splitAt_append (piece ++ [';']) rest
      have hsemicolon : (';' : Char).utf8Size = 1 := rfl
      rw [List.append_assoc, List.singleton_append, utf8Len_append, utf8Len_cons, utf8Len_nil,
        hsemicolon] at hlast
      rw [← happend]
      simp [splitAt_append, hlast, hsemicolon]

end Bytes

section Pieces

variable (source : List Char)

theorem commands_cons :
    commands source =
      (splitCommand source false).1 :: (splitCommand source false).2.elim [] commands := by
  cases h : (splitCommand source false).2 with
  | none => exact commands_last h
  | some rest => exact commands_more h

theorem commands_ne_nil : commands source ≠ [] := by
  rw [commands_cons]
  exact List.cons_ne_nil _ _

theorem commands_append : [';'].intercalate (commands source) = source := by
  induction hlength : source.length using Nat.strong_induction_on generalizing source with
  | _ length ih =>
      have happend := separate_append .start source
      cases h : (separate .start source).2 with
      | none =>
          rw [h, Option.elim_none, List.append_nil] at happend
          rw [commands_last h, List.intercalate_singleton, happend]
      | some rest =>
          rw [h, Option.elim_some] at happend
          have hrest := ih rest.length (hlength ▸ separate_length h) rest rfl
          rw [commands_more h, List.intercalate_cons_of_ne_nil (commands_ne_nil rest),
            hrest, List.append_assoc, List.singleton_append, happend]

-- Every command but the last one is followed by a semicolon outside everything it opened.
theorem commands_complete {before after : List (List Char)} {piece : List Char}
    (h : commands source = before ++ piece :: after) (hafter : after ≠ []) :
    Complete 0 none piece := by
  induction before generalizing source with
  | nil =>
      cases hrest : (separate .start source).2 with
      | none =>
          rw [commands_last hrest] at h
          exact absurd (List.cons.inj h).2.symm hafter
      | some rest =>
          rw [commands_more hrest] at h
          have hpiece := (List.cons.inj h).1
          rw [← hpiece]
          exact ((boundary_iff source _ rest).mp (Prod.ext rfl hrest)).2
  | cons first before ih =>
      cases hrest : (separate .start source).2 with
      | none =>
          rw [commands_last hrest] at h
          simp at h
      | some rest =>
          rw [commands_more hrest] at h
          exact ih rest (List.cons.inj h).2

theorem commands_finish :
    (fun list : Option (List Char) => list.bind (fun rest => (splitCommand rest false).2))^[
      (commands source).length] (some source) = none := by
  induction hlength : source.length using Nat.strong_induction_on generalizing source with
  | _ length ih =>
      cases h : (separate .start source).2 with
      | none =>
          rw [commands_last h]
          exact h
      | some rest =>
          have hsplit : (splitCommand source false).2 = some rest := h
          rw [commands_more h, List.length_cons, Function.iterate_succ_apply,
            Option.bind_some, hsplit]
          exact ih rest.length (hlength ▸ separate_length h) rest rfl

end Pieces

theorem commands_exact (source : List Char) :
    (fun list : Option (List Char) => list.bind (fun rest => (splitCommand rest false).2))^[
        (commands source).length] (some source) = none ∧
      commands source =
        (splitCommand source false).1 :: (splitCommand source false).2.elim [] commands ∧
      [';'].intercalate (commands source) = source ∧
      (∀ (before after : List (List Char)) (piece : List Char),
        commands source = before ++ piece :: after → after ≠ [] →
          ¬ Unpaired piece ∧ Complete 0 none piece ∧
          ∀ (closers : List Char) (braces : Nat),
            Leaves closers braces piece → closers = [] ∧ braces = 0) ∧
      (∀ piece rest, splitCommand source false = (piece, some rest) ↔
        source = piece ++ ';' :: rest ∧ Complete 0 none piece) ∧
      (splitCommand source true).2 = (splitCommand source false).2 := by
  refine ⟨commands_finish source, commands_cons source, commands_append source, ?_,
    boundary_iff source, rfl⟩
  intro before after piece h hafter
  have hcomplete := commands_complete source h hafter
  exact ⟨hcomplete.paired, hcomplete, not_leaves piece hcomplete⟩

end StompyMux.Commands
