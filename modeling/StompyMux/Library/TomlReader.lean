import StompyMux.Library.Toml

-- A reader of written documents, which shows that what is assumed of the library can be met.
namespace StompyMux.Library.Toml

open Library.Text

def readKey (text : List Char) : Option (String × List Char) :=
  match text.takeWhile isBare, text.dropWhile isBare with
  | c :: key, ' ' :: '=' :: ' ' :: rest => some (String.ofList (c :: key), rest)
  | _, _ => none

def readMagnitude (text : List Char) : Option (Int × List Char) :=
  match text.takeWhile Char.isDigit with
  | [] => none
  | digits => some (Nat.ofDigitChars 10 digits 0, text.dropWhile Char.isDigit)

def readInteger : List Char → Option (Int × List Char)
  | '-' :: text => (readMagnitude text).map (fun read => (-read.1, read.2))
  | text => readMagnitude text

-- The text up to the closing triple quotes.
def readBlock : List Char → Option (List Char × List Char)
  | '\'' :: '\'' :: '\'' :: rest => some ([], rest)
  | c :: text => (readBlock text).map (fun read => (c :: read.1, read.2))
  | [] => none

-- The text up to the closing quote, with its escapes.
def readBasic : List Char → Option (List Char × List Char)
  | '"' :: rest => some ([], rest)
  | '\\' :: 'u' :: '0' :: '0' :: high :: low :: text => do
      let high ← digitValue 16 high
      let low ← digitValue 16 low
      let (text, rest) ← readBasic text
      some (Char.ofNat (16 * high + low) :: text, rest)
  | '\\' :: c :: text =>
      if c = '"' ∨ c = '\\' then (readBasic text).map (fun read => (c :: read.1, read.2)) else none
  | c :: text =>
      if printable c then (readBasic text).map (fun read => (c :: read.1, read.2)) else none
  | [] => none

-- Each call reads at least one character before the next.
mutual

def readValue : Nat → List Char → Option (Value × List Char)
  | 0, _ => none
  | fuel + 1, text =>
      match text with
      | '"' :: rest => (readBasic rest).map (fun read => (.string read.1, read.2))
      | '\'' :: '\'' :: '\'' :: '\n' :: rest =>
          (readBlock rest).map (fun read => (.string read.1, read.2))
      | '[' :: ']' :: rest => some (.array [], rest)
      | '[' :: rest => do
          let (item, rest) ← readValue fuel rest
          let (items, rest) ← readItems fuel rest
          some (.array (item :: items), rest)
      | '{' :: ' ' :: '}' :: rest => some (.table [], rest)
      | '{' :: ' ' :: rest => do
          let (key, rest) ← readKey rest
          let (value, rest) ← readValue fuel rest
          let (entries, rest) ← readEntries fuel rest
          some (.table ((key, value) :: entries), rest)
      | _ => (readInteger text).map (fun read => (.integer read.1, read.2))

def readItems : Nat → List Char → Option (List Value × List Char)
  | 0, _ => none
  | fuel + 1, text =>
      match text with
      | ']' :: rest => some ([], rest)
      | ',' :: ' ' :: rest => do
          let (item, rest) ← readValue fuel rest
          let (items, rest) ← readItems fuel rest
          some (item :: items, rest)
      | _ => none

def readEntries : Nat → List Char → Option (Table × List Char)
  | 0, _ => none
  | fuel + 1, text =>
      match text with
      | ' ' :: '}' :: rest => some ([], rest)
      | ',' :: ' ' :: rest => do
          let (key, rest) ← readKey rest
          let (value, rest) ← readValue fuel rest
          let (entries, rest) ← readEntries fuel rest
          some ((key, value) :: entries, rest)
      | _ => none

end

inductive Event where
  | pair (key : String) (value : Value)
  | header (name : String)

def readEvents : Nat → List Char → Option (List Event)
  | 0, _ => none
  | fuel + 1, text =>
      match text with
      | [] => some []
      | '\n' :: rest => readEvents fuel rest
      | '[' :: '[' :: rest =>
          match rest.takeWhile isBare, rest.dropWhile isBare with
          | c :: name, ']' :: ']' :: '\n' :: rest =>
              (readEvents fuel rest).map (fun events => .header (String.ofList (c :: name)) :: events)
          | _, _ => none
      | _ => do
          let (key, rest) ← readKey text
          let (value, rest) ← readValue rest.length rest
          match rest with
          | '\n' :: rest => (readEvents fuel rest).map (fun events => .pair key value :: events)
          | _ => none

-- The pairs before the first header, and the pairs after each header.
def gather : List Event → Table × List (String × Table)
  | [] => ([], [])
  | .pair key value :: events => ((key, value) :: (gather events).1, (gather events).2)
  | .header name :: events => ([], (name, (gather events).1) :: (gather events).2)

def readTable (text : List Char) : Option Table :=
  (readEvents (text.length + 1) text).map (fun events => (gather events).1 ++ group (gather events).2)

def escape (c : Char) : List Char :=
  if c = '"' ∨ c = '\\' then ['\\', c]
  else if printable c then [c]
  else "\\u00".toList ++ [Nat.digitChar (c.toNat / 16), Nat.digitChar (c.toNat % 16)]

def quote (text : List Char) : List Char := '"' :: text.flatMap escape ++ ['"']

def reference {F : Type} (deserialize : Table → Option F) : Codec F where
  fromStr text := (readTable text).bind deserialize
  toString table := some (((Document.layout table).text quote).dropWhile (fun c => c == '\n'))
  quote := quote

example : readTable "a = -12\n\n[[b]]\nc = \x7b d = [\"x\", '''\ny'''] \x7d\n".toList =
    some [("a", .integer (-12)), ("b", .array [.table [("c", .table [("d", .array
      [.string ['x'], .string ['y']])])]])] := by rfl

theorem takeWhile_append_stop {p : Char → Bool} (text rest : List Char)
    (htext : ∀ c ∈ text, p c = true) (hrest : ∀ c, rest.head? = some c → p c = false) :
    (text ++ rest).takeWhile p = text ∧ (text ++ rest).dropWhile p = rest := by
  rw [List.takeWhile_append_of_pos htext, List.dropWhile_append_of_pos htext]
  cases rest with
  | nil => simp
  | cons c rest =>
      have hc := hrest c rfl
      simp [hc]

theorem readKey_append {key : String} (rest : List Char) (hkey : BareKey key) :
    readKey (key.toList ++ " = ".toList ++ rest) = some (key, rest) := by
  obtain ⟨hne, hbare⟩ := hkey
  rw [List.append_assoc]
  obtain ⟨htake, hdrop⟩ := takeWhile_append_stop key.toList (" = ".toList ++ rest) hbare (by
    intro c hc
    injection hc with hc
    subst hc
    decide)
  unfold readKey
  rw [htake, hdrop]
  cases h : key.toList with
  | nil => exact absurd h hne
  | cons c text =>
      show some (String.ofList (c :: text), rest) = some (key, rest)
      rw [← h, String.ofList_toList]

-- What follows an integer does not continue it.
def Stops (rest : List Char) : Prop := ∀ c, rest.head? = some c → c.isDigit = false

theorem readMagnitude_append (n : Nat) {rest : List Char} (hrest : Stops rest) :
    readMagnitude (decimal n ++ rest) = some ((n : Int), rest) := by
  obtain ⟨htake, hdrop⟩ := takeWhile_append_stop (decimal n) rest (isDigit_of_mem_decimal n) hrest
  unfold readMagnitude
  rw [htake, hdrop]
  have hvalue : Nat.ofDigitChars 10 (decimal n) 0 = n := Nat.ofDigitChars_toDigits (by decide) (by decide)
  cases h : decimal n with
  | nil => exact absurd h (Nat.toDigits_ne_nil)
  | cons c text =>
      rw [h] at hvalue
      show some ((Nat.ofDigitChars 10 (c :: text) 0 : Int), rest) = _
      rw [hvalue]

theorem integerText_head (n : Int) : ∃ c text, integerText n = c :: text ∧ (c = '-' ∨ c.isDigit) := by
  unfold integerText
  by_cases hn : n < 0
  · rw [if_pos hn]
    exact ⟨'-', _, rfl, .inl rfl⟩
  · rw [if_neg hn]
    cases h : decimal n.natAbs with
    | nil => exact absurd h (Nat.toDigits_ne_nil)
    | cons c text =>
        refine ⟨c, text, rfl, .inr (isDigit_of_mem_decimal n.natAbs c ?_)⟩
        rw [h]
        exact List.mem_cons_self

theorem readInteger_append (n : Int) {rest : List Char} (hrest : Stops rest) :
    readInteger (integerText n ++ rest) = some (n, rest) := by
  unfold integerText
  by_cases hn : n < 0
  · rw [if_pos hn, List.cons_append, readInteger, readMagnitude_append _ hrest]
    simp only [Option.map_some]
    congr 2
    omega
  · rw [if_neg hn]
    have hread := readMagnitude_append n.natAbs hrest
    unfold readInteger
    split
    · rename_i text htext
      cases h : decimal n.natAbs with
      | nil => exact absurd h (Nat.toDigits_ne_nil)
      | cons c digits =>
          rw [h, List.cons_append] at htext
          injection htext with hc
          have hdigit : c.isDigit = true := isDigit_of_mem_decimal n.natAbs c (by
            rw [h]
            exact List.mem_cons_self)
          rw [hc] at hdigit
          contradiction
    · rw [hread]
      congr 2
      omega

theorem readBlock_append (text rest : List Char) (htext : ∀ c ∈ text, c ≠ '\'') :
    readBlock (text ++ "'''".toList ++ rest) = some (text, rest) := by
  induction text with
  | nil => rfl
  | cons c text ih =>
      have hc := htext c List.mem_cons_self
      have hread := ih (fun d hd => htext d (List.mem_cons_of_mem c hd))
      rw [List.cons_append, List.cons_append, readBlock, hread]
      · rfl
      · intro rest hstart
        exact absurd hstart hc

theorem readBasic_printable {c : Char} (text : List Char) (hc : printable c = true) (hquote : c ≠ '"')
    (hslash : c ≠ '\\') :
    readBasic (c :: text) = (readBasic text).map (fun read => (c :: read.1, read.2)) := by
  rw [readBasic, if_pos hc]
  · exact hquote
  · intro high low text hstart
    exact absurd hstart hslash
  · intro d text hstart
    exact absurd hstart hslash

theorem readBasic_append (text rest : List Char) (htext : Spelled (.Basic, text)) :
    readBasic (text ++ '"' :: rest) = some (text, rest) := by
  induction text with
  | nil => rfl
  | cons c text ih =>
      obtain ⟨hprint, hquote, hslash⟩ := htext c List.mem_cons_self
      have hread := ih (fun d hd => htext d (List.mem_cons_of_mem c hd))
      rw [List.cons_append, readBasic_printable _ hprint hquote hslash, hread]
      rfl

theorem readBasic_control {n : Nat} (hn : n < 128) (text : List Char) :
    readBasic ("\\u00".toList ++ [Nat.digitChar (n / 16), Nat.digitChar (n % 16)] ++ text) =
      (readBasic text).map (fun read => (Char.ofNat n :: read.1, read.2)) := by
  have hdigit : ∀ d < 16, digitValue 16 (Nat.digitChar d) = some d := by decide
  show (digitValue 16 (Nat.digitChar (n / 16)) >>= _) = _
  rw [hdigit _ (by omega)]
  show (digitValue 16 (Nat.digitChar (n % 16)) >>= _) = _
  rw [hdigit _ (by omega)]
  have hsum : 16 * (n / 16) + n % 16 = n := by omega
  show ((readBasic text).bind fun read => some (Char.ofNat (16 * (n / 16) + n % 16) :: read.1, read.2)) = _
  rw [hsum]
  cases readBasic text with
  | none => rfl
  | some read => rfl

theorem readBasic_escape (c : Char) (text : List Char) :
    readBasic (escape c ++ text) = (readBasic text).map (fun read => (c :: read.1, read.2)) := by
  unfold escape
  by_cases hmark : c = '"' ∨ c = '\\'
  · rw [if_pos hmark]
    rcases hmark with rfl | rfl <;> rfl
  · rw [if_neg hmark]
    obtain ⟨hquote, hslash⟩ := not_or.mp hmark
    by_cases hprint : printable c = true
    · rw [if_pos hprint]
      exact readBasic_printable text hprint hquote hslash
    · rw [if_neg hprint]
      have hsmall : c.toNat < 128 := by
        by_contra hlarge
        apply hprint
        unfold printable
        simp only [Bool.and_eq_true, decide_eq_true_eq, bne_iff_ne]
        omega
      rw [readBasic_control hsmall text, Char.ofNat_toNat]

theorem readBasic_quote (text rest : List Char) :
    readBasic (text.flatMap escape ++ '"' :: rest) = some (text, rest) := by
  induction text with
  | nil => rfl
  | cons c text ih =>
      rw [List.flatMap_cons, List.append_assoc, readBasic_escape, ih]
      rfl

-- No value starts as the end of an array does.
theorem text_head (spelling : Spelling) :
    ∃ c text, spelling.text (stringText quote) = c :: text ∧ c ≠ ']' := by
  cases spelling with
  | integer n =>
      obtain ⟨c, text, htext, hc⟩ := integerText_head n
      refine ⟨c, text, htext, ?_⟩
      rintro rfl
      rcases hc with hc | hc <;> contradiction
  | string text =>
      obtain ⟨style, text⟩ := text
      cases style with
      | Basic => exact ⟨'"', _, rfl, by decide⟩
      | Block => exact ⟨'\'', _, rfl, by decide⟩
      | Quoted => exact ⟨'"', _, rfl, by decide⟩
  | array items =>
      cases items with
      | nil => exact ⟨'[', _, rfl, by decide⟩
      | cons item items => exact ⟨'[', _, rfl, by decide⟩
  | table entries =>
      cases entries with
      | nil => exact ⟨'{', _, rfl, by decide⟩
      | cons entry entries => exact ⟨'{', _, rfl, by decide⟩

theorem readValue_integer (fuel : Nat) (n : Int) {rest : List Char} (hrest : Stops rest) :
    readValue (fuel + 1) (integerText n ++ rest) = some (.integer n, rest) := by
  have hread := readInteger_append n hrest
  obtain ⟨c, text, htext, hc⟩ := integerText_head n
  rw [htext, List.cons_append] at hread ⊢
  rw [readValue, hread]
  · rfl
  all_goals
    intro tail hstart
    injection hstart with hstart
    subst hstart
    rcases hc with hc | hc <;> contradiction

theorem stops_moreItems (items : List Spelling) (rest : List Char) :
    Stops (moreItems (stringText quote) items ++ rest) := by
  intro c hc
  cases items with
  | nil =>
      injection hc with hc
      subst hc
      rfl
  | cons next items =>
      injection hc with hc
      subst hc
      rfl

theorem stops_moreEntries (entries : List (String × Spelling)) (rest : List Char) :
    Stops (moreEntries (stringText quote) entries ++ rest) := by
  intro c hc
  cases entries with
  | nil =>
      injection hc with hc
      subst hc
      rfl
  | cons next entries =>
      injection hc with hc
      subst hc
      rfl

-- The spelling is read back, whatever stands after it.
def Reads (spelling : Spelling) : Prop :=
  ∀ depth fuel rest, spelling.Fits Spelled depth → Stops rest →
    (spelling.text (stringText quote) ++ rest).length ≤ fuel →
    readValue fuel (spelling.text (stringText quote) ++ rest) = some (spelling.value, rest)

theorem readItems_append (items : List Spelling) (hitems : ∀ item ∈ items, Reads item) (depth : Nat)
    (hfit : ∀ item ∈ items, item.Fits Spelled depth) (fuel : Nat) (rest : List Char)
    (hfuel : (moreItems (stringText quote) items ++ rest).length ≤ fuel) :
    readItems fuel (moreItems (stringText quote) items ++ rest) = some (items.map Tree.value, rest) := by
  induction items generalizing fuel with
  | nil =>
      cases fuel with
      | zero => simp [moreItems] at hfuel
      | succ fuel => rfl
  | cons item items ih =>
      cases fuel with
      | zero => simp [moreItems] at hfuel
      | succ fuel =>
          obtain ⟨hitem, hlater⟩ := List.forall_mem_cons.mp hitems
          obtain ⟨hfits, hfitl⟩ := List.forall_mem_cons.mp hfit
          simp only [moreItems, List.append_assoc] at hfuel ⊢
          have hlong : (item.text (stringText quote) ++
              (moreItems (stringText quote) items ++ rest)).length + 2 ≤ fuel + 1 := by
            simp at hfuel ⊢
            omega
          have hstop := stops_moreItems items rest
          have hread := hitem depth fuel _ hfits hstop (by omega)
          have hmore := ih hlater hfitl fuel (by
            simp at hlong ⊢
            omega)
          show (readValue fuel (item.text (stringText quote) ++
            (moreItems (stringText quote) items ++ rest)) >>= _) = _
          rw [hread]
          show (readItems fuel (moreItems (stringText quote) items ++ rest) >>= _) = _
          rw [hmore]
          rfl

theorem readEntries_append (entries : List (String × Spelling))
    (hentries : ∀ entry ∈ entries, Reads entry.2) (depth : Nat)
    (hfit : ∀ entry ∈ entries, BareKey entry.1 ∧ entry.2.Fits Spelled depth) (fuel : Nat)
    (rest : List Char) (hfuel : (moreEntries (stringText quote) entries ++ rest).length ≤ fuel) :
    readEntries fuel (moreEntries (stringText quote) entries ++ rest) =
      some (entries.map (fun entry => (entry.1, entry.2.value)), rest) := by
  induction entries generalizing fuel with
  | nil =>
      cases fuel with
      | zero => simp [moreEntries] at hfuel
      | succ fuel => rfl
  | cons entry entries ih =>
      cases fuel with
      | zero => simp [moreEntries] at hfuel
      | succ fuel =>
          obtain ⟨hentry, hlater⟩ := List.forall_mem_cons.mp hentries
          obtain ⟨⟨hkey, hfits⟩, hfitl⟩ := List.forall_mem_cons.mp hfit
          obtain ⟨key, value⟩ := entry
          simp only [moreEntries, List.append_assoc] at hfuel ⊢
          have hlong : (value.text (stringText quote) ++
              (moreEntries (stringText quote) entries ++ rest)).length + 2 ≤ fuel + 1 := by
            simp at hfuel ⊢
            omega
          have hstop := stops_moreEntries entries rest
          have hread := hentry depth fuel _ hfits hstop (by
            show (value.text (stringText quote) ++ _).length ≤ fuel
            omega)
          have hmore := ih hlater hfitl fuel (by
            simp at hlong ⊢
            omega)
          have hstart := readKey_append (value.text (stringText quote) ++
            (moreEntries (stringText quote) entries ++ rest)) hkey
          rw [List.append_assoc] at hstart
          show (readKey (key.toList ++ (" = ".toList ++ (value.text (stringText quote) ++
            (moreEntries (stringText quote) entries ++ rest)))) >>= _) = _
          rw [hstart]
          show (readValue fuel (value.text (stringText quote) ++
            (moreEntries (stringText quote) entries ++ rest)) >>= _) = _
          rw [hread]
          show (readEntries fuel (moreEntries (stringText quote) entries ++ rest) >>= _) = _
          rw [hmore]
          rfl

theorem reads_string (style : Style) (text : List Char) : Reads (.string (style, text)) := by
  intro depth fuel rest hfit _ hfuel
  cases style with
  | Basic =>
      cases fuel with
      | zero => simp [Tree.text, stringText] at hfuel
      | succ fuel =>
          have hread := readBasic_append text rest (by
            cases depth with
            | zero => exact hfit
            | succ depth => exact hfit)
          simp only [Tree.text, stringText, List.cons_append, List.append_assoc,
            List.nil_append]
          show (readBasic (text ++ '"' :: rest)).map _ = _
          rw [hread]
          rfl
  | Block =>
      cases fuel with
      | zero => simp [Tree.text, stringText] at hfuel
      | succ fuel =>
          have hblock : Spelled (.Block, text) := by
            cases depth with
            | zero => exact hfit
            | succ depth => exact hfit
          have hread := readBlock_append text rest (by
            intro c hc
            rcases hblock c hc with rfl | ⟨-, hmark⟩
            · decide
            · exact hmark)
          simp only [Tree.text, stringText, List.append_assoc] at hread ⊢
          show (readBlock (text ++ ("'''".toList ++ rest))).map _ = _
          rw [hread]
          rfl
  | Quoted =>
      cases fuel with
      | zero => simp [Tree.text, stringText, quote] at hfuel
      | succ fuel =>
          have hread := readBasic_quote text rest
          simp only [Tree.text, stringText, quote, List.cons_append, List.append_assoc,
            List.nil_append]
          show (readBasic (text.flatMap escape ++ '"' :: rest)).map _ = _
          rw [hread]
          rfl

theorem reads_array (items : List Spelling) (ih : ∀ item ∈ items, Reads item) :
    Reads (.array items) := by
    intro depth fuel rest hfit hrest hfuel
    cases depth with
    | zero => contradiction
    | succ depth =>
        have hfits := (itemsFit_iff Spelled depth items).mp hfit
        cases fuel with
        | zero => cases items <;> simp [Tree.text] at hfuel
        | succ fuel =>
            cases items with
            | nil => rfl
            | cons item items =>
                obtain ⟨hitem, hlater⟩ := List.forall_mem_cons.mp ih
                obtain ⟨hfirst, hfitl⟩ := List.forall_mem_cons.mp hfits
                simp only [Tree.text, List.cons_append, List.append_assoc] at hfuel ⊢
                have hlong : (item.text (stringText quote) ++
                    (moreItems (stringText quote) items ++ rest)).length ≤ fuel := by
                  simp at hfuel ⊢
                  omega
                have hstop := stops_moreItems items rest
                have hread := hitem depth fuel _ hfirst hstop hlong
                have hmore := readItems_append items hlater depth hfitl fuel rest (by
                  simp at hlong ⊢
                  omega)
                obtain ⟨c, text, htext, hc⟩ := text_head item
                rw [htext, List.cons_append] at hread ⊢
                rw [readValue, hread]
                · show (readItems fuel (moreItems (stringText quote) items ++ rest) >>= _) = _
                  rw [hmore]
                  simp only [Tree.value, Tree.map, mapItems_eq, List.map_cons]
                  rfl
                · intro tail hstart
                  injection hstart with hstart
                  exact hc hstart

theorem reads_table (entries : List (String × Spelling)) (ih : ∀ entry ∈ entries, Reads entry.2) :
    Reads (.table entries) := by
    intro depth fuel rest hfit hrest hfuel
    cases depth with
    | zero => contradiction
    | succ depth =>
        have hfits := (entriesFit_iff Spelled depth entries).mp hfit.2
        cases fuel with
        | zero => cases entries <;> simp [Tree.text] at hfuel
        | succ fuel =>
            cases entries with
            | nil => rfl
            | cons entry entries =>
                obtain ⟨hvalue, hlater⟩ := List.forall_mem_cons.mp ih
                obtain ⟨⟨hkey, hfirst⟩, hfitl⟩ := List.forall_mem_cons.mp hfits
                obtain ⟨key, value⟩ := entry
                simp only [Tree.text, List.append_assoc] at hfuel ⊢
                have hlong : (value.text (stringText quote) ++
                    (moreEntries (stringText quote) entries ++ rest)).length ≤ fuel := by
                  simp at hfuel ⊢
                  omega
                have hstop := stops_moreEntries entries rest
                have hread := hvalue depth fuel _ hfirst hstop hlong
                have hmore := readEntries_append entries hlater depth hfitl fuel rest (by
                  simp at hlong ⊢
                  omega)
                have hstart := readKey_append (value.text (stringText quote) ++
                  (moreEntries (stringText quote) entries ++ rest)) hkey
                rw [List.append_assoc] at hstart
                obtain ⟨c, text, htext⟩ := List.exists_cons_of_ne_nil hkey.1
                simp only [List.cons_append, List.nil_append]
                rw [htext, List.cons_append] at hstart ⊢
                rw [readValue, hstart]
                · show (readValue fuel (value.text (stringText quote) ++
                    (moreEntries (stringText quote) entries ++ rest)) >>= _) = _
                  rw [hread]
                  show (readEntries fuel (moreEntries (stringText quote) entries ++ rest) >>= _) = _
                  rw [hmore]
                  simp only [Tree.value, Tree.map, mapEntries_eq, List.map_cons]
                  rfl
                · intro tail hend
                  injection hend with hend
                  subst hend
                  contradiction

theorem reads (spelling : Spelling) : Reads spelling := by
  induction spelling using Tree.induction with
  | integer n =>
      intro depth fuel rest _ hrest hfuel
      cases fuel with
      | zero =>
          obtain ⟨c, text, htext, -⟩ := integerText_head n
          simp [Tree.text, htext] at hfuel
      | succ fuel => exact readValue_integer fuel n hrest
  | string text => exact reads_string text.1 text.2
  | array items ih => exact reads_array items ih
  | table entries ih => exact reads_table entries ih

def Line.event? (line : Line) : Option Event := line.entry?.map (fun entry => .pair entry.1 entry.2)

-- Whatever the events of the rest are, those of the lines come before them.
theorem readEvents_lines (lines : List Line) (hlines : ∀ line ∈ lines, line.WellFormed)
    (rest : List Char) (events : List Event)
    (hrest : ∀ fuel, rest.length < fuel → readEvents fuel rest = some events) (fuel : Nat)
    (hfuel : (linesText quote lines ++ rest).length < fuel) :
    readEvents fuel (linesText quote lines ++ rest) = some (lines.filterMap Line.event? ++ events) := by
  induction lines generalizing fuel with
  | nil => exact hrest fuel hfuel
  | cons line lines ih =>
      obtain ⟨hline, hlater⟩ := List.forall_mem_cons.mp hlines
      have hmore := ih hlater
      cases fuel with
      | zero => contradiction
      | succ fuel =>
          cases line with
          | blank =>
              apply hmore fuel
              simp only [linesText, List.flatMap_cons, Line.text, List.append_assoc,
                List.length_append, List.length_cons, List.length_nil] at hfuel ⊢
              omega
          | pair key value =>
              obtain ⟨hkey, hfit⟩ := hline
              have hread := reads value nesting
                (value.text (stringText quote) ++ '\n' :: (linesText quote lines ++ rest)).length
                ('\n' :: (linesText quote lines ++ rest)) hfit (by
                  intro c hc
                  injection hc with hc
                  subst hc
                  rfl) (Nat.le_refl _)
              have hstart := readKey_append
                (value.text (stringText quote) ++ '\n' :: (linesText quote lines ++ rest)) hkey
              have htext : linesText quote (.pair key value :: lines) ++ rest =
                  key.toList ++ " = ".toList ++
                    (value.text (stringText quote) ++ '\n' :: (linesText quote lines ++ rest)) := by
                simp only [linesText, List.flatMap_cons, Line.text, List.append_assoc,
                  List.cons_append, List.nil_append]
              rw [htext] at hfuel ⊢
              obtain ⟨c, text, hc⟩ := List.exists_cons_of_ne_nil hkey.1
              have hlong : (linesText quote lines ++ rest).length < fuel := by
                simp only [List.length_append, List.length_cons] at hfuel ⊢
                omega
              rw [hc, List.cons_append, List.cons_append] at hstart ⊢
              rw [readEvents, hstart]
              · show (readValue _ _ >>= _) = _
                rw [hread]
                show (readEvents fuel (linesText quote lines ++ rest)).map _ = _
                rw [hmore fuel hlong]
                rfl
              · intro hend
                contradiction
              · intro tail hend
                injection hend with hend
                subst hend
                contradiction
              · intro tail hend
                injection hend with hend
                subst hend
                contradiction

def blockEvents (block : String × List Line) : List Event :=
  .header block.1 :: block.2.filterMap Line.event?

theorem readEvents_blocks (blocks : List (String × List Line))
    (hblocks : ∀ block ∈ blocks, BareKey block.1 ∧ ∀ line ∈ block.2, line.WellFormed) (fuel : Nat)
    (hfuel : (blocks.flatMap (blockText quote)).length < fuel) :
    readEvents fuel (blocks.flatMap (blockText quote)) = some (blocks.flatMap blockEvents) := by
  induction blocks generalizing fuel with
  | nil =>
      cases fuel with
      | zero => contradiction
      | succ fuel => rfl
  | cons block blocks ih =>
      obtain ⟨⟨hname, hlines⟩, hlater⟩ := List.forall_mem_cons.mp hblocks
      obtain ⟨name, lines⟩ := block
      have htext : ((name, lines) :: blocks).flatMap (blockText quote) =
          '\n' :: '[' :: '[' :: (name.toList ++
            ("]]\n".toList ++ (linesText quote lines ++ blocks.flatMap (blockText quote)))) := by
        simp only [List.flatMap_cons, blockText, List.append_assoc]
        rfl
      rw [htext] at hfuel ⊢
      simp only [List.length_cons, List.length_append] at hfuel
      obtain ⟨htake, hdrop⟩ := takeWhile_append_stop name.toList
        ("]]\n".toList ++ (linesText quote lines ++ blocks.flatMap (blockText quote))) hname.2 (by
          intro c hc
          injection hc with hc
          subst hc
          decide)
      obtain ⟨fuel, rfl⟩ : ∃ less, fuel = less + 2 := ⟨fuel - 2, by omega⟩
      have hread := readEvents_lines lines hlines (blocks.flatMap (blockText quote))
        (blocks.flatMap blockEvents) (fun fuel hlong => ih hlater fuel hlong) fuel (by
          rw [List.length_append]
          omega)
      rw [readEvents, readEvents, htake, hdrop]
      cases h : name.toList with
      | nil => exact absurd h hname.1
      | cons c text =>
          show (readEvents fuel (linesText quote lines ++ blocks.flatMap (blockText quote))).map _ = _
          rw [hread, Option.map_some, ← h, String.ofList_toList]
          rfl

theorem gather_lines (lines : List Line) (events : List Event) :
    gather (lines.filterMap Line.event? ++ events) =
      (entries lines ++ (gather events).1, (gather events).2) := by
  induction lines with
  | nil => rfl
  | cons line lines ih =>
      cases line with
      | blank => exact ih
      | pair key value =>
          show gather (.pair key value.value :: (lines.filterMap Line.event? ++ events)) = _
          rw [gather, ih]
          rfl

theorem gather_blocks (blocks : List (String × List Line)) :
    gather (blocks.flatMap blockEvents) =
      ([], blocks.map (fun block => (block.1, entries block.2))) := by
  induction blocks with
  | nil => rfl
  | cons block blocks ih =>
      rw [List.flatMap_cons, blockEvents, List.cons_append, gather, gather_lines, ih, List.append_nil]
      rfl

theorem readTable_text {document : Document} (h : document.WellFormed) :
    readTable (document.text quote) = some document.table := by
  have hread := readEvents_lines document.root h.root.1 (document.blocks.flatMap (blockText quote))
    (document.blocks.flatMap blockEvents)
    (fun fuel hfuel => readEvents_blocks document.blocks
      (fun block hblock => ⟨(h.blocks block hblock).1, (h.blocks block hblock).2.1⟩) fuel hfuel)
    ((document.text quote).length + 1) (Nat.lt_succ_self _)
  unfold readTable
  show (readEvents _ (linesText quote document.root ++ _)).map _ = _
  rw [hread, Option.map_some, gather_lines, gather_blocks, List.append_nil]
  rfl

theorem reference_lawful {F : Type} (deserialize : Table → Option F) :
    (reference deserialize).Lawful deserialize where
  reads document file h hfile := by
    show (readTable (document.text quote)).bind deserialize = some file
    rw [readTable_text h]
    exact hfile
  writes table _ _ := rfl

end StompyMux.Library.Toml
