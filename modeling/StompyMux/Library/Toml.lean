import StompyMux.Library.Text

-- The part of TOML that programs write: keys with values on lines of their own, blank lines and
-- arrays of tables.
namespace StompyMux.Library.Toml

open Library.Text

inductive Tree (S : Type) where
  | integer (n : Int)
  | string (text : S)
  | array (items : List (Tree S))
  | table (entries : List (String × Tree S))

abbrev Value := Tree (List Char)

abbrev Table := List (String × Value)

-- A string stands between quotes as it is, between triple quotes, or as the library quotes it.
inductive Style
  | Basic | Block | Quoted
  deriving DecidableEq

abbrev Spelling := Tree (Style × List Char)

section

variable {S T : Type}

mutual

def Tree.map (f : S → T) : Tree S → Tree T
  | .integer n => .integer n
  | .string text => .string (f text)
  | .array items => .array (mapItems f items)
  | .table entries => .table (mapEntries f entries)

def mapItems (f : S → T) : List (Tree S) → List (Tree T)
  | [] => []
  | item :: items => item.map f :: mapItems f items

def mapEntries (f : S → T) : List (String × Tree S) → List (String × Tree T)
  | [] => []
  | (key, value) :: entries => (key, value.map f) :: mapEntries f entries

end

@[simp] theorem mapItems_eq (f : S → T) (items : List (Tree S)) :
    mapItems f items = items.map (Tree.map f) := by
  induction items with
  | nil => rfl
  | cons item items ih => rw [mapItems, ih, List.map_cons]

@[simp] theorem mapEntries_eq (f : S → T) (entries : List (String × Tree S)) :
    mapEntries f entries = entries.map (fun entry => (entry.1, entry.2.map f)) := by
  induction entries with
  | nil => rfl
  | cons entry entries ih => rw [mapEntries, ih, List.map_cons]

theorem Tree.induction (P : Tree S → Prop) (integer : ∀ n, P (.integer n))
    (string : ∀ text, P (.string text)) (array : ∀ items, (∀ item ∈ items, P item) → P (.array items))
    (table : ∀ entries, (∀ entry ∈ entries, P entry.2) → P (.table entries)) (tree : Tree S) :
    P tree := by
  apply Tree.rec (motive_1 := P) (motive_2 := fun items => ∀ item ∈ items, P item)
    (motive_3 := fun entries => ∀ entry ∈ entries, P entry.2) (motive_4 := fun entry => P entry.2)
    integer string array table
  · intro item hitem
    contradiction
  · intro item items hitem hitems
    exact List.forall_mem_cons.mpr ⟨hitem, hitems⟩
  · intro entry hentry
    contradiction
  · intro entry entries hentry hentries
    exact List.forall_mem_cons.mpr ⟨hentry, hentries⟩
  · intro key value hvalue
    exact hvalue

end

def Tree.value (spelling : Spelling) : Value := spelling.map Prod.snd

-- The spelling that the library itself chooses.
def Tree.quoted (value : Value) : Spelling := value.map (fun text => (.Quoted, text))

def integerText (n : Int) : List Char :=
  if n < 0 then '-' :: decimal n.natAbs else decimal n.natAbs

def stringText (quote : List Char → List Char) : Style × List Char → List Char
  | (.Basic, text) => '"' :: text ++ ['"']
  | (.Block, text) => "'''\n".toList ++ text ++ "'''".toList
  | (.Quoted, text) => quote text

section

variable {S : Type}

mutual

def Tree.text (render : S → List Char) : Tree S → List Char
  | .integer n => integerText n
  | .string text => render text
  | .array [] => "[]".toList
  | .array (item :: items) => '[' :: item.text render ++ moreItems render items
  | .table [] => ['{', ' ', '}']
  | .table ((key, value) :: entries) =>
      ['{', ' '] ++ key.toList ++ " = ".toList ++ value.text render ++ moreEntries render entries

def moreItems (render : S → List Char) : List (Tree S) → List Char
  | [] => "]".toList
  | item :: items => ", ".toList ++ item.text render ++ moreItems render items

def moreEntries (render : S → List Char) : List (String × Tree S) → List Char
  | [] => [' ', '}']
  | (key, value) :: entries =>
      ", ".toList ++ key.toList ++ " = ".toList ++ value.text render ++ moreEntries render entries

end

end

inductive Line where
  | blank
  | pair (key : String) (value : Spelling)

structure Document where
  root : List Line
  blocks : List (String × List Line)

def Line.text (quote : List Char → List Char) : Line → List Char
  | .blank => ['\n']
  | .pair key value => key.toList ++ " = ".toList ++ value.text (stringText quote) ++ ['\n']

def Line.entry? : Line → Option (String × Value)
  | .blank => none
  | .pair key value => some (key, value.value)

def linesText (quote : List Char → List Char) (lines : List Line) : List Char :=
  lines.flatMap (Line.text quote)

def entries (lines : List Line) : Table := lines.filterMap Line.entry?

def group (blocks : List (String × Table)) : Table :=
  (blocks.map Prod.fst).dedup.map (fun name =>
    (name, .array ((blocks.filter (fun block => block.1 = name)).map (fun block => .table block.2))))

def blockText (quote : List Char → List Char) (block : String × List Line) : List Char :=
  "\n[[".toList ++ block.1.toList ++ "]]\n".toList ++ linesText quote block.2

namespace Document

def text (quote : List Char → List Char) (document : Document) : List Char :=
  linesText quote document.root ++ document.blocks.flatMap (blockText quote)

def table (document : Document) : Table :=
  Toml.entries document.root ++ group (document.blocks.map (fun block => (block.1, Toml.entries block.2)))

end Document

def isBare (c : Char) : Bool := c.isAlphanum || c == '_' || c == '-'

def BareKey (key : String) : Prop := key.toList ≠ [] ∧ ∀ c ∈ key.toList, isBare c = true

def printable (c : Char) : Bool := 0x20 ≤ c.toNat && c.toNat != 0x7F

def Spelled : Style × List Char → Prop
  | (.Basic, text) => ∀ c ∈ text, printable c = true ∧ c ≠ '"' ∧ c ≠ '\\'
  | (.Block, text) => ∀ c ∈ text, c = '\n' ∨ printable c = true ∧ c ≠ '\''
  | (.Quoted, _) => True

instance : DecidablePred Spelled
  | (.Basic, text) =>
      inferInstanceAs (Decidable (∀ c ∈ text, printable c = true ∧ c ≠ '"' ∧ c ≠ '\\'))
  | (.Block, text) =>
      inferInstanceAs (Decidable (∀ c ∈ text, c = '\n' ∨ printable c = true ∧ c ≠ '\''))
  | (.Quoted, _) => inferInstanceAs (Decidable True)

section

variable {S : Type}

mutual

-- Values nested at most `depth` deep, with integers of 64 bits and strings that can be written.
def Tree.Fits (good : S → Prop) : Nat → Tree S → Prop
  | _, .integer n => -2 ^ 63 ≤ n ∧ n < 2 ^ 63
  | _, .string text => good text
  | 0, _ => False
  | depth + 1, .array items => ItemsFit good depth items
  | depth + 1, .table entries => (entries.map Prod.fst).Nodup ∧ EntriesFit good depth entries

def ItemsFit (good : S → Prop) : Nat → List (Tree S) → Prop
  | _, [] => True
  | depth, item :: items => item.Fits good depth ∧ ItemsFit good depth items

def EntriesFit (good : S → Prop) : Nat → List (String × Tree S) → Prop
  | _, [] => True
  | depth, (key, value) :: entries =>
      BareKey key ∧ value.Fits good depth ∧ EntriesFit good depth entries

end

@[simp] theorem itemsFit_iff (good : S → Prop) (depth : Nat) (items : List (Tree S)) :
    ItemsFit good depth items ↔ ∀ item ∈ items, item.Fits good depth := by
  induction items with
  | nil => simp [ItemsFit]
  | cons item items ih => rw [ItemsFit, ih, List.forall_mem_cons]

@[simp] theorem entriesFit_iff (good : S → Prop) (depth : Nat) (entries : List (String × Tree S)) :
    EntriesFit good depth entries ↔
      ∀ entry ∈ entries, BareKey entry.1 ∧ entry.2.Fits good depth := by
  induction entries with
  | nil => simp [EntriesFit]
  | cons entry entries ih => rw [EntriesFit, ih, List.forall_mem_cons, and_assoc]

end

section

variable {S : Type}

mutual

def Tree.TableFree : Tree S → Prop
  | .integer _ => True
  | .string _ => True
  | .array items => ItemsTableFree items
  | .table _ => False

def ItemsTableFree : List (Tree S) → Prop
  | [] => True
  | item :: items => item.TableFree ∧ ItemsTableFree items

end

@[simp] theorem itemsTableFree_iff (items : List (Tree S)) :
    ItemsTableFree items ↔ ∀ item ∈ items, item.TableFree := by
  induction items with
  | nil => simp [ItemsTableFree]
  | cons item items ih => rw [ItemsTableFree, ih, List.forall_mem_cons]

end

-- No more nesting than every reader allows.
def nesting : Nat := 8

def Line.WellFormed : Line → Prop
  | .blank => True
  | .pair key value => BareKey key ∧ value.Fits Spelled nesting

def LinesWellFormed (lines : List Line) : Prop :=
  (∀ line ∈ lines, line.WellFormed) ∧ ((entries lines).map Prod.fst).Nodup

structure Document.WellFormed (document : Document) : Prop where
  root : LinesWellFormed document.root
  blocks : ∀ block ∈ document.blocks, BareKey block.1 ∧ LinesWellFormed block.2
  apart : ∀ block ∈ document.blocks, block.1 ∉ (entries document.root).map Prod.fst

-- No table stands inside a line.
def Document.Flat (document : Document) : Prop :=
  (∀ entry ∈ entries document.root, entry.2.TableFree) ∧
    ∀ block ∈ document.blocks, ∀ entry ∈ entries block.2, entry.2.TableFree

-- The tables of an array that holds nothing else.
def tables? : Value → Option (List Table)
  | .array (item :: items) => (item :: items).mapM (fun
      | .table entries => some entries
      | _ => none)
  | _ => none

-- A table as the library lays it out: its values, then its arrays of tables.
def Document.layout (table : Table) : Document where
  root := table.filterMap (fun entry =>
    if (tables? entry.2).isSome then none else some (.pair entry.1 entry.2.quoted))
  blocks := table.flatMap (fun entry => ((tables? entry.2).getD []).map (fun block =>
    (entry.1, block.map (fun field => .pair field.1 field.2.quoted))))

-- What a program uses of the library for documents of one type: reading a document, writing a table
-- and the quotation of strings.
structure Codec (F : Type) where
  fromStr : List Char → Option F
  toString : Table → Option (List Char)
  quote : List Char → List Char

-- A written document is read as its table, and a table is written as its layout.
structure Codec.Lawful {F : Type} (toml : Codec F) (deserialize : Table → Option F) : Prop where
  reads : ∀ (document : Document) (file : F), document.WellFormed →
    deserialize document.table = some file → toml.fromStr (document.text toml.quote) = some file
  writes : ∀ table, (Document.layout table).WellFormed → (Document.layout table).Flat →
    toml.toString table =
      some (((Document.layout table).text toml.quote).dropWhile (fun c => c == '\n'))

end StompyMux.Library.Toml
