import StompyMux.StyledText.Style

namespace StompyMux.StyledText

open Library.Text

def STATES : List (List Char) :=
  ["active".toList, "hover".toList, "focus-visible".toList, "focus".toList, "visited".toList,
    "selected".toList, "disabled".toList, "link".toList, "any-link".toList]

-- The members of an object in the order of their keys.
abbrev Members := List (List Char × Value)

namespace Members

def insert (key : List Char) (value : Value) : Members → Members
  | [] => [(key, value)]
  | (k, v) :: rest =>
      match compare key k with
      | .lt => (key, value) :: (k, v) :: rest
      | .eq => (key, value) :: rest
      | .gt => (k, v) :: insert key value rest

def get? (key : List Char) (members : Members) : Option Value := members.lookup key

def remove (key : List Char) (members : Members) : Members :=
  members.filter (fun entry => entry.1 != key)

end Members

namespace Value

def isTrue : Value → Bool
  | .Boolean value => value
  | _ => false

def asStr : Value → Option (List Char)
  | .Str value => some value
  | _ => none

def hexDigit (n : Nat) : Char := Nat.digitChar n

def escapeChar (c : Char) : List Char :=
  if c = '"' then ['\\', '"']
  else if c = '\\' then ['\\', '\\']
  else if c.toNat = 8 then ['\\', 'b']
  else if c.toNat = 12 then ['\\', 'f']
  else if c = '\n' then ['\\', 'n']
  else if c = '\r' then ['\\', 'r']
  else if c = '\t' then ['\\', 't']
  else if c.toNat < 32 then
    "\\u00".toList ++ [hexDigit (c.toNat / 16), hexDigit (c.toNat % 16)]
  else [c]

def quoted (text : List Char) : List Char := ['"'] ++ text.flatMap escapeChar ++ ['"']

-- The compact serialisation.
mutual

def toText : Value → List Char
  | .Boolean value => if value then "true".toList else "false".toList
  | .Number value => decimal value
  | .Str value => quoted value
  | .Array items => ['['] ++ itemsText items ++ [']']
  | .Object members => ['\x7b'] ++ membersText members ++ ['\x7d']

def itemsText : List Value → List Char
  | [] => []
  | [item] => toText item
  | item :: rest => toText item ++ [','] ++ itemsText rest

def membersText : List (List Char × Value) → List Char
  | [] => []
  | [(key, value)] => quoted key ++ [':'] ++ toText value
  | (key, value) :: rest => quoted key ++ [':'] ++ toText value ++ [','] ++ membersText rest

end

-- The receiver's short keys. What a key means depends on the object it stands in.
def compactKey (parent key : List Char) : List Char :=
  let short : List (String × String × String) :=
    [("", "style", "s"), ("title", "style", "s"), ("", "tooltip", "t"), ("", "title", "ti"),
      ("", "menu", "m"), ("", "visibility", "v"), ("", "selection", "sel"),
      ("", "spoiler", "sp"), ("", "disabled", "d"), ("style", "active", "a"),
      ("style", "hover", "h"), ("style", "focus-visible", "fv"), ("style", "focus", "f"),
      ("style", "visited", "vi"), ("style", "selected", "sl"), ("style", "disabled", "d"),
      ("style", "link", "l"), ("style", "any-link", "al")]
  let anywhere : List (String × String) :=
    [("color", "c"), ("bold", "b"), ("italic", "i"), ("underline", "u"), ("overline", "o"),
      ("strikethrough", "st"), ("text-decoration-color", "tdc")]
  match short.find? (fun entry => entry.1.toList == parent && entry.2.1.toList == key) with
  | some entry => entry.2.2.toList
  | none =>
      match anywhere.find? (fun entry => entry.1.toList == key) with
      | some entry => entry.2.toList
      | none => key

mutual

def compact (parent : List Char) : Value → Value
  | .Object members => .Object (compactMembers parent members [])
  | value => value

def compactMembers (parent : List Char) : List (List Char × Value) → Members → Members
  | [], done => done
  | (key, value) :: rest, done =>
      compactMembers parent rest (Members.insert (compactKey parent key) (compact key value) done)

end

example : toText (compact [] (.Object [("tooltip".toList, .Str "a\"b".toList)])) =
    "\x7b\"t\":\"a\\\"b\"\x7d".toList := by
  rfl

end Value

def isUnreserved (c : Char) : Bool := c.isAlphanum || "-._~".toList.contains c

def hexUpper (n : Nat) : Char := (Nat.digitChar n).toUpper

def percent (s : List Char) : List Char :=
  (utf8 s).flatMap (fun b =>
    let c := Char.ofNat b.toNat
    if isUnreserved c then [c] else ['%', hexUpper (b.toNat / 16), hexUpper (b.toNat % 16)])

def isUriMark (c : Char) : Bool := "-._~:/?#[]@!$&'()*+,;=".toList.contains c

def isHexDigit (c : Char) : Bool := (digitValue 16 c).isSome

-- Read by characters: a byte outside ASCII is refused either way. `pending` counts the
-- hexadecimal digits an escape still needs.
def uriBytes : Nat → List Char → Bool
  | 0, [] => true
  | _ + 1, [] => false
  | pending + 1, c :: text => isHexDigit c && uriBytes pending text
  | 0, c :: text =>
      if c = '%' then uriBytes 2 text else (c.isAlphanum || isUriMark c) && uriBytes 0 text

def external (s : List Char) : Bool :=
  match splitOnce ':' s with
  | none => false
  | some (scheme, body) =>
      ["http".toList, "https".toList, "ftp".toList].contains (toAsciiLowercase scheme) &&
        !body.isEmpty && utf8Len s ≤ OSC8_URI_LIMIT && uriBytes 0 s

namespace LinkConfig

def QUOTED_TEXT : List (List Char) :=
  ["tooltip".toList, "title".toList, "selection.group".toList, "selection.value".toList]

def BOOLEANS : List (List Char) :=
  ["spoiler".toList, "disabled".toList, "selection.toggle".toList, "selection.selected".toList,
    "selection.exclusive".toList, "selection.disabled".toList, "visibility.wholeline".toList,
    "visibility.expire.input".toList, "visibility.expire.prompt".toList,
    "visibility.expire.output".toList]

def DELAYS : List (List Char) :=
  ["visibility.delay".toList, "visibility.expire.outputdelay".toList]

def MENU_ACTIONS : List (List Char) := ["send".toList, "prompt".toList, "link".toList]

def menuValue (d : Directive) (tail : List Char) : Except Error Value :=
  match splitOnce '.' tail with
  | none => bail "invalid menu property".toList
  | some (i, key) => do
      ensure (i.all Char.isDigit) "invalid menu index"
      let index ← parsed (parseUnsigned 10 (2 ^ 64 - 1) i)
      ensure (1 ≤ index && index ≤ OSC8_URI_LIMIT) "invalid menu index"
      if key = "separator".toList then
        ensure d.value.isNone "separator takes no value"
        return .Boolean true
      else
        ensure ((key == "label".toList || MENU_ACTIONS.contains key) && d.quoted)
          "invalid menu property"
        if key = "link".toList then
          ensure (external d.text) "invalid menu URL"
        return .Str d.text

def hexByte (b : UInt8) : List Char :=
  [Value.hexDigit (b.toNat / 16), Value.hexDigit (b.toNat % 16)]

def colorValue (p : Palette) (d : Directive) : Except Error Value := do
  match ← p.color d.text with
  | some (r, g, b) => return .Str ('#' :: (hexByte r ++ hexByte g ++ hexByte b))
  | none => return .Str "default".toList

-- A style property, of the link itself or of one of its states.
def styleValue (p : Palette) (d : Directive) : Except Error Value := do
  let key ←
    match splitOnce '.' d.name with
    | some (state, key) => do
        ensure (state == "title".toList || STATES.contains state) "unknown link style state"
        pure key
    | none => pure d.name
  if ["fg".toList, "color".toList, "bg".toList, "text-decoration-color".toList].contains key then
    colorValue p d
  else if key = "bold".toList ∨ key = "italic".toList then
    return .Boolean (← d.boolean)
  else if ["underline".toList, "overline".toList, "strikethrough".toList].contains key then
    if Directive.isLineStyle d.text then return .Str (toAsciiLowercase d.text)
    else return .Boolean (← d.boolean)
  else if (key = "blink".toList ∨ key = "inverse".toList) ∧ ¬ d.name.contains '.' then
    return .Boolean (← d.boolean)
  else bail ("unknown OSC 8 property ".toList ++ d.name)

def propertyValue (p : Palette) (d : Directive) : Except Error Value := do
  if QUOTED_TEXT.contains d.name then
    if d.quoted && !d.text.isEmpty then return .Str d.text
    else bail (d.name ++ " must be quoted and nonempty".toList)
  else if BOOLEANS.contains d.name then
    return .Boolean (← d.boolean)
  else if DELAYS.contains d.name then
    ensure (!d.quoted && !d.text.isEmpty && d.text.all Char.isDigit)
      "delay must be an unsigned decimal integer"
    return .Number (← parsed (parseUnsigned 10 (2 ^ 32 - 1) d.text))
  else if d.name = "visibility.action".toList then
    ensure (!d.quoted && ["conceal".toList, "reveal".toList, "reveal,conceal".toList].contains
      (toAsciiLowercase d.text)) "invalid visibility action"
    return .Str (toAsciiLowercase d.text)
  else
    match stripPrefix "menu.".toList d.name with
    | some tail => menuValue d tail
    | none => styleValue p d

def fieldName (name : List Char) : List Char :=
  if name = "fg".toList then "color".toList
  else
    match stripSuffix ".fg".toList name with
    | some lead => lead ++ ".color".toList
    | none => name

def isMenu (name : List Char) : Bool := "menu.".toList.isPrefixOf name

def parseProperty (p : Palette) (config : LinkConfig) (d : Directive) :
    Except Error LinkConfig := do
  if d.name = "preset".toList then
    ensure (d.quoted && !d.text.isEmpty && p.presets.contains d.text) "unknown OSC 8 preset"
    ensure config.preset.isNone "duplicate preset"
    return { config with preset := some d.text }
  else
    let value ← propertyValue p d
    ensure (!config.fields.contains d.name || !isMenu d.name) "duplicate menu property"
    return { config with fields := config.fields.insert (fieldName d.name) value }

-- The properties given for each menu index.
def menus (config : LinkConfig) : Std.TreeMap (List Char) (List (List Char)) :=
  config.fields.keys.foldl (fun menus name =>
    match (stripPrefix "menu.".toList name).bind (splitOnce '.') with
    | some (i, k) => menus.insert i (menus.getD i [] ++ [k])
    | none => menus) ∅

def checkMenu (keys : List (List Char)) : Except Error Unit :=
  if keys.contains "separator".toList then
    ensure (keys.length == 1) "separator cannot have actions"
  else
    ensure (keys.contains "label".toList &&
      (keys.filter (fun k => MENU_ACTIONS.contains k)).length == 1)
      "menu needs label and one action"

def parse (p : Palette) (ds : List Directive) : Except Error LinkConfig := do
  let config ← ds.foldlM (parseProperty p) default
  config.menus.values.forM checkMenu
  return config

-- Some property starts with `lead`.
def hasLead (config : LinkConfig) (lead : String) : Bool :=
  config.fields.keys.any (fun k => lead.toList.isPrefixOf k)

def get? (config : LinkConfig) (name : String) : Option Value := config.fields[name.toList]?

def indices (config : LinkConfig) : Std.TreeSet Nat :=
  config.fields.keys.foldl (fun indices name =>
    match (stripPrefix "menu.".toList name).bind (fun k => (split '.' k).head?) with
    | some i =>
        match parseUnsigned 10 (2 ^ 64 - 1) i with
        | .ok index => indices.insert index
        | .error _ => indices
    | none => indices) ∅

def validateComplete (config : LinkConfig) : Except Error Unit := do
  ensure ((config.get? "title").isNone || config.hasLead "menu.") "menu title requires a menu"
  ensure (!config.hasLead "title." || (config.get? "title").isSome)
    "title style requires title text"
  ensure (config.indices.toList == (List.range config.indices.size).map (· + 1))
    "menu indices must be contiguous"
  ensure (!config.hasLead "visibility." || (config.get? "visibility.action").isSome)
    "visibility requires an action"
  ensure (!config.hasLead "visibility.expire." ||
    ["visibility.expire.input", "visibility.expire.prompt", "visibility.expire.output"].any
      (fun k => (config.get? k).any Value.isTrue)) "expiry requires an enabled trigger"
  ensure ((config.get? "visibility.expire.outputdelay").isNone ||
    (config.get? "visibility.expire.output").any Value.isTrue)
    "outputDelay requires output expiry"
  ensure (!config.hasLead "selection." ||
    ((config.get? "selection.group").isSome && (config.get? "selection.value").isSome))
    "selection requires group and value"

-- The explicit properties over those of the preset.
def effective (config : LinkConfig) (p : Palette) : LinkConfig :=
  let base := (config.preset.bind (fun n => p.presets[n]?)).getD default
  let fields :=
    if config.fields.keys.any isMenu then base.fields.filter (fun k _ => !isMenu k)
    else base.fields
  ⟨none, config.fields.foldl (fun fields k v => fields.insert k v) fields⟩

def fallbackProperty (p : Palette) (style : Style) (name : List Char) (v : Value) : Style :=
  if name.contains '.' then style
  else
    match applyStyle p style ⟨name, some (v.asStr.getD v.toText), false⟩ with
    | .ok style => style
    | .error _ => style

def fallback (config : LinkConfig) (p : Palette) (style : Style) : Style :=
  (config.effective p).fields.foldl (fallbackProperty p) style

def canonical (k : List Char) : List Char := if k = "fg".toList then "color".toList else k

-- Nested properties. The objects on the path are created as needed; a path never runs
-- through a value that is not an object, since the property names were validated.
def insertPath (path : List (List Char)) (value : Value) (members : Members) : Members :=
  match path with
  | [] => members
  | [key] => members.insert key value
  | key :: rest =>
      match members.get? key with
      | some (.Object child) => members.insert key (.Object (insertPath rest value child))
      | _ => members.insert key (.Object (insertPath rest value []))

-- A dotted key is a path of its own.
def dotted (key : List Char) : List (List Char) :=
  let parts := split '.' key
  if 1 < parts.length ∧ parts.getLast? = some "outputdelay".toList then
    parts.dropLast ++ ["outputDelay".toList]
  else parts

def linkKind (key : List Char) : Option (List Char) :=
  ((split '.' key).getLast?).filter (MENU_ACTIONS.contains ·)

-- Some menu action is usable by this receiver.
def hasMenu (config : LinkConfig) (o : RenderOptions) : Bool :=
  o.has "MENU" &&
    config.fields.keys.any (fun key => isMenu key && (linkKind key).any o.linkEnabled)

structure Draft where
  root : Members
  style : Members
  titleStyle : Members
  menu : Std.TreeMap Nat Members

def STYLE_KEYS : List (List Char) :=
  ["fg".toList, "color".toList, "bg".toList, "bold".toList, "italic".toList,
    "underline".toList, "overline".toList, "strikethrough".toList,
    "text-decoration-color".toList]

def addPlain (o : RenderOptions) (draft : Draft) (key : List Char) (v : Value) : Draft :=
  if key = "tooltip".toList ∧ o.has "TOOLTIP" ∨ key = "title".toList ∧ o.has "MENU" ∨
      key = "spoiler".toList ∧ o.has "SPOILER" ∨ key = "disabled".toList ∧ o.has "DISABLED" then
    { draft with root := draft.root.insert key v }
  else if STYLE_KEYS.contains key ∧ o.has "STYLE_BASIC" then
    { draft with style := draft.style.insert (canonical key) v }
  else draft

def addMenu (draft : Draft) (key : List Char) (v : Value) : Draft :=
  match splitOnce '.' key with
  | none => draft
  | some (i, k) =>
      match parseUnsigned 10 (2 ^ 64 - 1) i with
      | .error _ => draft
      | .ok index =>
          { draft with menu := draft.menu.insert index ((draft.menu.getD index []).insert k v) }

def visibilityValue (key : List Char) (v : Value) : Value :=
  if key = "action".toList ∧ v.asStr = some "reveal,conceal".toList then
    .Array [.Str "reveal".toList, .Str "conceal".toList]
  else v

def addField (o : RenderOptions) (draft : Draft) (name : List Char) (v : Value) : Draft :=
  match splitOnce '.' name with
  | none => addPlain o draft name v
  | some (group, key) =>
      if group = [] then addPlain o draft key v
      else if group = "menu".toList ∧ o.has "MENU" then addMenu draft key v
      else if group = "visibility".toList ∧ o.has "VISIBILITY" then
        { draft with root := insertPath (group :: dotted key) (visibilityValue key v) draft.root }
      else if group = "selection".toList ∧ o.has "SELECTION" then
        { draft with root := insertPath (group :: dotted key) v draft.root }
      else if group = "title".toList ∧ o.has "MENU" ∧ o.has "STYLE_BASIC" then
        { draft with titleStyle := draft.titleStyle.insert (canonical key) v }
      else if STATES.contains group ∧ o.has "STYLE_STATES" then
        { draft with style := insertPath (group :: dotted (canonical key)) v draft.style }
      else draft

def itemAction (o : RenderOptions) (item : Members) : Option (List Char × List Char) :=
  MENU_ACTIONS.findSome? (fun k =>
    ((item.get? k).bind Value.asStr).bind (fun v =>
      if o.linkEnabled k then some (k, v) else none))

-- The items so far and whether a separator is due before the next one.
def addItem (o : RenderOptions) (state : List Value × Bool) (item : Members) :
    List Value × Bool :=
  let (items, separator) := state
  if (item.get? "separator".toList).any Value.isTrue then (items, !items.isEmpty)
  else
    match itemAction o item with
    | none => state
    | some (kind, target) =>
        let items := if separator then items ++ [.Str ['-']] else items
        match (item.get? "label".toList).bind Value.asStr with
        | none => (items, false)
        | some label =>
            let action := if kind = "link".toList then target else kind ++ [':'] ++ target
            (items ++ [.Object [(label, .Str action)]], false)

def jsonWithMenu (config : LinkConfig) (o : RenderOptions) (menuAvailable : Bool) : Members :=
  let draft := config.fields.foldl (addField o) ⟨[], [], [], ∅⟩
  let root :=
    if draft.style = [] then draft.root else draft.root.insert "style".toList (.Object draft.style)
  let root :=
    if draft.titleStyle = [] then root
    else
      match root.get? "title".toList with
      | none => root
      | some title =>
          root.insert "title".toList
            (.Object [("style".toList, .Object draft.titleStyle), ("text".toList, title)])
  let items := (draft.menu.values.foldl (addItem o) ([], false)).1
  let root := if items = [] then root else root.insert "menu".toList (.Array items)
  let root := if menuAvailable then root else root.remove "title".toList
  if o.has "COMPACT" then Value.compactMembers [] root [] else root

end LinkConfig

inductive LinkKind
  | External
  | Send
  | Prompt
  deriving DecidableEq

def LinkKind.name : LinkKind → List Char
  | .External => "link".toList
  | .Send => "send".toList
  | .Prompt => "prompt".toList

structure Link where
  kind : LinkKind
  target : List Char
  config : LinkConfig

namespace Link

def validate (link : Link) : Except Error Unit := do
  ensure (!link.target.isEmpty && !link.target.any isControl) "invalid link target"
  if link.kind = .External then
    ensure (external link.target) "link URI must be percent-encoded http, https or ftp"
  else
    ensure (utf8Len link.target ≤ OSC8_URI_LIMIT &&
      utf8Len link.kind.name + 1 + utf8Len (percent link.target) ≤ OSC8_URI_LIMIT)
      "encoded link is too long"

-- The text before the fragment, and the fragment.
def splitFragment (uri : List Char) : List Char × Option (List Char) :=
  match splitOnce '#' uri with
  | none => (uri, none)
  | some (base, fragment) => (base, some fragment)

def withFragment (base : List Char) : Option (List Char) → List Char
  | none => base
  | some fragment => base ++ ['#'] ++ fragment

-- Query fields that a client would take for its own parameters are spelled differently.
def guardQueryField (o : RenderOptions) (part : List Char) : List Char :=
  let (name, tail) :=
    match splitOnce '=' part with
    | none => (part, none)
    | some (name, tail) => (name, some tail)
  let plain := ["".toList, "SEND".toList, "PROMPT".toList, "PRESETS".toList]
  let name :=
    if name = "config".toList ∧ o.capabilities.toList.any (fun c => !plain.contains c) then
      "%63%6F%6E%66%69%67".toList
    else if name = "preset".toList ∧ o.has "PRESETS" then "%70%72%65%73%65%74".toList
    else name
  match tail with
  | none => name
  | some tail => name ++ ['='] ++ tail

def guardQuery (o : RenderOptions) (uri : List Char) : List Char :=
  let (base, fragment) := splitFragment uri
  match splitOnce '?' base with
  | none => uri
  | some (path, query) =>
      withFragment
        (path ++ ['?'] ++ List.intercalate ['&'] ((split '&' query).map (guardQueryField o)))
        fragment

def appendParams (uri : List Char) (params : List (List Char)) : List Char :=
  if params = [] then uri
  else
    let (base, fragment) := splitFragment uri
    withFragment
      (base ++ [if base.contains '?' then '&' else '?'] ++ List.intercalate ['&'] params)
      fragment

def isTitle (name : List Char) : Bool :=
  name == "title".toList || "title.".toList.isPrefixOf name

-- The properties sent along: with presets on the client, the explicit ones and those that
-- belong to an overridden title.
def sentConfig (link : Link) (p : Palette) (o : RenderOptions) : LinkConfig :=
  let effective := link.config.effective p
  let config :=
    if o.has "PRESETS" ∧ link.config.preset.isSome then link.config else effective
  if o.has "PRESETS" ∧ link.config.fields.keys.any isTitle then
    { config with
      fields := effective.fields.foldl
        (fun fields k v => if isTitle k then fields.insert k v else fields) config.fields }
  else config

def params (link : Link) (p : Palette) (o : RenderOptions) : List (List Char) :=
  let preset :=
    match link.config.preset with
    | some n => if o.has "PRESETS" then ["preset=".toList ++ percent n] else []
    | none => []
  let json := (link.sentConfig p o).jsonWithMenu o ((link.config.effective p).hasMenu o)
  preset ++
    if json = [] then [] else ["config=".toList ++ percent (Value.toText (.Object json))]

def uri (link : Link) (p : Palette) (o : RenderOptions) : Option (List Char) :=
  match link.validate with
  | .error _ => none
  | .ok _ =>
      if ¬ o.linkEnabled link.kind.name then none
      else if ((link.config.effective p).get? "disabled").any Value.isTrue ∧
          ¬ o.has "DISABLED" then none
      else
        let target :=
          if link.kind = .External then guardQuery o link.target
          else link.kind.name ++ [':'] ++ percent link.target
        let uri := appendParams target (link.params p o)
        if utf8Len uri ≤ OSC8_URI_LIMIT then some uri else none

end Link

-- The characters a target sent to a terminal can consist of.
def isUriChar (c : Char) : Bool := c.isAlphanum || isUriMark c || c == '%'

def IsUri (text : List Char) : Prop := ∀ c ∈ text, isUriChar c

@[simp] theorem isUri_nil : IsUri [] := by simp [IsUri]

variable (c : Char) (s : List Char)

@[simp] theorem isUri_cons (text : List Char) :
    IsUri (c :: text) ↔ isUriChar c ∧ IsUri text := List.forall_mem_cons

@[simp] theorem isUri_append (text rest : List Char) :
    IsUri (text ++ rest) ↔ IsUri text ∧ IsUri rest := List.forall_mem_append

-- A printable character of ASCII that does not end a tag.
structure Printable (c : Char) : Prop where
  low : 33 ≤ c.toNat
  high : c.toNat ≤ 126
  opening : c ≠ '<'
  closing : c ≠ '>'

theorem isAlphanum_iff : c.isAlphanum ↔
    (65 ≤ c.toNat ∧ c.toNat ≤ 90 ∨ 97 ≤ c.toNat ∧ c.toNat ≤ 122) ∨ 48 ≤ c.toNat ∧ c.toNat ≤ 57 := by
  have hkinds : c.isAlphanum = ((c.isUpper || c.isLower) || c.isDigit) := rfl
  have hupper : c.isUpper = decide (65 ≤ c.toNat ∧ c.toNat ≤ 90) := rfl
  have hlower : c.isLower = (decide (97 ≤ c.toNat) && decide (c.toNat ≤ 122)) := rfl
  have hdigit : c.isDigit = (decide (48 ≤ c.toNat) && decide (c.toNat ≤ 57)) := rfl
  simp only [hkinds, hupper, hlower, hdigit, Bool.or_eq_true, Bool.and_eq_true, decide_eq_true_eq]

theorem isUriChar_printable (hc : isUriChar c) : Printable c := by
  unfold isUriChar at hc
  rw [Bool.or_eq_true, Bool.or_eq_true, isAlphanum_iff, beq_iff_eq] at hc
  rcases hc with (hc | hc) | rfl
  · refine ⟨by omega, by omega, ?_, ?_⟩
    · rintro rfl
      revert hc
      decide
    · rintro rfl
      revert hc
      decide
  · have hmarks : ∀ d ∈ "-._~:/?#[]@!$&'()*+,;=".toList,
        33 ≤ d.toNat ∧ d.toNat ≤ 126 ∧ d ≠ '<' ∧ d ≠ '>' := by decide
    obtain ⟨hlow, hhigh, ho, hcl⟩ := hmarks c (List.contains_iff_mem.mp hc)
    exact ⟨hlow, hhigh, ho, hcl⟩
  · exact ⟨by decide, by decide, by decide, by decide⟩

theorem isUnreserved_uri (hc : isUnreserved c) : isUriChar c := by
  have hmarks : ∀ d ∈ "-._~".toList, isUriChar d := by decide
  unfold isUnreserved at hc
  rcases (Bool.or_eq_true ..).mp hc with hc | hc
  · simp [isUriChar, hc]
  · exact hmarks c (List.contains_iff_mem.mp hc)

theorem percent_isUri : IsUri (percent s) := by
  have hhex : ∀ n < 16, isUriChar (hexUpper n) := by decide
  intro c hc
  obtain ⟨b, -, hcb⟩ := List.mem_flatMap.mp hc
  have hb := b.toNat_lt
  dsimp only at hcb
  split at hcb
  · rename_i h
    rw [List.mem_singleton.mp hcb]
    exact isUnreserved_uri _ h
  · simp only [List.mem_cons, List.not_mem_nil, or_false] at hcb
    rcases hcb with rfl | rfl | rfl
    · decide
    · exact hhex _ (by omega)
    · exact hhex _ (by omega)

theorem isHexDigit_uri (hc : isHexDigit c) : isUriChar c := by
  have halnum : c.isAlphanum := by
    have hkinds : c.isAlphanum = ((c.isUpper || c.isLower) || c.isDigit) := rfl
    unfold isHexDigit digitValue at hc
    rw [hkinds]
    by_cases hd : c.isDigit
    · simp [hd]
    by_cases hl : c.isLower
    · simp [hl]
    by_cases hu : c.isUpper
    · simp [hu]
    simp [hd, hl, hu] at hc
  simp [isUriChar, halnum]

theorem uriBytes_isUri (pending : Nat) (text : List Char) (h : uriBytes pending text) :
    IsUri text := by
  induction text generalizing pending with
  | nil => exact isUri_nil
  | cons c text ih =>
      cases pending with
      | succ pending =>
          rw [uriBytes, Bool.and_eq_true] at h
          exact (isUri_cons c text).mpr ⟨isHexDigit_uri c h.1, ih _ h.2⟩
      | zero =>
          rw [uriBytes] at h
          split at h
          · rename_i hc
            exact (isUri_cons c text).mpr ⟨by rw [hc]; decide, ih _ h⟩
          · rw [Bool.and_eq_true] at h
            exact (isUri_cons c text).mpr ⟨by simp [isUriChar, h.1], ih _ h.2⟩

theorem external_isUri (h : external s) : IsUri s := by
  unfold external at h
  split at h
  · simp at h
  · simp only [Bool.and_eq_true] at h
    exact uriBytes_isUri 0 s h.2

theorem external_ne_nil (h : external s) : s ≠ [] := by
  rintro rfl
  simp [external, splitOnce] at h

theorem isUri_intercalate (separator : Char) (parts : List (List Char))
    (hs : isUriChar separator) (hp : ∀ part ∈ parts, IsUri part) :
    IsUri (List.intercalate [separator] parts) := by
  intro c hc
  rcases mem_intercalate separator parts c hc with rfl | ⟨part, hpart, hc⟩
  · exact hs
  · exact hp part hpart c hc

namespace Link

theorem splitFragment_isUri {uri : List Char} (hu : IsUri uri) :
    IsUri (splitFragment uri).1 ∧ ∀ fragment ∈ (splitFragment uri).2, IsUri fragment := by
  unfold splitFragment
  split
  · exact ⟨hu, by simp⟩
  · rename_i base fragment h
    rw [splitOnce_eq '#' uri base fragment h] at hu
    simp only [isUri_append, isUri_cons] at hu
    exact ⟨hu.1, by simp [hu.2.2]⟩

theorem withFragment_isUri {base : List Char} (fragment : Option (List Char)) (hb : IsUri base)
    (hf : ∀ text ∈ fragment, IsUri text) : IsUri (withFragment base fragment) := by
  cases fragment with
  | none => exact hb
  | some text =>
      simp only [withFragment, isUri_append, isUri_cons, isUri_nil]
      exact ⟨⟨hb, by decide⟩, hf text rfl⟩

variable (link : Link) (p : Palette) (o : RenderOptions)

theorem guardQueryField_isUri {part : List Char} (hp : IsUri part) :
    IsUri (guardQueryField o part) := by
  have hconfig : ∀ c ∈ "%63%6F%6E%66%69%67".toList, isUriChar c := by decide
  have hpreset : ∀ c ∈ "%70%72%65%73%65%74".toList, isUriChar c := by decide
  -- the name, guarded or not
  have hname : ∀ name : List Char, IsUri name → IsUri
      (if name = "config".toList ∧ o.capabilities.toList.any (fun c =>
          !(["".toList, "SEND".toList, "PROMPT".toList, "PRESETS".toList].contains c)) then
        "%63%6F%6E%66%69%67".toList
      else if name = "preset".toList ∧ o.has "PRESETS" then "%70%72%65%73%65%74".toList
      else name) := by
    intro name hn
    split
    · exact hconfig
    · split
      · exact hpreset
      · exact hn
  unfold guardQueryField
  cases h : splitOnce '=' part with
  | none => exact hname part hp
  | some parts =>
      rw [splitOnce_eq '=' part parts.1 parts.2 h, isUri_append, isUri_cons] at hp
      simp only [isUri_append, isUri_cons, isUri_nil]
      exact ⟨⟨hname parts.1 hp.1, by decide⟩, hp.2.2⟩

theorem guardQuery_isUri (uri : List Char) (hu : IsUri uri) : IsUri (guardQuery o uri) := by
  obtain ⟨hbase, hfragment⟩ := splitFragment_isUri hu
  unfold guardQuery
  dsimp only
  split
  · exact hu
  · rename_i path query h
    rw [splitOnce_eq '?' _ path query h, isUri_append, isUri_cons] at hbase
    refine withFragment_isUri _ ?_ hfragment
    simp only [isUri_append, isUri_cons, isUri_nil]
    refine ⟨⟨hbase.1, by decide⟩, isUri_intercalate '&' _ (by decide) ?_⟩
    intro part hpart
    obtain ⟨field, hfield, rfl⟩ := List.mem_map.mp hpart
    exact guardQueryField_isUri o
      (fun c hc => hbase.2.2 c (mem_of_mem_split '&' query field c hfield hc))

theorem appendParams_isUri {uri : List Char} (params : List (List Char)) (hu : IsUri uri)
    (hp : ∀ param ∈ params, IsUri param) : IsUri (appendParams uri params) := by
  have hmark : ∀ b : Bool, isUriChar (if b then '&' else '?') := by decide
  obtain ⟨hbase, hfragment⟩ := splitFragment_isUri hu
  unfold appendParams
  split
  · exact hu
  · refine withFragment_isUri _ ?_ hfragment
    simp only [isUri_append, isUri_cons, isUri_nil]
    exact ⟨⟨hbase, hmark _, trivial⟩, isUri_intercalate '&' _ (by decide) hp⟩

theorem params_isUri : ∀ param ∈ link.params p o, IsUri param := by
  have hpreset : ∀ c ∈ "preset=".toList, isUriChar c := by decide
  have hconfig : ∀ c ∈ "config=".toList, isUriChar c := by decide
  intro param hparam
  rcases List.mem_append.mp hparam with hparam | hparam
  · split at hparam
    · split at hparam
      · rw [List.mem_singleton.mp hparam, isUri_append]
        exact ⟨hpreset, percent_isUri _⟩
      · simp at hparam
    · simp at hparam
  · split at hparam
    · simp at hparam
    · rw [List.mem_singleton.mp hparam, isUri_append]
      exact ⟨hconfig, percent_isUri _⟩

theorem validate_external (h : link.validate = .ok ()) (hk : link.kind = .External) :
    external link.target := by
  obtain ⟨-, -, h⟩ := bind_eq_ok _ _ _ h
  rw [if_pos hk] at h
  exact ensure_eq_ok h

theorem uri_isUri {text : List Char} (h : link.uri p o = some text) : IsUri text := by
  have hname : ∀ kind : LinkKind, IsUri kind.name := by
    intro kind
    cases kind <;> (unfold IsUri; decide)
  unfold uri at h
  split at h
  · simp at h
  · rename_i hvalid
    dsimp only at h
    split_ifs at h with henabled hdisabled hk
    · rw [← Option.some.inj h]
      refine appendParams_isUri _ ?_ (params_isUri link p o)
      exact guardQuery_isUri o _ (external_isUri _ (validate_external link hvalid hk))
    · rw [← Option.some.inj h]
      refine appendParams_isUri _ ?_ (params_isUri link p o)
      simp only [isUri_append, isUri_cons, isUri_nil]
      exact ⟨⟨hname link.kind, by decide⟩, percent_isUri _⟩

theorem withFragment_ne_nil {base : List Char} (fragment : Option (List Char)) (hb : base ≠ []) :
    withFragment base fragment ≠ [] := by
  cases fragment <;> simp [withFragment, hb]

theorem guardQuery_ne_nil (uri : List Char) (hu : uri ≠ []) : guardQuery o uri ≠ [] := by
  unfold guardQuery
  dsimp only
  split
  · exact hu
  · exact withFragment_ne_nil _ (by simp)

theorem appendParams_ne_nil {uri : List Char} (params : List (List Char)) (hu : uri ≠ []) :
    appendParams uri params ≠ [] := by
  unfold appendParams
  split
  · exact hu
  · exact withFragment_ne_nil _ (by simp)

theorem uri_ne_nil {text : List Char} (h : link.uri p o = some text) : text ≠ [] := by
  unfold uri at h
  split at h
  · simp at h
  · rename_i hvalid
    dsimp only at h
    split_ifs at h with henabled hdisabled hk
    · rw [← Option.some.inj h]
      exact appendParams_ne_nil _ (guardQuery_ne_nil o _
        (external_ne_nil _ (validate_external link hvalid hk)))
    · rw [← Option.some.inj h]
      exact appendParams_ne_nil _ (by simp)

end Link

end StompyMux.StyledText
