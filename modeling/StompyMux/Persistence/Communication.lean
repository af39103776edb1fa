import StompyMux.Communication.Channels
import StompyMux.Persistence.Lists

-- Selective channel, alias and last-page persistence.
namespace StompyMux.Persistence.Communication

open Library Library.Fallible
open StompyMux.Communication
open StompyMux.World (ObjectId Kind)

-- Names are compared character by character.
local instance lawfulNames : LawfulBEq (List Char) := inferInstance

-- The part of the world that is kept here, with the accounts that it refers to.
structure Game extends World where
  accounts : Finset ObjectId
  lastPages : OrderedMap ObjectId (List ObjectId)

namespace Game

variable (w : Game)

def live (id : ObjectId) : Bool := (w.objects.get? id).any fun object => object.kind ≠ .Garbage

def validateMember (channel : Channel) (members : List ObjectId) (member : Membership) :
    Except Error (List ObjectId) := do
  ensure (member.who ∉ members) s!"channel {channel.name} has duplicate member #{member.who}"
  ensure (w.live member.who) s!"channel {channel.name} has invalid member #{member.who}"
  .ok (member.who :: members)

def validateReference (channel : Channel) : Except Error Unit :=
  match channel.object with
  | none => .ok ()
  | some id => ensure (w.live id) s!"channel {channel.name} references invalid #{id}"

def validateChannel (names : List (List Char)) (channel : Channel) : Except Error (List (List Char)) := do
  ensure (toAsciiLowercase channel.name ∉ names) s!"duplicate channel {channel.name}"
  ensure (0 ≤ channel.messages) s!"channel {channel.name} has a negative message count"
  let _ ← channel.users.foldlM (w.validateMember channel) []
  w.validateReference channel
  .ok (toAsciiLowercase channel.name :: names)

def validateAlias (who : ObjectId) (names : List (List Char)) (entry : ChannelAlias) :
    Except Error (List (List Char)) := do
  ensure (toAsciiLowercase entry.aliasName ∉ names)
    s!"duplicate channel alias {entry.aliasName} for #{who}"
  .ok (toAsciiLowercase entry.aliasName :: names)

def validateAliases (owned : ObjectId × List ChannelAlias) : Except Error Unit := do
  ensure (w.live owned.1) s!"channel aliases have invalid owner #{owned.1}"
  let _ ← owned.2.foldlM (validateAlias owned.1) []
  .ok ()

def validatePages (owned : ObjectId × List ObjectId) : Except Error Unit := do
  ensure (owned.1 ∈ w.accounts) s!"last-page owner #{owned.1} is not a player"
  owned.2.forM fun recipient =>
    ensure (recipient ∈ w.accounts) s!"last-page recipient #{recipient} is not a player"

-- What every finished transaction is checked for before it is saved.
def validate : Except Error Unit := do
  let _ ← w.channels.values.foldlM w.validateChannel []
  w.channelAliases.entries.forM w.validateAliases
  w.lastPages.entries.forM w.validatePages

def members : OrderedMap String (List Membership) := w.channels.mapEntries fun _ channel => channel.users

def history : OrderedMap String (List ChannelMessage) :=
  w.channels.mapEntries fun _ channel => channel.history

end Game

-- A foreign key to the channels that some table declares, with the names in its column.
structure Reference where
  table : String
  column : String
  names : List String
  deriving DecidableEq

structure CommunicationTables where
  channels : Table String Row
  users : Table (String × Int) Row
  messages : Table (String × Int) Row
  aliases : Table (ObjectId × Int) Row
  pages : Table (ObjectId × Int) Row
  commacEntries : Table ObjectId Row
  defaults : String → Row
  references : List Reference

namespace CommunicationTables

variable (t : CommunicationTables)

def channelsSchema : Schema String where
  name := "comsys_channels"
  key := fun name => [("name", .Text name)]
  defaults := t.defaults "comsys_channels"
  check := fun _ => notNull ["type", "num_messages", "chan_obj"]

def usersSchema : Schema (String × Int) where
  name := "comsys_channel_users"
  key := fun key => [("channel_name", .Text key.1), ("position", .Integer key.2)]
  defaults := t.defaults "comsys_channel_users"
  check := fun _ => notNull ["who", "is_on"]

def messagesSchema : Schema (String × Int) where
  name := "comsys_channel_messages"
  key := fun key => [("channel_name", .Text key.1), ("position", .Integer key.2)]
  defaults := t.defaults "comsys_channel_messages"
  check := fun _ => notNull ["sent_at", "message"]

def aliasesSchema : Schema (ObjectId × Int) where
  name := "commac_aliases"
  key := fun key => [("position", .Integer key.2), ("who", .Integer key.1)]
  defaults := t.defaults "commac_aliases"
  check := fun _ => notNull ["alias", "channel_name"]

def pagesSchema : Schema (ObjectId × Int) where
  name := "player_last_page_recipients"
  key := fun key => [("player_dbref", .Integer key.1), ("position", .Integer key.2)]
  defaults := t.defaults "player_last_page_recipients"
  check := fun key row => notNull ["recipient_dbref"] row && 0 ≤ key.2

end CommunicationTables

def reference (id : Option ObjectId) : Cell := .Integer (id.getD (-1))

def channelFields (channel : Channel) : Fields :=
  [("chan_obj", reference channel.object), ("num_messages", .Integer channel.messages),
    ("type", .Integer channel.flags.toInt64.toInt)]

def userFields (user : Membership) : Fields :=
  [("is_on", .Integer (if user.listening then 1 else 0)), ("who", .Integer user.who)]

def messageFields (entry : ChannelMessage) : Fields :=
  [("message", .Text entry.message.toList), ("sent_at", .Integer entry.time)]

def aliasFields (entry : ChannelAlias) : Fields :=
  [("alias", .Text entry.aliasName.toList), ("channel_name", .Text entry.channel.toList)]

def pageFields (recipient : ObjectId) : Fields := [("recipient_dbref", .Integer recipient)]

section Save

def storedUser (row : Row) : Except Error Fields := do
  let who ← getInteger row "who"
  let listening ← getInteger row "is_on"
  .ok [("is_on", .Integer listening), ("who", .Integer who)]

def storedMessage (row : Row) : Except Error Fields := do
  let time ← getInteger row "sent_at"
  let message ← getText row "message"
  .ok [("message", .Text message), ("sent_at", .Integer time)]

def storedAlias (row : Row) : Except Error Fields := do
  let aliasName ← getText row "alias"
  let channel ← getText row "channel_name"
  .ok [("alias", .Text aliasName), ("channel_name", .Text channel)]

def storedPage (row : Row) : Except Error Fields := do
  let recipient ← getInteger row "recipient_dbref"
  .ok [("recipient_dbref", .Integer recipient)]

variable (t : CommunicationTables) (before after : Game)

def saveChannel (w : Table String Row × Bool) (entry : String × Channel) :
    Except Error (Table String Row × Bool) :=
  writeRow t.channelsSchema Prod.fst (fun entry => (before.channels.get? entry.1).map channelFields)
    (fun entry => channelFields entry.2) w entry

-- The identity of an alias owner, also the owner of macro slots.
def identityFields : Fields :=
  [("curmac", .Integer (-1)), ("macro_slot_0", .Integer (-1)), ("macro_slot_1", .Integer (-1)),
    ("macro_slot_2", .Integer (-1)), ("macro_slot_3", .Integer (-1)), ("macro_slot_4", .Integer (-1))]

def saveIdentity (entries : Table ObjectId Row) (who : ObjectId) : Except Error (Table ObjectId Row) :=
  if (entries.get? who).isSome then .ok entries
  else entries.insert who (assign identityFields (t.defaults "commac_entries"))

def checkReference (name : String) (other : Reference) : Except Error Unit :=
  ensure (name ∉ other.names)
    s!"channel {name}: dependency {other.table}.{other.column} prevents destruction"

def removeChannel (w : Table String Row × Bool) (name : String) :
    Except Error (Table String Row × Bool) := do
  t.references.forM (checkReference name)
  .ok (w.1.delete (fun key => key = name), true)

-- The channels' own rows come first, and the rows of channels that are gone last.
def save : Except Error (CommunicationTables × Bool) := do
  let (channels, changed) ← after.channels.entries.foldlM (saveChannel t before) (t.channels, false)
  let (users, changed) ← saveRecords t.usersSchema id storedUser (records id userFields before.members)
    (records id userFields after.members) (t.users, changed)
  let (messages, changed) ← saveRecords t.messagesSchema id storedMessage
    (records id messageFields before.history) (records id messageFields after.history) (t.messages, changed)
  let (aliases, changed) ← saveRecords t.aliasesSchema toString storedAlias
    (records toString aliasFields before.channelAliases) (records toString aliasFields after.channelAliases)
    (t.aliases, changed)
  let (pages, changed) ← saveRecords t.pagesSchema toString storedPage
    (records toString pageFields before.lastPages) (records toString pageFields after.lastPages)
    (t.pages, changed)
  let owners := after.channelAliases.keys.filter (fun who => who ∉ before.channelAliases.keys)
  let commacEntries ← owners.foldlM (saveIdentity t) t.commacEntries
  let gone := before.channels.keys.filter (fun name => name ∉ after.channels.keys)
  let (channels, changed) ← gone.foldlM (removeChannel t) (channels, changed)
  .ok (⟨channels, users, messages, aliases, pages, commacEntries, t.defaults, t.references⟩, changed)

end Save

section Load

variable (w : Game)

def newChannel (name : String) (handle : Nat) : Channel := ⟨name, none, 127, 0, [], [], handle, 0, [], false⟩

-- A negative reference is none.
def objectId (value : Int) : Option ObjectId := if 0 ≤ value then some value else none

def loadChannel (next : Nat) (entry : (String × Row) × Nat) : Except Error Game := do
  let object ← getInteger entry.1.2 "chan_obj"
  let flags ← getInteger entry.1.2 "type"
  let messages ← getInteger entry.1.2 "num_messages"
  let channel := newChannel entry.1.1 (next + entry.2)
  let loaded : Channel := { channel with
    object := objectId object, flags := (Int64.ofInt flags).toUInt64, messages := messages }
  .ok { w with channels := w.channels.insert entry.1.1 loaded }

def pushUser (channel : Channel) (user : Membership) : Channel :=
  let users := channel.users ++ [user]
  { channel with users := users, maxUsers := (users.length + 9) / 10 * 10 }

def pushMessage (channel : Channel) (entry : ChannelMessage) : Channel :=
  { channel with history := channel.history ++ [entry] }

def loadUser (name : String) (row : Row) : Except Error Game := do
  let who ← getInteger row "who"
  let listening ← getInteger row "is_on"
  ensure (listening = 0 || listening = 1) s!"channel {name}: invalid listening value {listening}"
  let channel ← ofOption s!"membership references missing channel {name}" (w.channels.get? name)
  ensure (w.objects.get? who).isSome s!"channel {name}: invalid member #{who}"
  ensure (channel.users.all fun user => user.who ≠ who) s!"channel {name}: duplicate member #{who}"
  .ok { w with channels := w.channels.modify name fun channel => pushUser channel ⟨who, listening ≠ 0⟩ }

def loadMessage (name : String) (row : Row) : Except Error Game := do
  let _ ← ofOption s!"history references missing channel {name}" (w.channels.get? name)
  let time ← getInteger row "sent_at"
  let message ← getText row "message"
  .ok { w with
    channels := w.channels.modify name fun channel => pushMessage channel ⟨time, String.ofList message⟩ }

def loadAlias (who : ObjectId) (row : Row) : Except Error Game := do
  let aliasName ← getText row "alias"
  let channel ← getText row "channel_name"
  let entry : ChannelAlias := ⟨String.ofList aliasName, String.ofList channel⟩
  ensure (w.objects.get? who).isSome s!"channel alias {entry.aliasName}: invalid owner #{who}"
  let entries := (w.channelAliases.get? who).getD []
  ensure (entries.all fun other => !eqIgnoreAsciiCase other.aliasName entry.aliasName)
    s!"duplicate channel alias {entry.aliasName} for #{who}"
  .ok { w with channelAliases := w.channelAliases.insert who (entries ++ [entry]) }

def loadPage (who : ObjectId) (row : Row) : Except Error Game := do
  ensure (who ∈ w.accounts) s!"last-page owner #{who} missing"
  let recipient ← getInteger row "recipient_dbref"
  .ok { w with lastPages := w.lastPages.insert who ((w.lastPages.get? who).getD [] ++ [recipient]) }

variable (t : CommunicationTables) (next : Nat)

-- The channels get their handles from the next on.
def load : Except Error Game := do
  let w ← t.channels.rows.zipIdx.foldlM (fun w entry => loadChannel w next entry) w
  let w ← loadTable t.users loadUser w
  let w ← loadTable t.messages loadMessage w
  let w ← loadTable t.aliases loadAlias w
  loadTable t.pages loadPage w

end Load

end StompyMux.Persistence.Communication
