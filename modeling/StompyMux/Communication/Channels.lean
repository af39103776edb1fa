import Mathlib.Data.String.Basic
import StompyMux.Library.Fallible
import StompyMux.Library.StableSort
import StompyMux.World.Object

-- Channels, their members and the policy of communication.
namespace StompyMux.Communication

open Library Library.Fallible
open StompyMux.World (ObjectId Kind)

def HISTORY_LIMIT : Nat := 20

def ALIAS_LIMIT : Nat := 5

inductive Flag
  | Connected
  | Dark
  | Gagged
  | Halted
  | InCharacter
  | Wizard
  deriving DecidableEq

structure Object where
  name : String
  kind : Kind
  location : Option ObjectId
  flags : Finset Flag
  deriving DecidableEq

inductive Access
  | Join
  | Transmit
  | Receive
  deriving DecidableEq

def Access.bit : Access → UInt64
  | .Join => 1
  | .Transmit => 2
  | .Receive => 4

def LOUD : UInt64 := 0x100

structure Membership where
  who : ObjectId
  listening : Bool
  deriving DecidableEq

structure ChannelAlias where
  aliasName : String
  channel : String
  deriving DecidableEq

structure ChannelMessage where
  time : Int
  message : String
  deriving DecidableEq

-- The online list is built when the channel is first used.
structure Channel where
  name : String
  object : Option ObjectId
  flags : UInt64
  messages : Int
  users : List Membership
  history : List ChannelMessage
  id : Nat
  maxUsers : Nat
  online : List ObjectId
  onlineInitialized : Bool
  deriving DecidableEq

structure World where
  objects : OrderedMap ObjectId Object
  channels : OrderedMap String Channel
  channelAliases : OrderedMap ObjectId (List ChannelAlias)
  deriving DecidableEq

abbrev Outbox := List (ObjectId × String)

inductive LockOutcome
  | Decision (passes : Bool)
  | CallbackFailed

-- The scripts and the routing of messages through objects, none of which changes the world.
structure HostCallbacks where
  lockPasses : World → ObjectId → ObjectId → Access → Except Error LockOutcome
  channelLeave : World → ObjectId → ObjectId → Except Error Unit
  send : World → Outbox → ObjectId → String → Except Error Outbox
  wallTime : Nat → Int

structure Config where
  outputMessageLimit : Nat
  outputEntryLimit : Nat
  outputByteLimit : Nat
  oocComsys : Bool

-- One line of a channel, in the world as it stood, with the output before it and after it.
structure Emission where
  world : World
  channel : String
  excluded : Option ObjectId
  entry : ChannelMessage
  before : Outbox
  after : Outbox

-- What an operation works on: the world, its output, the readings of the clock and the lines.
structure Service where
  world : World
  outbox : Outbox
  readings : Nat
  emissions : List Emission

def eqIgnoreAsciiCase (a b : String) : Bool :=
  a.toList.map Char.toLower == b.toList.map Char.toLower

def toAsciiLowercase (s : String) : List Char := s.toList.map Char.toLower

def escape (s : String) : String :=
  String.ofList (s.toList.flatMap fun c => if c = '[' then ['[', '['] else [c])

def wizard (world : World) (actor : ObjectId) : Bool :=
  actor == 1 || (world.objects.get? actor).any fun object => .Wizard ∈ object.flags

def Object.inCharacter (object : Object) : Bool := .InCharacter ∈ object.flags

-- The containers are followed at most so many times.
def inCharacterAround (world : World) : Nat → Option ObjectId → Bool
  | 0, location => (location.bind world.objects.get?).any Object.inCharacter
  | steps + 1, location =>
      match location.bind world.objects.get? with
      | none => false
      | some object =>
          if object.kind ≠ .Player then object.inCharacter
          else if location = object.location then object.inCharacter
          else inCharacterAround world steps object.location

def inCharacter (config : Config) (world : World) (player : ObjectId) : Bool :=
  match world.objects.get? player with
  | none => true
  | some object =>
      if .Gagged ∈ object.flags then true
      else if config.oocComsys then false
      else inCharacterAround world 100 object.location

namespace World

variable (w : World)

def name (channel : String) : Except Error String :=
  ofOption ("Unknown channel " ++ channel ++ ".")
    (w.channels.keys.find? fun candidate => eqIgnoreAsciiCase candidate channel)

def byId (id : Nat) : Except Error String :=
  ofOption "channel handle is stale"
    ((w.channels.values.find? fun channel => channel.id = id).map Channel.name)

def channel (name : String) : Except Error Channel :=
  ofOption "channel removed by callback" (w.channels.get? name)

def object (id : ObjectId) : Except Error Object :=
  ofOption "object does not exist" (w.objects.get? id)

-- Callbacks that change nothing leave the channel what it was.
def unreplaced (id : Nat) (name : String) : Except Error Unit :=
  w.byId id >>= fun found => ensure (found == name) "channel replaced by callback"

def updateChannel (name : String) (f : Channel → Channel) : World :=
  { w with channels := w.channels.modify name f }

-- Wizards pass; then the lock of the channel's object; then the access bits.
def allowed (host : HostCallbacks) (who : ObjectId) (name : String) (access : Access) :
    Except Error Bool :=
  if wizard w who then .ok true
  else
    w.object who >>= fun object =>
    w.channel name >>= fun channel =>
    let bits := channel.flags &&& (access.bit * if object.kind = .Player then 1 else 16) != 0
    match channel.object.filter (· ≠ 0) with
    | none => .ok bits
    | some lock =>
        host.lockPasses w lock who access >>= fun outcome =>
        match outcome with
        | .Decision true => .ok true
        | .Decision false => .ok bits
        | .CallbackFailed => .ok bits

-- Connected players and live objects of other kinds.
def eligible (id : ObjectId) : Bool :=
  (w.objects.get? id).any fun object =>
    object.kind ≠ .Garbage ∧ (object.kind ≠ .Player ∨ .Connected ∈ object.flags)

end World

end StompyMux.Communication

-- The channel operations.
namespace StompyMux.Communication

open Library Library.Fallible
open StompyMux.World (ObjectId Kind)

namespace Channel

variable (c : Channel)

def member (who : ObjectId) : Option Membership := c.users.find? fun u => u.who = who

def listens (who : ObjectId) : Bool := c.users.any fun u => u.who = who && u.listening

def setListening (who : ObjectId) (listening : Bool) : Channel :=
  let slot := c.users.findIdx fun u => u.who = who
  { c with users := c.users.modify slot fun u => { u with listening := listening } }

-- The first use fills the online list, later uses only drop from it.
def reconcile (eligible : ObjectId → Bool) : Channel :=
  let present := (c.users.filter fun u => eligible u.who).map Membership.who
  if c.onlineInitialized then { c with online := c.online.filter fun id => present.contains id }
  else { c with online := present.reverse, onlineInitialized := true }

def onlineUsers : List Membership := c.online.filterMap c.member

def enrol (who : ObjectId) (online : Bool) : Channel :=
  if (c.member who).isSome then c.setListening who true
  else
    let users := stableSort Membership.who (c.users ++ [⟨who, true⟩])
    { c with
      users := users
      online := if online then who :: c.online else c.online
      maxUsers := if c.maxUsers ≤ users.length then c.maxUsers + 10 else c.maxUsers }

def withoutOnline (who : ObjectId) : Channel :=
  { c with online := c.online.filter fun id => id ≠ who }

def withoutMember (who : ObjectId) : Channel :=
  { c.withoutOnline who with users := c.users.filter fun u => u.who ≠ who }

def present (who : ObjectId) (connected : Bool) : Channel :=
  let rest := c.withoutOnline who
  if connected then { rest with online := who :: rest.online } else rest

def record (entry : ChannelMessage) : Channel :=
  let history := c.history ++ [entry]
  { c with history := history.drop (history.length - HISTORY_LIMIT) }

end Channel

-- A listening member that is there and that the receive and in-character rules allow.
def World.hears (host : HostCallbacks) (config : Config) (w : World) (name : String)
    (user : Membership) : Except Error Bool :=
  if user.listening && w.eligible user.who then
    w.allowed host user.who name .Receive >>= fun receives =>
    .ok (receives && (wizard w user.who || !inCharacter config w user.who))
  else .ok false

namespace Service

section

variable (host : HostCallbacks) (config : Config) (s : Service)

def updateChannel (name : String) (f : Channel → Channel) : Service :=
  { s with world := s.world.updateChannel name f }

def notify (player : ObjectId) (message : String) : Except Error Service :=
  if message.isEmpty then .ok s
  else
    ensure (message.utf8ByteSize ≤ config.outputMessageLimit &&
      s.outbox.length < config.outputEntryLimit &&
      (s.outbox.map fun output => output.2.utf8ByteSize).sum + message.utf8ByteSize ≤
        config.outputByteLimit) "Communication output limit exceeded" >>= fun _ =>
    .ok { s with outbox := s.outbox ++ [(player, message)] }

-- Players get the line directly, other objects through what they pass on.
def deliver (target : ObjectId) (message : String) : Except Error Service :=
  if (s.world.objects.get? target).any fun object => object.kind = .Player then
    s.notify config target message
  else
    host.send s.world s.outbox target message >>= fun outbox =>
    .ok { s with outbox := outbox }

def onlineMembers (channel : String) : Except Error (Service × List Membership) :=
  s.world.name channel >>= fun name =>
  let s := s.updateChannel name fun c => c.reconcile s.world.eligible
  s.world.channel name >>= fun c =>
  .ok (s, c.onlineUsers)

def deliverAll (name : String) (id : Nat) (message : String) (excluded : Option ObjectId) :
    Service → List Membership → Except Error Service
  | s, [] => .ok s
  | s, user :: rest =>
      if some user.who = excluded then deliverAll name id message excluded s rest
      else
        ensure ((s.world.channels.get? name).any fun c => c.id = id)
          "channel replaced by callback" >>= fun _ =>
        s.world.hears host config name user >>= fun hears =>
        (if hears then s.deliver host config user.who message else .ok s) >>= fun s =>
        deliverAll name id message excluded s rest

def countMessage (name : String) : Service :=
  s.updateChannel name fun c => { c with messages := c.messages + 1 }

-- The line as it is told, with the channel in front of it.
def headed (channel message : String) (noHeader : Bool) : String :=
  if noHeader then message else escape ("[" ++ channel ++ "]") ++ " " ++ message

def emitExcluding (channel message : String) (noHeader : Bool) (excluded : Option ObjectId) :
    Except Error Service :=
  ensure (!message.toList.contains (Char.ofNat 0)) "message contains an embedded NUL byte" >>= fun _ =>
  s.world.name channel >>= fun name =>
  let message := headed channel message noHeader
  s.world.channel name >>= fun c =>
  ensure (c.messages + 1 < 2 ^ 63) "channel message counter overflow" >>= fun _ =>
  (s.countMessage name).onlineMembers name >>= fun used =>
  deliverAll host config name c.id message excluded used.1 used.2 >>= fun t =>
  t.world.channel name >>= fun after =>
  ensure (after.id == c.id) "channel replaced by callback" >>= fun _ =>
  let entry := ⟨host.wallTime t.readings, message⟩
  let emission := ⟨t.world, name, excluded, entry, s.outbox, t.outbox⟩
  let t := t.updateChannel name fun c => c.record entry
  .ok ⟨t.world, t.outbox, t.readings + 1, t.emissions ++ [emission]⟩

def emit (channel message : String) (noHeader : Bool) : Except Error Service :=
  s.emitExcluding host config channel message noHeader none

def join (who : ObjectId) (channel : String) (quiet : Bool) : Except Error Service :=
  s.world.name channel >>= fun name =>
  s.world.channel name >>= fun c =>
  if c.listens who then s.notify config who ("You are already on channel " ++ name ++ ".")
  else
    s.onlineMembers name >>= fun used =>
    s.world.object who >>= fun object =>
    let online := decide (object.kind ≠ .Player ∨ .Connected ∈ object.flags)
    let s := used.1.updateChannel name fun c => c.enrol who online
    s.notify config who ("You have joined channel " ++ name ++ ".") >>= fun s =>
    if !quiet && Flag.Dark ∉ object.flags then
      s.emit host config name (object.name ++ " has joined this channel.") false
    else .ok s

-- The things on the channel hear of the leaving from the last to the second.
def leaveCallbacks (who : ObjectId) (name : String) : Except Error Unit :=
  s.world.channel name >>= fun c =>
  let things := (c.users.drop 1).reverse.filter fun u =>
    (s.world.objects.get? u.who).any fun object =>
      object.kind = .Thing ∧ .Halted ∉ object.flags
  things.forM fun u =>
    withContext ("channel " ++ name ++ " leave callback") (host.channelLeave s.world u.who who)

def leave (who : ObjectId) (channel : String) : Except Error Service :=
  s.world.name channel >>= fun name =>
  s.world.object who >>= fun object =>
  s.world.channel name >>= fun c =>
  s.leaveCallbacks host who name >>= fun _ =>
  s.world.unreplaced c.id name >>= fun _ =>
  s.notify config who ("You have left channel " ++ name ++ ".") >>= fun s =>
  (if c.listens who && Flag.Dark ∉ object.flags then
    s.emit host config name (object.name ++ " has left this channel.") false
  else .ok s) >>= fun s =>
  s.world.channel name >>= fun after =>
  ensure (after.member who).isSome "membership removed by callback" >>= fun _ =>
  .ok (s.updateChannel name fun c => c.setListening who false)

-- The member is taken off the online list before the others are told.
def removeListed (who : ObjectId) (channel name : String) (id : Nat) (user : Membership) :
    Except Error Service :=
  s.world.object who >>= fun object =>
  s.onlineMembers name >>= fun used =>
  let s := used.1.updateChannel name fun c => c.withoutOnline who
  (if user.listening && Flag.Dark ∉ object.flags && !object.name.isEmpty then
    s.emitExcluding host config name (object.name ++ " has left this channel.") false (some who)
  else .ok s) >>= fun s =>
  s.notify config who ("You have left channel " ++ channel ++ ".") >>= fun s =>
  s.world.channel name >>= fun after =>
  ensure (after.id == id) "channel replaced by callback" >>= fun _ =>
  .ok (s.updateChannel name fun c => c.withoutMember who)

def removeMember (who : ObjectId) (channel : String) : Except Error Service :=
  match s.world.name channel with
  | .error _ => s.notify config who ("Unknown channel " ++ channel ++ ".")
  | .ok name =>
      s.world.channel name >>= fun c =>
      s.leaveCallbacks host who name >>= fun _ =>
      s.world.unreplaced c.id name >>= fun _ =>
      match c.member who with
      | none => .ok s
      | some user => s.removeListed host config who channel name c.id user

def aliases (who : ObjectId) : List ChannelAlias := (s.world.channelAliases.get? who).getD []

def findAlias (who : ObjectId) (word : String) : Option ChannelAlias :=
  (s.aliases who).find? fun a => eqIgnoreAsciiCase a.aliasName word

def deleteAliasEntry (who : ObjectId) (word : String) : Service :=
  let kept := s.world.channelAliases.modify who fun aliases =>
    aliases.filter fun a => !eqIgnoreAsciiCase a.aliasName word
  { s with world := { s.world with channelAliases := kept } }

def removeAlias (who : ObjectId) (word : String) : Except Error Service :=
  ofOption "Unable to find that alias." (s.findAlias who word) >>= fun found =>
  s.removeMember host config who found.channel >>= fun s =>
  s.notify config who ("Channel " ++ found.channel ++ " deleted.") >>= fun s =>
  .ok (s.deleteAliasEntry who word)

def insertAlias (who : ObjectId) (entry : ChannelAlias) : Service :=
  let sorted := stableSort (fun a => toAsciiLowercase a.aliasName) (s.aliases who ++ [entry])
  { s with world := { s.world with channelAliases := s.world.channelAliases.insert who sorted } }

def add (who : ObjectId) (channel word : String) (quiet trusted : Bool) : Except Error Service :=
  ensure (!word.isEmpty) "You need to specify an alias." >>= fun _ =>
  ensure (word.utf8ByteSize ≤ ALIAS_LIMIT && word.toList.all fun c => 33 ≤ c.toNat && c.toNat ≤ 126)
    "Channel aliases must be 1-5 printable ASCII characters without spaces." >>= fun _ =>
  ensure (!channel.isEmpty) "You need to specify a channel." >>= fun _ =>
  ensure (channel.utf8ByteSize < 200) "Channel name too long." >>= fun _ =>
  ensure (!channel.toList.contains ' ') "Channel name cannot contain spaces." >>= fun _ =>
  ofOption ("Channel " ++ channel ++ " does not exist yet.") (s.world.name channel).toOption >>=
    fun name =>
  s.world.channel name >>= fun c =>
  (if trusted then .ok true else s.world.allowed host who name .Join) >>= fun joins =>
  ensure joins "Sorry, this channel type does not allow you to join." >>= fun _ =>
  s.world.unreplaced c.id name >>= fun _ =>
  let listed := !trusted && (c.member who).isSome
  let warning := "Warning: you are already listed on that channel."
  match s.findAlias who word with
  | some existing =>
      .error [(if listed then warning ++ "\n" else "") ++
        "That alias is already in use for channel " ++ existing.channel ++ "."]
  | none =>
      (if listed then s.notify config who warning else .ok s) >>= fun s =>
      (s.insertAlias who ⟨word, name⟩).join host config who name quiet >>= fun s =>
      s.notify config who ("Channel " ++ name ++ " added with alias " ++ word ++ ".")

def describe (actor : ObjectId) : Except Error String :=
  s.world.object actor >>= fun object => .ok (object.name ++ "(#" ++ toString actor ++ ")")

def boot (actor who : ObjectId) (channel : String) : Except Error Service :=
  s.world.name channel >>= fun name =>
  s.world.channel name >>= fun c =>
  ensure (c.member who).isSome "object is not a member of this channel" >>= fun _ =>
  s.describe actor >>= fun a =>
  s.describe who >>= fun b =>
  s.emit host config name (a ++ " boots " ++ b ++ " off the channel.") false >>= fun s =>
  s.removeMember host config who name

-- The channel an alias leads to, when its owner is a member there.
def aliasTarget (who : ObjectId) (entry : ChannelAlias) : Option (String × Bool) :=
  (s.world.name entry.channel).toOption.bind fun name =>
  (s.world.channels.get? name).bind fun c =>
  (c.member who).map fun user => (name, user.listening && c.flags &&& LOUD != 0)

def aliasPresence (who : ObjectId) (player : Object) (connected : Bool) (entry : ChannelAlias) :
    Except Error Service :=
  match s.aliasTarget who entry with
  | none =>
      if connected then
        s.notify config who
          ("Bad Comsys Alias: " ++ entry.aliasName ++ " for Channel: " ++ entry.channel)
      else .ok s
  | some (name, loud) =>
      s.onlineMembers name >>= fun used =>
      let s := used.1.updateChannel name fun c => c.present who connected
      if loud && Flag.Dark ∉ player.flags then
        s.emit host config name
          (player.name ++ " has " ++ (if connected then "connected" else "disconnected") ++ ".") false
      else .ok s

def presence (who : ObjectId) (connected : Bool) (address : Option String) :
    Except Error Service :=
  s.world.object who >>= fun player =>
  (s.aliases who).foldlM
    (fun s entry => s.aliasPresence host config who player connected entry) s >>= fun s =>
  if (s.world.name "MUXConnections").isOk then
    let message :=
      if connected then
        "* " ++ player.name ++ " has connected from " ++ address.getD "somewhere" ++ " *"
      else "* " ++ player.name ++ " has disconnected *"
    s.emit host config "MUXConnections" message false
  else .ok s

end

end Service

end StompyMux.Communication
