import StompyMux.Persistence.Communication

-- A saved game is in the tables afterwards.
namespace StompyMux.Persistence.Communication

open Library Library.Fallible
open StompyMux.Communication
open StompyMux.World (ObjectId Kind)

-- A row reads back as the channel.
structure ChannelRow (channel : Channel) (row : Row) : Prop where
  object : ∃ value, row "chan_obj" = .Integer value ∧ objectId value = channel.object
  messages : row "num_messages" = .Integer channel.messages
  flags : ∃ value, row "type" = .Integer value ∧ (Int64.ofInt value).toUInt64 = channel.flags

def HoldsChannel : Option Channel → Option Row → Prop
  | some channel, some row => ChannelRow channel row
  | none, none => True
  | _, _ => False

structure Represents (t : CommunicationTables) (w : Game) : Prop where
  channels : ∀ name, HoldsChannel (w.channels.get? name) (t.channels.get? name)
  users : ∀ name, HoldsList userFields t.users name (listAt w.members name)
  messages : ∀ name, HoldsList messageFields t.messages name (listAt w.history name)
  aliases : ∀ who, HoldsList aliasFields t.aliases who (listAt w.channelAliases who)
  pages : ∀ who, HoldsList pageFields t.pages who (listAt w.lastPages who)

-- What the rest of the game keeps to: a channel is filed under its name, and objects have ids from 0.
structure Valid (w : Game) : Prop where
  named : ∀ name channel, w.channels.get? name = some channel → channel.name = name
  ids : ∀ id ∈ w.objects.keys, 0 ≤ id
  validated : w.validate = .ok ()

section Fields

theorem holds_user (user : Membership) (row : Row) : Holds (userFields user) row ↔
    row "is_on" = .Integer (if user.listening then 1 else 0) ∧ row "who" = .Integer user.who := by
  rw [holds_iff _ _ (by simp [userFields])]
  simp [userFields]

theorem holds_message (entry : ChannelMessage) (row : Row) : Holds (messageFields entry) row ↔
    row "message" = .Text entry.message.toList ∧ row "sent_at" = .Integer entry.time := by
  rw [holds_iff _ _ (by simp [messageFields])]
  simp [messageFields]

theorem holds_alias (entry : ChannelAlias) (row : Row) : Holds (aliasFields entry) row ↔
    row "alias" = .Text entry.aliasName.toList ∧ row "channel_name" = .Text entry.channel.toList := by
  rw [holds_iff _ _ (by simp [aliasFields])]
  simp [aliasFields]

theorem holds_page (recipient : ObjectId) (row : Row) : Holds (pageFields recipient) row ↔
    row "recipient_dbref" = .Integer recipient := by
  rw [holds_iff _ _ (by simp [pageFields])]
  simp [pageFields]

theorem storedUser_ok (row : Row) (user : Membership) (h : Holds (userFields user) row) :
    storedUser row = .ok (userFields user) := by
  obtain ⟨hlistening, hwho⟩ := (holds_user user row).mp h
  refine bind_ok ((getInteger_eq _ _ _).mpr hwho) ?_
  exact bind_ok ((getInteger_eq _ _ _).mpr hlistening) rfl

theorem storedMessage_ok (row : Row) (entry : ChannelMessage) (h : Holds (messageFields entry) row) :
    storedMessage row = .ok (messageFields entry) := by
  obtain ⟨hmessage, htime⟩ := (holds_message entry row).mp h
  refine bind_ok ((getInteger_eq _ _ _).mpr htime) ?_
  exact bind_ok ((getText_eq _ _ _).mpr hmessage) rfl

theorem storedAlias_ok (row : Row) (entry : ChannelAlias) (h : Holds (aliasFields entry) row) :
    storedAlias row = .ok (aliasFields entry) := by
  obtain ⟨halias, hchannel⟩ := (holds_alias entry row).mp h
  refine bind_ok ((getText_eq _ _ _).mpr halias) ?_
  exact bind_ok ((getText_eq _ _ _).mpr hchannel) rfl

theorem storedPage_ok (row : Row) (recipient : ObjectId) (h : Holds (pageFields recipient) row) :
    storedPage row = .ok (pageFields recipient) :=
  bind_ok ((getInteger_eq _ _ _).mpr ((holds_page recipient row).mp h)) rfl

theorem notNull_assign (fields : Fields) (base : Row) (columns : List String)
    (h : ∀ column ∈ columns, ∃ value, fields.lookup column = some value ∧ value ≠ .Null) :
    notNull columns (assign fields base) := by
  refine List.all_eq_true.mpr fun column hcolumn => decide_eq_true ?_
  obtain ⟨value, hlookup, hvalue⟩ := h column hcolumn
  rwa [assign_of_lookup _ _ _ _ hlookup]

end Fields

section Channels

theorem objectId_getD (id : Option ObjectId) (h : ∀ i ∈ id, 0 ≤ i) : objectId (id.getD (-1)) = id := by
  cases id with
  | none => rfl
  | some i => exact if_pos (h i rfl)

theorem objectId_nonneg {value : Int} {i : ObjectId} (h : i ∈ objectId value) : 0 ≤ i := by
  unfold objectId at h
  split at h
  · rename_i hvalue
    rwa [← Option.some.inj h]
  · contradiction

theorem flags_back (flags : UInt64) : (Int64.ofInt flags.toInt64.toInt).toUInt64 = flags := by
  rw [Int64.ofInt_toInt, UInt64.toUInt64_toInt64]

theorem ChannelRow.ids {channel : Channel} {row : Row} (h : ChannelRow channel row) :
    ∀ i ∈ channel.object, 0 ≤ i := by
  obtain ⟨value, -, hobject⟩ := h.object
  intro i hi
  exact objectId_nonneg (hobject ▸ hi)

theorem ChannelRow.notNull {channel : Channel} {row : Row} (h : ChannelRow channel row) :
    notNull ["type", "num_messages", "chan_obj"] row := by
  obtain ⟨object, hobject, -⟩ := h.object
  obtain ⟨flags, hflags, -⟩ := h.flags
  simp [Persistence.notNull, hobject, hflags, h.messages]

theorem channelRow_assign (channel : Channel) (base : Row) (h : ∀ i ∈ channel.object, 0 ≤ i) :
    ChannelRow channel (assign (channelFields channel) base) where
  object := ⟨_, assign_of_lookup _ _ "chan_obj" _ rfl, objectId_getD _ h⟩
  messages := assign_of_lookup _ _ "num_messages" _ rfl
  flags := ⟨_, assign_of_lookup _ _ "type" _ rfl, flags_back _⟩

theorem ChannelRow.changed {channel : Channel} {row : Row} (h : ChannelRow channel row)
    (channel' : Channel) (h' : ∀ i ∈ channel'.object, 0 ≤ i) :
    ChannelRow channel' (assign ((channelFields channel').filter
      (fun field => (channelFields channel).lookup field.1 ≠ some field.2)) row) := by
  have hnodup : ((channelFields channel').map Prod.fst).Nodup := by simp [channelFields]
  have hcolumn := assign_changed_column (channelFields channel) (channelFields channel') row hnodup
  refine ⟨?_, ?_, ?_⟩
  · rw [hcolumn "chan_obj" _ _ rfl rfl]
    split
    · rename_i hsame
      obtain ⟨value, hvalue, hobject⟩ := h.object
      have hids : channel.object.getD (-1) = channel'.object.getD (-1) := Cell.Integer.inj hsame
      refine ⟨value, hvalue, ?_⟩
      rw [hobject, ← objectId_getD _ h.ids, hids, objectId_getD _ h']
    · exact ⟨_, rfl, objectId_getD _ h'⟩
  · rw [hcolumn "num_messages" _ _ rfl rfl]
    split
    · rename_i hsame
      rw [h.messages, hsame]
    · rfl
  · rw [hcolumn "type" _ _ rfl rfl]
    split
    · rename_i hsame
      obtain ⟨value, hvalue, hflags⟩ := h.flags
      refine ⟨value, hvalue, ?_⟩
      rw [hflags, ← flags_back channel.flags, Cell.Integer.inj hsame, flags_back]
    · exact ⟨_, rfl, flags_back _⟩

variable (t : CommunicationTables) (before after : Game)

theorem saveChannel_ok {w : Table String Row × Bool} {name : String} (channel : Channel)
    (hids : ∀ i ∈ channel.object, 0 ≤ i)
    (h : HoldsChannel (before.channels.get? name) (w.1.get? name)) :
    ∃ w' row, saveChannel t before w (name, channel) = .ok w' ∧ ChannelRow channel row ∧
      ∀ j, w'.1.get? j = if j = name then some row else w.1.get? j := by
  unfold saveChannel writeRow
  cases hbefore : before.channels.get? name with
  | none =>
      rw [hbefore] at h
      have hget : w.1.get? name = none := by
        cases hget : w.1.get? name with
        | none => rfl
        | some row =>
            rw [hget] at h
            exact h.elim
      have hrow := channelRow_assign channel ((w.1.get? name).getD t.channelsSchema.defaults) hids
      obtain ⟨t', changed, hwrite, hafter⟩ := row_ok t.channelsSchema w.1 name none (channelFields channel)
        (by simp [channelFields]) hrow.notNull (by rw [hget]; trivial)
      exact ⟨(t', w.2 || changed), _, bind_ok (by simp only [hbefore]; exact hwrite) rfl,
        hrow, hafter⟩
  | some old =>
      rw [hbefore] at h
      cases hget : w.1.get? name with
      | none =>
          rw [hget] at h
          exact h.elim
      | some row =>
          rw [hget] at h
          have h : ChannelRow old row := h
          obtain ⟨t', changed, hwrite, hafter⟩ := row_changed t.channelsSchema w.1 hget (h.changed channel hids).notNull
          exact ⟨(t', w.2 || changed), _,
            bind_ok (by simp only [hbefore]; exact hwrite) rfl,
            h.changed channel hids, hafter⟩

-- By induction on the channels, whose names differ.
theorem saveChannels_ok (w : Table String Row × Bool)
    (hids : ∀ name channel, after.channels.get? name = some channel → ∀ i ∈ channel.object, 0 ≤ i)
    (h : ∀ name, HoldsChannel (before.channels.get? name) (w.1.get? name)) :
    ∃ w', after.channels.entries.foldlM (saveChannel t before) w = .ok w' ∧
      (∀ name channel, after.channels.get? name = some channel →
        HoldsChannel (some channel) (w'.1.get? name)) ∧
      ∀ name, after.channels.get? name = none → w'.1.get? name = w.1.get? name := by
  have hrun := foldlM_succeeds (fun done w' =>
      (∀ entry ∈ done, HoldsChannel (some entry.2) (w'.1.get? entry.1)) ∧
      ∀ name, name ∉ done.map Prod.fst → w'.1.get? name = w.1.get? name)
    (saveChannel t before) after.channels.entries
    (by
      rintro done ⟨name, channel⟩ rest w₁ hitems ⟨hdone, hother⟩
      have hmem : (name, channel) ∈ after.channels.entries := by
        rw [hitems]
        exact List.mem_append_right _ List.mem_cons_self
      have hnew : name ∉ done.map Prod.fst := by
        have hnodup := after.channels.keys_nodup
        rw [OrderedMap.keys, hitems, List.map_append, List.nodup_append] at hnodup
        exact fun hin => hnodup.2.2 _ hin _ List.mem_cons_self rfl
      obtain ⟨w₂, row, hsave, hrow, hget⟩ := saveChannel_ok t before channel
        (hids name channel ((after.channels.get?_eq_some_iff name channel).mpr hmem))
        (by rw [hother name hnew]; exact h name)
      refine ⟨w₂, hsave, fun entry hentry => ?_, fun j hj => ?_⟩
      · rw [hget]
        rcases List.mem_append.mp hentry with hentry | hentry
        · have hne : entry.1 ≠ name := fun heq => hnew (List.mem_map.mpr ⟨entry, hentry, heq⟩)
          rw [if_neg hne]
          exact hdone entry hentry
        · rw [List.mem_singleton.mp hentry, if_pos rfl]
          exact hrow
      · rw [List.map_append, List.mem_append, not_or] at hj
        rw [hget, if_neg fun heq => hj.2 (List.mem_singleton.mpr heq)]
        exact hother j hj.1)
    w ⟨fun entry hentry => by contradiction, fun name _ => rfl⟩
  obtain ⟨w', hw', hdone, hother⟩ := hrun
  refine ⟨w', hw', fun name channel hget => ?_, fun name hnone => ?_⟩
  · exact hdone (name, channel) ((after.channels.get?_eq_some_iff name channel).mp hget)
  · exact hother name ((after.channels.get?_eq_none_iff name).mp hnone)

end Channels

section Removal

variable (t : CommunicationTables)

def refusal (name : String) (other : Reference) : Error :=
  [s!"channel {name}: dependency {other.table}.{other.column} prevents destruction"]

-- A channel goes when nothing refers to it.
theorem checkReferences (name : String) (others : List Reference) :
    others.forM (checkReference name) = .ok () ∨
      ∃ other ∈ others, name ∈ other.names ∧ others.forM (checkReference name) = .error (refusal name other) := by
  induction others with
  | nil => exact Or.inl rfl
  | cons other others ih =>
      have hcons : (other :: others).forM (checkReference name) =
          checkReference name other >>= fun _ => others.forM (checkReference name) := rfl
      rw [hcons]
      by_cases hin : name ∈ other.names
      · refine Or.inr ⟨other, List.mem_cons_self, hin, ?_⟩
        unfold checkReference ensure
        rw [if_neg (by simpa using hin)]
        rfl
      · have hok : checkReference name other = .ok () := ensure_ok (decide_eq_true hin)
        rw [hok]
        rcases ih with h | ⟨blocked, hmem, hname, h⟩
        · exact Or.inl h
        · exact Or.inr ⟨blocked, List.mem_cons_of_mem _ hmem, hname, h⟩

theorem removeChannels (gone : List String) (w : Table String Row × Bool) :
    (∃ w', gone.foldlM (removeChannel t) w = .ok w' ∧
      ∀ name, w'.1.get? name = if name ∈ gone then none else w.1.get? name) ∨
    ∃ name ∈ gone, ∃ other ∈ t.references, name ∈ other.names ∧
      gone.foldlM (removeChannel t) w = .error (refusal name other) := by
  induction gone generalizing w with
  | nil => exact Or.inl ⟨w, rfl, fun name => rfl⟩
  | cons first gone ih =>
      rw [List.foldlM_cons]
      rcases checkReferences first t.references with hok | ⟨other, hmem, hname, herror⟩
      · have hremove : removeChannel t w first = .ok (w.1.delete (fun key => key = first), true) :=
          bind_ok hok rfl
        rw [hremove]
        rcases ih (w.1.delete (fun key => key = first), true) with ⟨w', hw', hget⟩ | hblocked
        · refine Or.inl ⟨w', hw', fun name => ?_⟩
          rw [hget, Table.get?_delete]
          by_cases hfirst : name = first
          · simp [hfirst]
          · simp [hfirst]
        · obtain ⟨name, hgone, other, hother, hin, herror⟩ := hblocked
          exact Or.inr ⟨name, List.mem_cons_of_mem _ hgone, other, hother, hin, herror⟩
      · refine Or.inr ⟨first, List.mem_cons_self, other, hmem, hname, ?_⟩
        unfold removeChannel
        rw [herror]
        rfl

theorem saveIdentities_ok (owners : List ObjectId) (entries : Table ObjectId Row) :
    ∃ entries', owners.foldlM (saveIdentity t) entries = .ok entries' := by
  obtain ⟨entries', h, -⟩ := foldlM_succeeds (fun _ _ => True) (saveIdentity t) owners
    (by
      intro done who rest entries₁ _ _
      unfold saveIdentity
      cases hget : entries₁.get? who with
      | some row => exact ⟨entries₁, rfl, trivial⟩
      | none =>
          obtain ⟨entries₂, hinsert, -⟩ := entries₁.insert_ok who
            (assign identityFields (t.defaults "commac_entries")) hget
          exact ⟨entries₂, hinsert, trivial⟩)
    entries trivial
  exact ⟨entries', h⟩

end Removal

section Save

variable (t : CommunicationTables) (before after : Game)

theorem live_of_validateReference {w : Game} {channel : Channel} (h : w.validateReference channel = .ok ())
    {i : ObjectId} (hi : i ∈ channel.object) : w.live i = true := by
  unfold Game.validateReference at h
  rw [Option.mem_def.mp hi] at h
  exact (ensure_ok_iff).mp h

theorem mem_keys_of_live {w : Game} {id : ObjectId} (h : w.live id = true) : id ∈ w.objects.keys := by
  obtain ⟨object, hget, -⟩ := Option.any_eq_true _ _ |>.mp h
  exact (w.objects.mem_keys_iff id).mpr (by rw [hget]; rfl)

theorem Valid.channel {w : Game} (h : Valid w) (name : String) (channel : Channel)
    (hget : w.channels.get? name = some channel) :
    (∃ members, channel.users.foldlM (w.validateMember channel) [] = .ok members) ∧
      w.validateReference channel = .ok () := by
  obtain ⟨names, hchannels, -⟩ := ok_of_bind h.validated
  have hmem : channel ∈ w.channels.values :=
    List.mem_map.mpr ⟨(name, channel), (w.channels.get?_eq_some_iff name channel).mp hget, rfl⟩
  refine (distinct_of_foldlM (fun channel => toAsciiLowercase channel.name)
    (fun channel => (∃ members, channel.users.foldlM (w.validateMember channel) [] = .ok members) ∧
      w.validateReference channel = .ok ()) (fun seen channel seen' hstep => ?_) hchannels).2 channel hmem
  obtain ⟨hnew, hstep⟩ := ok_of_ensure hstep
  obtain ⟨-, hstep⟩ := ok_of_ensure hstep
  obtain ⟨members, hmembers, hstep⟩ := ok_of_bind hstep
  obtain ⟨⟨⟩, hreference, hstep⟩ := ok_of_bind hstep
  injection hstep with hstep
  exact ⟨of_decide_eq_true hnew, ⟨⟨members, hmembers⟩, hreference⟩, hstep.symm⟩

theorem Valid.objectIds {w : Game} (h : Valid w) (name : String) (channel : Channel)
    (hget : w.channels.get? name = some channel) : ∀ i ∈ channel.object, 0 ≤ i := by
  intro i hi
  have hlive := live_of_validateReference (h.channel name channel hget).2 hi
  exact h.ids i (mem_keys_of_live hlive)

theorem Valid.members {w : Game} (h : Valid w) (name : String) (channel : Channel)
    (hget : w.channels.get? name = some channel) :
    (channel.users.map Membership.who).Nodup ∧ ∀ user ∈ channel.users, w.live user.who = true := by
  obtain ⟨members, hmembers⟩ := (h.channel name channel hget).1
  refine distinct_of_foldlM Membership.who (fun user => w.live user.who = true)
    (fun seen user seen' hstep => ?_) hmembers
  obtain ⟨hnew, hstep⟩ := ok_of_ensure hstep
  obtain ⟨hlive, hstep⟩ := ok_of_ensure hstep
  injection hstep with hstep
  exact ⟨of_decide_eq_true hnew, hlive, hstep.symm⟩

theorem Valid.aliases {w : Game} (h : Valid w) (who : ObjectId) (aliases : List ChannelAlias)
    (hget : w.channelAliases.get? who = some aliases) :
    w.live who = true ∧ (aliases.map (fun entry => toAsciiLowercase entry.aliasName)).Nodup := by
  obtain ⟨names, -, hrest⟩ := ok_of_bind h.validated
  obtain ⟨⟨⟩, haliases, -⟩ := ok_of_bind hrest
  have howned := ok_of_forM haliases _ ((w.channelAliases.get?_eq_some_iff who aliases).mp hget)
  obtain ⟨hlive, howned⟩ := ok_of_ensure howned
  obtain ⟨seen, hseen, -⟩ := ok_of_bind howned
  refine ⟨hlive, (distinct_of_foldlM (fun entry => toAsciiLowercase entry.aliasName) (fun _ => True) (fun seen entry seen' hstep => ?_) hseen).1⟩
  obtain ⟨hnew, hstep⟩ := ok_of_ensure hstep
  injection hstep with hstep
  exact ⟨of_decide_eq_true hnew, trivial, hstep.symm⟩

theorem Valid.account {w : Game} (h : Valid w) {who : ObjectId} {recipients : List ObjectId}
    (hget : w.lastPages.get? who = some recipients) : who ∈ w.accounts := by
  obtain ⟨names, -, hrest⟩ := ok_of_bind h.validated
  obtain ⟨⟨⟩, -, hpages⟩ := ok_of_bind hrest
  have howned := ok_of_forM hpages _ ((w.lastPages.get?_eq_some_iff who recipients).mp hget)
  exact of_decide_eq_true (ok_of_ensure howned).1

-- Saving succeeds, unless something unknown refers to a channel that is gone.
theorem save_represents (h : Represents t before) (hvalid : Valid after) :
    (∃ t' changed, save t before after = .ok (t', changed) ∧ Represents t' after) ∨
    ∃ name ∈ before.channels.keys, name ∉ after.channels.keys ∧ ∃ other ∈ t.references,
      name ∈ other.names ∧ save t before after = .error (refusal name other) := by
  obtain ⟨⟨channels, changed₀⟩, hchannels, hkept, hother⟩ := saveChannels_ok t before after
    (t.channels, false) hvalid.objectIds h.channels
  obtain ⟨⟨users, changed₁⟩, husers, hheldUsers⟩ := saveRecords_ok t.usersSchema id storedUser userFields
    before.members after.members (t.users, changed₀) storedUser_ok (fun user => by simp [userFields])
    (fun user base name i => notNull_assign _ _ _ (by simp [userFields, List.lookup_cons])) h.users
  obtain ⟨⟨messages, changed₂⟩, hmessages, hheldMessages⟩ := saveRecords_ok t.messagesSchema id
    storedMessage messageFields before.history after.history (t.messages, changed₁) storedMessage_ok
    (fun entry => by simp [messageFields])
    (fun entry base name i => notNull_assign _ _ _ (by simp [messageFields, List.lookup_cons])) h.messages
  obtain ⟨⟨aliases, changed₃⟩, haliases, hheldAliases⟩ := saveRecords_ok t.aliasesSchema toString
    storedAlias aliasFields before.channelAliases after.channelAliases (t.aliases, changed₂)
    storedAlias_ok (fun entry => by simp [aliasFields])
    (fun entry base who i => notNull_assign _ _ _ (by simp [aliasFields, List.lookup_cons])) h.aliases
  obtain ⟨⟨pages, changed₄⟩, hpages, hheldPages⟩ := saveRecords_ok t.pagesSchema toString storedPage
    pageFields before.lastPages after.lastPages (t.pages, changed₃) storedPage_ok
    (fun recipient => by simp [pageFields])
    (fun recipient base who i => by
      have hnull : notNull ["recipient_dbref"] (assign (pageFields recipient) base) :=
        notNull_assign _ _ _ (by simp [pageFields, List.lookup_cons])
      have hposition : (0 : Int) ≤ i := Int.natCast_nonneg i
      exact Bool.and_eq_true_iff.mpr ⟨hnull, decide_eq_true hposition⟩) h.pages
  let owners := after.channelAliases.keys.filter (fun who => who ∉ before.channelAliases.keys)
  let gone := before.channels.keys.filter (fun name => name ∉ after.channels.keys)
  obtain ⟨commacEntries, hidentities⟩ := saveIdentities_ok t owners t.commacEntries
  have hsave : save t before after = (gone.foldlM (removeChannel t) (channels, changed₄) >>= fun w =>
      .ok (⟨w.1, users, messages, aliases, pages, commacEntries, t.defaults, t.references⟩, w.2)) := by
    unfold save
    rw [hchannels]
    show (saveRecords _ _ _ _ _ _ >>= _) = _
    rw [husers]
    show (saveRecords _ _ _ _ _ _ >>= _) = _
    rw [hmessages]
    show (saveRecords _ _ _ _ _ _ >>= _) = _
    rw [haliases]
    show (saveRecords _ _ _ _ _ _ >>= _) = _
    rw [hpages]
    show (owners.foldlM (saveIdentity t) t.commacEntries >>= _) = _
    rw [hidentities]
    rfl
  have hgone : ∀ name, name ∈ gone ↔ name ∈ before.channels.keys ∧ name ∉ after.channels.keys := by
    intro name
    rw [List.mem_filter, decide_eq_true_eq]
  rcases removeChannels t gone (channels, changed₄) with ⟨⟨kept, changed⟩, hremove, hget⟩ | hblocked
  · refine Or.inl ⟨_, changed, by rw [hsave, hremove]; rfl, fun name => ?_, hheldUsers, hheldMessages,
      hheldAliases, hheldPages⟩
    show HoldsChannel _ (kept.get? name)
    rw [hget]
    cases hafter : after.channels.get? name with
    | some channel =>
        rw [if_neg]
        · exact hkept name channel hafter
        · intro hin
          refine ((hgone name).mp hin).2 ((after.channels.mem_keys_iff name).mpr ?_)
          rw [hafter]
          rfl
    | none =>
        split
        · trivial
        · rename_i hstay
          show HoldsChannel none (channels.get? name)
          rw [hother name hafter]
          have hbefore : before.channels.get? name = none := by
            refine (before.channels.get?_eq_none_iff name).mpr fun hin => hstay ((hgone name).mpr ⟨hin, ?_⟩)
            exact (after.channels.get?_eq_none_iff name).mp hafter
          have hheld := h.channels name
          rwa [hbefore] at hheld
  · obtain ⟨name, hin, other, hother, hname, herror⟩ := hblocked
    refine Or.inr ⟨name, ((hgone name).mp hin).1, ((hgone name).mp hin).2, other, hother, hname, ?_⟩
    rw [hsave, herror]
    rfl

end Save

end StompyMux.Persistence.Communication
