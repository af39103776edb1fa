import StompyMux.Persistence.CommunicationLoad

-- A game comes back from the tables that it was saved to.
namespace StompyMux.Persistence.Communication

open Library Library.Fallible
open StompyMux.Communication
open StompyMux.World (ObjectId Kind)

def start (objects : OrderedMap ObjectId Object) (accounts : Finset ObjectId) : Game :=
  ⟨⟨objects, .empty, .empty⟩, accounts, .empty⟩

section Load

variable (base : Game) (t : CommunicationTables) (next : Nat)

theorem load_ok_iff (w : Game) : load base t next = .ok w ↔ ∃ w₀,
    t.channels.rows.zipIdx.foldlM (fun w entry => loadChannel w next entry) base = .ok w₀ ∧
    ∃ users, (Read userFields (rowsInOrder t.users) users ∧ Admitted AdmitsUser addUser w₀ users) ∧
    ∃ entries, (Read messageFields (rowsInOrder t.messages) entries ∧
      Admitted AdmitsMessage addMessage (users.foldl addUser w₀) entries) ∧
    ∃ aliases, (Read aliasFields (rowsInOrder t.aliases) aliases ∧
      Admitted AdmitsAlias addAlias (entries.foldl addMessage (users.foldl addUser w₀)) aliases) ∧
    ∃ pages, (Read pageFields (rowsInOrder t.pages) pages ∧ Admitted AdmitsPage addPage
      (aliases.foldl addAlias (entries.foldl addMessage (users.foldl addUser w₀))) pages) ∧
    w = pages.foldl addPage (aliases.foldl addAlias (entries.foldl addMessage (users.foldl addUser w₀))) := by
  unfold load
  simp only [bind_ok_iff,
    loadTable_ok_iff userFields t.users loadUser AdmitsUser addUser loadUser_ok_iff,
    loadTable_ok_iff messageFields t.messages loadMessage AdmitsMessage addMessage loadMessage_ok_iff,
    loadTable_ok_iff aliasFields t.aliases loadAlias AdmitsAlias addAlias loadAlias_ok_iff,
    loadTable_ok_iff pageFields t.pages loadPage AdmitsPage addPage loadPage_ok_iff]
  constructor
  · rintro ⟨w₀, hw₀, w₁, ⟨users, hu, hau, rfl⟩, w₂, ⟨entries, he, hae, rfl⟩, w₃, ⟨aliases, ha, haa, rfl⟩,
      pages, hp, hap, rfl⟩
    exact ⟨w₀, hw₀, users, ⟨hu, hau⟩, entries, ⟨he, hae⟩, aliases, ⟨ha, haa⟩, pages, ⟨hp, hap⟩, rfl⟩
  · rintro ⟨w₀, hw₀, users, ⟨hu, hau⟩, entries, ⟨he, hae⟩, aliases, ⟨ha, haa⟩, pages, ⟨hp, hap⟩, rfl⟩
    exact ⟨w₀, hw₀, _, ⟨users, hu, hau, rfl⟩, _, ⟨entries, he, hae, rfl⟩, _, ⟨aliases, ha, haa, rfl⟩,
      pages, hp, hap, rfl⟩

variable (w₀ : Game) (users : List (String × Membership)) (entries : List (String × ChannelMessage))
  (aliases : List (ObjectId × ChannelAlias)) (pages : List (ObjectId × ObjectId))

-- The game with all that was read.
def assembled : Game :=
  pages.foldl addPage (aliases.foldl addAlias (entries.foldl addMessage (users.foldl addUser w₀)))

theorem assembled_channel (name : String) : (assembled w₀ users entries aliases pages).channels.get? name =
    (w₀.channels.get? name).map (whole (collected users name) (collected entries name)) := by
  unfold assembled
  rw [addPages_eq, addAliases_eq, addMessages_eq, addUsers_eq]
  show OrderedMap.get? (entries.foldl _ (users.foldl _ w₀.channels)) name = _
  rw [get?_modifyAll, get?_modifyAll, Option.map_map]
  rfl

theorem assembled_aliases : (assembled w₀ users entries aliases pages).channelAliases =
    appendAll w₀.channelAliases aliases := by
  unfold assembled
  rw [addPages_eq, addAliases_eq, addMessages_eq, addUsers_eq]

theorem assembled_pages : (assembled w₀ users entries aliases pages).lastPages =
    appendAll w₀.lastPages pages := by
  unfold assembled
  rw [addPages_eq, addAliases_eq, addMessages_eq, addUsers_eq]

theorem listAt_appendAll {K A : Type} [LinearOrder K] (items : List (K × A)) (k : K) :
    listAt (appendAll .empty items) k = collected items k := by
  unfold listAt
  rw [get?_appendAll]
  split
  · rename_i hnone
    rw [hnone]
    rfl
  · rfl

variable {base t next w₀ users entries aliases pages}

theorem listAt_members (w : Game) (name : String) :
    listAt w.members name = ((w.channels.get? name).map Channel.users).getD [] := by
  unfold listAt Game.members
  rw [OrderedMap.get?_mapEntries]

theorem listAt_history (w : Game) (name : String) :
    listAt w.history name = ((w.channels.get? name).map Channel.history).getD [] := by
  unfold listAt Game.history
  rw [OrderedMap.get?_mapEntries]

theorem users_of_channel (h : Admitted AdmitsUser addUser w₀ users) {name : String}
    (hnone : w₀.channels.get? name = none) : collected users name = [] := by
  by_contra hne
  obtain ⟨user, huser⟩ := List.exists_mem_of_ne_nil _ hne
  obtain ⟨before, channel, hchannel, -⟩ := admitted_mem h ((mem_collected users name user).mp huser)
  rw [addUsers_eq] at hchannel
  have hchannel : (before.foldl (fun m item => m.modify item.1 (fun channel => pushUser channel item.2))
      w₀.channels).get? name = some channel := hchannel
  rw [get?_modifyAll, hnone] at hchannel
  contradiction

theorem entries_of_channel (h : Admitted AdmitsMessage addMessage (users.foldl addUser w₀) entries)
    {name : String} (hnone : w₀.channels.get? name = none) : collected entries name = [] := by
  by_contra hne
  obtain ⟨entry, hentry⟩ := List.exists_mem_of_ne_nil _ hne
  obtain ⟨before, hchannel⟩ := admitted_mem h ((mem_collected entries name entry).mp hentry)
  obtain ⟨channel, hchannel⟩ := Option.isSome_iff_exists.mp hchannel
  rw [addMessages_eq, addUsers_eq] at hchannel
  have hchannel : OrderedMap.get? (before.foldl _ (users.foldl _ w₀.channels)) name = some channel := hchannel
  rw [get?_modifyAll, get?_modifyAll, hnone] at hchannel
  contradiction

-- Loading succeeds only on rows that hold what it builds.
theorem represents_of_load {objects : OrderedMap ObjectId Object} {accounts : Finset ObjectId} {w : Game}
    (h : load (start objects accounts) t next = .ok w) : Represents t w := by
  obtain ⟨w₀, hchannels, users, ⟨hu, hau⟩, entries, ⟨he, hae⟩, aliases, ⟨ha, -⟩, pages, ⟨hp, -⟩, rfl⟩ :=
    (load_ok_iff _ t next w).mp h
  have hloaded := loaded_of_ok _ next t.channels rfl hchannels
  have hstart : w₀.channelAliases = .empty ∧ w₀.lastPages = .empty := by
    rw [hloaded.rest]
    exact ⟨rfl, rfl⟩
  show Represents t (assembled w₀ users entries aliases pages)
  refine ⟨fun name => ?_, fun name => ?_, fun name => ?_, fun who => ?_, fun who => ?_⟩
  · have hheld := hloaded.holds name
    rw [assembled_channel]
    cases hget : w₀.channels.get? name with
    | none => rwa [hget] at hheld
    | some channel =>
        rw [hget] at hheld
        cases hrow : t.channels.get? name with
        | none =>
            rw [hrow] at hheld
            exact hheld.elim
        | some row =>
            rw [hrow] at hheld
            exact ChannelRow.whole hheld _ _
  · have hlist : listAt (assembled w₀ users entries aliases pages).members name = collected users name := by
      rw [listAt_members, assembled_channel]
      cases hget : w₀.channels.get? name with
      | none => exact (users_of_channel hau hget).symm
      | some channel =>
          have husers := congrArg Channel.users
            (durable_whole (collected users name) (collected entries name) channel)
          refine husers.trans ?_
          show channel.users ++ collected users name = _
          rw [(hloaded.bare name channel hget).1.2.1, List.nil_append]
    rw [hlist]
    exact hu.holdsList name
  · have hlist : listAt (assembled w₀ users entries aliases pages).history name = collected entries name := by
      rw [listAt_history, assembled_channel]
      cases hget : w₀.channels.get? name with
      | none => exact (entries_of_channel hae hget).symm
      | some channel =>
          have hhistory := congrArg Channel.history
            (durable_whole (collected users name) (collected entries name) channel)
          refine hhistory.trans ?_
          show channel.history ++ collected entries name = _
          rw [(hloaded.bare name channel hget).1.2.2, List.nil_append]
    rw [hlist]
    exact he.holdsList name
  · rw [assembled_aliases, hstart.1, listAt_appendAll]
    exact ha.holdsList who
  · rw [assembled_pages, hstart.2, listAt_appendAll]
    exact hp.holdsList who

end Load

section Back

-- What a saved game and the loaded one have in common: a channel's durable part, and lists that
-- hold something.
structure Same (loaded w : Game) : Prop where
  channels : loaded.channels.mapEntries (fun _ channel => durable channel) =
    w.channels.mapEntries (fun _ channel => durable channel)
  channelAliases : loaded.channelAliases = w.channelAliases.retain (fun _ aliases => !aliases.isEmpty)
  lastPages : loaded.lastPages = w.lastPages.retain (fun _ recipients => !recipients.isEmpty)

theorem holds_user_unique (row : Row) (a b : Membership) (ha : Holds (userFields a) row)
    (hb : Holds (userFields b) row) : a = b := by
  obtain ⟨hlistening, hwho⟩ := (holds_user a row).mp ha
  obtain ⟨hlistening', hwho'⟩ := (holds_user b row).mp hb
  obtain ⟨who, one⟩ := a
  obtain ⟨who', other⟩ := b
  cases one <;> cases other <;> simp_all

theorem toList_unique {a b : String} {value : Cell} (ha : value = .Text a.toList)
    (hb : value = .Text b.toList) : a = b :=
  String.toList_inj.mp (Cell.Text.inj (ha.symm.trans hb))

theorem holds_message_unique (row : Row) (a b : ChannelMessage) (ha : Holds (messageFields a) row)
    (hb : Holds (messageFields b) row) : a = b := by
  obtain ⟨hmessage, htime⟩ := (holds_message a row).mp ha
  obtain ⟨hmessage', htime'⟩ := (holds_message b row).mp hb
  have hmessage := toList_unique hmessage hmessage'
  have htime := Cell.Integer.inj (htime.symm.trans htime')
  obtain ⟨time, message⟩ := a
  obtain ⟨time', message'⟩ := b
  rw [show time = time' from htime, show message = message' from hmessage]

theorem holds_alias_unique (row : Row) (a b : ChannelAlias) (ha : Holds (aliasFields a) row)
    (hb : Holds (aliasFields b) row) : a = b := by
  obtain ⟨halias, hchannel⟩ := (holds_alias a row).mp ha
  obtain ⟨halias', hchannel'⟩ := (holds_alias b row).mp hb
  have halias := toList_unique halias halias'
  have hchannel := toList_unique hchannel hchannel'
  obtain ⟨aliasName, channel⟩ := a
  obtain ⟨aliasName', channel'⟩ := b
  rw [show aliasName = aliasName' from halias, show channel = channel' from hchannel]

theorem holds_page_unique (row : Row) (a b : ObjectId) (ha : Holds (pageFields a) row)
    (hb : Holds (pageFields b) row) : a = b :=
  Cell.Integer.inj (((holds_page a row).mp ha).symm.trans ((holds_page b row).mp hb))

theorem durable_eq {a b : Channel} {row : Row} (ha : ChannelRow a row) (hb : ChannelRow b row)
    (hname : a.name = b.name) (husers : a.users = b.users) (hhistory : a.history = b.history) :
    durable a = durable b := by
  obtain ⟨object, hobject, hobjectA⟩ := ha.object
  obtain ⟨object', hobject', hobjectB⟩ := hb.object
  obtain ⟨flags, hflags, hflagsA⟩ := ha.flags
  obtain ⟨flags', hflags', hflagsB⟩ := hb.flags
  have hobject := Cell.Integer.inj (hobject.symm.trans hobject')
  have hflags := Cell.Integer.inj (hflags.symm.trans hflags')
  have hmessages := Cell.Integer.inj (ha.messages.symm.trans hb.messages)
  unfold durable
  rw [hname, husers, hhistory, hmessages, ← hobjectA, ← hobjectB, hobject, ← hflagsA, ← hflagsB, hflags]

theorem retain_collected {A : Type} (items : List (ObjectId × A)) (lists : OrderedMap ObjectId (List A))
    (h : ∀ who, collected items who = listAt lists who) :
    appendAll .empty items = lists.retain (fun _ list => !list.isEmpty) := by
  refine OrderedMap.eq_of_get? _ _ fun who => ?_
  rw [get?_appendAll, OrderedMap.get?_retain, h]
  unfold listAt
  cases lists.get? who with
  | none => rfl
  | some list => cases list <;> rfl

section

variable (t : CommunicationTables) (w w₀ : Game) (users : List (String × Membership))
  (entries : List (String × ChannelMessage)) (aliases : List (ObjectId × ChannelAlias))
  (pages : List (ObjectId × ObjectId))
  (h : Represents t w) (hvalid : Valid w)
  (hloaded : Loaded (start w.objects w.accounts) t.channels.rows.zipIdx w₀)

theorem live_object {id : ObjectId} (hlive : w.live id = true) : (w.objects.get? id).isSome :=
  (w.objects.mem_keys_iff id).mp (mem_keys_of_live hlive)

include h in
theorem channelRow_of_row (name : String) (row : Row) (hrow : t.channels.get? name = some row) :
    ∃ channel, ChannelRow channel row := by
  have hheld := h.channels name
  rw [hrow] at hheld
  cases hget : w.channels.get? name with
  | none =>
      rw [hget] at hheld
      exact hheld.elim
  | some channel =>
      rw [hget] at hheld
      exact ⟨channel, hheld⟩

include h hloaded

theorem channel_loaded {name : String} {channel : Channel} (hget : w.channels.get? name = some channel) :
    ∃ bare row, w₀.channels.get? name = some bare ∧ ChannelRow bare row ∧ ChannelRow channel row := by
  have hheld := h.channels name
  have hbare := hloaded.holds name
  rw [hget] at hheld
  cases hrow : t.channels.get? name with
  | none =>
      rw [hrow] at hheld
      exact hheld.elim
  | some row =>
      rw [hrow] at hheld hbare
      cases hget₀ : w₀.channels.get? name with
      | none =>
          rw [hget₀] at hbare
          exact hbare.elim
      | some bare =>
          rw [hget₀] at hbare
          exact ⟨bare, row, rfl, hbare, hheld⟩

theorem channel_not_loaded {name : String} (hget : w.channels.get? name = none) :
    w₀.channels.get? name = none := by
  have hheld := h.channels name
  have hbare := hloaded.holds name
  rw [hget] at hheld
  cases hrow : t.channels.get? name with
  | some row =>
      rw [hrow] at hheld
      exact hheld.elim
  | none =>
      rw [hrow] at hbare
      cases hget₀ : w₀.channels.get? name with
      | none => rfl
      | some bare =>
          rw [hget₀] at hbare
          exact hbare.elim

include hvalid in
theorem users_admitted (husers : ∀ name, collected users name = listAt w.members name) :
    Admitted AdmitsUser addUser w₀ users := by
  refine (admitted_iff _ _ _ _).mpr ?_
  rintro before ⟨name, user⟩ after hitems
  have hlist : collected users name = collected before name ++ user :: collected after name := by
    rw [hitems, collected_append, collected_cons, if_pos rfl]
  rw [husers, listAt_members] at hlist
  cases hget : w.channels.get? name with
  | none =>
      rw [hget] at hlist
      simp at hlist
  | some channel =>
      rw [hget] at hlist
      have hlist : channel.users = collected before name ++ user :: collected after name := hlist
      obtain ⟨hnodup, hmembers⟩ := hvalid.members name channel hget
      obtain ⟨bare, row, hbare, -, -⟩ := channel_loaded t w w₀ h hloaded hget
      rw [addUsers_eq]
      refine ⟨(collected before name).foldl pushUser bare, ?_, ?_, ?_⟩
      · show OrderedMap.get? (before.foldl _ w₀.channels) name = _
        rw [get?_modifyAll, hbare]
        rfl
      · show (w₀.objects.get? user.who).isSome
        rw [hloaded.rest]
        refine live_object w (hmembers user ?_)
        rw [hlist]
        exact List.mem_append_right _ List.mem_cons_self
      · intro other hother heq
        rw [users_pushUsers, (hloaded.bare name bare hbare).1.2.1, List.nil_append] at hother
        rw [hlist, List.map_append, List.nodup_append] at hnodup
        exact hnodup.2.2 _ (List.mem_map.mpr ⟨other, hother, rfl⟩) _ List.mem_cons_self heq

theorem messages_admitted (hentries : ∀ name, collected entries name = listAt w.history name) :
    Admitted AdmitsMessage addMessage (users.foldl addUser w₀) entries := by
  refine (admitted_iff _ _ _ _).mpr ?_
  rintro before ⟨name, entry⟩ after hitems
  have hmem : entry ∈ collected entries name := by
    rw [mem_collected, hitems]
    exact List.mem_append_right _ List.mem_cons_self
  rw [hentries, listAt_history] at hmem
  cases hget : w.channels.get? name with
  | none =>
      rw [hget] at hmem
      contradiction
  | some channel =>
      obtain ⟨bare, row, hbare, -, -⟩ := channel_loaded t w w₀ h hloaded hget
      unfold AdmitsMessage
      rw [addMessages_eq, addUsers_eq]
      show (OrderedMap.get? (before.foldl _ (users.foldl _ w₀.channels)) name).isSome
      rw [get?_modifyAll, get?_modifyAll, hbare]
      rfl

omit h

include hvalid in
theorem aliases_admitted (haliases : ∀ who, collected aliases who = listAt w.channelAliases who) :
    Admitted AdmitsAlias addAlias (entries.foldl addMessage (users.foldl addUser w₀)) aliases := by
  refine (admitted_iff _ _ _ _).mpr ?_
  rintro before ⟨who, entry⟩ after hitems
  have hlist : collected aliases who = collected before who ++ entry :: collected after who := by
    rw [hitems, collected_append, collected_cons, if_pos rfl]
  rw [haliases] at hlist
  unfold listAt at hlist
  cases hget : w.channelAliases.get? who with
  | none =>
      rw [hget] at hlist
      simp at hlist
  | some list =>
      rw [hget] at hlist
      have hlist : list = collected before who ++ entry :: collected after who := hlist
      obtain ⟨howner, hnodup⟩ := hvalid.aliases who list hget
      rw [addAliases_eq, addMessages_eq, addUsers_eq]
      refine ⟨?_, fun other hother => ?_⟩
      · show (w₀.objects.get? who).isSome
        rw [hloaded.rest]
        exact live_object w howner
      · have hother : other ∈ listAt (appendAll w₀.channelAliases before) who := hother
        rw [hloaded.rest] at hother
        have hother : other ∈ listAt (appendAll .empty before) who := hother
        rw [listAt_appendAll] at hother
        rw [hlist, List.map_append, List.nodup_append] at hnodup
        refine beq_false_of_ne fun heq => ?_
        exact hnodup.2.2 _ (List.mem_map.mpr ⟨other, hother, rfl⟩) _ List.mem_cons_self heq

include hvalid in
theorem pages_admitted (hpages : ∀ who, collected pages who = listAt w.lastPages who) :
    Admitted AdmitsPage addPage
      (aliases.foldl addAlias (entries.foldl addMessage (users.foldl addUser w₀))) pages := by
  refine (admitted_iff _ _ _ _).mpr ?_
  rintro before ⟨who, recipient⟩ after hitems
  have hmem : recipient ∈ collected pages who := by
    rw [mem_collected, hitems]
    exact List.mem_append_right _ List.mem_cons_self
  rw [hpages] at hmem
  unfold listAt at hmem
  cases hget : w.lastPages.get? who with
  | none =>
      rw [hget] at hmem
      contradiction
  | some list =>
      rw [addPages_eq, addAliases_eq, addMessages_eq, addUsers_eq]
      show who ∈ w₀.accounts
      rw [hloaded.rest]
      exact hvalid.account hget

include h hvalid in
theorem same_assembled (husers : ∀ name, collected users name = listAt w.members name)
    (hentries : ∀ name, collected entries name = listAt w.history name)
    (haliases : ∀ who, collected aliases who = listAt w.channelAliases who)
    (hpages : ∀ who, collected pages who = listAt w.lastPages who) :
    Same (assembled w₀ users entries aliases pages) w := by
  have hnoAliases : w₀.channelAliases = .empty := by rw [hloaded.rest]; rfl
  have hnoPages : w₀.lastPages = .empty := by rw [hloaded.rest]; rfl
  refine ⟨OrderedMap.eq_of_get? _ _ fun name => ?_, ?_, ?_⟩
  · rw [OrderedMap.get?_mapEntries, OrderedMap.get?_mapEntries, assembled_channel]
    cases hget : w.channels.get? name with
    | none =>
        rw [channel_not_loaded t w w₀ h hloaded hget]
        rfl
    | some channel =>
        obtain ⟨bare, row, hbare, hrow, hrow'⟩ := channel_loaded t w w₀ h hloaded hget
        have hwhole := durable_whole (collected users name) (collected entries name) bare
        obtain ⟨⟨hname, hnoUsers, hnoHistory⟩, -⟩ := hloaded.bare name bare hbare
        rw [hbare]
        show some (durable (whole _ _ bare)) = some (durable channel)
        congr 1
        refine durable_eq (hrow.whole _ _) hrow' ?_ ?_ ?_
        · have hsame := congrArg Channel.name hwhole
          exact hsame.trans (hname.trans (hvalid.named name channel hget).symm)
        · have hsame := congrArg Channel.users hwhole
          refine hsame.trans ?_
          show bare.users ++ collected users name = channel.users
          rw [hnoUsers, List.nil_append, husers, listAt_members, hget]
          rfl
        · have hsame := congrArg Channel.history hwhole
          refine hsame.trans ?_
          show bare.history ++ collected entries name = channel.history
          rw [hnoHistory, List.nil_append, hentries, listAt_history, hget]
          rfl
  · rw [assembled_aliases, hnoAliases]
    exact retain_collected aliases w.channelAliases haliases
  · rw [assembled_pages, hnoPages]
    exact retain_collected pages w.lastPages hpages

end

theorem load_of_represents {t : CommunicationTables} (next : Nat) {w : Game} (h : Represents t w)
    (hvalid : Valid w) :
    ∃ loaded, load (start w.objects w.accounts) t next = .ok loaded ∧ Same loaded w := by
  obtain ⟨w₀, hchannels, hloaded⟩ := loadChannels_ok (start w.objects w.accounts) next t.channels rfl
    (channelRow_of_row t w h)
  obtain ⟨users, hu, husers⟩ := exists_read userFields t.users _ holds_user_unique h.users
  obtain ⟨entries, he, hentries⟩ := exists_read messageFields t.messages _ holds_message_unique h.messages
  obtain ⟨aliases, ha, haliases⟩ := exists_read aliasFields t.aliases _ holds_alias_unique h.aliases
  obtain ⟨pages, hp, hpages⟩ := exists_read pageFields t.pages _ holds_page_unique h.pages
  refine ⟨assembled w₀ users entries aliases pages, (load_ok_iff _ t next _).mpr ?_,
    same_assembled t w w₀ users entries aliases pages h hvalid hloaded husers hentries haliases hpages⟩
  refine ⟨w₀, hchannels, users, ⟨hu, ?_⟩, entries, ⟨he, ?_⟩, aliases, ⟨ha, ?_⟩, pages, ⟨hp, ?_⟩, rfl⟩
  · exact users_admitted t w w₀ users h hvalid hloaded husers
  · exact messages_admitted t w w₀ users entries h hloaded hentries
  · exact aliases_admitted t w w₀ users entries aliases hvalid hloaded haliases
  · exact pages_admitted t w w₀ users entries aliases pages hvalid hloaded hpages

end Back

section Runs

-- Tables that a game was loaded from, or that games were saved to one after another.
inductive Stored : CommunicationTables → Game → Prop where
  | Loaded (t : CommunicationTables) (next : Nat) (objects : OrderedMap ObjectId Object)
      (accounts : Finset ObjectId) (w : Game) (h : load (start objects accounts) t next = .ok w) : Stored t w
  | Saved (t t' : CommunicationTables) (w w' : Game) (changed : Bool) (h : Stored t w) (hvalid : Valid w')
      (hsave : save t w w' = .ok (t', changed)) : Stored t' w'

theorem Stored.represents {t : CommunicationTables} {w : Game} (h : Stored t w) : Represents t w := by
  induction h with
  | Loaded t next objects accounts w h => exact represents_of_load h
  | Saved t t' w w' changed h hvalid hsave ih =>
      rcases save_represents t w w' ih hvalid with ⟨t₁, changed₁, hsaved, hrep⟩ | hblocked
      · injection hsave.symm.trans hsaved with hsame
        injection hsame with ht
        rw [ht]
        exact hrep
      · obtain ⟨name, -, -, other, -, -, herror⟩ := hblocked
        rw [herror] at hsave
        contradiction

-- A valid game is saved, and comes back, unless a table that the game does not know refers to a
-- channel that is gone.
theorem saved_comes_back (t : CommunicationTables) (w w' : Game) (next : Nat) (h : Stored t w)
    (hvalid : Valid w') :
    (∃ t' changed, save t w w' = .ok (t', changed) ∧
      ∃ loaded, load (start w'.objects w'.accounts) t' next = .ok loaded ∧ Same loaded w') ∨
    ∃ name ∈ w.channels.keys, name ∉ w'.channels.keys ∧ ∃ other ∈ t.references,
      name ∈ other.names ∧ save t w w' = .error (refusal name other) := by
  refine (save_represents t w w' h.represents hvalid).imp_left ?_
  rintro ⟨t', changed, hsave, hrep⟩
  exact ⟨t', changed, hsave, load_of_represents next hrep hvalid⟩

-- Two members, an alias, and a last page; then the first member leaves and a line is recorded.
theorem saved_comes_back_changed :
    let player : Object := ⟨"Kerensky", .Player, none, {}⟩
    let objects : OrderedMap ObjectId Object := ⟨[(1, player), (2, player)], by decide⟩
    let channel : Channel := ⟨"Public", none, 127, 0, [⟨1, true⟩, ⟨2, false⟩], [], 7, 10, [1], true⟩
    let left : Channel := { channel with messages := 1, users := [⟨2, false⟩], history := [⟨5, "hello"⟩] }
    let one : Game := ⟨⟨objects, ⟨[("Public", channel)], List.pairwise_singleton _ _⟩,
      ⟨[(2, [⟨"pub", "Public"⟩])], List.pairwise_singleton _ _⟩⟩, {1, 2},
      ⟨[(1, [2])], List.pairwise_singleton _ _⟩⟩
    let other : Game := ⟨⟨objects, ⟨[("Public", left)], List.pairwise_singleton _ _⟩,
      ⟨[(2, [])], List.pairwise_singleton _ _⟩⟩, {1, 2}, ⟨[(1, [2])], List.pairwise_singleton _ _⟩⟩
    let t : CommunicationTables := ⟨.empty, .empty, .empty, .empty, .empty, .empty, fun _ _ => .Null, []⟩
    ∃ t' t'' changed changed', save t (start objects {1, 2}) one = .ok (t', changed) ∧
      save t' one other = .ok (t'', changed') ∧
      ∃ loaded, load (start objects {1, 2}) t'' 0 = .ok loaded ∧ Same loaded other := by
  intro player objects channel left one other t
  have hstored : Stored t (start objects {1, 2}) := .Loaded t 0 objects {1, 2} _ rfl
  have hone : Valid one := by
    refine ⟨fun name found hget => ?_, by decide, by decide +kernel⟩
    have hmem := List.mem_singleton.mp ((one.channels.get?_eq_some_iff name found).mp hget)
    injection hmem with hname hfound
    rw [hname, hfound]
  have hother : Valid other := by
    refine ⟨fun name found hget => ?_, by decide, by decide +kernel⟩
    have hmem := List.mem_singleton.mp ((other.channels.get?_eq_some_iff name found).mp hget)
    injection hmem with hname hfound
    rw [hname, hfound]
  rcases saved_comes_back t _ one 0 hstored hone with ⟨t', changed, hsave, -⟩ | hblocked
  · rcases saved_comes_back t' one other 0 (.Saved t t' _ one changed hstored hone hsave) hother with
      ⟨t'', changed', hsave', hload⟩ | hblocked
    · exact ⟨t', t'', changed, changed', hsave, hsave', hload⟩
    · obtain ⟨name, hin, hout, -⟩ := hblocked
      exact absurd hin hout
  · obtain ⟨name, hin, -⟩ := hblocked
    contradiction

end Runs

end StompyMux.Persistence.Communication
