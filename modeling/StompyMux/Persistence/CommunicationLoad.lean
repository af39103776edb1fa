import StompyMux.Persistence.CommunicationSave

-- Loading gives back the saved channels, aliases and last pages.
namespace StompyMux.Persistence.Communication

open Library Library.Fallible
open StompyMux.Communication
open StompyMux.World (ObjectId Kind)

section Steps

variable (w : Game)

def addUser (item : String × Membership) : Game :=
  { w with channels := w.channels.modify item.1 fun channel => pushUser channel item.2 }

def addMessage (item : String × ChannelMessage) : Game :=
  { w with channels := w.channels.modify item.1 fun channel => pushMessage channel item.2 }

def addAlias (item : ObjectId × ChannelAlias) : Game :=
  { w with channelAliases :=
      w.channelAliases.insert item.1 ((w.channelAliases.get? item.1).getD [] ++ [item.2]) }

def addPage (item : ObjectId × ObjectId) : Game :=
  { w with lastPages := w.lastPages.insert item.1 ((w.lastPages.get? item.1).getD [] ++ [item.2]) }

def AdmitsUser (item : String × Membership) : Prop :=
  ∃ channel, w.channels.get? item.1 = some channel ∧ (w.objects.get? item.2.who).isSome ∧
    ∀ user ∈ channel.users, user.who ≠ item.2.who

def AdmitsMessage (item : String × ChannelMessage) : Prop := (w.channels.get? item.1).isSome

def AdmitsAlias (item : ObjectId × ChannelAlias) : Prop :=
  (w.objects.get? item.1).isSome ∧ ∀ other ∈ (w.channelAliases.get? item.1).getD [],
    eqIgnoreAsciiCase other.aliasName item.2.aliasName = false

def AdmitsPage (item : ObjectId × ObjectId) : Prop := item.1 ∈ w.accounts

theorem loadUser_ok_iff (name : String) (row : Row) (w' : Game) :
    loadUser w name row = .ok w' ↔ ∃ user, Holds (userFields user) row ∧ AdmitsUser w (name, user) ∧
      w' = addUser w (name, user) := by
  unfold loadUser
  simp only [↓ensure_bind_ok_iff, bind_ok_iff, getInteger_eq, ofOption_ok_iff]
  constructor
  · rintro ⟨who, hwho, listening, hlistening, hbit, channel, hchannel, hobject, hnew, h⟩
    injection h with h
    refine ⟨⟨who, listening ≠ 0⟩, (holds_user _ row).mpr ⟨?_, hwho⟩, ⟨channel, hchannel, hobject, ?_⟩, h.symm⟩
    · rw [hlistening]
      rcases (Bool.or_eq_true _ _).mp hbit with hbit | hbit
      · simp [of_decide_eq_true hbit]
      · simp [of_decide_eq_true hbit]
    · exact fun user huser => of_decide_eq_true (List.all_eq_true.mp hnew user huser)
  · rintro ⟨user, hholds, ⟨channel, hchannel, hobject, hnew⟩, rfl⟩
    obtain ⟨hlistening, hwho⟩ := (holds_user user row).mp hholds
    refine ⟨user.who, hwho, _, hlistening, ?_, channel, hchannel, hobject, ?_, ?_⟩
    · cases user.listening <;> rfl
    · exact List.all_eq_true.mpr fun other hother => decide_eq_true (hnew other hother)
    · unfold addUser
      cases user with
      | mk who listening => cases listening <;> rfl

theorem loadMessage_ok_iff (name : String) (row : Row) (w' : Game) :
    loadMessage w name row = .ok w' ↔ ∃ entry, Holds (messageFields entry) row ∧
      AdmitsMessage w (name, entry) ∧ w' = addMessage w (name, entry) := by
  unfold loadMessage AdmitsMessage
  simp only [bind_ok_iff, getInteger_eq, getText_eq, ofOption_ok_iff, Option.isSome_iff_exists]
  constructor
  · rintro ⟨channel, hchannel, time, htime, message, hmessage, h⟩
    injection h with h
    refine ⟨⟨time, String.ofList message⟩, (holds_message _ row).mpr ⟨?_, htime⟩, ⟨channel, hchannel⟩, h.symm⟩
    rw [hmessage, String.toList_ofList]
  · rintro ⟨entry, hholds, ⟨channel, hchannel⟩, rfl⟩
    obtain ⟨hmessage, htime⟩ := (holds_message entry row).mp hholds
    refine ⟨channel, hchannel, entry.time, htime, _, hmessage, ?_⟩
    unfold addMessage
    rw [String.ofList_toList]

theorem loadAlias_ok_iff (who : ObjectId) (row : Row) (w' : Game) :
    loadAlias w who row = .ok w' ↔ ∃ entry, Holds (aliasFields entry) row ∧
      AdmitsAlias w (who, entry) ∧ w' = addAlias w (who, entry) := by
  unfold loadAlias AdmitsAlias
  simp only [↓ensure_bind_ok_iff, bind_ok_iff, getText_eq]
  constructor
  · rintro ⟨aliasName, halias, channel, hchannel, hobject, hnew, h⟩
    injection h with h
    refine ⟨⟨String.ofList aliasName, String.ofList channel⟩, (holds_alias _ row).mpr ⟨?_, ?_⟩,
      ⟨hobject, fun other hother => ?_⟩, h.symm⟩
    · rw [halias, String.toList_ofList]
    · rw [hchannel, String.toList_ofList]
    · exact (Bool.not_eq_true' _).mp (List.all_eq_true.mp hnew other hother)
  · rintro ⟨entry, hholds, ⟨hobject, hnew⟩, rfl⟩
    obtain ⟨halias, hchannel⟩ := (holds_alias entry row).mp hholds
    refine ⟨_, halias, _, hchannel, ?_⟩
    rw [String.ofList_toList, String.ofList_toList]
    refine ⟨hobject, List.all_eq_true.mpr fun other hother => ?_, rfl⟩
    exact (Bool.not_eq_true' _).mpr (hnew other hother)

theorem loadPage_ok_iff (who : ObjectId) (row : Row) (w' : Game) :
    loadPage w who row = .ok w' ↔ ∃ recipient, Holds (pageFields recipient) row ∧
      AdmitsPage w (who, recipient) ∧ w' = addPage w (who, recipient) := by
  unfold loadPage AdmitsPage
  simp only [↓ensure_bind_ok_iff, bind_ok_iff, getInteger_eq, decide_eq_true_eq, holds_page]
  constructor
  · rintro ⟨haccount, recipient, hrecipient, h⟩
    injection h with h
    exact ⟨recipient, hrecipient, haccount, h.symm⟩
  · rintro ⟨recipient, hrecipient, haccount, rfl⟩
    exact ⟨haccount, recipient, hrecipient, rfl⟩

end Steps

section Totals

variable (w : Game)

def durable (channel : Channel) : Channel :=
  { channel with id := 0, maxUsers := 0, online := [], onlineInitialized := false }

theorem addUsers_eq (items : List (String × Membership)) : items.foldl addUser w =
    { w with channels :=
        items.foldl (fun m item => m.modify item.1 (fun channel => pushUser channel item.2)) w.channels } := by
  induction items generalizing w with
  | nil => rfl
  | cons item items ih => exact ih (addUser w item)

theorem addMessages_eq (items : List (String × ChannelMessage)) : items.foldl addMessage w =
    { w with channels :=
        items.foldl (fun m item => m.modify item.1 (fun channel => pushMessage channel item.2)) w.channels } := by
  induction items generalizing w with
  | nil => rfl
  | cons item items ih => exact ih (addMessage w item)

theorem addAliases_eq (items : List (ObjectId × ChannelAlias)) : items.foldl addAlias w =
    { w with channelAliases := appendAll w.channelAliases items } := by
  induction items generalizing w with
  | nil => rfl
  | cons item items ih => exact ih (addAlias w item)

theorem addPages_eq (items : List (ObjectId × ObjectId)) : items.foldl addPage w =
    { w with lastPages := appendAll w.lastPages items } := by
  induction items generalizing w with
  | nil => rfl
  | cons item items ih => exact ih (addPage w item)

variable (channel : Channel) (users : List Membership) (entries : List ChannelMessage)

theorem durable_pushUsers : durable (users.foldl pushUser channel) =
      { durable channel with users := channel.users ++ users } := by
  induction users generalizing channel with
  | nil =>
      rw [List.append_nil]
      rfl
  | cons user users ih =>
      rw [List.foldl_cons, ih]
      unfold pushUser durable
      simp

theorem durable_pushMessages : durable (entries.foldl pushMessage channel) =
      { durable channel with history := channel.history ++ entries } := by
  induction entries generalizing channel with
  | nil =>
      rw [List.append_nil]
      rfl
  | cons entry entries ih =>
      rw [List.foldl_cons, ih]
      unfold pushMessage durable
      simp

theorem users_pushUsers : (users.foldl pushUser channel).users = channel.users ++ users := by
  have h := congrArg Channel.users (durable_pushUsers channel users)
  exact h

def whole (users : List Membership) (entries : List ChannelMessage) (channel : Channel) : Channel :=
  entries.foldl pushMessage (users.foldl pushUser channel)

theorem durable_whole (channel : Channel) : durable (whole users entries channel) =
      { durable channel with users := channel.users ++ users, history := channel.history ++ entries } := by
  have hhistory : (users.foldl pushUser channel).history = channel.history := by
    have h := congrArg Channel.history (durable_pushUsers channel users)
    exact h
  unfold whole
  rw [durable_pushMessages, durable_pushUsers, hhistory]

theorem ChannelRow.whole {channel : Channel} {row : Row} (h : ChannelRow channel row)
    (users : List Membership) (entries : List ChannelMessage) : ChannelRow (whole users entries channel) row := by
  have hwhole := durable_whole users entries channel
  have hobject := congrArg Channel.object hwhole
  have hmessages := congrArg Channel.messages hwhole
  have hflags := congrArg Channel.flags hwhole
  refine ⟨?_, ?_, ?_⟩
  · obtain ⟨value, hvalue, hsame⟩ := h.object
    exact ⟨value, hvalue, hsame.trans hobject.symm⟩
  · exact h.messages.trans (congrArg Cell.Integer hmessages.symm)
  · obtain ⟨value, hvalue, hsame⟩ := h.flags
    exact ⟨value, hvalue, hsame.trans hflags.symm⟩

end Totals

section Channels

variable (start : Game) (next : Nat)

-- The channels loaded so far, without members and history.
structure Loaded (done : List ((String × Row) × Nat)) (w : Game) : Prop where
  rest : w = { start with channels := w.channels }
  rows : ∀ entry ∈ done, ∃ channel, w.channels.get? entry.1.1 = some channel ∧ ChannelRow channel entry.1.2
  bare : ∀ name channel, w.channels.get? name = some channel →
    (channel.name = name ∧ channel.users = [] ∧ channel.history = []) ∧ name ∈ done.map (fun entry => entry.1.1)

-- A channel that is new to the world is added under an id of its own.
theorem Loaded.step {start w w' : Game} {done : List ((String × Row) × Nat)} (h : Loaded start done w)
    (entry : (String × Row) × Nat) (hnew : entry.1.1 ∉ done.map (fun entry => entry.1.1))
    (hstep : loadChannel w next entry = .ok w') : Loaded start (done ++ [entry]) w' := by
  unfold loadChannel at hstep
  simp only [bind_ok_iff, getInteger_eq] at hstep
  obtain ⟨object, hobject, flags, hflags, messages, hmessages, hw'⟩ := hstep
  injection hw' with hw'
  subst hw'
  let channel : Channel := ⟨entry.1.1, objectId object, (Int64.ofInt flags).toUInt64, messages, [], [],
    next + entry.2, 0, [], false⟩
  have hget : ∀ name, (w.channels.insert entry.1.1 channel).get? name =
      if name = entry.1.1 then some channel else w.channels.get? name :=
    fun name => w.channels.get?_insert entry.1.1 name channel
  refine ⟨?_, fun other hother => ?_, fun name found hfound => ?_⟩
  · rw [h.rest]
  · show ∃ found, (w.channels.insert entry.1.1 channel).get? other.1.1 = some found ∧ _
    rcases List.mem_append.mp hother with hother | hother
    · obtain ⟨found, hfound, hrow⟩ := h.rows other hother
      have hne : other.1.1 ≠ entry.1.1 := fun heq => hnew (List.mem_map.mpr ⟨other, hother, heq⟩)
      exact ⟨found, by rw [hget, if_neg hne, hfound], hrow⟩
    · rw [List.mem_singleton.mp hother]
      exact ⟨channel, by rw [hget, if_pos rfl], ⟨object, hobject, rfl⟩, hmessages, ⟨flags, hflags, rfl⟩⟩
  · have hfound : (w.channels.insert entry.1.1 channel).get? name = some found := hfound
    rw [List.map_append, List.mem_append]
    rw [hget] at hfound
    by_cases hname : name = entry.1.1
    · rw [if_pos hname] at hfound
      injection hfound with hfound
      rw [← hfound, hname]
      exact ⟨⟨rfl, rfl, rfl⟩, Or.inr List.mem_cons_self⟩
    · rw [if_neg hname] at hfound
      exact (h.bare name found hfound).imp_right Or.inl

variable (rows : Table String Row)

theorem fresh_entry {done after : List ((String × Row) × Nat)} {entry : (String × Row) × Nat}
    (h : rows.rows.zipIdx = done ++ entry :: after) : entry.1.1 ∉ done.map (fun entry => entry.1.1) := by
  have hkeys : rows.rows.zipIdx.map (fun entry => entry.1.1) = rows.rows.map Prod.fst := by
    rw [show (fun entry : (String × Row) × Nat => entry.1.1) = Prod.fst ∘ Prod.fst from rfl, ← List.map_map,
      List.zipIdx_map_fst]
  have hnodup : (rows.rows.zipIdx.map (fun entry => entry.1.1)).Nodup := hkeys ▸ rows.unique
  rw [h, List.map_append, List.nodup_append] at hnodup
  exact fun hin => hnodup.2.2 _ hin _ List.mem_cons_self rfl

theorem loaded_start (hempty : start.channels = .empty) : Loaded start [] start := by
  refine ⟨rfl, fun entry hentry => by contradiction, fun name channel hget => ?_⟩
  rw [hempty] at hget
  contradiction

theorem loaded_of_ok (hempty : start.channels = .empty) {w : Game}
    (h : rows.rows.zipIdx.foldlM (fun w entry => loadChannel w next entry) start = .ok w) :
    Loaded start rows.rows.zipIdx w :=
  foldlM_keeps (Loaded start) (fun _ entry _ _ _ hitems hdone hstep =>
    hdone.step next entry (fresh_entry rows hitems) hstep) (loaded_start start hempty) h

theorem loadChannels_ok (hempty : start.channels = .empty)
    (hrows : ∀ name row, rows.get? name = some row → ∃ channel, ChannelRow channel row) :
    ∃ w, rows.rows.zipIdx.foldlM (fun w entry => loadChannel w next entry) start = .ok w ∧
      Loaded start rows.rows.zipIdx w := by
  refine foldlM_succeeds (Loaded start) _ _ ?_ start (loaded_start start hempty)
  intro done entry after w hitems hdone
  have hmem : entry.1 ∈ rows.rows := by
    have hin : entry ∈ rows.rows.zipIdx := by
      rw [hitems]
      exact List.mem_append_right _ List.mem_cons_self
    exact List.mem_of_getElem? (List.mem_zipIdx_iff_getElem?.mp hin)
  obtain ⟨channel, hrow⟩ := hrows entry.1.1 entry.1.2 ((rows.get?_eq_some_iff _ _).mpr hmem)
  obtain ⟨object, hobject, -⟩ := hrow.object
  obtain ⟨flags, hflags, -⟩ := hrow.flags
  have hstep : ∃ w', loadChannel w next entry = .ok w' := by
    unfold loadChannel
    simp only [bind_ok_iff, getInteger_eq]
    exact ⟨_, object, hobject, flags, hflags, _, hrow.messages, rfl⟩
  obtain ⟨w', hstep⟩ := hstep
  exact ⟨w', hstep, hdone.step next entry (fresh_entry rows hitems) hstep⟩

theorem Loaded.holds {start w : Game} {rows : Table String Row} (h : Loaded start rows.rows.zipIdx w)
    (name : String) : HoldsChannel (w.channels.get? name) (rows.get? name) := by
  have hkeys : rows.rows.zipIdx.map (fun entry => entry.1.1) = rows.keys := by
    rw [show (fun entry : (String × Row) × Nat => entry.1.1) = Prod.fst ∘ Prod.fst from rfl, ← List.map_map,
      List.zipIdx_map_fst]
    rfl
  cases hget : rows.get? name with
  | none =>
      cases hchannel : w.channels.get? name with
      | none => trivial
      | some channel =>
          have hin := (h.bare name channel hchannel).2
          rw [hkeys] at hin
          exact absurd hin ((rows.get?_eq_none_iff name).mp hget)
  | some row =>
      obtain ⟨i, hi⟩ := List.mem_iff_getElem?.mp ((rows.get?_eq_some_iff name row).mp hget)
      obtain ⟨channel, hchannel, hrow⟩ := h.rows ((name, row), i) (List.mem_zipIdx_iff_getElem?.mpr hi)
      have hchannel : w.channels.get? name = some channel := hchannel
      rw [hchannel]
      exact hrow

end Channels

end StompyMux.Persistence.Communication
