import StompyMux.Communication.Online

-- Every line reaches exactly the members that hear it.
namespace StompyMux.Communication

open Library Library.Fallible
open StompyMux.World (ObjectId Kind)

-- The newest lines, as many as are kept.
def recent (lines : List ChannelMessage) : List ChannelMessage :=
  lines.drop (lines.length - HISTORY_LIMIT)

def linesOf (emissions : List Emission) (name : String) : List ChannelMessage :=
  (emissions.filter fun e => e.channel = name).map Emission.entry

theorem recent_concat (lines : List ChannelMessage) (entry : ChannelMessage) :
    recent (recent lines ++ [entry]) = recent (lines ++ [entry]) := by
  unfold recent
  rw [← List.drop_append_of_le_length (by omega), List.drop_drop]
  congr 1
  simp only [List.length_append, List.length_drop, List.length_singleton]
  omega

theorem linesOf_concat (emissions : List Emission) (e : Emission) (name : String) :
    linesOf (emissions ++ [e]) name =
      linesOf emissions name ++ if e.channel = name then [e.entry] else [] := by
  unfold linesOf
  rw [List.filter_append, List.map_append]
  congr 1
  by_cases h : e.channel = name <;> simp [h]

-- The member of a channel is not the excluded one and hears it.
def World.Reaches (host : HostCallbacks) (config : Config) (w : World) (name : String)
    (excluded : Option ObjectId) (p : ObjectId) : Prop :=
  some p ≠ excluded ∧ ∃ c u, w.channels.get? name = some c ∧ u ∈ c.users ∧ u.who = p ∧
    w.hears host config name u = .ok true

-- The output once somebody has got a line: a player gets the line itself, unless it is empty.
def World.told (host : HostCallbacks) (w : World) (line : String) (outbox : Outbox)
    (who : ObjectId) : Except Error Outbox :=
  if (w.objects.get? who).any fun object => object.kind = .Player then
    .ok (if line.isEmpty then outbox else outbox ++ [(who, line)])
  else host.send w outbox who line

-- The output grew by the line for each member that hears it, once, and by nothing else.
def Emission.Complete (host : HostCallbacks) (config : Config) (e : Emission) : Prop :=
  ∃ heard : List ObjectId, heard.Nodup ∧
    (∀ p, p ∈ heard ↔ e.world.Reaches host config e.channel e.excluded p) ∧
    heard.foldlM (e.world.told host e.entry.message) e.before = .ok e.after

-- The call that a line comes from.
structure Emission.Spoken (s s' : Service) (channel line : String) (excluded : Option ObjectId)
    (e : Emission) : Prop where
  emissions : s'.emissions = s.emissions ++ [e]
  name : s.world.name channel = .ok e.channel
  message : e.entry.message = line
  excluded : e.excluded = excluded
  before : e.before = s.outbox
  after : e.after = s'.outbox

namespace Service

structure Sound (host : HostCallbacks) (config : Config) (start : String → List ChannelMessage)
    (excepted : String → Option ObjectId) (s : Service) : Prop where
  channels : ∀ name c, s.world.channels.get? name = some c →
    c.Kept s.world.eligible (excepted name)
  history : ∀ name c, s.world.channels.get? name = some c →
    c.history = recent (start name ++ linesOf s.emissions name)
  complete : ∀ e ∈ s.emissions, e.Complete host config

-- Nothing about objects, aliases and memberships changed.
structure Calm (s s' : Service) : Prop where
  objects : s'.world.objects = s.world.objects
  aliases : s'.world.channelAliases = s.world.channelAliases
  keys : s'.world.channels.keys = s.world.channels.keys
  members : ∀ name, (s'.world.channels.get? name).map Channel.members =
    (s.world.channels.get? name).map Channel.members

-- Only output came out.
structure Quiet (s s' : Service) : Prop where
  world : s'.world = s.world
  readings : s'.readings = s.readings
  emissions : s'.emissions = s.emissions

variable {host : HostCallbacks} {config : Config} {start : String → List ChannelMessage}
  {excepted : String → Option ObjectId} {s s' s'' : Service} {name channel message : String}
  {who : ObjectId}

theorem Calm.refl (s : Service) : Calm s s := ⟨rfl, rfl, rfl, fun _ => rfl⟩

theorem Calm.trans (h : Calm s s') (h' : Calm s' s'') : Calm s s'' where
  objects := h'.objects.trans h.objects
  aliases := h'.aliases.trans h.aliases
  keys := h'.keys.trans h.keys
  members name := (h'.members name).trans (h.members name)

theorem Quiet.refl (s : Service) : Quiet s s := ⟨rfl, rfl, rfl⟩

theorem Quiet.trans (h : Quiet s s') (h' : Quiet s' s'') : Quiet s s'' where
  world := h'.world.trans h.world
  readings := h'.readings.trans h.readings
  emissions := h'.emissions.trans h.emissions

theorem Quiet.calm (h : Quiet s s') : Calm s s' := by
  refine ⟨?_, ?_, ?_, fun name => ?_⟩ <;> rw [h.world]

theorem Sound.quiet (h : Sound host config start excepted s) (hquiet : Quiet s s') :
    Sound host config start excepted s' := by
  obtain ⟨hworld, _, hemissions⟩ := hquiet
  refine ⟨?_, ?_, ?_⟩
  · rw [hworld]
    exact h.channels
  · rw [hworld, hemissions]
    exact h.history
  · rw [hemissions]
    exact h.complete

theorem notify_quiet (h : s.notify config who message = .ok s') : Quiet s s' := by
  unfold notify at h
  split at h
  case isTrue =>
    rw [← Except.ok.inj h]
    exact Quiet.refl s
  case isFalse =>
    obtain ⟨_, h⟩ := ok_of_ensure h
    rw [← Except.ok.inj h]
    exact ⟨rfl, rfl, rfl⟩

theorem notify_outbox (h : s.notify config who message = .ok s') :
    s'.outbox = if message.isEmpty then s.outbox else s.outbox ++ [(who, message)] := by
  unfold notify at h
  split at h
  case isTrue hempty => rw [if_pos hempty, Except.ok.inj h]
  case isFalse hline =>
    obtain ⟨_, h⟩ := ok_of_ensure h
    rw [if_neg hline, ← Except.ok.inj h]

-- A delivery is quiet, and it tells the target the line.
theorem deliver_ok (h : s.deliver host config who message = .ok s') :
    Quiet s s' ∧ s.world.told host message s.outbox who = .ok s'.outbox := by
  unfold deliver at h
  unfold World.told
  split at h
  case isTrue hplayer => exact ⟨notify_quiet h, by rw [if_pos hplayer, notify_outbox h]⟩
  case isFalse hother =>
    obtain ⟨outbox, hsend, h⟩ := ok_of_bind h
    rw [if_neg hother, hsend, ← Except.ok.inj h]
    exact ⟨⟨rfl, rfl, rfl⟩, rfl⟩

theorem get?_updateChannel (f : Channel → Channel) (other : String) :
    (s.updateChannel name f).world.channels.get? other =
      if other = name then (s.world.channels.get? name).map f else s.world.channels.get? other :=
  OrderedMap.get?_modify _ _ _ _

theorem calm_update {f : Channel → Channel} (hf : ∀ c, (f c).members = c.members) :
    Calm s (s.updateChannel name f) where
  objects := rfl
  aliases := rfl
  keys := OrderedMap.keys_modify _ _ _
  members other := by
    rw [get?_updateChannel]
    split
    case isTrue heq =>
      rw [heq, Option.map_map]
      congr 1
      funext c
      exact hf c
    case isFalse => rfl

theorem Sound.update (h : Sound host config start excepted s) {f : Channel → Channel}
    {excepted' : String → Option ObjectId}
    (hkept : ∀ c, s.world.channels.get? name = some c →
      (f c).Kept s.world.eligible (excepted' name))
    (hhistory : ∀ c, (f c).history = c.history)
    (hother : ∀ other, other ≠ name → excepted' other = excepted other) :
    Sound host config start excepted' (s.updateChannel name f) where
  channels other c hc := by
    rw [get?_updateChannel] at hc
    split at hc
    case isTrue heq =>
      obtain ⟨c, hold, rfl⟩ := Option.map_eq_some_iff.mp hc
      rw [heq]
      exact hkept c hold
    case isFalse hne =>
      rw [hother other hne]
      exact h.channels other c hc
  history other c hc := by
    rw [get?_updateChannel] at hc
    split at hc
    case isTrue heq =>
      obtain ⟨c, hold, rfl⟩ := Option.map_eq_some_iff.mp hc
      rw [hhistory, heq]
      exact h.history name c hold
    case isFalse => exact h.history other c hc
  complete := h.complete

end Service

namespace World

variable {w w' : World} {channel name : String}

theorem name_congr (hkeys : w'.channels.keys = w.channels.keys) : w'.name channel = w.name channel := by
  unfold World.name
  rw [hkeys]

theorem name_eq_ok (h : w.name channel = .ok name) :
    w.channels.keys.find? (fun candidate => eqIgnoreAsciiCase candidate channel) = some name :=
  ok_of_ofOption h

theorem name_name (h : w.name channel = .ok name) : w.name name = .ok name := by
  have hfind := name_eq_ok h
  have hsame := List.find?_some hfind
  unfold World.name
  have hpredicate : (fun candidate => eqIgnoreAsciiCase candidate name) =
      fun candidate => eqIgnoreAsciiCase candidate channel := by
    funext candidate
    unfold eqIgnoreAsciiCase at hsame ⊢
    rw [beq_iff_eq.mp hsame]
  rw [hpredicate, hfind]
  rfl

theorem channel_eq_ok {c : Channel} (h : w.channel name = .ok c) :
    w.channels.get? name = some c := ok_of_ofOption h

end World

namespace Service

variable {host : HostCallbacks} {config : Config} {start : String → List ChannelMessage}
  {excepted : String → Option ObjectId} {s s' : Service} {name channel message : String}
  {who : ObjectId}

theorem onlineMembers_ok {users : List Membership} (h : s.onlineMembers channel = .ok (s', users)) :
    ∃ name c, s.world.name channel = .ok name ∧ s.world.channels.get? name = some c ∧
      s' = s.updateChannel name (fun c => c.reconcile s.world.eligible) ∧
      users = (c.reconcile s.world.eligible).onlineUsers := by
  obtain ⟨name, hname, h⟩ := ok_of_bind h
  obtain ⟨c', hc, h⟩ := ok_of_bind h
  have hget := World.channel_eq_ok hc
  rw [get?_updateChannel, if_pos rfl] at hget
  obtain ⟨c, hold, rfl⟩ := Option.map_eq_some_iff.mp hget
  obtain ⟨rfl, rfl⟩ := Prod.mk.inj (Except.ok.inj h)
  exact ⟨name, c, hname, hold, rfl, rfl⟩

theorem Sound.reconcile (h : Sound host config start excepted s) (name : String) :
    Sound host config start excepted
      (s.updateChannel name fun c => c.reconcile s.world.eligible) :=
  h.update (fun c hc => (h.channels name c hc).reconcile) (fun _ => Channel.reconcile_history)
    fun _ _ => rfl

theorem calm_reconcile (name : String) :
    Calm s (s.updateChannel name fun c => c.reconcile s.world.eligible) :=
  calm_update fun _ => congrArg (List.map Membership.who) Channel.reconcile_users

-- The listed members that hear a line are told it in their order.
theorem deliverAll_ok {id : Nat} {excluded : Option ObjectId} {users : List Membership}
    (h : deliverAll host config name id message excluded s users = .ok s') :
    Quiet s s' ∧ ((users.filter fun u => decide (some u.who ≠ excluded ∧
      s.world.hears host config name u = .ok true)).map Membership.who).foldlM
        (s.world.told host message) s.outbox = .ok s'.outbox := by
  induction users generalizing s with
  | nil =>
      rw [← Except.ok.inj h]
      exact ⟨Quiet.refl s, rfl⟩
  | cons user rest ih =>
      unfold deliverAll at h
      by_cases hexcluded : some user.who = excluded
      · rw [if_pos hexcluded] at h
        rw [List.filter_cons_of_neg (by simp [hexcluded])]
        exact ih h
      · rw [if_neg hexcluded] at h
        obtain ⟨_, h⟩ := ok_of_ensure h
        obtain ⟨hears, hhears, h⟩ := ok_of_bind h
        obtain ⟨t, ht, h⟩ := ok_of_bind h
        obtain ⟨hquiet, hrest⟩ := ih h
        cases hears with
        | true =>
            obtain ⟨htold, houtbox⟩ := deliver_ok ht
            refine ⟨htold.trans hquiet, ?_⟩
            rw [List.filter_cons_of_pos (by simp [hexcluded, hhears]), List.map_cons, List.foldlM_cons,
              houtbox]
            rw [htold.world] at hrest
            exact hrest
        | false =>
            rw [List.filter_cons_of_neg (by simp [hhears])]
            rw [← Except.ok.inj ht] at hquiet hrest
            exact ⟨hquiet, hrest⟩

end Service

theorem Channel.member_of_mem {c : Channel} (hnodup : c.members.Nodup) {u : Membership}
    (hu : u ∈ c.users) : c.member u.who = some u := by
  cases hfound : c.member u.who with
  | none =>
      have hmember := (Channel.member_isSome_iff (c := c) u.who).mpr (List.mem_map.mpr ⟨u, hu, rfl⟩)
      rw [hfound] at hmember
      contradiction
  | some v =>
      have hv : v ∈ c.users := List.mem_of_find?_eq_some hfound
      rw [List.inj_on_of_nodup_map hnodup hv hu (Channel.who_of_member hfound)]

-- Who is heard is decided by the list of those online.
theorem Channel.mem_onlineUsers {c : Channel} (hnodup : c.members.Nodup) (u : Membership) :
    u ∈ c.onlineUsers ↔ u ∈ c.users ∧ u.who ∈ c.online := by
  unfold onlineUsers
  rw [List.mem_filterMap]
  constructor
  · rintro ⟨p, hp, hfound⟩
    rw [Channel.who_of_member hfound]
    exact ⟨List.mem_of_find?_eq_some hfound, hp⟩
  · exact fun ⟨hu, honline⟩ => ⟨u.who, honline, Channel.member_of_mem hnodup hu⟩

theorem World.eligible_of_hears {host : HostCallbacks} {config : Config} {w : World} {name : String}
    {u : Membership} (h : w.hears host config name u = .ok true) : w.eligible u.who = true := by
  unfold World.hears at h
  split at h
  case isTrue hboth => exact (Bool.and_eq_true_iff.mp hboth).2
  case isFalse => exact Bool.noConfusion (Except.ok.inj h)

-- The online list loses nobody who hears.
theorem Channel.Kept.reaches (host : HostCallbacks) (config : Config) {w : World} {name : String}
    {c : Channel} {excepted : Option ObjectId} (h : c.Kept w.eligible excepted)
    (hinit : c.onlineInitialized = true) (hc : w.channels.get? name = some c)
    {excluded : Option ObjectId} (hexcepted : excepted = none ∨ excepted = excluded) :
    let heard := (c.onlineUsers.filter fun u =>
      decide (some u.who ≠ excluded ∧ w.hears host config name u = .ok true)).map Membership.who
    heard.Nodup ∧ ∀ p, p ∈ heard ↔ w.Reaches host config name excluded p := by
  have hexact := h.online hinit
  constructor
  · rw [List.Nodup, List.pairwise_map]
    refine List.Pairwise.filter _ (List.pairwise_filterMap.mpr (hexact.nodup.imp ?_))
    intro a b hne u hu v hv heq
    rw [Channel.who_of_member hu, Channel.who_of_member hv] at heq
    exact hne heq
  · intro p
    simp only [List.mem_map, List.mem_filter, decide_eq_true_eq,
      Channel.mem_onlineUsers h.members_nodup]
    constructor
    · rintro ⟨u, ⟨⟨hu, _⟩, hne, hears⟩, rfl⟩
      exact ⟨hne, c, u, hc, hu, rfl, hears⟩
    · rintro ⟨hne, c', u, hc', hu, rfl, hears⟩
      rw [hc, Option.some_inj] at hc'
      subst hc'
      have hexcept : some u.who ≠ excepted := by
        rcases hexcepted with hnone | hsame
        · rw [hnone]
          exact Option.some_ne_none _
        · rw [hsame]
          exact hne
      refine ⟨u, ⟨⟨hu, (hexact.mem u.who hexcept).mpr ⟨?_, ?_⟩⟩, hne, hears⟩, rfl⟩
      · exact List.mem_map.mpr ⟨u, hu, rfl⟩
      · exact World.eligible_of_hears hears

namespace Service

variable {host : HostCallbacks} {config : Config} {start : String → List ChannelMessage}
  {excepted : String → Option ObjectId} {s s' : Service} {name channel message : String}
  {who : ObjectId}

-- A stored line joins the emissions, so that the history stays their last lines.
theorem Sound.record (h : Sound host config start excepted s) {name : String} {e : Emission}
    (hname : e.channel = name) (hcomplete : e.Complete host config) (readings : Nat) :
    Sound host config start excepted
      ⟨(s.updateChannel name fun c => c.record e.entry).world, s.outbox, readings,
        s.emissions ++ [e]⟩ where
  channels other c hc := by
    rw [get?_updateChannel] at hc
    split at hc
    case isTrue heq =>
      obtain ⟨c, hold, rfl⟩ := Option.map_eq_some_iff.mp hc
      rw [heq]
      have hkept := h.channels name c hold
      exact hkept.of_same rfl hkept.sorted rfl rfl
    case isFalse => exact h.channels other c hc
  history other c hc := by
    rw [get?_updateChannel] at hc
    rw [linesOf_concat, hname]
    split at hc
    case isTrue heq =>
      obtain ⟨c, hold, rfl⟩ := Option.map_eq_some_iff.mp hc
      rw [if_pos heq.symm, ← List.append_assoc, ← recent_concat, heq, ← h.history name c hold]
      rfl
    case isFalse hne =>
      rw [if_neg (Ne.symm hne), List.append_nil]
      exact h.history other c hc
  complete e' he' := by
    rcases List.mem_append.mp he' with hold | hnew
    · exact h.complete e' hold
    · rw [List.mem_singleton.mp hnew]
      exact hcomplete

theorem Sound.count (h : Sound host config start excepted s) (name : String) :
    Sound host config start excepted (s.countMessage name) := by
  refine h.update (fun c hc => ?_) (fun _ => rfl) fun _ _ => rfl
  have hkept := h.channels name c hc
  exact hkept.of_same rfl hkept.sorted rfl rfl

theorem calm_count (s : Service) (name : String) : Calm s (s.countMessage name) :=
  calm_update fun _ => rfl

theorem calm_record (s : Service) (name : String) (entry : ChannelMessage) (readings : Nat)
    (emissions : List Emission) : Calm s ⟨(s.updateChannel name fun c => c.record entry).world,
      s.outbox, readings, emissions⟩ := by
  have hcalm : Calm s (s.updateChannel name fun c => c.record entry) := calm_update fun _ => rfl
  exact ⟨hcalm.objects, hcalm.aliases, hcalm.keys, hcalm.members⟩

-- The line is stored once, and each member who hears it is sent one.
theorem emitExcluding_ok {noHeader : Bool} {excluded : Option ObjectId}
    (h : Sound host config start excepted s)
    (hemit : s.emitExcluding host config channel message noHeader excluded = .ok s')
    (hexcepted : ∀ name, s.world.name channel = .ok name →
      excepted name = none ∨ excepted name = excluded) :
    Sound host config start excepted s' ∧ Calm s s' := by
  obtain ⟨_, hemit⟩ := ok_of_ensure hemit
  obtain ⟨name, hname, hemit⟩ := ok_of_bind hemit
  obtain ⟨c, hc, hemit⟩ := ok_of_bind hemit
  obtain ⟨_, hemit⟩ := ok_of_ensure hemit
  obtain ⟨⟨used, users⟩, hused, hemit⟩ := ok_of_bind hemit
  obtain ⟨t, hdeliver, hemit⟩ := ok_of_bind hemit
  obtain ⟨after, hafter, hemit⟩ := ok_of_bind hemit
  obtain ⟨_, hend⟩ := ok_of_ensure hemit
  obtain ⟨name', c', hname', hc', rfl, rfl⟩ := onlineMembers_ok hused
  have hsame : name' = name := by
    rw [World.name_congr (calm_count s name).keys, World.name_name hname] at hname'
    exact (Except.ok.inj hname').symm
  subst hsame
  have hreconciled := (h.count name').reconcile name'
  obtain ⟨hquiet, htold⟩ := deliverAll_ok hdeliver
  have hget : t.world.channels.get? name' =
      some (c'.reconcile (s.countMessage name').world.eligible) := by
    rw [hquiet.world, get?_updateChannel, if_pos rfl, hc']
    rfl
  have hkept := (hreconciled.quiet hquiet).channels name' _ hget
  obtain ⟨hnodup, hmem⟩ := hkept.reaches host config Channel.reconcile_initialized hget
    (hexcepted name' hname)
  rw [← hquiet.world] at htold
  have hcomplete : ∀ time, Emission.Complete host config ⟨t.world, name', excluded,
      ⟨time, headed channel message noHeader⟩, s.outbox, t.outbox⟩ :=
    fun _ => ⟨_, hnodup, hmem, htold⟩
  have hsound := fun time =>
    (hreconciled.quiet hquiet).record rfl (hcomplete time) (t.readings + 1)
  rw [← Except.ok.inj hend]
  refine ⟨hsound _, ?_⟩
  refine (((calm_count s name').trans (calm_reconcile name')).trans hquiet.calm).trans ?_
  exact calm_record t name' _ _ _

-- Every line is on record, with the output that its call found and left.
theorem emitExcluding_spoken {noHeader : Bool} {excluded : Option ObjectId}
    (hemit : s.emitExcluding host config channel message noHeader excluded = .ok s') :
    ∃ e, Emission.Spoken s s' channel (headed channel message noHeader) excluded e := by
  obtain ⟨_, hemit⟩ := ok_of_ensure hemit
  obtain ⟨name, hname, hemit⟩ := ok_of_bind hemit
  obtain ⟨c, _, hemit⟩ := ok_of_bind hemit
  obtain ⟨_, hemit⟩ := ok_of_ensure hemit
  obtain ⟨⟨used, users⟩, hused, hemit⟩ := ok_of_bind hemit
  obtain ⟨t, hdeliver, hemit⟩ := ok_of_bind hemit
  obtain ⟨after, _, hemit⟩ := ok_of_bind hemit
  obtain ⟨_, hend⟩ := ok_of_ensure hemit
  obtain ⟨_, _, _, _, rfl, _⟩ := onlineMembers_ok hused
  have hkept : t.emissions = s.emissions := (deliverAll_ok hdeliver).1.emissions
  rw [← Except.ok.inj hend]
  exact ⟨_, congrArg (· ++ [_]) hkept, hname, rfl, rfl, rfl, rfl⟩

end Service

end StompyMux.Communication
