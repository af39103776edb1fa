import Mathlib.Logic.Function.Basic
import StompyMux.Communication.Lines

-- The channel operations keep the online lists right.
namespace StompyMux.Communication

open Library Library.Fallible
open StompyMux.World (ObjectId Kind)

-- Players reach their channels through their aliases.
def World.Named (w : World) : Prop :=
  ∀ name c, w.channels.get? name = some c → ∀ p ∈ c.members, ∀ o, w.objects.get? p = some o →
    o.kind = .Player → ∃ a ∈ (w.channelAliases.get? p).getD [], w.name a.channel = .ok name

def ChannelAlias.Differ (a b : ChannelAlias) : Prop :=
  eqIgnoreAsciiCase a.aliasName b.aliasName = false

-- No one spells two aliases the same.
def World.Spelled (w : World) : Prop :=
  ∀ p, ((w.channelAliases.get? p).getD []).Pairwise ChannelAlias.Differ

theorem eqIgnoreAsciiCase_comm (a b : String) : eqIgnoreAsciiCase a b = eqIgnoreAsciiCase b a := by
  unfold eqIgnoreAsciiCase
  exact BEq.comm

instance : Std.Symm ChannelAlias.Differ where
  symm a b hab := by
    unfold ChannelAlias.Differ at hab ⊢
    rw [eqIgnoreAsciiCase_comm]
    exact hab

namespace Service

variable {host : HostCallbacks} {config : Config} {start : String → List ChannelMessage}
  {excepted : String → Option ObjectId} {s s' s'' : Service} {name channel message : String}
  {who : ObjectId}

-- Members may have left.
structure Fewer (s s' : Service) : Prop where
  objects : s'.world.objects = s.world.objects
  aliases : s'.world.channelAliases = s.world.channelAliases
  keys : s'.world.channels.keys = s.world.channels.keys
  members : ∀ name c', s'.world.channels.get? name = some c' →
    ∃ c, s.world.channels.get? name = some c ∧ ∀ p ∈ c'.members, p ∈ c.members

theorem Calm.fewer (h : Calm s s') : Fewer s s' := by
  refine ⟨h.objects, h.aliases, h.keys, fun name c' hc' => ?_⟩
  have hmembers := h.members name
  rw [hc', Option.map_some] at hmembers
  obtain ⟨c, hc, hsame⟩ := Option.map_eq_some_iff.mp hmembers.symm
  exact ⟨c, hc, fun p hp => hsame ▸ hp⟩

theorem Fewer.trans (h : Fewer s s') (h' : Fewer s' s'') : Fewer s s'' := by
  refine ⟨h'.objects.trans h.objects, h'.aliases.trans h.aliases, h'.keys.trans h.keys, ?_⟩
  intro name c'' hc''
  obtain ⟨c', hc', hsub'⟩ := h'.members name c'' hc''
  obtain ⟨c, hc, hsub⟩ := h.members name c' hc'
  exact ⟨c, hc, fun p hp => hsub p (hsub' p hp)⟩

theorem Fewer.named (h : Fewer s s') (hnamed : s.world.Named) : s'.world.Named := by
  intro name c' hc' p hp o ho hplayer
  obtain ⟨c, hc, hsub⟩ := h.members name c' hc'
  rw [h.objects] at ho
  obtain ⟨a, ha, hname⟩ := hnamed name c hc p (hsub p hp) o ho hplayer
  refine ⟨a, by rwa [h.aliases], ?_⟩
  rw [World.name_congr h.keys]
  exact hname

theorem Fewer.spelled (h : Fewer s s') (hspelled : s.world.Spelled) : s'.world.Spelled := by
  unfold World.Spelled
  rw [h.aliases]
  exact hspelled

theorem eligible_congr (h : s'.world.objects = s.world.objects) :
    s'.world.eligible = s.world.eligible := by
  funext p
  unfold World.eligible
  rw [h]

abbrev Whole (host : HostCallbacks) (config : Config) (start : String → List ChannelMessage)
    (s : Service) : Prop := Sound host config start (fun _ => none) s

theorem emit_ok {noHeader : Bool} (h : Whole host config start s)
    (hemit : s.emit host config channel message noHeader = .ok s') :
    Whole host config start s' ∧ Calm s s' :=
  emitExcluding_ok h hemit fun _ _ => Or.inl rfl

theorem onlineMembers_sound {users : List Membership} (h : Sound host config start excepted s)
    (hused : s.onlineMembers channel = .ok (s', users)) :
    Sound host config start excepted s' ∧ Calm s s' := by
  obtain ⟨name, c, _, _, rfl, _⟩ := onlineMembers_ok hused
  exact ⟨h.reconcile name, calm_reconcile name⟩

theorem leave_ok (h : Whole host config start s)
    (hleave : s.leave host config who channel = .ok s') :
    Whole host config start s' ∧ Calm s s' := by
  obtain ⟨name, _, hleave⟩ := ok_of_bind hleave
  obtain ⟨object, _, hleave⟩ := ok_of_bind hleave
  obtain ⟨c, _, hleave⟩ := ok_of_bind hleave
  obtain ⟨_, _, hleave⟩ := ok_of_bind hleave
  obtain ⟨_, _, hleave⟩ := ok_of_bind hleave
  obtain ⟨t, hnotify, hleave⟩ := ok_of_bind hleave
  obtain ⟨u, htold, hleave⟩ := ok_of_bind hleave
  obtain ⟨after, _, hleave⟩ := ok_of_bind hleave
  obtain ⟨_, hleave⟩ := ok_of_ensure hleave
  have hnotified := h.quiet (notify_quiet hnotify)
  have htold : Whole host config start u ∧ Calm t u := by
    split at htold
    case isTrue => exact emit_ok hnotified htold
    case isFalse =>
      rw [← Except.ok.inj htold]
      exact ⟨hnotified, Calm.refl t⟩
  rw [← Except.ok.inj hleave]
  constructor
  · exact htold.1.update (fun c hc => (htold.1.channels name c hc).setListening who false)
      (fun _ => rfl) fun _ _ => rfl
  · refine ((notify_quiet hnotify).calm.trans htold.2).trans (calm_update fun c => ?_)
    exact Channel.members_setListening who false

structure Left (who : ObjectId) (name : String) (s s' : Service) : Prop where
  fewer : Fewer s s'
  gone : ∀ c', s'.world.channels.get? name = some c' → who ∉ c'.members

theorem left_withoutMember (s : Service) (who : ObjectId) (name : String) :
    Left who name s (s.updateChannel name fun c => c.withoutMember who) where
  fewer := by
    refine ⟨rfl, rfl, OrderedMap.keys_modify _ _ _, fun other c' hc' => ?_⟩
    rw [get?_updateChannel] at hc'
    split at hc'
    case isTrue heq =>
      obtain ⟨c, hc, rfl⟩ := Option.map_eq_some_iff.mp hc'
      exact ⟨c, heq ▸ hc, fun p hp => ((Channel.mem_withoutMember c who p).mp hp).1⟩
    case isFalse => exact ⟨c', hc', fun p hp => hp⟩
  gone c' hc' := by
    rw [get?_updateChannel, if_pos rfl] at hc'
    obtain ⟨c, _, rfl⟩ := Option.map_eq_some_iff.mp hc'
    exact fun hmem => ((Channel.mem_withoutMember c who who).mp hmem).2 rfl

-- The others are told first, then the member, who leaves the list last.
theorem removeListed_ok {id : Nat} {user : Membership} (h : Whole host config start s)
    (hremove : s.removeListed host config who channel name id user = .ok s') :
    Whole host config start s' ∧ Left who name s s' := by
  obtain ⟨object, _, hremove⟩ := ok_of_bind hremove
  obtain ⟨⟨used, users⟩, hused, hremove⟩ := ok_of_bind hremove
  obtain ⟨t, htold, hremove⟩ := ok_of_bind hremove
  obtain ⟨u, hnotify, hremove⟩ := ok_of_bind hremove
  obtain ⟨after, _, hremove⟩ := ok_of_bind hremove
  obtain ⟨_, hend⟩ := ok_of_ensure hremove
  obtain ⟨hreconciled, hcalm⟩ := onlineMembers_sound h hused
  -- Only the leaving member is missing from the online list while the others are told.
  have hoff : Sound host config start (fun n => if n = name then some who else none)
      (used.updateChannel name fun c => c.withoutOnline who) := by
    refine hreconciled.update (fun c hc => ?_) (fun _ => rfl) fun other hne => if_neg hne
    rw [if_pos rfl]
    exact (hreconciled.channels name c hc).withoutOnline nofun
  have hcalmOff : Calm used (used.updateChannel name fun c => c.withoutOnline who) :=
    calm_update fun _ => rfl
  have htold : Sound host config start (fun n => if n = name then some who else none) t ∧
      Calm (used.updateChannel name fun c => c.withoutOnline who) t := by
    split at htold
    case isTrue =>
      refine emitExcluding_ok hoff htold fun n hn => ?_
      by_cases heq : n = name
      · exact Or.inr (if_pos heq)
      · exact Or.inl (if_neg heq)
    case isFalse =>
      rw [← Except.ok.inj htold]
      exact ⟨hoff, Calm.refl _⟩
  have hquiet := notify_quiet hnotify
  have hsound := htold.1.quiet hquiet
  have hleft := left_withoutMember u who name
  rw [← Except.ok.inj hend]
  refine ⟨?_, ?_, hleft.gone⟩
  · refine hsound.update (fun c hc => ?_) (fun _ => rfl) fun other hne => (if_neg hne).symm
    refine (hsound.channels name c hc).withoutMember fun p hp => ?_
    rw [if_pos rfl, Option.some_inj] at hp
    exact hp.symm
  · exact ((((hcalm.trans hcalmOff).trans htold.2).trans hquiet.calm).fewer).trans hleft.fewer

theorem removeMember_ok (h : Whole host config start s)
    (hremove : s.removeMember host config who channel = .ok s') :
    Whole host config start s' ∧ Fewer s s' ∧
      ∀ name, s.world.name channel = .ok name → Left who name s s' := by
  unfold removeMember at hremove
  split at hremove
  case h_1 e hname =>
    have hquiet := notify_quiet hremove
    refine ⟨h.quiet hquiet, hquiet.calm.fewer, fun name hok => ?_⟩
    rw [hname] at hok
    contradiction
  case h_2 name hname =>
    obtain ⟨c, hc, hremove⟩ := ok_of_bind hremove
    obtain ⟨_, _, hremove⟩ := ok_of_bind hremove
    obtain ⟨_, _, hremove⟩ := ok_of_bind hremove
    split at hremove
    case h_1 hnone =>
      rw [← Except.ok.inj hremove]
      refine ⟨h, (Calm.refl s).fewer, fun name' hok => ⟨(Calm.refl s).fewer, fun c' hc' => ?_⟩⟩
      rw [hname] at hok
      rw [← Except.ok.inj hok, World.channel_eq_ok hc, Option.some_inj] at hc'
      intro hmem
      rw [← hc', ← Channel.member_isSome_iff, hnone] at hmem
      contradiction
    case h_2 user _ =>
      obtain ⟨hsound, hleft⟩ := removeListed_ok h hremove
      refine ⟨hsound, hleft.fewer, fun name' hok => ?_⟩
      rw [hname] at hok
      rw [← Except.ok.inj hok]
      exact hleft

theorem Sound.congr (h : Sound host config start excepted s)
    (hobjects : s'.world.objects = s.world.objects) (hchannels : s'.world.channels = s.world.channels)
    (hemissions : s'.emissions = s.emissions) : Sound host config start excepted s' := by
  refine ⟨?_, ?_, ?_⟩
  · rw [hchannels, eligible_congr hobjects]
    exact h.channels
  · rw [hchannels, hemissions]
    exact h.history
  · rw [hemissions]
    exact h.complete

theorem aliases_insertAlias (entry : ChannelAlias) (p : ObjectId) :
    (s.insertAlias who entry).aliases p = if p = who then
      stableSort (fun a => toAsciiLowercase a.aliasName) (s.aliases who ++ [entry])
    else s.aliases p := by
  show (OrderedMap.get? (OrderedMap.insert _ _ _) p).getD [] = _
  rw [OrderedMap.get?_insert]
  split <;> rfl

theorem mem_aliases_insertAlias {entry a : ChannelAlias} {p : ObjectId} (ha : a ∈ s.aliases p) :
    a ∈ (s.insertAlias who entry).aliases p := by
  rw [aliases_insertAlias]
  split
  case isTrue heq =>
    rw [(stableSort_perm _ _).mem_iff]
    exact List.mem_append_left _ (heq ▸ ha)
  case isFalse => exact ha

theorem spelled_insertAlias (h : s.world.Spelled) {entry : ChannelAlias}
    (hnew : s.findAlias who entry.aliasName = none) : (s.insertAlias who entry).world.Spelled := by
  intro p
  show ((s.insertAlias who entry).aliases p).Pairwise _
  rw [aliases_insertAlias]
  split
  case isTrue heq =>
    have hfresh : ∀ a ∈ s.aliases who, eqIgnoreAsciiCase a.aliasName entry.aliasName = false :=
      fun a ha => Bool.eq_false_iff.mpr (List.find?_eq_none.mp hnew a ha)
    refine ((stableSort_perm _ _).pairwise_iff fun hab => Std.Symm.symm _ _ hab).mpr ?_
    refine List.pairwise_append.mpr ⟨h who, List.pairwise_singleton _ _, fun a ha b hb => ?_⟩
    rw [List.mem_singleton.mp hb]
    exact hfresh a ha
  case isFalse => exact h p

theorem named_insertAlias (h : s.world.Named) (entry : ChannelAlias) :
    (s.insertAlias who entry).world.Named := by
  intro name c hc p hp o ho hplayer
  obtain ⟨a, ha, hname⟩ := h name c hc p hp o ho hplayer
  exact ⟨a, mem_aliases_insertAlias ha, hname⟩

theorem aliases_deleteAliasEntry (word : String) (p : ObjectId) :
    (s.deleteAliasEntry who word).aliases p = if p = who then
      (s.aliases who).filter fun a => !eqIgnoreAsciiCase a.aliasName word
    else s.aliases p := by
  show (OrderedMap.get? (OrderedMap.modify _ _ _) p).getD [] = _
  rw [OrderedMap.get?_modify]
  split
  case isTrue =>
    unfold aliases
    cases s.world.channelAliases.get? who <;> rfl
  case isFalse => rfl

-- An alias goes only after its owner has left the channel.
theorem named_deleteAliasEntry (h : s.world.Named) (hspelled : s.world.Spelled) {word : String}
    {found : ChannelAlias} (hfound : s.findAlias who word = some found)
    (hgone : ∀ name c, s.world.name found.channel = .ok name →
      s.world.channels.get? name = some c → who ∉ c.members) :
    (s.deleteAliasEntry who word).world.Named := by
  intro name c hc p hp o ho hplayer
  obtain ⟨a, ha, hname⟩ := h name c hc p hp o ho hplayer
  refine ⟨a, ?_, hname⟩
  show a ∈ (s.deleteAliasEntry who word).aliases p
  rw [aliases_deleteAliasEntry]
  split
  case isFalse => exact ha
  case isTrue heq =>
    subst heq
    refine List.mem_filter.mpr ⟨ha, ?_⟩
    by_contra hmatch
    rw [Bool.not_eq_true', Bool.not_eq_false] at hmatch
    have hmem : found ∈ s.aliases p := List.mem_of_find?_eq_some hfound
    have hword := List.find?_some hfound
    have hsame : a = found := by
      by_contra hne
      have hdiffer : a.Differ found := (hspelled p).forall ha hmem hne
      unfold ChannelAlias.Differ at hdiffer
      unfold eqIgnoreAsciiCase at hdiffer hmatch hword
      rw [beq_iff_eq] at hmatch hword
      rw [hmatch, hword, beq_self_eq_true] at hdiffer
      contradiction
    exact hgone name c (hsame ▸ hname) hc hp

theorem spelled_deleteAliasEntry (h : s.world.Spelled) (word : String) :
    (s.deleteAliasEntry who word).world.Spelled := by
  intro p
  show ((s.deleteAliasEntry who word).aliases p).Pairwise _
  rw [aliases_deleteAliasEntry]
  split
  case isTrue => exact (h who).filter _
  case isFalse => exact h p

end Service

-- Who joins lives, and a player that is no member yet has an alias for the channel.
def World.Joinable (w : World) (who : ObjectId) (channel : String) : Prop :=
  ∀ o, w.objects.get? who = some o → o.kind ≠ .Garbage ∧
    (o.kind = .Player → ∀ name, w.name channel = .ok name →
      (∃ c, w.channels.get? name = some c ∧ who ∈ c.members) ∨
      ∃ a ∈ (w.channelAliases.get? who).getD [], w.name a.channel = .ok name)

namespace Service

variable {host : HostCallbacks} {config : Config} {start : String → List ChannelMessage}
  {excepted : String → Option ObjectId} {s s' s'' : Service} {name channel message : String}
  {who : ObjectId}

-- What every operation keeps.
structure Valid (host : HostCallbacks) (config : Config) (start : String → List ChannelMessage)
    (s : Service) : Prop where
  whole : Whole host config start s
  named : s.world.Named
  spelled : s.world.Spelled

theorem Valid.fewer (h : Valid host config start s) (hfewer : Fewer s s')
    (hwhole : Whole host config start s') : Valid host config start s' :=
  ⟨hwhole, hfewer.named h.named, hfewer.spelled h.spelled⟩

theorem Valid.quiet (h : Valid host config start s) (hquiet : Quiet s s') :
    Valid host config start s' := h.fewer hquiet.calm.fewer (h.whole.quiet hquiet)

theorem Valid.emit {noHeader : Bool} (h : Valid host config start s)
    (hemit : s.emit host config channel message noHeader = .ok s') : Valid host config start s' := by
  obtain ⟨hwhole, hcalm⟩ := emit_ok h.whole hemit
  exact h.fewer hcalm.fewer hwhole

theorem Valid.leave (h : Valid host config start s)
    (hleave : s.leave host config who channel = .ok s') : Valid host config start s' := by
  obtain ⟨hwhole, hcalm⟩ := leave_ok h.whole hleave
  exact h.fewer hcalm.fewer hwhole

theorem Valid.removeMember (h : Valid host config start s)
    (hremove : s.removeMember host config who channel = .ok s') : Valid host config start s' := by
  obtain ⟨hwhole, hfewer, _⟩ := removeMember_ok h.whole hremove
  exact h.fewer hfewer hwhole

theorem Valid.removeAlias {word : String} (h : Valid host config start s)
    (hremove : s.removeAlias host config who word = .ok s') : Valid host config start s' := by
  obtain ⟨found, hfound, hremove⟩ := ok_of_bind hremove
  obtain ⟨t, ht, hremove⟩ := ok_of_bind hremove
  obtain ⟨u, hnotify, hend⟩ := ok_of_bind hremove
  have hfound := ok_of_ofOption hfound
  have hquiet := notify_quiet hnotify
  obtain ⟨_, hfewer, hleft⟩ := removeMember_ok h.whole ht
  have hvalid := (h.removeMember ht).quiet hquiet
  have hfewer := hfewer.trans hquiet.calm.fewer
  have hfoundAfter : u.findAlias who word = some found := by
    unfold findAlias aliases
    rw [hfewer.aliases]
    exact hfound
  rw [← Except.ok.inj hend]
  refine ⟨hvalid.whole.congr rfl rfl rfl, ?_, spelled_deleteAliasEntry hvalid.spelled word⟩
  refine named_deleteAliasEntry hvalid.named hvalid.spelled hfoundAfter fun name c hname hc => ?_
  rw [World.name_congr hfewer.keys] at hname
  rw [hquiet.world] at hc
  exact (hleft name hname).gone c hc

theorem Valid.boot {actor : ObjectId} (h : Valid host config start s)
    (hboot : s.boot host config actor who channel = .ok s') : Valid host config start s' := by
  obtain ⟨name, _, hboot⟩ := ok_of_bind hboot
  obtain ⟨c, _, hboot⟩ := ok_of_bind hboot
  obtain ⟨_, hboot⟩ := ok_of_ensure hboot
  obtain ⟨a, _, hboot⟩ := ok_of_bind hboot
  obtain ⟨b, _, hboot⟩ := ok_of_bind hboot
  obtain ⟨t, hemit, hremove⟩ := ok_of_bind hboot
  exact (h.emit hemit).removeMember hremove

-- A live object is put on the online list exactly when it is eligible.
theorem eligible_of_live {o : Object} (ho : s.world.objects.get? who = some o)
    (hlive : o.kind ≠ .Garbage) :
    s.world.eligible who = decide (o.kind ≠ .Player ∨ .Connected ∈ o.flags) := by
  unfold World.eligible
  rw [ho, Option.any_some]
  exact decide_eq_decide.mpr (and_iff_right hlive)

theorem named_enrol (h : s.world.Named) (hname : s.world.name name = .ok name)
    (hjoin : s.world.Joinable who name) (online : Bool) :
    (s.updateChannel name fun c => c.enrol who online).world.Named := by
  have hkeys : (s.updateChannel name fun c => c.enrol who online).world.channels.keys =
    s.world.channels.keys := OrderedMap.keys_modify _ _ _
  intro n c' hc' p hp o ho hplayer
  rw [get?_updateChannel] at hc'
  have hold : (∃ c, s.world.channels.get? n = some c ∧ p ∈ c.members) ∨ n = name ∧ p = who := by
    split at hc'
    case isTrue heq =>
      obtain ⟨c, hc, rfl⟩ := Option.map_eq_some_iff.mp hc'
      rcases (Channel.mem_enrol who online p).mp hp with hwho | hmem
      · exact Or.inr ⟨heq, hwho⟩
      · exact Or.inl ⟨c, heq ▸ hc, hmem⟩
    case isFalse => exact Or.inl ⟨c', hc', hp⟩
  have halias : ∃ a ∈ (s.world.channelAliases.get? p).getD [], s.world.name a.channel = .ok n := by
    rcases hold with ⟨c, hc, hmem⟩ | ⟨rfl, rfl⟩
    · exact h n c hc p hmem o ho hplayer
    · rcases (hjoin o ho).2 hplayer n hname with ⟨c, hc, hmem⟩ | halias
      · exact h n c hc p hmem o ho hplayer
      · exact halias
  obtain ⟨a, ha, hfound⟩ := halias
  exact ⟨a, ha, (World.name_congr hkeys).trans hfound⟩

theorem Calm.joinable (h : Calm s s') (hjoin : s.world.Joinable who channel) :
    s'.world.Joinable who channel := by
  intro o ho
  rw [h.objects] at ho
  refine ⟨(hjoin o ho).1, fun hplayer name hname => ?_⟩
  rw [World.name_congr h.keys] at hname
  rcases (hjoin o ho).2 hplayer name hname with ⟨c, hc, hmem⟩ | ⟨a, ha, hfound⟩
  · have hmembers := h.members name
    rw [hc, Option.map_some] at hmembers
    obtain ⟨c', hc', hsame⟩ := Option.map_eq_some_iff.mp hmembers
    exact Or.inl ⟨c', hc', hsame ▸ hmem⟩
  · exact Or.inr ⟨a, by rwa [h.aliases], (World.name_congr h.keys).trans hfound⟩

theorem joinable_name (hjoin : s.world.Joinable who channel)
    (hname : s.world.name channel = .ok name) : s.world.Joinable who name := by
  intro o ho
  refine ⟨(hjoin o ho).1, fun hplayer n hn => ?_⟩
  rw [World.name_name hname] at hn
  rw [← Except.ok.inj hn]
  exact (hjoin o ho).2 hplayer name hname

-- Who listens already is only told so.
theorem Valid.join {quiet : Bool} (h : Valid host config start s)
    (hjoin : s.world.Joinable who channel)
    (hok : s.join host config who channel quiet = .ok s') : Valid host config start s' := by
  obtain ⟨name, hname, hok⟩ := ok_of_bind hok
  obtain ⟨c, _, hok⟩ := ok_of_bind hok
  split at hok
  case isTrue => exact h.quiet (notify_quiet hok)
  case isFalse =>
    obtain ⟨⟨used, users⟩, hused, hok⟩ := ok_of_bind hok
    obtain ⟨object, hobject, hok⟩ := ok_of_bind hok
    obtain ⟨t, hnotify, hend⟩ := ok_of_bind hok
    obtain ⟨hsound, hcalm⟩ := onlineMembers_sound h.whole hused
    have hvalid := h.fewer hcalm.fewer hsound
    have hlisted := joinable_name hjoin hname
    have hfound : used.world.objects.get? who = some object := by
      rw [hcalm.objects]
      exact ok_of_ofOption hobject
    have helig := eligible_of_live hfound ((hcalm.joinable hlisted) object hfound).1
    have hresolved : used.world.name name = .ok name :=
      (World.name_congr hcalm.keys).trans (World.name_name hname)
    have henrolled : Valid host config start (used.updateChannel name fun c => c.enrol who
        (decide (object.kind ≠ .Player ∨ .Connected ∈ object.flags))) := by
      refine ⟨?_, named_enrol hvalid.named hresolved (hcalm.joinable hlisted) _, hvalid.spelled⟩
      refine hsound.update (fun c hc => ?_) (fun c => ?_) fun _ _ => rfl
      · exact (hsound.channels name c hc).enrol who _ helig
      · unfold Channel.enrol
        split <;> rfl
    have hnotified := henrolled.quiet (notify_quiet hnotify)
    split at hend
    case isTrue => exact hnotified.emit hend
    case isFalse =>
      rw [← Except.ok.inj hend]
      exact hnotified

-- The new alias is a spelling of its own, and names the channel that its owner then joins.
theorem Valid.add {word : String} {quiet trusted : Bool} (h : Valid host config start s)
    (hlive : ∀ o, s.world.objects.get? who = some o → o.kind ≠ .Garbage)
    (hok : s.add host config who channel word quiet trusted = .ok s') :
    Valid host config start s' := by
  obtain ⟨_, hok⟩ := ok_of_ensure hok
  obtain ⟨_, hok⟩ := ok_of_ensure hok
  obtain ⟨_, hok⟩ := ok_of_ensure hok
  obtain ⟨_, hok⟩ := ok_of_ensure hok
  obtain ⟨_, hok⟩ := ok_of_ensure hok
  obtain ⟨name, hname, hok⟩ := ok_of_bind hok
  obtain ⟨c, _, hok⟩ := ok_of_bind hok
  obtain ⟨joins, _, hok⟩ := ok_of_bind hok
  obtain ⟨_, hok⟩ := ok_of_ensure hok
  obtain ⟨_, _, hok⟩ := ok_of_bind hok
  split at hok
  case h_1 => contradiction
  case h_2 hnone =>
    obtain ⟨t, hwarn, hok⟩ := ok_of_bind hok
    obtain ⟨u, hjoin, hnotify⟩ := ok_of_bind hok
    have hquiet : Quiet s t := by
      split at hwarn
      case isTrue => exact notify_quiet hwarn
      case isFalse =>
        rw [← Except.ok.inj hwarn]
        exact Quiet.refl s
    have hfound : s.world.name channel = .ok name := by
      have hsome := ok_of_ofOption hname
      cases hresult : s.world.name channel with
      | ok n =>
          rw [hresult] at hsome
          exact congrArg Except.ok (Option.some_inj.mp hsome)
      | error e =>
          rw [hresult] at hsome
          contradiction
    have hwarned := h.quiet hquiet
    have hfresh : t.findAlias who word = none := by
      unfold findAlias aliases
      rw [hquiet.world]
      exact hnone
    have hinserted : Valid host config start (t.insertAlias who ⟨word, name⟩) :=
      ⟨hwarned.whole.congr rfl rfl rfl, named_insertAlias hwarned.named _,
        spelled_insertAlias hwarned.spelled hfresh⟩
    have hjoinable : (t.insertAlias who ⟨word, name⟩).world.Joinable who name := by
      intro o ho
      refine ⟨hlive o (by rw [← hquiet.world]; exact ho), fun _ n hn => Or.inr ?_⟩
      refine ⟨⟨word, name⟩, ?_, hn⟩
      show _ ∈ (t.insertAlias who ⟨word, name⟩).aliases who
      rw [aliases_insertAlias, if_pos rfl, (stableSort_perm _ _).mem_iff]
      exact List.mem_append_right _ List.mem_cons_self
    exact (hinserted.join hjoinable hjoin).quiet (notify_quiet hnotify)

end Service

end StompyMux.Communication
