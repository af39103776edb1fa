import Mathlib.Data.Finset.Erase
import StompyMux.Communication.Operations

-- Connections and disconnections keep the online lists right, through the aliases.
namespace StompyMux.Communication

open Library Library.Fallible
open StompyMux.World (ObjectId Kind)

-- The first session of a player sets the flag, the last one to end clears it.
def World.setConnected (w : World) (who : ObjectId) (connected : Bool) : World :=
  let objects := w.objects.modify who fun o =>
    let flags := if connected then insert .Connected o.flags else o.flags.erase .Connected
    { o with flags := flags }
  { w with objects := objects }

theorem World.get?_setConnected (w : World) (who : ObjectId) (connected : Bool) (p : ObjectId) :
    (w.setConnected who connected).objects.get? p =
      if p = who then (w.objects.get? who).map fun o =>
        let flags := if connected then insert .Connected o.flags else o.flags.erase .Connected
        { o with flags := flags }
      else w.objects.get? p := OrderedMap.get?_modify _ _ _ _

theorem World.eligible_setConnected_ne (w : World) {who p : ObjectId} (connected : Bool)
    (hne : p ≠ who) : (w.setConnected who connected).eligible p = w.eligible p := by
  unfold World.eligible
  rw [World.get?_setConnected, if_neg hne]

theorem World.eligible_setConnected (w : World) {who : ObjectId} {o : Object} (connected : Bool)
    (ho : w.objects.get? who = some o) (hplayer : o.kind = .Player) :
    (w.setConnected who connected).eligible who = connected := by
  unfold World.eligible
  rw [World.get?_setConnected, if_pos rfl, ho]
  cases connected <;> simp [hplayer]

theorem World.named_setConnected {w : World} (h : w.Named) (who : ObjectId) (connected : Bool) :
    (w.setConnected who connected).Named := by
  intro name c hc p hp o ho hplayer
  rw [World.get?_setConnected] at ho
  split at ho
  case isTrue heq =>
    obtain ⟨old, hold, rfl⟩ := Option.map_eq_some_iff.mp ho
    exact h name c hc p hp old (heq ▸ hold) hplayer
  case isFalse => exact h name c hc p hp o ho hplayer

namespace Service

variable {host : HostCallbacks} {config : Config} {start : String → List ChannelMessage}
  {s s' t : Service} {who : ObjectId} {connected : Bool}

def setConnected (s : Service) (who : ObjectId) (connected : Bool) : Service :=
  { s with world := s.world.setConnected who connected }

-- Channels that the player is on and whose aliases were not gone through still wait.
structure Awaiting (host : HostCallbacks) (config : Config) (start : String → List ChannelMessage)
    (who : ObjectId) (before : Service) (done : List ChannelAlias) (s : Service) : Prop where
  calm : Calm before s
  sound : ∃ excepted, Sound host config start excepted s ∧
    ∀ n p, excepted n = some p → p = who ∧
      (∃ c, before.world.channels.get? n = some c ∧ who ∈ c.members) ∧
      ∀ a ∈ done, before.world.name a.channel ≠ .ok n

theorem awaiting_setConnected (h : Whole host config start s) (connected : Bool) :
    Awaiting host config start who (s.setConnected who connected) []
      (s.setConnected who connected) where
  calm := Calm.refl _
  sound := by
    refine ⟨fun n => (s.world.channels.get? n).bind fun c =>
      if who ∈ c.members then some who else none, ⟨fun n c hc => ?_, h.history, h.complete⟩, ?_⟩
    · have hc : s.world.channels.get? n = some c := hc
      have hkept := h.channels n c hc
      rw [hc, Option.bind_some]
      have hother : ∀ p, p ≠ who →
          (s.setConnected who connected).world.eligible p = s.world.eligible p :=
        fun p hp => s.world.eligible_setConnected_ne connected hp
      split
      case isTrue => exact (hkept.except _).congr fun p hp => hother p fun heq => hp (congrArg some heq)
      case isFalse hout =>
        refine ⟨hkept.sorted, fun hinit => ⟨(hkept.online hinit).nodup, fun p _ => ?_⟩⟩
        rw [(hkept.online hinit).mem p nofun]
        by_cases heq : p = who
        · rw [heq]
          exact iff_of_false (fun hboth => hout hboth.1) fun hboth => hout hboth.1
        · rw [hother p heq]
    · intro n p hn
      obtain ⟨c, hc, hn⟩ := Option.bind_eq_some_iff.mp hn
      split at hn
      case isTrue hmem => exact ⟨(Option.some_inj.mp hn).symm, ⟨c, hc, hmem⟩, nofun⟩
      case isFalse => contradiction

theorem aliasTarget_eq_none {entry : ChannelAlias} (h : s.aliasTarget who entry = none) {n : String}
    (hn : s.world.name entry.channel = .ok n) {c : Channel}
    (hc : s.world.channels.get? n = some c) : who ∉ c.members := by
  unfold aliasTarget at h
  rw [hn] at h
  simp only [Except.toOption, Option.bind_some, hc, Option.map_eq_none_iff] at h
  intro hmem
  rw [← Channel.member_isSome_iff, h] at hmem
  contradiction

theorem aliasTarget_eq_some {entry : ChannelAlias} {n : String} {loud : Bool}
    (h : s.aliasTarget who entry = some (n, loud)) : s.world.name entry.channel = .ok n ∧
      ∃ c, s.world.channels.get? n = some c ∧ who ∈ c.members := by
  unfold aliasTarget at h
  obtain ⟨name, hname, h⟩ := Option.bind_eq_some_iff.mp h
  obtain ⟨c, hc, h⟩ := Option.bind_eq_some_iff.mp h
  obtain ⟨user, huser, h⟩ := Option.map_eq_some_iff.mp h
  obtain ⟨rfl, _⟩ := Prod.mk.inj h
  refine ⟨?_, c, hc, ?_⟩
  · cases hresult : s.world.name entry.channel with
    | ok found =>
        rw [hresult] at hname
        exact congrArg Except.ok (Option.some_inj.mp hname)
    | error e =>
        rw [hresult] at hname
        contradiction
  · rw [← Channel.member_isSome_iff, huser]
    rfl

-- One alias of the player is told; those done before stay as they are.
theorem Awaiting.alias {before : Service} {done : List ChannelAlias} {player : Object}
    {entry : ChannelAlias} (h : Awaiting host config start who before done s)
    (hconnected : before.world.eligible who = connected)
    (hok : s.aliasPresence host config who player connected entry = .ok s') :
    Awaiting host config start who before (done ++ [entry]) s' := by
  obtain ⟨hcalm, excepted, hsound, hwaiting⟩ := h
  have hname : before.world.name entry.channel = s.world.name entry.channel :=
    (World.name_congr hcalm.keys).symm
  unfold aliasPresence at hok
  split at hok
  case h_1 hnone =>
    have hquiet : Quiet s s' := by
      split at hok
      case isTrue => exact notify_quiet hok
      case isFalse =>
        rw [← Except.ok.inj hok]
        exact Quiet.refl s
    refine ⟨hcalm.trans hquiet.calm, excepted, hsound.quiet hquiet, fun n p hn => ?_⟩
    obtain ⟨hwho, ⟨c, hc, hmem⟩, hdone⟩ := hwaiting n p hn
    refine ⟨hwho, ⟨c, hc, hmem⟩, fun a ha heq => ?_⟩
    rcases List.mem_append.mp ha with hold | hnew
    · exact hdone a hold heq
    · rw [List.mem_singleton.mp hnew, hname] at heq
      have hmembers := hcalm.members n
      rw [hc, Option.map_some] at hmembers
      obtain ⟨c', hc', hsame⟩ := Option.map_eq_some_iff.mp hmembers
      exact aliasTarget_eq_none hnone heq hc' (hsame ▸ hmem)
  case h_2 name loud htarget =>
    obtain ⟨⟨used, users⟩, hused, hend⟩ := ok_of_bind hok
    obtain ⟨hresolved, c, hc, hmem⟩ := aliasTarget_eq_some htarget
    obtain ⟨hreconciled, hcalmUsed⟩ := onlineMembers_sound hsound hused
    have hpresent : Sound host config start (Function.update excepted name none)
        (used.updateChannel name fun c => c.present who connected) := by
      refine hreconciled.update (fun c' hc' => ?_) (fun c' => ?_) fun other hne =>
        Function.update_of_ne hne _ _
      · have hmembers := hcalmUsed.members name
        rw [hc', hc, Option.map_some, Option.map_some, Option.some_inj] at hmembers
        rw [Function.update_self]
        refine (hreconciled.channels name c' hc').present (fun p hp => (hwaiting name p hp).1)
          (hmembers ▸ hmem) ?_
        rw [eligible_congr (hcalm.trans hcalmUsed).objects]
        exact hconnected
      · cases connected <;> rfl
    have hcalmPresent : Calm used (used.updateChannel name fun c => c.present who connected) := by
      refine calm_update fun c' => ?_
      cases connected <;> rfl
    have htold : Sound host config start (Function.update excepted name none) s' ∧
        Calm (used.updateChannel name fun c => c.present who connected) s' := by
      split at hend
      case isTrue =>
        refine emitExcluding_ok hpresent hend fun n hn => Or.inl ?_
        have hsame : n = name := by
          rw [World.name_congr hcalmPresent.keys, World.name_congr hcalmUsed.keys,
            World.name_name hresolved] at hn
          exact (Except.ok.inj hn).symm
        rw [hsame, Function.update_self]
      case isFalse =>
        rw [← Except.ok.inj hend]
        exact ⟨hpresent, Calm.refl _⟩
    refine ⟨((hcalm.trans hcalmUsed).trans hcalmPresent).trans htold.2, _, htold.1, fun n p hn => ?_⟩
    by_cases heq : n = name
    · rw [heq, Function.update_self] at hn
      contradiction
    · rw [Function.update_of_ne heq] at hn
      obtain ⟨hwho, hon, hdone⟩ := hwaiting n p hn
      refine ⟨hwho, hon, fun a ha hfound => ?_⟩
      rcases List.mem_append.mp ha with hold | hnew
      · exact hdone a hold hfound
      · rw [List.mem_singleton.mp hnew, hname, hresolved] at hfound
        exact heq (Except.ok.inj hfound).symm

-- Each channel of the player has an alias, so that none waits once all are done.
theorem Valid.presence {o : Object} {address : Option String} (h : Valid host config start s)
    (ho : s.world.objects.get? who = some o) (hplayer : o.kind = .Player)
    (hok : (s.setConnected who connected).presence host config who connected address = .ok s') :
    Valid host config start s' := by
  obtain ⟨player, _, hok⟩ := ok_of_bind hok
  obtain ⟨t, ht, hend⟩ := ok_of_bind hok
  have helig : (s.setConnected who connected).world.eligible who = connected :=
    s.world.eligible_setConnected connected ho hplayer
  have hawaiting := foldlM_keeps
    (fun done t => Awaiting host config start who (s.setConnected who connected) done t)
    (fun done entry _ t u _ hdone hu => Awaiting.alias hdone helig hu)
    (awaiting_setConnected h.whole connected) ht
  obtain ⟨hcalm, excepted, hsound, hwaiting⟩ := hawaiting
  have hnamed : (s.setConnected who connected).world.Named :=
    World.named_setConnected h.named who connected
  have hall : excepted = fun _ => none := by
    funext n
    cases hn : excepted n with
    | none => rfl
    | some p =>
        obtain ⟨_, ⟨c, hc, hmem⟩, hdone⟩ := hwaiting n p hn
        have hfound := s.world.get?_setConnected who connected who
        rw [if_pos rfl, ho, Option.map_some] at hfound
        obtain ⟨a, ha, hname⟩ := hnamed n c hc who hmem _ hfound hplayer
        exact (hdone a ha hname).elim
  rw [hall] at hsound
  have hvalid : Valid host config start t :=
    ⟨hsound, hcalm.fewer.named hnamed, hcalm.fewer.spelled h.spelled⟩
  split at hend
  case isTrue => exact hvalid.emit hend
  case isFalse =>
    rw [← Except.ok.inj hend]
    exact hvalid

end Service

-- Runs of channel operations: nobody who should hear is dropped.

inductive ChannelOp
  | add (who : ObjectId) (channel word : String) (quiet trusted : Bool)
  | join (who : ObjectId) (channel : String) (quiet : Bool)
  | leave (who : ObjectId) (channel : String)
  | removeMember (who : ObjectId) (channel : String)
  | removeAlias (who : ObjectId) (word : String)
  | boot (actor who : ObjectId) (channel : String)
  | emit (channel message : String) (noHeader : Bool)
  | connect (who : ObjectId) (address : Option String)
  | disconnect (who : ObjectId)
  | flush

namespace Service

section

variable (host : HostCallbacks) (config : Config) (s : Service)

-- An operation that fails leaves everything as it was.
def attempt (result : Except Error Service) : Service :=
  match result with
  | .ok after => after
  | .error _ => s

-- The first session or the last one of a player, followed by presence.
def transition (who : ObjectId) (connected : Bool) (address : Option String) : Option Service :=
  match s.world.objects.get? who with
  | none => some s
  | some o =>
      if o.kind = .Player ∧ decide (.Connected ∈ o.flags) ≠ connected then
        ((s.setConnected who connected).presence host config who connected address).toOption
      else some s

def step : ChannelOp → Option Service
  | .add who channel word quiet trusted =>
      some (s.attempt (s.add host config who channel word quiet trusted))
  | .join who channel quiet => some (s.attempt (s.join host config who channel quiet))
  | .leave who channel => some (s.attempt (s.leave host config who channel))
  | .removeMember who channel => some (s.attempt (s.removeMember host config who channel))
  | .removeAlias who word => some (s.attempt (s.removeAlias host config who word))
  | .boot actor who channel => some (s.attempt (s.boot host config actor who channel))
  | .emit channel message noHeader => some (s.attempt (s.emit host config channel message noHeader))
  | .connect who address => s.transition host config who true address
  | .disconnect who => s.transition host config who false none
  | .flush => some { s with outbox := [] }

end

end Service

-- The callers of join: living objects, and players that have an alias for the channel.
def ChannelOp.Fair (w : World) : ChannelOp → Prop
  | .add who .. => ∀ o, w.objects.get? who = some o → o.kind ≠ .Garbage
  | .join who channel _ => w.Joinable who channel
  | _ => True

inductive Run (host : HostCallbacks) (config : Config) : Service → List ChannelOp → Service → Prop
  | nil (s : Service) : Run host config s [] s
  | cons {s t u : Service} {op : ChannelOp} {ops : List ChannelOp} (fair : op.Fair s.world)
      (step : s.step host config op = some t) (rest : Run host config t ops u) :
      Run host config s (op :: ops) u

-- Channels with no members.
structure World.Fresh (w : World) : Prop where
  users : ∀ name c, w.channels.get? name = some c → c.users = []
  online : ∀ name c, w.channels.get? name = some c → c.online = []
  history : ∀ name c, w.channels.get? name = some c → c.history.length ≤ HISTORY_LIMIT
  spelled : w.Spelled

def World.historyOf (w : World) (name : String) : List ChannelMessage :=
  ((w.channels.get? name).map Channel.history).getD []

namespace Service

variable {host : HostCallbacks} {config : Config} {start : String → List ChannelMessage}
  {s s' : Service}

theorem valid_of_fresh (h : s.world.Fresh) (hlog : s.emissions = []) :
    Valid host config s.world.historyOf s where
  whole := by
    refine ⟨fun name c hc => ⟨?_, fun _ => ?_⟩, fun name c hc => ?_, ?_⟩
    · rw [h.users name c hc]
      exact List.Pairwise.nil
    · refine ⟨?_, fun p _ => ?_⟩
      · rw [h.online name c hc]
        exact List.nodup_nil
      · unfold Channel.members
        rw [h.online name c hc, h.users name c hc]
        exact iff_of_false List.not_mem_nil fun hboth => List.not_mem_nil hboth.1
    · have hlines : linesOf s.emissions name = [] := by
        rw [hlog]
        rfl
      have hof : s.world.historyOf name = c.history := by
        unfold World.historyOf
        rw [hc]
        rfl
      unfold recent
      rw [hlines, hof, List.append_nil, Nat.sub_eq_zero_of_le (h.history name c hc), List.drop_zero]
    · rw [hlog]
      exact nofun
  named := by
    intro name c hc p hp
    unfold Channel.members at hp
    rw [h.users name c hc] at hp
    contradiction
  spelled := h.spelled

theorem Valid.attempt (h : Valid host config start s) {result : Except Error Service}
    (hok : ∀ after, result = .ok after → Valid host config start after) :
    Valid host config start (s.attempt result) := by
  cases result with
  | ok after => exact hok after rfl
  | error e => exact h

theorem Valid.transition {who : ObjectId} {connected : Bool} {address : Option String}
    (h : Valid host config start s)
    (hstep : s.transition host config who connected address = some s') :
    Valid host config start s' := by
  unfold Service.transition at hstep
  split at hstep
  case h_1 =>
    rw [← Option.some_inj.mp hstep]
    exact h
  case h_2 o ho =>
    split at hstep
    case isTrue hchange =>
      cases hresult : (s.setConnected who connected).presence host config who connected address with
      | ok after =>
          rw [hresult] at hstep
          rw [← Option.some_inj.mp hstep]
          exact h.presence ho hchange.1 hresult
      | error e =>
          rw [hresult] at hstep
          contradiction
    case isFalse =>
      rw [← Option.some_inj.mp hstep]
      exact h

-- One case for each operation of the service.
theorem Valid.step (h : Valid host config start s) {op : ChannelOp} (hfair : op.Fair s.world)
    (hstep : s.step host config op = some s') : Valid host config start s' := by
  cases op with
  | connect who address => exact h.transition hstep
  | disconnect who => exact h.transition hstep
  | flush =>
      rw [← Option.some_inj.mp hstep]
      exact ⟨h.whole.congr rfl rfl rfl, h.named, h.spelled⟩
  | add who channel word quiet trusted =>
      rw [← Option.some_inj.mp hstep]
      exact h.attempt fun after hok => h.add hfair hok
  | join who channel quiet =>
      rw [← Option.some_inj.mp hstep]
      exact h.attempt fun after hok => h.join hfair hok
  | leave who channel =>
      rw [← Option.some_inj.mp hstep]
      exact h.attempt fun after hok => h.leave hok
  | removeMember who channel =>
      rw [← Option.some_inj.mp hstep]
      exact h.attempt fun after hok => h.removeMember hok
  | removeAlias who word =>
      rw [← Option.some_inj.mp hstep]
      exact h.attempt fun after hok => h.removeAlias hok
  | boot actor who channel =>
      rw [← Option.some_inj.mp hstep]
      exact h.attempt fun after hok => h.boot hok
  | emit channel message noHeader =>
      rw [← Option.some_inj.mp hstep]
      exact h.attempt fun after hok => h.emit hok

theorem Valid.run {ops : List ChannelOp} (h : Valid host config start s)
    (hrun : Run host config s ops s') : Valid host config start s' := by
  induction hrun with
  | nil => exact h
  | cons fair step rest ih => exact ih (h.step fair step)

end Service

-- Everyone who should hear a channel is on its online list and gets each line once: every call that
-- emits puts one line on record with the output before and after it, and the lines on record are
-- complete.
theorem channel_runs (host : HostCallbacks) (config : Config) (s s' : Service)
    (ops : List ChannelOp) (hfresh : s.world.Fresh) (hlog : s.emissions = [])
    (hrun : Run host config s ops s') :
    (∀ name c, s'.world.channels.get? name = some c →
      c.users.Pairwise (fun a b => a.who < b.who) ∧
      (c.onlineInitialized = true → c.online.Nodup ∧
        ∀ p, p ∈ c.online ↔ p ∈ c.members ∧ s'.world.eligible p = true) ∧
      c.history = recent (s.world.historyOf name ++ linesOf s'.emissions name)) ∧
    (∀ e ∈ s'.emissions, e.Complete host config) ∧
    ∀ t t' channel message noHeader excluded,
      Service.emitExcluding host config t channel message noHeader excluded = .ok t' →
      ∃ e, Emission.Spoken t t' channel (Service.headed channel message noHeader) excluded e := by
  have hvalid := (Service.valid_of_fresh hfresh hlog).run hrun
  refine ⟨fun name c hc => ⟨?_, fun hinit => ?_, ?_⟩, hvalid.whole.complete,
    fun t t' _ _ _ _ hemit => Service.emitExcluding_spoken hemit⟩
  · exact (hvalid.whole.channels name c hc).sorted
  · have hexact := (hvalid.whole.channels name c hc).online hinit
    exact ⟨hexact.nodup, fun p => hexact.mem p nofun⟩
  · exact hvalid.whole.history name c hc

-- Two connected players, the remains of an object and one channel.
def probeHost : HostCallbacks where
  lockPasses _ _ _ _ := .ok (.Decision true)
  channelLeave _ _ _ := .ok ()
  send _ outbox _ _ := .ok outbox
  wallTime := Int.ofNat

def probeConfig : Config := ⟨1000, 100, 100000, true⟩

def probeChannel : Channel := ⟨"Probe", none, 127, 0, [], [], 1, 0, [], false⟩

def probeService : Service where
  world :=
    ⟨⟨[(2, ⟨"Ann", .Player, none, {.Connected}⟩), (3, ⟨"", .Garbage, none, ∅⟩),
        (4, ⟨"Bob", .Player, none, {.Connected}⟩)], by decide⟩,
      ⟨[("Probe", probeChannel)], List.pairwise_singleton _ _⟩, OrderedMap.empty⟩
  outbox := []
  readings := 0
  emissions := []

theorem probeService_fresh : probeService.world.Fresh := by
  have hchannel : ∀ name c, probeService.world.channels.get? name = some c → c = probeChannel := by
    intro name c hc
    have hentry := (OrderedMap.get?_eq_some_iff _ _ _).mp hc
    exact (Prod.mk.inj (List.mem_singleton.mp hentry)).2
  refine ⟨fun name c hc => ?_, fun name c hc => ?_, fun name c hc => ?_, fun p => List.Pairwise.nil⟩
  · rw [hchannel name c hc]
    rfl
  · rw [hchannel name c hc]
    rfl
  · rw [hchannel name c hc]
    decide

def probeFirst : Service :=
  probeService.attempt (probeService.add probeHost probeConfig 2 "Probe" "p" true true)

def probeJoined : Service :=
  probeFirst.attempt (probeFirst.add probeHost probeConfig 4 "Probe" "c" true true)

def probeSpoken : Service :=
  probeJoined.attempt (probeJoined.emit probeHost probeConfig "Probe" "hello" false)

-- The line comes to each of the two once.
theorem channel_runs_probe :
    ∃ c e, probeSpoken.world.channels.get? "Probe" = some c ∧
      (c.online.Nodup ∧ ∀ p, p ∈ c.online ↔ p ∈ c.members ∧ probeSpoken.world.eligible p = true) ∧
      c.members = [2, 4] ∧ e ∈ probeSpoken.emissions ∧ e.Complete probeHost probeConfig ∧
      probeSpoken.outbox = e.before ++ [(4, "[[Probe] hello"), (2, "[[Probe] hello")] := by
  have hfair : ∀ who, who ≠ 3 → ∀ channel word,
      ChannelOp.Fair probeService.world (.add who channel word true true) := by
    intro who hwho _ _ o ho hkind
    have hentry := (OrderedMap.get?_eq_some_iff _ _ _).mp ho
    simp only [probeService, List.mem_cons, Prod.mk.injEq, List.not_mem_nil, or_false] at hentry
    rcases hentry with ⟨-, rfl⟩ | ⟨rfl, -⟩ | ⟨-, rfl⟩
    · exact Kind.noConfusion hkind
    · exact hwho rfl
    · exact Kind.noConfusion hkind
  have hrun : Run probeHost probeConfig probeService [.add 2 "Probe" "p" true true,
      .add 4 "Probe" "c" true true, .emit "Probe" "hello" false] probeSpoken :=
    .cons (hfair 2 (by decide) _ _) rfl
      (.cons (hfair 4 (by decide) "Probe" "c") rfl (.cons trivial rfl (.nil _)))
  obtain ⟨hlists, hcomplete, hspoken⟩ :=
    channel_runs probeHost probeConfig probeService _ _ probeService_fresh rfl hrun
  obtain ⟨c, hc, hstate⟩ : ∃ c, probeSpoken.world.channels.get? "Probe" = some c ∧
      c.onlineInitialized = true ∧ c.members = [2, 4] := ⟨_, rfl, rfl, rfl⟩
  obtain ⟨e, he⟩ := hspoken probeJoined probeSpoken "Probe" "hello" false none rfl
  have hlogged : e ∈ probeSpoken.emissions := by
    rw [he.emissions]
    exact List.mem_append_right _ (List.mem_singleton_self e)
  refine ⟨c, e, hc, (hlists "Probe" c hc).2.1 hstate.1, hstate.2, hlogged, hcomplete e hlogged, ?_⟩
  rw [he.before]
  rfl

-- Someone on the channel is on the online list although not eligible, or the other way round.
def probeMislists (who : ObjectId) (s : Service) : Bool :=
  (s.world.channels.get? "Probe").any fun c =>
    c.onlineInitialized && c.members.contains who &&
      s.world.eligible who != c.online.contains who

theorem mislists_of_probe {ops : List ChannelOp} {who : ObjectId}
    (h : ((ops.foldlM (Service.step probeHost probeConfig) probeService).any
      (probeMislists who)) = true) : ∃ s' c,
    ops.foldlM (Service.step probeHost probeConfig) probeService = some s' ∧
    s'.world.channels.get? "Probe" = some c ∧ c.onlineInitialized = true ∧ who ∈ c.members ∧
      ¬ (who ∈ c.online ↔ s'.world.eligible who = true) := by
  obtain ⟨s', hs', h⟩ := (Option.any_eq_true _ _).mp h
  obtain ⟨c, hc, h⟩ := (Option.any_eq_true _ _).mp h
  simp only [Bool.and_eq_true, List.contains_iff_mem, bne_iff_ne] at h
  obtain ⟨⟨hinit, hmem⟩, hne⟩ := h
  refine ⟨s', c, hs', hc, hinit, hmem, fun hiff => hne (Bool.eq_iff_iff.mpr ?_)⟩
  rw [List.contains_iff_mem]
  exact hiff.symm

-- A player who joined without an alias is lost when coming back; remains may be listed.
theorem joins_mislist :
    (∃ s' c, [ChannelOp.join 2 "Probe" true, .disconnect 2, .emit "Probe" "hello" false,
        .connect 2 none].foldlM (Service.step probeHost probeConfig) probeService = some s' ∧
      s'.world.channels.get? "Probe" = some c ∧ c.onlineInitialized = true ∧ 2 ∈ c.members ∧
        ¬ (2 ∈ c.online ↔ s'.world.eligible 2 = true)) ∧
    ∃ s' c, [ChannelOp.join 3 "Probe" true].foldlM (Service.step probeHost probeConfig)
        probeService = some s' ∧
      s'.world.channels.get? "Probe" = some c ∧ c.onlineInitialized = true ∧ 3 ∈ c.members ∧
        ¬ (3 ∈ c.online ↔ s'.world.eligible 3 = true) :=
  ⟨mislists_of_probe (by decide +kernel), mislists_of_probe (by decide +kernel)⟩

end StompyMux.Communication
