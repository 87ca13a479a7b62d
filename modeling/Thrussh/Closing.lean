import Thrussh.Client.Confirmation
import Thrussh.Client.Service
import Thrussh.Server.Replies
import Thrussh.Tracing

/-!
# The end of a channel

A CHANNEL_CLOSE takes the channel out of the table before the handler gets its
turn, and is not answered: with the entry gone a `close` of the handler queues
nothing. From then on no call on the channel comes to anything, until an entry
is made under the same number. A CHANNEL_CLOSE that a server queues itself
leaves the entry where it is.
-/

namespace Thrussh

open Lib

/-- Whether a packet closes a channel. -/
def Closes (id : UInt32) (buf : Bytes) : Prop :=
  buf.head? = some msg.CHANNEL_CLOSE ∧ ∃ r, (reader buf 1).readU32 = .ok (id, r)

theorem closes_iff (id : UInt32) (buf : Bytes) : Closes id buf ↔
    buf.head? = some msg.CHANNEL_CLOSE ∧
      (reader buf 1).readU32.toOption.map Prod.fst = some id := by
  refine and_congr_right fun _ => ?_
  constructor
  · rintro ⟨r, hread⟩
    rw [hread]
    rfl
  · intro hread
    cases hresult : (reader buf 1).readU32 with
    | error e =>
      rw [hresult] at hread
      cases hread
    | ok res =>
      rw [hresult] at hread
      cases hread
      exact ⟨res.2, rfl⟩

instance (id : UInt32) (buf : Bytes) : Decidable (Closes id buf) :=
  decidable_of_iff' _ (closes_iff id buf)

/-- Nothing is done to a channel until an entry is made for its number. -/
def Untouched (id : UInt32) (since : List Deed) : Prop :=
  ∀ d ∈ since.takeWhile (· ≠ .opened id), d.channel ≠ some id

/-- What is done once an entry has been made, or by others. -/
theorem Untouched.append {id : UInt32} {l m : List Deed} (h : Untouched id l)
    (hm : .opened id ∈ l ∨ ∀ d ∈ m, d.channel ≠ some id) : Untouched id (l ++ m) := by
  intro d hd
  rw [List.takeWhile_append] at hd
  split at hd
  · rename_i hall
    rcases List.mem_append.mp hd with hd | hd
    · refine h d ?_
      rwa [(List.takeWhile_prefix _).eq_of_length hall]
    · refine hm.elim (fun hopened => ?_) fun hothers => hothers d ((List.takeWhile_subset _) hd)
      have hmem : .opened id ∈ l.takeWhile (· ≠ .opened id) := by
        rwa [(List.takeWhile_prefix _).eq_of_length hall]
      have hne := List.all_eq_true.mp List.all_takeWhile _ hmem
      simp at hne
  · exact h d hd

section
variable [Deps]

/-- What becomes of a session whose entry for a number has been dropped. -/
structure Vacant (id : UInt32) (start enc : Encrypted) (since : List Deed) : Prop where
  /-- What has been noted since accounts for what has been queued. -/
  accounts : Accounts start enc since
  /-- Nothing has been done to the channel. -/
  untouched : Untouched id since
  /-- There is no entry, unless one has been made. -/
  absent : .opened id ∈ since ∨ enc.channels id = none

section
variable {enc enc' start : Encrypted} {id : UInt32}

/-- Another entry is changed. -/
theorem setChannel_other (enc : Encrypted) {id' : UInt32} (ch : Channel) (hne : id ≠ id') :
    (enc.setChannel id' ch).channels id = enc.channels id :=
  Function.update_of_ne hne _ _

/-- What is transmitted makes no entry. -/
theorem Transmits.absent {id' : UInt32} {packet : Channel → Bytes → Bytes}
    {deed : UInt32 → List Bytes → Deed} (h : Transmits packet deed id' enc enc')
    (habsent : enc.channels id = none) : enc'.channels id = none := by
  cases h with
  | unknown _ => exact habsent
  | known hch =>
    have hne : id ≠ id' := by
      rintro rfl
      rw [hch] at habsent
      cases habsent
    rw [note_channels, setChannel_other _ _ hne, pushAll_channels, habsent]

/-- A step makes an entry for a number only when it notes so. -/
theorem Does.absent_or (h : Does enc enc') (habsent : enc.channels id = none) :
    enc'.deeds = enc.deeds ++ [.opened id] ∨ enc'.channels id = none := by
  cases h with
  | idle hchannels _ _ => exact .inr ((congrFun hchannels id).trans habsent)
  | push _ => exact .inr habsent
  | signed _ => exact .inr habsent
  | @channel id' ch ch' hch _ =>
    have hne : id ≠ id' := by
      rintro rfl
      rw [hch] at habsent
      cases habsent
    exact .inr ((setChannel_other enc ch' hne).trans habsent)
  | @opened id' ch _ =>
    by_cases hid : id = id'
    · subst hid
      exact .inl rfl
    · exact .inr ((setChannel_other enc ch hid).trans habsent)
  | removed id' =>
    right
    by_cases hid : id = id'
    · subst hid
      exact Function.update_self ..
    · exact (Function.update_of_ne hid _ _).trans habsent
  | data h => exact .inr ((submit_transmits h).absent habsent)
  | byte id' m =>
    right
    unfold Encrypted.byte
    cases enc.channels id' with
    | none => exact habsent
    | some ch => exact habsent
  | flushPending h => exact .inr ((flushPending_transmits h).absent habsent)

/-- Every step leaves the channel alone, until an entry is made. -/
theorem Vacant.step {since : List Deed} (h : Vacant id start enc since) (hdoes : Does enc enc') :
    ∃ since', Vacant id start enc' since' := by
  obtain ⟨noted, haccounts, hpresent⟩ := hdoes.accounts
  refine ⟨since ++ noted, h.accounts.trans haccounts, h.untouched.append ?_, ?_⟩
  · exact h.absent.imp_right fun habsent d hd hchannel => hpresent d hd id hchannel habsent
  · rcases h.absent with hopened | habsent
    · exact .inl (List.mem_append_left _ hopened)
    · rcases hdoes.absent_or habsent with hdeeds | hnone
      · rw [haccounts.deeds, List.append_cancel_left_eq] at hdeeds
        rw [hdeeds]
        exact .inl (List.mem_append_right _ List.mem_cons_self)
      · exact .inr hnone

/-- What becomes of a session behind the removal of a channel. -/
theorem Deeds.vacant (h : Deeds (enc.removeChannel id) enc') :
    ∃ since, Vacant id enc enc' since := by
  induction h with
  | refl =>
    refine ⟨[], .of_same rfl rfl, fun d hd => ?_, .inr (Function.update_self ..)⟩
    cases hd
  | tail _ hstep ih =>
    obtain ⟨since, hsince⟩ := ih
    exact hsince.step hstep

end

/-! ### Sessions -/

section
variable {C : Type} {s t : CommonSession C} {start : Encrypted} {id : UInt32}

/-- What holds of an encrypted session holds of a related one. -/
theorem encrypted_of_rel {R : Encrypted → Encrypted → Prop} {p q : Encrypted → Prop}
    (h : ∃ enc, s.encrypted = some enc ∧ p enc) (hrel : Option.Rel R s.encrypted t.encrypted)
    (hstep : ∀ enc enc', R enc enc' → p enc → q enc') :
    ∃ enc, t.encrypted = some enc ∧ q enc := by
  obtain ⟨enc, henc, hp⟩ := h
  rw [henc] at hrel
  cases ht : t.encrypted with
  | none =>
    rw [ht] at hrel
    cases hrel
  | some enc' =>
    rw [ht] at hrel
    cases hrel with
    | some hrel => exact ⟨enc', rfl, hstep enc enc' hrel hp⟩

/-- A flush leaves what a session stands at. -/
theorem zoom_flush_standing {S M : Type} [SessionConfig C] {d : Driver C S M} {P : Bytes → Prop}
    (hd : d.Behaves P) (s : S) :
    Ends (zoom d.common d.setCommon flush) s
      (fun _ t => (d.common (Loop.clearWrite d t)).standing = (d.common s).standing)
      fun t => (d.common t).standing = (d.common s).standing := by
  have hflush := (flush_final (d.common s)).standing_eq
  unfold Ends zoom
  cases hresult : flush (d.common s) with
  | ok a c =>
    rw [hresult] at hflush
    dsimp only
    unfold Loop.clearWrite
    rw [hd.common_set, hd.common_set]
    exact hflush
  | error e c =>
    rw [hresult] at hflush
    dsimp only
    rw [hd.common_set]
    exact hflush

/-- What the packet of an event brings about, and the programs of the role keep,
holds from the event on. -/
theorem Loop.iterate_brings {S M : Type} [SessionConfig C] {d : Driver C S M}
    {P : Bytes → Prop} {K : S → Prop} (hbehaves : d.Behaves P)
    (hd : d.Keeps (fun s => (d.common s).Sound ∧ K s) K) {l : Loop S}
    (hl : Loop.Kept (fun s => (d.common s).Sound) (fun _ => True) l) {e : Event M} {p : S × Bytes}
    (hp : p ∈ Loop.given d l e) (hreply : Ends (d.reply p.2) p.1 (fun _ t => K t) K) :
    Loop.Kept (fun s => (d.common s).Sound ∧ K s) K (l.iterate d e) := by
  have hsound := Loop.given_kept hbehaves.keeps_sound hl hp
  have hafter := Loop.iterate_kept hbehaves.keeps_sound hl e
  have hreplies := Loop.iterate_given hp
  have hboth := (hbehaves.keeps_sound.reply p.1 p.2 hsound).and hreply
  unfold Ends at hboth
  have hends : K (l.iterate d e).session := by
    cases hreplies with
    | returned hrun hflush ht =>
      rw [hrun] at hboth
      have hcleared := hd.flush _ hboth
      unfold Ends at hcleared
      rw [hflush] at hcleared
      rw [ht]
      exact (hd.settle _ hcleared).2
    | stuck hrun hflush =>
      rw [hrun] at hboth
      have hended := hd.flush _ hboth
      unfold Ends at hended
      rw [hflush] at hended
      exact hended
    | failed hrun =>
      rw [hrun] at hboth
      exact hboth.2
  exact ⟨fun hrunning => ⟨hafter.running hrunning, hends⟩, hends⟩

/-- The entry of a channel is dropped, and nothing else happens. -/
structure CommonSession.Drops (id : UInt32) (s t : CommonSession C) : Prop where
  /-- The entry is gone. -/
  absent : t.entry id = none
  /-- The other entries stay. -/
  others : ∀ id', id' ≠ id → t.entry id' = s.entry id'
  /-- Nothing is queued. -/
  emitted : t.emitted = s.emitted
  /-- Nothing is noted. -/
  deeds : t.encrypted.map (·.deeds) = s.encrypted.map (·.deeds)

/-- A session that differs from another one by the removal of a channel. -/
theorem CommonSession.Drops.of_removed {u : CommonSession C} {enc' : Encrypted}
    (hu : u.encrypted = some enc')
    (hsame : u.standing.map Prod.snd = s.standing.map Prod.snd) :
    s.Drops id (u.modifyEnc (·.removeChannel id)) := by
  have ht : (u.modifyEnc (·.removeChannel id)).encrypted = some (enc'.removeChannel id) := by
    simp only [CommonSession.modifyEnc, hu, Option.map_some]
  have hentry := entry_of_standing hsame
  have hemitted := emitted_of_standing hsame
  have hrel := rel_of_standing hsame
  constructor
  · rw [entry_some ht]
    exact Function.update_self ..
  · intro id' hid
    rw [entry_some ht, ← hentry, entry_some hu]
    exact Function.update_of_ne hid _ _
  · rw [emitted_some ht, ← hemitted, emitted_some hu]
    rfl
  · rw [ht]
    rw [hu] at hrel
    generalize s.encrypted = b at hrel
    cases hrel with
    | some hrel => exact congrArg some hrel.2.2

/-- A session that has dropped a channel comes of its removal. -/
theorem CommonSession.Drops.since {enc : Encrypted} (h : s.Drops id t) (hs : s.encrypted = some enc)
    (ht : t.encrypted.isSome = true) : t.Since (enc.removeChannel id) := by
  obtain ⟨enc', henc'⟩ := Option.isSome_iff_exists.mp ht
  have habsent : (enc.removeChannel id).channels id = none := Function.update_self ..
  refine ⟨enc', henc', .single (.idle ?_ ?_ ?_)⟩
  · funext id'
    rw [← entry_some henc' id']
    by_cases hid : id' = id
    · subst hid
      rw [h.absent, habsent]
    · rw [h.others id' hid, entry_some hs]
      exact (Function.update_of_ne hid _ _).symm
  · rw [← emitted_some henc', h.emitted, emitted_some hs]
    rfl
  · have hdeeds := h.deeds
    rw [henc', hs] at hdeeds
    exact Option.some.inj hdeeds

/-- What a handler does goes on with an encrypted session. -/
theorem CommonSession.Since.busy {S : Type} [SessionConfig C] {P : Bytes → Prop}
    {f : S → CommonSession C} {r : S → S → Prop} (hr : ∀ u v, r u v → Busy P (f u) (f v)) {u v : S}
    (hu : (f u).Since start) (h : Relation.ReflTransGen r u v) : (f v).Since start := by
  induction h with
  | refl => exact hu
  | tail _ hstep ih => exact ih.goes (Turn.busy (hr _ _ hstep)).goes

/-- In a run in which the handler's turn behind a CHANNEL_CLOSE begins with the removal of the
channel, nothing is done to the channel from then on, until an entry is made for its number. -/
theorem Loop.run_vacant {S M : Type} [SessionConfig C] {d : Driver C S M} {P : Bytes → Prop}
    (hd : d.Behaves P) {l : Loop S}
    (hl : Loop.Kept (fun s => (d.common s).Sound) (fun _ => True) l) {e : Event M} {p : S × Bytes}
    (hp : p ∈ Loop.given d l e) {enc enc' : Encrypted}
    (hreply : (d.common (final (d.reply p.2 p.1))).Since (enc.removeChannel id))
    (after : List (Event M)) (henc' : (d.common (l.run d (e :: after)).session).encrypted = some enc') :
    ∃ since, Vacant id enc enc' since := by
  have hsince := hd.keeps_since (enc.removeChannel id)
  have hbegins := iterate_brings hd hsince hl hp (.of_final hreply)
  obtain ⟨last, hlast, hdeeds⟩ := (run_kept hsince hbegins after).ended
  obtain rfl : last = enc' := Option.some.inj (hlast.symm.trans henc')
  exact hdeeds.vacant

end

/-! ### The server -/

namespace Server

section
variable {handler : Handler} {s t : Session} {enc : Encrypted} {id : UInt32} {buf : Bytes}

/-- A `close` of a channel that is not in the table does nothing. -/
theorem close_absent (h : s.common.entry id = none) : runCall (.close id) s = .ok () s := by
  have hcommon : s.common.byte id msg.CHANNEL_CLOSE = s.common := by
    unfold CommonSession.byte CommonSession.modifyEnc
    cases henc : s.common.encrypted with
    | none =>
      rw [Option.map_none, ← henc]
    | some enc =>
      rw [entry_some henc] at h
      simp only [Option.map_some, Encrypted.byte, h]
      rw [← henc]
  have hrun : runCall (.close id) s =
      .ok () { s with common := s.common.byte id msg.CHANNEL_CLOSE } := rfl
  rw [hrun, hcommon]

/-- A `close` of a channel of the table queues one packet and leaves the table. -/
theorem close_present {ch : Channel} (h : s.common.entry id = some ch) :
    ∃ t, runCall (.close id) s = .ok () t ∧ t.common.entry = s.common.entry ∧
      t.common.emitted = s.common.emitted ++ [msg.CHANNEL_CLOSE :: be32 ch.recipientChannel] := by
  cases henc : s.common.encrypted with
  | none =>
    rw [entry_none henc] at h
    cases h
  | some enc =>
    rw [entry_some henc] at h
    have hbyte : (s.common.byte id msg.CHANNEL_CLOSE).encrypted =
        some (enc.byte id msg.CHANNEL_CLOSE) := by
      simp only [CommonSession.byte, CommonSession.modifyEnc, henc, Option.map_some]
    simp only [Encrypted.byte, h] at hbyte
    refine ⟨{ s with common := s.common.byte id msg.CHANNEL_CLOSE }, rfl, ?_, ?_⟩
    · funext id'
      rw [entry_some hbyte, entry_some henc]
      rfl
    · rw [emitted_some hbyte, emitted_some henc]
      rfl

/-- A CHANNEL_CLOSE is served: the handler has its turn when the entry is gone. -/
theorem reply_close (handler : Handler) (hsettled : s.Settled)
    (hout : ¬ s.common.InExchange buf) (hcloses : Closes id buf) :
    ∃ u : Session, reply handler buf s = finish handler (.channelClose id) u ∧
      s.common.Drops id u.common ∧ u.common.encrypted.isSome = true := by
  obtain ⟨hhead, r, hid⟩ := hcloses
  obtain ⟨v, hstate, hignores, hvsettled⟩ := serverReadState_settled handler buf hsettled
  obtain ⟨enc', henc'⟩ := encrypted_of_settled hvsettled
  refine ⟨{ v with common := v.common.modifyEnc (·.removeChannel id) }, ?_,
    .of_removed henc' hignores.standing, ?_⟩
  case refine_2 => simp only [CommonSession.modifyEnc, henc', Option.map_some, Option.isSome_some]
  rw [reply_state handler hout, hstate]
  have hserved : serverReadAuthenticated handler buf v = serverReadChannelClose handler buf v := by
    unfold serverReadAuthenticated
    rw [hhead]
    rfl
  rw [hserved]
  unfold serverReadChannelClose
  rw [run_bind, run_lift hid]
  dsimp only
  rw [run_bind]
  rfl

end

end Server

/-! ### The client -/

namespace Client

section
variable {app : Application} {s : Session} {id : UInt32} {buf : Bytes}

/-- A CHANNEL_CLOSE is served: the handler has its turn when the entry is gone. -/
theorem reply_close (app : Application) (hsound : s.common.Sound) (hsettled : s.Settled)
    (hout : ¬ s.common.InExchange buf) (hcloses : Closes id buf) :
    ∃ u : Session, reply app buf s = finish app (.channelClose id) u ∧
      s.common.Drops id u.common ∧ u.common.encrypted.isSome = true := by
  obtain ⟨hhead, r, hid⟩ := hcloses
  have hsame : s.Settled := hsettled
  obtain ⟨enc, henc, -⟩ := hsame
  refine ⟨{ s with common := s.common.modifyEnc (·.removeChannel id) }, ?_,
    .of_removed henc rfl, ?_⟩
  · rw [reply_state app hsound hout, clientReadState_settled app hsettled]
    have hserved : clientReadAuthenticated app buf s = clientReadChannelClose app buf s := by
      unfold clientReadAuthenticated
      rw [hhead]
      rfl
    rw [hserved]
    unfold clientReadChannelClose
    rw [run_bind, run_lift hid]
    dsimp only
    rw [run_bind]
    rfl
  · simp only [CommonSession.modifyEnc, henc, Option.map_some, Option.isSome_some]

end

end Client

/-! ### Runs -/

/-- In every run of either role, when a CHANNEL_CLOSE is served the entry of its
channel is dropped and nothing is queued before the handler has its turn, in
which a `close` of the channel queues nothing either. From then on what the
session notes accounts for every packet of a channel that it queues, and nothing
is done to the channel until an entry is made under its number. A `close` of a
channel of the table queues a CHANNEL_CLOSE and leaves the table. -/
theorem close_drops :
    (∀ config handler sshid world l, Server.runStream config handler sshid world = .ok l →
      ∀ before e, ∀ p ∈ Loop.given (Server.driver handler) (l.run (Server.driver handler) before) e,
        p.1.Settled → ¬ p.1.common.InExchange p.2 → ∀ id, Closes id p.2 →
        (∃ u, Server.reply handler p.2 p.1 = Server.finish handler (.channelClose id) u ∧
          p.1.common.Drops id u.common ∧ Server.runCall (.close id) u = .ok () u) ∧
        ∀ enc after enc', p.1.common.encrypted = some enc →
          ((l.run (Server.driver handler) before).run (Server.driver handler)
            (e :: after)).session.common.encrypted = some enc' →
          ∃ since, Vacant id enc enc' since) ∧
    (∀ (s : Server.Session) id ch, s.common.entry id = some ch →
      ∃ t, Server.runCall (.close id) s = .ok () t ∧ t.common.entry = s.common.entry ∧
        t.common.emitted = s.common.emitted ++ [msg.CHANNEL_CLOSE :: be32 ch.recipientChannel]) ∧
    (∀ config app sshid world l, Client.connectStream config app sshid world = .ok l →
      ∀ before e, ∀ p ∈ Loop.given (Client.driver app) (l.run (Client.driver app) before) e,
        p.1.Settled → ¬ p.1.common.InExchange p.2 → ∀ id, Closes id p.2 →
        (∃ u, Client.reply app p.2 p.1 = Client.finish app (.channelClose id) u ∧
          p.1.common.Drops id u.common) ∧
        ∀ enc after enc', p.1.common.encrypted = some enc →
          ((l.run (Client.driver app) before).run (Client.driver app)
            (e :: after)).session.common.encrypted = some enc' →
          ∃ since, Vacant id enc enc' since) := by
  refine ⟨?_, fun s id ch hch => Server.close_present hch, ?_⟩
  · intro config handler sshid world l hl before e p hp hsettled hout id hcloses
    have hbehaves := Server.driver_behaves (P := fun _ => True) (fun _ _ => trivial) handler
    obtain ⟨s, output, hs, rfl⟩ := Server.runStream_start hl
    have hkept := Loop.run_kept hbehaves.keeps_sound
      (Loop.start_kept hbehaves.keeps_sound hs.sound output) before
    obtain ⟨u, hreply, hdrops, hu⟩ := Server.reply_close handler hsettled hout hcloses
    refine ⟨⟨u, hreply, hdrops, Server.close_absent hdrops.absent⟩, ?_⟩
    intro enc after enc' henc henc'
    refine Loop.run_vacant hbehaves hkept hp ?_ after henc'
    have hmoves : Moves (Server.Over (Busy ConnectionPacket))
      (Server.finish handler (.channelClose id)) := Server.finish_moves (fun _ h => h) handler _
    change CommonSession.Since _ (final (Server.reply handler p.2 p.1)).common
    rw [hreply]
    exact .busy (fun _ _ h => h.common) (hdrops.since henc hu) (hmoves u)
  · intro config app sshid world l hl before e p hp hsettled hout id hcloses
    have hbehaves := Client.driver_behaves (P := fun _ => True) (fun _ _ => trivial) app
      fun _ _ _ _ => trivial
    obtain ⟨s, output, hs, rfl⟩ := Client.connectStream_start hl
    have hkept := Loop.run_kept hbehaves.keeps_sound
      (Loop.start_kept hbehaves.keeps_sound hs.sound output) before
    have hsound := Loop.given_kept hbehaves.keeps_sound hkept hp
    obtain ⟨u, hreply, hdrops, hu⟩ := Client.reply_close app hsound hsettled hout hcloses
    refine ⟨⟨u, hreply, hdrops⟩, ?_⟩
    intro enc after enc' henc henc'
    refine Loop.run_vacant hbehaves hkept hp ?_ after henc'
    have hmoves : Moves (Client.Over (Busy ConnectionPacket))
      (Client.finish app (.channelClose id)) := Client.finish_moves (fun _ h => h) app _
    change CommonSession.Since _ (final (Client.reply app p.2 p.1)).common
    rw [hreply]
    exact .busy (fun _ _ h => h) (hdrops.since henc hu) (hmoves u)

end

/-- A server with one channel, whose closing has arrived. -/
def Server.closing : List (Event (UInt32 × ChannelMsg)) :=
  Concrete.authenticated ++ [.arrive (Concrete.sealed Concrete.sessionOpen), .read,
    .arrive (Concrete.sealed (msg.CHANNEL_CLOSE :: be32 2))]

/-- A client with one channel, whose closing has arrived. -/
def Client.closing : List (Event Client.Msg) :=
  Client.opened ++ [.arrive (Concrete.sealed (msg.CHANNEL_CLOSE :: be32 2))]

/-- A handler that closes a channel as soon as it is opened, and sends data on it then. -/
def Concrete.leaving : @Server.Handler Concrete.deps := fun _ callback _ =>
  match callback with
  | .channelOpenSession id => ⟨[.close id, .data id [1]], false, .accept, false, 0⟩
  | _ => ⟨[], false, .accept, false, 0⟩

/-- The client and the server have closed their channel, and both applications still have a
byte for it. -/
theorem close_drops_both :
    letI := Concrete.deps
    (∃ enc enc' since, (Concrete.server.run (Server.driver Concrete.handler) (Server.closing ++
      [.read, .message (some (2, .data [1])) 0])).session.common.encrypted = some enc' ∧
        (enc.channels 2).isSome = true ∧ Vacant 2 enc enc' since) ∧
    ∃ enc enc' since, (Concrete.client.run (Client.driver Concrete.application) (Client.closing ++
      [.read, .message (some (.data 2 [1])) 0])).session.common.encrypted = some enc' ∧
        (enc.channels 2).isSome = true ∧ Vacant 2 enc enc' since := by
  obtain ⟨hserver, -, hclient⟩ := @close_drops Concrete.deps
  constructor
  · have hgiven : letI := Concrete.deps
        (Loop.given (Server.driver Concrete.handler)
          (Concrete.server.run (Server.driver Concrete.handler) Server.closing) .read).any
          (fun p => (p.1.Settled ∧ ¬ p.1.common.InExchange p.2) ∧ Closes 2 p.2 ∧
            (p.1.common.entry 2).isSome = true) = true := by
      decide +kernel
    obtain ⟨p, hp, hcloses⟩ := (Option.any_eq_true _ _).mp hgiven
    rw [decide_eq_true_eq] at hcloses
    obtain ⟨⟨hsettled, hout⟩, hcloses, hentry⟩ := hcloses
    obtain ⟨enc, henc⟩ := @Server.encrypted_of_settled Concrete.deps _ hsettled
    have hlast : letI := Concrete.deps
        (Concrete.server.run (Server.driver Concrete.handler) (Server.closing ++
          [.read, .message (some (2, .data [1])) 0])).session.common.encrypted.isSome = true := by
      decide +kernel
    obtain ⟨enc', henc'⟩ := Option.isSome_iff_exists.mp hlast
    have hdrops := hserver _ _ _ _ _ (Concrete.runStream_eq Concrete.handler) Server.closing .read
      p hp hsettled hout 2 hcloses
    rw [@entry_some Concrete.deps _ _ _ henc] at hentry
    have hvacant := hdrops.2 enc [.message (some (2, .data [1])) 0] enc' henc (by
      rw [← henc']
      unfold Loop.run
      rw [List.foldl_append])
    exact ⟨enc, enc', hvacant.choose, henc', hentry, hvacant.choose_spec⟩
  · have hgiven : letI := Concrete.deps
        (Loop.given (Client.driver Concrete.application)
          (Concrete.client.run (Client.driver Concrete.application) Client.closing) .read).any
          (fun p => (p.1.common.encrypted.map (·.state) = some .authenticated ∧
            ¬ p.1.common.InExchange p.2) ∧ Closes 2 p.2 ∧
            (p.1.common.entry 2).isSome = true) = true := by
      decide +kernel
    obtain ⟨p, hp, hcloses⟩ := (Option.any_eq_true _ _).mp hgiven
    rw [decide_eq_true_eq] at hcloses
    obtain ⟨⟨hstate, hout⟩, hcloses, hentry⟩ := hcloses
    have hsettled := Option.map_eq_some_iff.mp hstate
    obtain ⟨enc, henc, -⟩ := Option.map_eq_some_iff.mp hstate
    have hlast : letI := Concrete.deps
        (Concrete.client.run (Client.driver Concrete.application) (Client.closing ++
          [.read, .message (some (.data 2 [1])) 0])).session.common.encrypted.isSome = true := by
      decide +kernel
    obtain ⟨enc', henc'⟩ := Option.isSome_iff_exists.mp hlast
    have hdrops := hclient _ _ _ _ _ Concrete.connectStream_eq Client.closing .read p hp
      hsettled hout 2 hcloses
    rw [@entry_some Concrete.deps _ _ _ henc] at hentry
    have hvacant := hdrops.2 enc [.message (some (.data 2 [1])) 0] enc' henc (by
      rw [← henc']
      unfold Loop.run
      rw [List.foldl_append])
    exact ⟨enc, enc', hvacant.choose, henc', hentry, hvacant.choose_spec⟩

/-- A CHANNEL_CLOSE for an open channel is served, and none has ever been queued;
and data are queued on a channel behind a CHANNEL_CLOSE. -/
theorem close_unanswered :
    letI := Concrete.deps
    (∃ p ∈ Loop.given (Server.driver Concrete.handler)
        (Concrete.server.run (Server.driver Concrete.handler) Server.closing) .read,
      Closes 2 p.2 ∧ (p.1.common.entry 2).map (·.recipientChannel) = some 5 ∧
      ∀ body ∈ (Concrete.server.run (Server.driver Concrete.handler)
        (Server.closing ++ [.read])).session.common.emitted, body.head? ≠ some msg.CHANNEL_CLOSE) ∧
    (∃ p ∈ Loop.given (Client.driver Concrete.application)
        (Concrete.client.run (Client.driver Concrete.application) Client.closing) .read,
      Closes 2 p.2 ∧ (p.1.common.entry 2).map (·.recipientChannel) = some 5 ∧
      ∀ body ∈ (Concrete.client.run (Client.driver Concrete.application)
        (Client.closing ++ [.read])).session.common.emitted, body.head? ≠ some msg.CHANNEL_CLOSE) ∧
    (Concrete.server.run (Server.driver Concrete.leaving)
      Server.closing).session.common.emitted.drop 3 =
        [msg.CHANNEL_CLOSE :: be32 5, dataPacket 5 [1]] := by
  have hserver : letI := Concrete.deps
      (Loop.given (Server.driver Concrete.handler)
        (Concrete.server.run (Server.driver Concrete.handler) Server.closing) .read).any
        (fun p => Closes 2 p.2 ∧ (p.1.common.entry 2).map (·.recipientChannel) = some 5) = true := by
    decide +kernel
  have hclient : letI := Concrete.deps
      (Loop.given (Client.driver Concrete.application)
        (Concrete.client.run (Client.driver Concrete.application) Client.closing) .read).any
        (fun p => Closes 2 p.2 ∧ (p.1.common.entry 2).map (·.recipientChannel) = some 5) = true := by
    decide +kernel
  obtain ⟨p, hp, hcloses⟩ := (Option.any_eq_true _ _).mp hserver
  obtain ⟨q, hq, hcloses'⟩ := (Option.any_eq_true _ _).mp hclient
  rw [decide_eq_true_eq] at hcloses hcloses'
  refine ⟨⟨p, hp, hcloses.1, hcloses.2, ?_⟩, ⟨q, hq, hcloses'.1, hcloses'.2, ?_⟩, ?_⟩
  · decide +kernel
  · decide +kernel
  · decide +kernel

end Thrussh
