import Thrussh.Client.Service
import Thrussh.Client.Table
import Thrussh.Concrete
import Thrussh.Persistence
import Thrussh.Provenance

/-!
# Confirmations in a run of the client

Along every run of the client in which no CHANNEL_OPEN_CONFIRMATION is served
for a channel that is confirmed already, a confirmation is accepted only for a
channel that the client has asked for, and what the peer has said of a channel
stays until the peer closes it.
-/

namespace Thrussh.Client

open Deps Lib

section
variable [Deps]

/-- Whether a packet that is served confirms no channel twice. -/
def ConfirmsOnce (s : Session) (buf : Bytes) : Prop :=
  s.Settled → ¬ s.common.InExchange buf → ∀ id, Confirms id buf →
    ∀ ch, s.common.entry id = some ch → ch.confirmed = false

/-- A CHANNEL_OPEN_CONFIRMATION that is served is one for a channel that the
client has asked for and that is not confirmed yet, or it is an error. -/
def ConfirmsAsked (app : Application) (s : Session) (buf : Bytes) : Prop :=
  s.Settled → ¬ s.common.InExchange buf → buf.head? = some msg.CHANNEL_OPEN_CONFIRMATION →
    (∃ id ch, Confirms id buf ∧ s.common.entry id = some ch ∧ ch.confirmed = false ∧
      AskedFor id s.common.emitted) ∨
    ∃ e t, reply app buf s = .error (.error e) t

variable {app : Application} {s t : Session} {buf : Bytes} {id : UInt32}

/-! ### One packet -/

/-- A CHANNEL_OPEN_CONFIRMATION that cannot be read, or that is for no channel of
the table, is an error. -/
theorem clientReadOpenConfirmation_fails {enc : Encrypted} (henc : s.common.encrypted = some enc)
    (h : ∀ id recipient window maxPacket,
      readConfirmation buf = .ok (id, recipient, window, maxPacket) → enc.channels id = none) :
    ∃ e t, clientReadOpenConfirmation app buf s = .error (.error e) t := by
  have hreader : ∀ r : Position, ∀ e, r.readU32 = .error e → ∃ e', e = .error e' := by
    intro r e he
    unfold Position.readU32 at he
    split at he
    · cases he
    · cases he
      exact ⟨_, rfl⟩
  unfold clientReadOpenConfirmation
  cases hid : (reader buf 1).readU32 with
  | error e =>
    obtain ⟨e, rfl⟩ := hreader _ e hid
    exact ⟨e, s, rfl⟩
  | ok res =>
    obtain ⟨id, r⟩ := res
    rw [run_bind, run_lift_ok]
    cases hrecipient : r.readU32 with
    | error e =>
      obtain ⟨e, rfl⟩ := hreader _ e hrecipient
      exact ⟨e, s, by simp only [hrecipient]; rfl⟩
    | ok res =>
      obtain ⟨recipient, r₁⟩ := res
      dsimp only
      rw [hrecipient, run_bind, run_lift_ok]
      cases hwindow : r₁.readU32 with
      | error e =>
        obtain ⟨e, rfl⟩ := hreader _ e hwindow
        exact ⟨e, s, by simp only [hwindow]; rfl⟩
      | ok res =>
        obtain ⟨window, r₂⟩ := res
        dsimp only
        rw [hwindow, run_bind, run_lift_ok]
        cases hmax : r₂.readU32 with
        | error e =>
          obtain ⟨e, rfl⟩ := hreader _ e hmax
          exact ⟨e, s, by simp only [hmax]; rfl⟩
        | ok res =>
          obtain ⟨maxPacket, r₃⟩ := res
          dsimp only
          rw [hmax, run_bind, run_lift_ok]
          have hnone : enc.channels id = none := by
            refine h id recipient window maxPacket ?_
            simp only [readConfirmation, hid, hrecipient, hwindow, hmax, bind, Except.bind]
          refine ⟨.inconsistent, s, ?_⟩
          simp only [run_bind, onCommon, zoom, withEnc, run_get, henc, hnone, run_lift_error]

/-- What `client_read_authenticated` makes of a CHANNEL_OPEN_CONFIRMATION. -/
theorem clientReadAuthenticated_confirmation
    (hhead : buf.head? = some msg.CHANNEL_OPEN_CONFIRMATION) :
    clientReadAuthenticated app buf = clientReadOpenConfirmation app buf := by
  unfold clientReadAuthenticated
  rw [if_pos hhead]

/-- A packet that confirms no channel twice confirms one that was asked for. -/
theorem confirmsAsked_of_once (hsound : s.common.Sound) (hsought : s.common.Sought)
    (h : ConfirmsOnce s buf) : ConfirmsAsked app s buf := by
  intro hsettled hout hhead
  obtain ⟨enc, henc, -⟩ := id hsettled
  by_cases hnone : ∀ id recipient window maxPacket,
      readConfirmation buf = .ok (id, recipient, window, maxPacket) → enc.channels id = none
  · refine .inr ?_
    rw [reply_state app hsound hout, clientReadState_settled app hsettled,
      clientReadAuthenticated_confirmation hhead]
    exact clientReadOpenConfirmation_fails henc hnone
  · simp only [not_forall, exists_prop] at hnone
    obtain ⟨id, recipient, window, maxPacket, hread, hentry⟩ := hnone
    obtain ⟨ch, hch⟩ := Option.ne_none_iff_exists'.mp hentry
    have hconfirms : Confirms id buf := ⟨hhead, recipient, window, maxPacket, hread⟩
    have hch' : s.common.entry id = some ch := by rw [entry_some henc, hch]
    have hunconfirmed := h hsettled hout id hconfirms ch hch'
    exact .inl ⟨id, ch, hconfirms, hch', hunconfirmed, (hsought id ch hch' hunconfirmed).1⟩

/-! ### What every packet and every message does to the entries -/

/-- What an act makes of the table. -/
structure Keeps (heard : List Bytes) (s t : Session) : Prop where
  /-- Entries of channels that the peer does not close last. -/
  persists : ∀ id, (∀ buf ∈ heard, ¬ Removes id buf) → s.common.Persists id heard t.common
  /-- Channels that are not confirmed have been asked for, with no data pending. -/
  sought : s.common.Sought → t.common.Sought

theorem Keeps.of_enc {heard : List Bytes} {enc enc' : Encrypted}
    (hs : s.common.encrypted = some enc) (ht : t.common.encrypted = some enc')
    (hpersists : ∀ id, (∀ buf ∈ heard, ¬ Removes id buf) → Thrussh.Persists id heard enc enc')
    (hsought : enc.Sought → enc'.Sought) : Keeps heard s t := by
  constructor
  · exact fun id hid => .of_enc hs ht (hpersists id hid)
  · rw [CommonSession.sought_some hs, CommonSession.sought_some ht]
    exact hsought

theorem Keeps.of_standing {heard : List Bytes}
    (h : t.common.standing.map Prod.snd = s.common.standing.map Prod.snd) : Keeps heard s t :=
  ⟨fun _ _ => .of_standing h, fun hs => hs.of_standing h⟩

theorem Works.persists {enc enc' : Encrypted} (h : Works enc enc') (id : UInt32)
    (heard : List Bytes) :
    Thrussh.Persists id heard enc enc' := by
  cases h with
  | operates h => exact h.persists
  | queues hchannels hemitted => exact .of_same (congrFun hchannels id) hemitted

theorem Works.sought {enc enc' : Encrypted} (hworks : Works enc enc') (h : enc.Sought) :
    enc'.Sought := by
  cases hworks with
  | operates hoperates => exact hoperates.sought h
  | queues hchannels hemitted =>
    refine h.of_channels hemitted fun id ch hch => ?_
    rw [← hchannels]
    exact hch

theorem works_persists {enc enc' : Encrypted} (h : Relation.ReflTransGen Works enc enc')
    (id : UInt32) (heard : List Bytes) :
    Thrussh.Persists id heard enc enc' ∧ (enc.Sought → enc'.Sought) := by
  induction h with
  | refl => exact ⟨.of_same rfl (List.prefix_refl _), fun h => h⟩
  | tail _ hstep ih =>
    refine ⟨?_, fun h => hstep.sought (ih.2 h)⟩
    have htrans := ih.1.trans (hstep.persists id [])
    rw [List.append_nil] at htrans
    exact htrans

/-- A packet that is dispatched keeps the entries, if it confirms no channel twice. -/
theorem Serving.keeps (h : Serving buf s t) (hsettled : s.Settled)
    (hout : ¬ s.common.InExchange buf) (honce : ConfirmsOnce s buf) : Keeps [buf] s t := by
  obtain ⟨enc, henc, -⟩ := id hsettled
  unfold Serving at h
  rw [henc] at h
  cases ht : t.common.encrypted with
  | none =>
    rw [ht] at h
    cases h
  | some enc' =>
    rw [ht] at h
    cases h with
    | some h =>
      obtain ⟨start, mid, hchannels, hemitted, hdispatches, hoperations⟩ := h.handles
      have hidle : Operates True enc start := .idle hchannels hemitted
      refine .of_enc henc ht (fun id hid => ?_) fun h => ?_
      · have honce' : Confirms id buf → ∀ ch, start.channels id = some ch →
            ch.confirmed = false := by
          intro hconfirms ch hch
          refine honce hsettled hout id hconfirms ch ?_
          rw [entry_some henc, ← hchannels]
          exact hch
        have hstart : Thrussh.Persists id [] enc start := hidle.persists
        have hmid := hdispatches.persists (hid buf (List.mem_singleton.mpr rfl)) honce'
        have hend : Thrussh.Persists id [] mid enc' := hoperations.persists
        have hall := (hstart.trans hmid).trans hend
        simpa using hall
      · exact hoperations.sought (hdispatches.sought (hidle.sought h))

theorem Undispatched.keeps (h : Undispatched s t) (heard : List Bytes) : Keeps heard s t := by
  cases h with
  | started hs enc ht hchannels hemitted =>
    refine ⟨fun id _ => .of_none hs, fun _ => ?_⟩
    rw [CommonSession.sought_some ht]
    intro id ch hch
    rw [hchannels] at hch
    cases hch
  | works h =>
    have hworks := rel_of_steps (fun u : Session => u.common.encrypted) h
    cases hs : s.common.encrypted with
    | none =>
      rw [hs] at hworks
      cases ht : t.common.encrypted with
      | none => exact ⟨fun id _ => .of_none hs, fun _ => CommonSession.sought_none ht⟩
      | some enc' =>
        rw [ht] at hworks
        cases hworks
    | some enc =>
      rw [hs] at hworks
      cases ht : t.common.encrypted with
      | none =>
        rw [ht] at hworks
        cases hworks
      | some enc' =>
        rw [ht] at hworks
        cases hworks with
        | some hworks =>
          exact .of_enc hs ht (fun id _ => (works_persists hworks id heard).1)
            (works_persists hworks 0 heard).2

/-- Every packet keeps the entries, if it confirms no channel twice. -/
theorem reply_keeps (app : Application) (hsound : s.common.Sound) (honce : ConfirmsOnce s buf) :
    Ends (reply app buf) s (fun _ t => Keeps [buf] s t) (Keeps [buf] s) := by
  by_cases hserves : s.Settled ∧ ¬ s.common.InExchange buf
  · have hkeeps : ∀ t, Serving buf s t → Keeps [buf] s t :=
      fun t ht => ht.keeps hserves.1 hserves.2 honce
    exact (reply_serving app hsound hserves.1 hserves.2).mono (fun _ => hkeeps) hkeeps
  · have hkeeps : ∀ t, Undispatched s t → Keeps [buf] s t := fun t ht => ht.keeps [buf]
    exact (reply_undispatched app hsound hserves).mono (fun _ => hkeeps) hkeeps

/-- Every message of the handle keeps the entries. -/
theorem message_keeps (m : Option Msg) (s : Session) :
    Ends (message m) s (fun _ t => Keeps [] s t) (Keeps [] s) := by
  have hmoves : Moves Worked (message m) := moves_worked (message_operated m)
  exact .of_final (Undispatched.keeps (.works (hmoves s)) [])

/-! ### Runs -/

theorem Keeps.trans {u : Session} {heard heard' : List Bytes} (h : Keeps heard s t)
    (h' : Keeps heard' t u) : Keeps (heard ++ heard') s u := by
  refine ⟨fun id hid => ?_, fun hs => h'.sought (h.sought hs)⟩
  have hfirst := h.persists id fun buf hbuf => hid buf (List.mem_append_left _ hbuf)
  have hsecond := h'.persists id fun buf hbuf => hid buf (List.mem_append_right _ hbuf)
  exact hfirst.trans hsecond

theorem Keeps.stays {u : Session} {heard : List Bytes} (h : Keeps heard s t)
    (hu : u.common.standing.map Prod.snd = t.common.standing.map Prod.snd) : Keeps heard s u := by
  have hstays : Keeps [] t u := .of_standing hu
  have htrans := h.trans hstays
  rw [List.append_nil] at htrans
  exact htrans

/-- Whether an act confirms no channel twice. -/
def Once : Act Session Msg → Prop
  | .reply s buf => ConfirmsOnce s buf
  | .message _ _ => True

/-- A session that a run has reached from another one. -/
structure Reaches (s₀ : Session) (acts : List (Act Session Msg)) (s : Session) : Prop where
  /-- The exchange records of the session are in order. -/
  sound : s.common.Sound
  /-- The entries last. -/
  keeps : Keeps (heard acts) s₀ s

/-- A flush leaves what the session stands at. -/
theorem flush_standing (app : Application) (s : Session) :
    Ends (zoom (driver app).common (driver app).setCommon flush) s
      (fun _ t => t.common.standing = s.common.standing)
      fun t => t.common.standing = s.common.standing := by
  have hflush := (flush_final s.common).standing_eq
  unfold Ends zoom
  have hcommon : (driver app).common s = s.common := rfl
  rw [hcommon]
  cases hresult : flush s.common with
  | ok a t =>
    rw [hresult] at hflush
    exact hflush
  | error e t =>
    rw [hresult] at hflush
    exact hflush

/-- Along the acts that confirm no channel twice the entries last. -/
theorem driver_reaches (app : Application) (s₀ : Session) :
    (driver app).Follows (fun acts act => acts ++ [act])
      (fun acts s => (∀ act ∈ acts, Once act) → Reaches s₀ acts s)
      (fun acts s => (∀ act ∈ acts, Once act) → Keeps (heard acts) s₀ s) := by
  have hkeeps := (driver_behaves (P := fun _ => True) (fun _ _ => trivial) app
    fun _ _ _ _ => trivial).keeps_sound
  have hinit : ∀ {acts : List (Act Session Msg)} {act}, (∀ a ∈ acts ++ [act], Once a) →
      (∀ a ∈ acts, Once a) ∧ Once act := fun h =>
    ⟨fun a ha => h a (List.mem_append_left _ ha),
      h _ (List.mem_append_right _ (List.mem_singleton.mpr rfl))⟩
  constructor
  · exact fun acts s hs honce => (hs honce).keeps
  · intro acts s enc decompress henc hs honce
    refine ⟨hkeeps.inflate s enc decompress henc (hs honce).sound, (hs honce).keeps.stays ?_⟩
    have henc' : s.common.encrypted = some enc := henc
    simp only [driver, CommonSession.standing, henc', Option.map_some]
    rfl
  · intro acts s buf hs
    by_cases honce : (∀ act ∈ acts, Once act) ∧ ConfirmsOnce s buf
    · obtain ⟨hsound, hreached⟩ := hs honce.1
      have hheard : heard (acts ++ [(.reply s buf : Act Session Msg)]) = heard acts ++ [buf] :=
        heard_append acts _
      refine ((hkeeps.reply s buf hsound).and (reply_keeps app hsound honce.2)).mono
        (fun _ t ht _ => ⟨ht.1, ?_⟩) fun t ht _ => ?_
      · rw [hheard]
        exact hreached.trans ht.2
      · rw [hheard]
        exact hreached.trans ht.2
    · exact .of_forall (fun _ _ h => absurd (hinit h) honce) fun _ h => absurd (hinit h) honce
  · intro acts s m enc hs henc hrekey
    by_cases honce : ∀ act ∈ acts, Once act
    · obtain ⟨hsound, hreached⟩ := hs honce
      have hheard : heard (acts ++ [(.message s m : Act Session Msg)]) = heard acts ++ [] :=
        heard_append acts _
      refine ((hkeeps.message s m hsound).and (message_keeps m s)).mono
        (fun _ t ht _ => ⟨ht.1, ?_⟩) fun t ht _ => ?_
      · rw [hheard]
        exact hreached.trans ht.2
      · rw [hheard]
        exact hreached.trans ht.2
    · exact .of_forall (fun _ _ h => absurd (hinit h).1 honce) fun _ h => absurd (hinit h).1 honce
  · intro acts s hs
    by_cases honce : ∀ act ∈ acts, Once act
    · obtain ⟨hsound, hreached⟩ := hs honce
      refine ((hkeeps.flush s hsound).and (flush_standing app s)).mono
        (fun _ t ht _ => ⟨ht.1, hreached.stays ?_⟩) fun t ht _ => hreached.stays ?_
      · exact congrArg (Option.map Prod.snd) ht.2
      · exact congrArg (Option.map Prod.snd) ht.2
    · exact .of_forall (fun _ _ h => absurd h honce) fun _ h => absurd h honce
  · intro acts s hs honce
    refine ⟨hkeeps.settle s (hs honce).sound, (hs honce).keeps.stays ?_⟩
    simp only [driver, settle, CommonSession.standing, CommonSession.modifyEnc]
    cases s.common.encrypted with
    | none => rfl
    | some enc =>
      simp only [Option.map_some]
      split <;> rfl

/-- The acts of a run that meets a condition meet it. -/
theorem acts_once {l : Loop Session} {events : List (Event Msg)}
    (h : Loop.Along (Loop.iterate (driver app)) (fun l e =>
      ∀ p ∈ Loop.given (driver app) l e, ConfirmsOnce p.1 p.2) l events) :
    ∀ act ∈ l.acts (driver app) events, Once act := by
  have hall : ∀ (acts : List (Act Session Msg)), (∀ act ∈ acts, Once act) →
      ∀ act ∈ Loop.history (driver app) (fun acts act => acts ++ [act]) acts l events,
        Once act := by
    induction events generalizing l with
    | nil => exact fun acts hacts => hacts
    | cons e events ih =>
      intro acts hacts
      refine ih h.2 _ ?_
      have hgiven : ∀ act, (Loop.given (driver app) l e).map
          (fun p => (.reply p.1 p.2 : Act Session Msg)) = some act → Once act := by
        intro act hact
        obtain ⟨p, hp, rfl⟩ := Option.map_eq_some_iff.mp hact
        exact h.1 p hp
      have hone : ∀ act, Loop.acted (driver app) l e = some act → Once act := by
        intro act hact
        cases e with
        | message m taken =>
          unfold Loop.acted at hact
          dsimp only at hact
          split at hact
          · cases hact
            exact trivial
          · cases hact
        | arrive bytes => exact hgiven act hact
        | close => exact hgiven act hact
        | read => exact hgiven act hact
        | timeout => exact hgiven act hact
      cases hacted : Loop.acted (driver app) l e with
      | none => exact hacts
      | some act =>
        intro a ha
        rcases List.mem_append.mp ha with ha | ha
        · exact hacts a ha
        · rw [List.mem_singleton.mp ha]
          exact hone act hacted
  exact hall [] (by simp)

/-- What a session of the client keeps of its table. -/
structure Orderly (s : Session) : Prop where
  /-- The exchange records are in order. -/
  sound : s.common.Sound
  /-- Channels that are not confirmed have been asked for. -/
  sought : s.common.Sought

/-- A session reaches itself. -/
theorem keeps_refl (s : Session) : Keeps (heard ([] : List (Act Session Msg))) s s :=
  .of_standing rfl

/-- From an orderly session on the entries last. -/
theorem kept_reaches {l : Loop Session}
    (h : Loop.Kept Orderly (fun s => s.common.Sought) l) :
    Loop.Kept (fun s => (∀ act ∈ ([] : List (Act Session Msg)), Once act) →
        Reaches l.session [] s)
      (fun s => (∀ act ∈ ([] : List (Act Session Msg)), Once act) →
        Keeps (heard ([] : List (Act Session Msg))) l.session s) l :=
  ⟨fun hrunning _ => ⟨(h.running hrunning).sound, keeps_refl l.session⟩,
    fun _ => keeps_refl l.session⟩

/-- A run that confirms no channel twice keeps the table orderly, and the entries last. -/
theorem run_keeps {l : Loop Session} (h : Loop.Kept Orderly (fun s => s.common.Sought) l)
    (events : List (Event Msg)) (honce : Loop.Along (Loop.iterate (driver app)) (fun l e =>
      ∀ p ∈ Loop.given (driver app) l e, ConfirmsOnce p.1 p.2) l events) :
    Loop.Kept Orderly (fun s => s.common.Sought) (l.run (driver app) events) ∧
      Keeps (heard (l.acts (driver app) events)) l.session (l.run (driver app) events).session := by
  have hrun := Loop.run_follows (driver_reaches app l.session) (kept_reaches h) events
  have hacts := acts_once honce
  have hkeeps := hrun.ended hacts
  refine ⟨⟨fun hrunning => ?_, hkeeps.sought h.ended⟩, hkeeps⟩
  exact ⟨(hrun.running hrunning hacts).sound, hkeeps.sought h.ended⟩

/-- A client that connects is orderly. -/
theorem connect_orderly {config : Config} {sshid : Bytes} {world : World} {l : Loop Session}
    (hl : connectStream config app sshid world = .ok l) :
    Loop.Kept Orderly (fun s => s.common.Sought) l := by
  obtain ⟨s, output, hs, rfl⟩ := connectStream_start hl
  have hfollows := Loop.start_follows (driver_reaches app s) (h := [])
    (fun _ => ⟨hs.sound, keeps_refl s⟩) output
  have hended := (hfollows.ended (by simp)).sought (CommonSession.sought_none hs.encrypted)
  exact ⟨fun hrunning => ⟨(hfollows.running hrunning (by simp)).sound, hended⟩, hended⟩

/-- Along a run that confirms no channel twice every packet finds the session orderly. -/
theorem given_orderly {P : Session × Bytes → Prop} {l : Loop Session}
    (hl : Loop.Kept Orderly (fun s => s.common.Sought) l) (events : List (Event Msg))
    (honce : Loop.Along (Loop.iterate (driver app)) (fun l e =>
      ∀ p ∈ Loop.given (driver app) l e, ConfirmsOnce p.1 p.2) l events)
    (hholds : ∀ p : Session × Bytes, Orderly p.1 → ConfirmsOnce p.1 p.2 → P p) :
    Loop.Along (Loop.iterate (driver app)) (fun l e => ∀ p ∈ Loop.given (driver app) l e, P p)
      l events := by
  refine honce.imp (I := Loop.Kept Orderly fun s => s.common.Sought) (fun l e hl h => ?_)
    (fun l e hl h p hp => ?_) hl
  · exact (run_keeps hl [e] ⟨h, trivial⟩).1
  · have hgiven := Loop.given_follows (driver_reaches app l.session) (kept_reaches hl) hp (by simp)
    exact hholds p ⟨hgiven.sound, hgiven.keeps.sought hl.ended⟩ (h p hp)

/-- A run, and what happens then. -/
theorem run_append (l : Loop Session) (before after : List (Event Msg)) :
    l.run (driver app) (before ++ after) = (l.run (driver app) before).run (driver app) after :=
  List.foldl_append

/-- In every run of the client in which no CHANNEL_OPEN_CONFIRMATION is served
for a channel that is confirmed already, a confirmation is accepted only for a
channel that the client has asked for and that is not confirmed, and once a
channel is confirmed its entry lasts until the peer closes the channel. -/
theorem confirmed_once (config : Config) (app : Application) (sshid : Bytes) (world : World)
    (l : Loop Session) (hl : connectStream config app sshid world = .ok l)
    (events : List (Event Msg))
    (honce : Loop.Along (Loop.iterate (driver app)) (fun l e =>
      ∀ p ∈ Loop.given (driver app) l e, ConfirmsOnce p.1 p.2) l events) :
    Loop.Along (Loop.iterate (driver app)) (fun l e =>
      ∀ p ∈ Loop.given (driver app) l e, ConfirmsAsked app p.1 p.2) l events ∧
    ∀ before after, events = before ++ after → ∀ id,
      (∀ buf ∈ heard ((l.run (driver app) before).acts (driver app) after), ¬ Removes id buf) →
      (l.run (driver app) before).session.common.Persists id
        (heard ((l.run (driver app) before).acts (driver app) after))
        (l.run (driver app) events).session.common := by
  have hstart := connect_orderly hl
  constructor
  · exact given_orderly hstart events honce fun p horderly h =>
      confirmsAsked_of_once horderly.sound horderly.sought h
  · intro before after hevents id hid
    subst hevents
    have hbefore := (run_keeps hstart _ honce.before).1
    have hafter := (run_keeps hbefore _ honce.of_append).2
    rw [run_append]
    exact hafter.persists id hid

end

/-- Whether a packet can be seen to confirm no channel twice. -/
def freshConfirmation [Deps] (p : Session × Bytes) : Bool :=
  match readConfirmation p.2 with
  | .ok (id, _) => (p.1.common.entry id).all fun ch => !ch.confirmed
  | .error _ => true

theorem once_of_freshConfirmation [Deps] {p : Session × Bytes} (h : freshConfirmation p = true) :
    ConfirmsOnce p.1 p.2 := by
  rintro - - id ⟨-, recipient, window, maxPacket, hread⟩ ch hch
  simpa [freshConfirmation, hread, hch] using h

/-- A client whose authentication is over and whose first channel is confirmed. -/
def opened : List (Event Msg) :=
  Concrete.answers ++ [.message (some (.authenticate [1] (.password [2]))) 0] ++ accepts ++
    [.arrive (Concrete.sealed [msg.USERAUTH_SUCCESS]), .read,
      .message (some (.channelOpenSession 0)) 0,
      .arrive (Concrete.sealed (confirmChannelOpenPacket 2 5 100 100)), .read]

/-- The client sends data on its channel, and the server grants more. -/
def used : List (Event Msg) :=
  [.message (some (.data 2 [1, 2, 3])) 0, .arrive (Concrete.sealed (adjustPacket 2 7)), .read]

/-- A channel that is opened once and used. -/
theorem confirmed_once_used :
    letI := Concrete.deps
    let l := Concrete.client.run (driver Concrete.application) opened
    let l' := l.run (driver Concrete.application) used
    l.session.common.Persists 2 (heard (l.acts (driver Concrete.application) used))
      l'.session.common ∧
    (l'.session.common.entry 2).map (·.recipientWindowSize) = some 104 := by
  let _ := Concrete.deps
  refine ⟨?_, by decide +kernel⟩
  have honce : Loop.Along (Loop.iterate (driver Concrete.application)) (fun l e =>
      ∀ p ∈ Loop.given (driver Concrete.application) l e, ConfirmsOnce p.1 p.2)
      Concrete.client (opened ++ used) := by
    refine Loop.Along.imp (P := fun l e =>
      (Loop.given (driver Concrete.application) l e).all freshConfirmation = true)
      (I := fun _ => True) (fun _ _ _ _ => trivial) (fun l e _ h p hp => ?_) trivial
      (by decide +kernel)
    exact once_of_freshConfirmation (by simpa [Option.mem_def.mp hp] using h)
  have hrun := confirmed_once Concrete.clientConfig Concrete.application
    Concrete.serverConfig.serverId Concrete.world Concrete.client Concrete.connectStream_eq _ honce
  have hpersists := hrun.2 opened used rfl 2 ?_
  · have hsplit := @run_append Concrete.deps Concrete.application Concrete.client opened used
    rw [hsplit] at hpersists
    exact hpersists
  · have hheard : heard ((Concrete.client.run (driver Concrete.application) opened).acts
        (driver Concrete.application) used) = [adjustPacket 2 7] := by decide +kernel
    rw [hheard]
    intro buf hbuf hremoves
    rw [List.mem_singleton.mp hbuf] at hremoves
    exact absurd hremoves.1 (by decide)

/-- A second confirmation of the channel is accepted: it names another channel
of the server, with another window and another packet size. -/
theorem confirmed_twice :
    letI := Concrete.deps
    let l := Concrete.client.run (driver Concrete.application) opened
    let l' := l.run (driver Concrete.application)
      [.arrive (Concrete.sealed (confirmChannelOpenPacket 2 9 7 3)), .read]
    connectStream Concrete.clientConfig Concrete.application Concrete.serverConfig.serverId
      Concrete.world = .ok Concrete.client ∧
    (l.session.common.entry 2).map (fun ch => (ch.confirmed, ch.recipientChannel,
      ch.recipientWindowSize, ch.recipientMaximumPacketSize)) = some (true, 5, 100, 100) ∧
    (l'.session.common.entry 2).map (fun ch => (ch.confirmed, ch.recipientChannel,
      ch.recipientWindowSize, ch.recipientMaximumPacketSize)) = some (true, 9, 7, 3) ∧
    l'.stage = .running :=
  ⟨Concrete.connectStream_eq, by decide +kernel, by decide +kernel, by decide +kernel⟩

end Thrussh.Client
