import Mathlib.Data.List.Induction
import Thrussh.Client.Authentic
import Thrussh.Connection

/-!
# What a side is given

Along a run of a connection each loop goes through events of its own: what it
does, and what is delivered to it. The packets that these events give to `reply` are,
while the loop runs, those that it has opened, as far as they are served; and
at every time the ordinary ones among them are the first that the other side has queued. So
whatever holds of every run of one side holds of that side of a
connection, with the packets of the other side for what it is given.
-/

namespace Thrussh

open Lib

/-! ### The events of a side -/

section
variable [Deps] {C S M C' S' M' : Type} [SessionConfig C] [SessionConfig C']
  {d : Driver C S M} {d' : Driver C' S' M'} {x : Script C} {x' : Script C'}
  {line line' : Bytes}

/-- The local messages among the events of a side are those of the moves. -/
theorem message_mem {j : Duplex (Loop S) (Loop S')}
    {moves : List (Duplex.Move (Doing M) (Doing M'))} {m : Option M} {taken : Nat}
    (h : .message m taken ∈ leftEvents d d' line line' j moves) :
    .left (.message m taken) ∈ moves := by
  obtain ⟨i, hi, hevent⟩ := List.mem_map.mp h
  cases i with
  | inr bytes => cases hevent
  | inl doing =>
    cases doing with
    | message m' taken' =>
      cases hevent
      exact Duplex.mem_inputs hi
    | read => cases hevent
    | timeout => cases hevent

/-! ### What a turn gives to a program -/

namespace Loop

/-- The acts along some events and one more. -/
theorem acts_snoc (l : Loop S) (events : List (Event M)) (e : Event M) :
    l.acts d (events ++ [e]) = (acted d (l.run d events) e).elim (l.acts d events)
      fun act => l.acts d events ++ [act] := history_append [] l events [e]

/-- A local message that a program was given is among the events. -/
theorem message_of_acts {l : Loop S} {events : List (Event M)} {s : S} {m : Option M}
    (h : .message s m ∈ l.acts d events) : ∃ taken, .message m taken ∈ events := by
  induction events using List.reverseRecOn with
  | nil => cases h
  | append_singleton events e ih =>
    have hbefore : .message s m ∈ l.acts d events → ∃ taken, .message m taken ∈ events ++ [e] := by
      intro hmem
      obtain ⟨taken, hevent⟩ := ih hmem
      exact ⟨taken, List.mem_append_left _ hevent⟩
    rw [acts_snoc] at h
    cases hacted : acted d (l.run d events) e with
    | none =>
      rw [hacted] at h
      exact hbefore h
    | some act =>
      rw [hacted] at h
      rcases List.mem_append.mp h with hmem | hmem
      · exact hbefore hmem
      cases List.mem_singleton.mp hmem
      cases e with
      | message m' taken =>
        obtain ⟨-, hmessage⟩ := Option.ite_none_right_eq_some.mp hacted
        cases hmessage
        exact ⟨taken, by simp⟩
      | _ =>
        simp only [acted, Option.map_eq_some_iff] at hacted
        obtain ⟨p, -, hreply⟩ := hacted
        cases hreply

/-- The packets given to `reply` along some events and one more. -/
theorem heard_snoc (l : Loop S) (events : List (Event M)) (e : Event M) :
    heard (l.acts d (events ++ [e])) =
      heard (l.acts d events) ++ ((given d (l.run d events) e).map Prod.snd).toList := by
  rw [acts_snoc]
  generalize l.acts d events = before
  generalize l.run d events = now
  have hgiven : ∀ p : Option (S × Bytes), heard ((p.map fun p =>
      (Act.reply p.1 p.2 : Act S M)).elim before fun act => before ++ [act]) =
        heard before ++ (p.map Prod.snd).toList := by
    intro p
    cases p with
    | none => simp
    | some p => simp [heard]
  cases e with
  | message m taken =>
    have hnone : given d now (.message m taken) = none := rfl
    rw [hnone, Option.map_none, Option.toList_none, List.append_nil]
    by_cases hreceives : now.stage = .running ∧
        (now.isRekeying d || !now.canHaveTaken d taken) = false
    · have hacted : acted d now (.message m taken) = some (.message now.session m) :=
        if_pos hreceives
      simp [hacted, heard]
    · have hacted : acted d now (.message m taken) = none := if_neg hreceives
      simp [hacted]
  | arrive bytes => exact hgiven (given d now (.arrive bytes))
  | close => exact hgiven (given d now .close)
  | read => exact hgiven (given d now .read)
  | timeout => exact hgiven (given d now .timeout)

variable {v : Progress} {l : Loop S} {history : List PacketRecord} {sent : List SentPacket}
  {arrived : Bytes}

/-- A packet that a running loop opens is given to `reply` if it is served. -/
theorem Stands.given (h : Stands d x line v l) (hrunning : l.stage = .running) {pair : CipherPair}
    {head payload rest : Bytes} {n : Nat} (hhead : head.length = 5)
    (hresult : l.nextRead d = .ok n (l.buffer.opened pair head payload) rest) :
    (Loop.given d l (.read : Event M)).map Prod.snd = if served payload then some payload else none := by
  have hlong : ¬ (l.buffer.opened pair head payload).buffer.length < 5 := by
    simp only [SSHBuffer.opened, List.length_append, hhead]
    omega
  have hpayload : (l.buffer.opened pair head payload).buffer.drop 5 = payload :=
    List.drop_left' hhead
  unfold Loop.given
  simp only [hrunning, hresult]
  unfold givenOf
  rw [if_neg hlong, hpayload]
  cases henc : (d.common l.session).encrypted with
  | none =>
    dsimp only
    split <;> rfl
  | some enc =>
    obtain ⟨before, -, hstanding⟩ := h.place
    have hnone : enc.decompress = .none := (hstanding.encrypted enc henc).2.decompress
    have hdecompress : enc.decompress.decompress payload = .ok (payload, enc.decompress) := by
      rw [hnone]
      rfl
    simp only [hdecompress]
    split <;> rfl

/-- What a running loop opens and serves is given to `reply`. -/
theorem Listens.opened_iterate (h : l.Listens d x line v history sent arrived)
    (hrunning : l.stage = .running) {after : List SentPacket} (doing : Doing M)
    (hreads : ReadsNext (d.common l.session).cipher l.buffer after l.stream false (l.nextRead d)) :
    (l.iterate d doing.event).opened.filter served =
      l.opened.filter served ++ ((Loop.given d l doing.event).map Prod.snd).toList := by
  cases doing with
  | timeout =>
    have hopened : (l.iterate d (.timeout : Event M)).opened = l.opened := by
      simp only [Loop.iterate]
      split <;> rfl
    have hnone : Loop.given d l (.timeout : Event M) = none := rfl
    rw [Doing.event, hopened, hnone, Option.map_none, Option.toList_none, List.append_nil]
  | message m taken =>
    have hturn : l.iterate d (.message m taken) = turnMessage d l m taken := by
      simp only [Loop.iterate, if_pos hrunning]
    have hnone : Loop.given d l (.message m taken) = none := rfl
    rw [Doing.event, hturn, turnMessage_opened, hnone, Option.map_none, Option.toList_none,
      List.append_nil]
  | read =>
    have hturn : l.iterate d (.read : Event M) = turnRead d l := by
      simp only [Loop.iterate, hrunning]
    rw [Doing.event, hturn]
    cases hresult : l.nextRead d with
    | pending =>
      have hnone : Loop.given d l (.read : Event M) = none := by
        simp only [Loop.given, hrunning, hresult]
      rw [turnRead, hresult, hnone, Option.map_none, Option.toList_none, List.append_nil]
    | panic =>
      rw [hresult] at hreads
      cases hreads
    | err e b rest =>
      rw [hresult] at hreads
      cases hreads.of_err.1
    | ok n b rest =>
      rw [hresult] at hreads
      obtain ⟨p, later, head, -, -, hhead, rfl⟩ := hreads.of_ok
      have hopened : (turnRead d l).opened = l.opened ++ [p.payload] := by
        rw [turnRead, hresult]
        exact (opened_of_inbound (handle_inbound d _ true)).trans List.map_append
      rw [hopened, h.stands.given hrunning hhead hresult, List.filter_append]
      cases hserved : served p.payload with
      | true => simp [hserved]
      | false => simp [hserved]

omit [SessionConfig C] in
/-- A loop that is left gives nothing to `reply`. -/
theorem given_stopped (h : l.stage ≠ .running) (e : Event M) : Loop.given d l e = none := by
  cases hgiven : Loop.given d l e with
  | none => rfl
  | some p => exact absurd (given_running (p := p) hgiven) h

end Loop

/-! ### What the other side has queued -/

variable {P : Bytes → Prop}

/-- No program of a role takes back what it has sealed or queued. -/
theorem Driver.Behaves.keeps_grows (hd : d.Behaves P) (c : CommonSession C) :
    d.Keeps (fun s => (d.common s).Sound ∧ c.Grows (d.common s)) fun s => True ∧ c.Grows (d.common s) := by
  have hsound := hd.keeps_sound
  refine ⟨fun s h => ⟨trivial, h.2⟩, fun s enc decompress henc h => ⟨?_, ?_⟩, fun s buf h => ?_,
    fun s m h => ?_, fun s h => ?_, fun s h => ⟨hsound.settle s h.1, ?_⟩⟩
  · exact hsound.inflate s enc decompress henc h.1
  · rw [hd.common_set]
    refine h.2.trans (grows_of_standing (List.prefix_refl _) ?_)
    simp only [CommonSession.standing, henc, Option.map_some]
    rfl
  · have hgrows : Ends (d.reply buf) s (fun _ t => c.Grows (d.common t)) fun t =>
        c.Grows (d.common t) := Ends.of_final (h.2.trans (hd.reply_grows h.1 buf))
    exact (hsound.reply s buf h.1).and hgrows
  · have hgrows : Ends (d.message m) s (fun _ t => c.Grows (d.common t)) fun t =>
        c.Grows (d.common t) := Ends.of_final (h.2.trans (hd.message_grows s m))
    exact (hsound.message s m h.1).and hgrows
  · refine (hsound.flush s h.1).and ?_
    have hstep := (flush_final (d.common s)).grows
    unfold Ends zoom
    cases hflush : flush (d.common s) with
    | error e t =>
      rw [hflush] at hstep
      dsimp only
      rw [hd.common_set]
      exact h.2.trans hstep
    | ok u t =>
      rw [hflush] at hstep
      dsimp only
      unfold Loop.clearWrite
      rw [hd.common_set, hd.common_set]
      exact h.2.trans ⟨hstep.sealed, hstep.queued⟩
  · have hstaged := hd.settle s
    have hbuffer : (d.common (d.settle s)).writeBuffer = (d.common s).writeBuffer := by
      rw [hstaged.same]
    exact h.2.trans ⟨hbuffer ▸ List.prefix_refl _, hstaged.emitted_eq ▸ List.prefix_refl _⟩

/-- No event takes back what is sealed or queued. -/
theorem Driver.Behaves.iterate_grows (hd : d.Behaves P) {l : Loop S}
    (hsound : l.stage = .running → (d.common l.session).Sound) (e : Event M) :
    (d.common l.session).Grows (d.common (l.iterate d e).session) :=
  (Loop.iterate_kept (hd.keeps_grows (d.common l.session))
    ⟨fun hrunning => ⟨hsound hrunning, .refl _⟩, trivial, .refl _⟩ e).ended.2

variable {E : CommonSession C → Bytes → CommonSession C → Prop}
  {E' : CommonSession C' → Bytes → CommonSession C' → Prop} {j : Duplex (Loop S) (Loop S')}

/-- No move takes back what the right side has queued. -/
theorem Joined.queued_grows (h : Joined d d' x x' line line' j) (hd' : d'.Behaves P)
    (m : Duplex.Move (Doing M) (Doing M')) :
    (d'.common j.right.session).emitted <+:
      (d'.common (j.step (d.process line) (d'.process line') m).right.session).emitted := by
  obtain ⟨v, history, v', history', hleft, hright, -, -⟩ := h
  have hgrows : ∀ e : Event M', (d'.common j.right.session).emitted <+:
      (d'.common (j.right.iterate d' e).session).emitted := fun e =>
    (hd'.iterate_grows (fun hrunning => (hright.listens hrunning).stands.sound) e).queued
  cases m with
  | left doing => exact List.prefix_refl _
  | toLeft n => exact List.prefix_refl _
  | right doing => exact hgrows _
  | toRight n => exact hgrows _

/-! ### The invariant -/

/-- What some events since its start have given to the left loop. -/
structure Relayed (d : Driver C S M) (d' : Driver C' S' M') (start : Loop S) (events : List (Event M))
    (j : Duplex (Loop S) (Loop S')) : Prop where
  /-- They have led to where it is. -/
  run_eq : j.left = start.run d events
  /-- The ordinary packets are the first that the other side has queued. -/
  queued : ordinaries (heard (start.acts d events)) <+:
    (ordinaries (d'.common j.right.session).emitted).filter Loop.served
  /-- While it runs, they are all that it has opened and serves. -/
  opened : j.left.stage = .running → heard (start.acts d events) = j.left.opened.filter Loop.served

omit [SessionConfig C'] in
/-- Of a loop that has just been started nothing is given. -/
theorem Relayed.start (l : Loop S) (l' : Loop S') (toLeft toRight : Nat)
    (hopened : l.opened = []) : Relayed d d' l [] ⟨l, l', toLeft, toRight⟩ :=
  ⟨rfl, List.nil_prefix, fun _ => by rw [hopened]; rfl⟩

omit [SessionConfig C'] in
/-- A packet that was given is one that the other side has queued. -/
theorem Relayed.mem {start : Loop S} {events : List (Event M)} (h : Relayed d d' start events j)
    {buf : Bytes} (hbuf : buf ∈ heard (start.acts d events)) (hordinary : Ordinary buf) :
    buf ∈ (d'.common j.right.session).emitted := by
  have hmem : buf ∈ ordinaries (heard (start.acts d events)) :=
    List.mem_filter.mpr ⟨hbuf, by simpa using hordinary⟩
  exact (List.mem_filter.mp (List.mem_filter.mp (h.queued.subset hmem)).1).1

omit [Deps] in
/-- The ordinary packets among those that are served. -/
theorem ordinaries_served (payloads : List Bytes) :
    ordinaries (payloads.filter Loop.served) = (ordinaries payloads).filter Loop.served := by
  rw [ordinaries, ordinaries, List.filter_filter, List.filter_filter]
  congr 1
  funext body
  exact Bool.and_comm _ _

omit [SessionConfig C'] in
/-- What is read in ordinary packets that were given is, in the same order, in those that the
other side has queued. -/
theorem Relayed.filterMap {β : Type} {f : Bytes → Option β} {start : Loop S} {events : List (Event M)}
    (h : Relayed d d' start events j) (hf : ∀ buf b, f buf = some b → Ordinary buf) :
    ((heard (start.acts d events)).filterMap f).Sublist
      ((d'.common j.right.session).emitted.filterMap f) := by
  have hsame : ∀ payloads : List Bytes, (ordinaries payloads).filterMap f = payloads.filterMap f := by
    intro payloads
    rw [ordinaries, List.filterMap_filter]
    refine List.filterMap_congr fun buf _ => ?_
    by_cases hordinary : Ordinary buf
    · simp only [hordinary, decide_true, if_true]
    · cases hread : f buf with
      | none => simp only [ite_self]
      | some b => exact absurd (hf buf b hread) hordinary
  rw [← hsame, ← hsame (d'.common j.right.session).emitted]
  exact (h.queued.sublist.trans List.filter_sublist).filterMap f

/-- Where a delivery leaves a loop. -/
theorem Loop.arrive_opened (l : Loop S) (bytes : Bytes) :
    (l.iterate d (.arrive bytes : Event M)).stage = l.stage ∧
      (l.iterate d (.arrive bytes : Event M)).opened = l.opened := by
  simp only [Loop.iterate]
  split
  · exact ⟨rfl, rfl⟩
  · exact ⟨rfl, rfl⟩

/-- What a running loop acts on are the next packets that it has opened. -/
theorem Joined.left_opened [LawfulSodium] (h : Joined d d' x x' line line' j)
    (hmatches : x.Matches x') (hrunning : j.left.stage = .running) (doing : Doing M)
    (hwhole : doing.Whole) (hample' : (d'.common j.right.session).Ample) :
    (j.left.iterate d doing.event).opened.filter Loop.served =
        j.left.opened.filter Loop.served ++
          ((Loop.given d j.left doing.event).map Prod.snd).toList ∧
      Thrussh.ordinaries ((j.left.iterate d doing.event).opened.filter Loop.served) <+:
        (Thrussh.ordinaries (d'.common j.right.session).emitted).filter Loop.served := by
  obtain ⟨v, history, v', history', hleft, hright, -, -⟩ := h
  have hlistens := hleft.listens hrunning
  obtain ⟨-, after, hreads, -⟩ := hlistens.reads hmatches hright.told ⟨hleft.heard, hright.heard⟩
    hample' doing.event
  have haligned := hleft.aligned hmatches hright hrunning doing hwhole hample'
  have hsent : (sentUnder (sealingKey v'.past) history').map SentPacket.payload =
      history'.map PacketRecord.payload := by
    rw [sentUnder, List.map_map]
    rfl
  have hopened := haligned.opened_prefix
  rw [hsent] at hopened
  refine ⟨hlistens.opened_iterate hrunning doing hreads, ?_⟩
  rw [ordinaries_served]
  exact ((ordinaries_mono hopened).trans hright.told.queued).filter _

/-- A move gives the left loop the next packets that the other side has queued, or none. -/
theorem Joined.relayed [LawfulSodium] (hd' : d'.Performs x' E')
    (hmatches : x.Matches x') (h : Joined d d' x x' line line' j) {start : Loop S}
    {events : List (Event M)} (hrelayed : Relayed d d' start events j)
    {m : Duplex.Move (Doing M) (Doing M')}
    (horderly : Orderly d d' m (j.step (d.process line) (d'.process line') m)) :
    Relayed d d' start (events ++ (Duplex.input (d'.process line') j m).map inputEvent)
      (j.step (d.process line) (d'.process line') m) := by
  have hmore := (ordinaries_mono (h.queued_grows hd'.behaves m)).filter Loop.served
  have hrun : ∀ e : Event M, j.left.iterate d e = start.run d (events ++ [e]) := by
    intro e
    rw [hrelayed.run_eq, Loop.run, Loop.run, List.foldl_append]
    rfl
  have hheard := Loop.heard_snoc (d := d) start events
  rw [← hrelayed.run_eq] at hheard
  cases m with
  | right doing =>
    simp only [Duplex.input, List.map_nil, List.append_nil]
    exact ⟨hrelayed.run_eq, hrelayed.queued.trans hmore, hrelayed.opened⟩
  | toRight n =>
    simp only [Duplex.input, List.map_nil, List.append_nil]
    exact ⟨hrelayed.run_eq, hrelayed.queued.trans hmore, hrelayed.opened⟩
  | toLeft n =>
    simp only [Duplex.input, List.map_cons, List.map_nil, inputEvent]
    have hsame := hheard (.arrive (Duplex.next ((d'.process line').written j.right) j.toLeft n))
    have hnone : Loop.given d j.left (.arrive
        (Duplex.next ((d'.process line').written j.right) j.toLeft n) : Event M) = none := rfl
    rw [hnone, Option.map_none, Option.toList_none, List.append_nil] at hsame
    obtain ⟨hstage, hopened⟩ := Loop.arrive_opened (d := d) j.left
      (Duplex.next ((d'.process line').written j.right) j.toLeft n)
    refine ⟨hrun (.arrive _), ?_, fun hrunning => ?_⟩
    · rw [hsame]
      exact hrelayed.queued
    · rw [hsame]
      exact (hrelayed.opened (hstage ▸ hrunning)).trans (congrArg (List.filter _) hopened.symm)
  | left doing =>
    simp only [Duplex.input, List.map_cons, List.map_nil, inputEvent]
    have hnow := hheard doing.event
    by_cases hrunning : j.left.stage = .running
    · obtain ⟨hopened, hqueued⟩ :=
        h.left_opened hmatches hrunning doing horderly.1 horderly.2.2
      rw [hrelayed.opened hrunning, ← hopened] at hnow
      exact ⟨hrun _, by rw [hnow]; exact hqueued, fun _ => hnow⟩
    · have hnone := Loop.given_stopped (d := d) hrunning doing.event
      rw [hnone, Option.map_none, Option.toList_none, List.append_nil] at hnow
      obtain ⟨-, -, hstage⟩ := Loop.iterate_stands (d := d) hrunning doing.event
      exact ⟨hrun _, by rw [hnow]; exact hrelayed.queued, fun hnext => absurd hnext hstage⟩

/-- A run gives the left loop the first packets that the other side has queued. -/
theorem Joined.relayed_run [LawfulSodium] (hd : d.Performs x E) (hd' : d'.Performs x' E')
    (hmatches : x.Matches x') (h : Joined d d' x x' line line' j) {start : Loop S}
    {events : List (Event M)} (hrelayed : Relayed d d' start events j)
    {moves : List (Duplex.Move (Doing M) (Doing M'))}
    (horderly : Duplex.Along (d.process line) (d'.process line') (Orderly d d') j moves) :
    Relayed d d' start (events ++ leftEvents d d' line line' j moves)
      (Duplex.run (d.process line) (d'.process line') j moves) := by
  induction moves generalizing j events with
  | nil => rwa [leftEvents, Duplex.inputs, List.map_nil, List.append_nil]
  | cons m moves ih =>
    have hnext := h.relayed hd' hmatches hrelayed horderly.1
    have hlater := ih (h.step hd hd' hmatches horderly.1) hnext horderly.2
    rw [leftEvents, Duplex.inputs, List.map_append, ← List.append_assoc]
    exact hlater

end

/-! ### The client and the server -/

section
variable [Deps] {clientConfig : Client.Config} {app : Client.Application}
  {serverConfig : Server.Config} {handler : Server.Handler} {l : Loop Client.Session}
  {l' : Loop Server.Session} {r r' : SshRead} {moves : List Step}

/-- What happens to the client along some moves. -/
def clientEvents (clientConfig : Client.Config) (app : Client.Application)
    (serverConfig : Server.Config) (handler : Server.Handler) (l : Loop Client.Session)
    (l' : Loop Server.Session) (moves : List Step) : List (Event Client.Msg) :=
  leftEvents (Client.driver app) (Server.driver handler) (clientConfig.clientId ++ [13, 10])
    (serverConfig.serverId ++ [13, 10]) ⟨l, l', 0, 0⟩ moves

/-- What happens to the server. -/
def serverEvents (clientConfig : Client.Config) (app : Client.Application)
    (serverConfig : Server.Config) (handler : Server.Handler) (l : Loop Client.Session)
    (l' : Loop Server.Session) (moves : List Step) : List (Event (UInt32 × ChannelMsg)) :=
  leftEvents (Server.driver handler) (Client.driver app) (serverConfig.serverId ++ [13, 10])
    (clientConfig.clientId ++ [13, 10]) ⟨l', l, 0, 0⟩ (moves.map Duplex.Move.swap)

/-- Neither side has opened a packet at the beginning. -/
theorem Connected.unheard (h : Connected clientConfig app serverConfig handler l l' r r') :
    l.opened = [] ∧ l'.opened = [] := by
  have hstart : ∀ {C S M : Type} [SessionConfig C] (d : Driver C S M) (s : S) (line : Bytes),
      (Loop.start d s line).opened = [] := by
    intro C S M _ d s line
    have hinbound := Loop.start_inbound (d := d) s line
    simp only [Loop.inbound, Prod.mk.injEq] at hinbound
    rw [Loop.opened, hinbound.2.2.2]
    rfl
  obtain ⟨world, s, hs, hleft, hstays⟩ := h.client
  obtain ⟨world', hright⟩ := h.server
  obtain ⟨t, payload, rfl, -⟩ := Client.connectStream_opens serverConfig.preferred hs hleft hstays
  obtain ⟨t', payload', rfl, -⟩ := Server.runStream_opens clientConfig.preferred hright
  exact ⟨hstart _ _ _, hstart _ _ _⟩

/-- What an orderly run has given to the client. -/
theorem Connected.client_relayed [LawfulSodium]
    (h : Connected clientConfig app serverConfig handler l l' r r')
    (hcompatible : Compatible clientConfig app serverConfig)
    (horderly : OrderlyRun clientConfig app serverConfig handler l l' moves) :
    Relayed (Client.driver app) (Server.driver handler) l
      (clientEvents clientConfig app serverConfig handler l l' moves)
      (converse clientConfig app serverConfig handler l l' moves) :=
  (h.start_joined hcompatible).relayed_run
    (Client.driver_performs app hcompatible.signed serverConfig.serverId hcompatible.client)
    (Server.driver_performs handler clientConfig.clientId hcompatible.server)
    (scripts_match clientConfig hcompatible.keys) (.start l l' 0 0 h.unheard.1) horderly.2

/-- What it has given to the server. -/
theorem Connected.server_relayed [LawfulSodium]
    (h : Connected clientConfig app serverConfig handler l l' r r')
    (hcompatible : Compatible clientConfig app serverConfig)
    (horderly : OrderlyRun clientConfig app serverConfig handler l l' moves) :
    Relayed (Server.driver handler) (Client.driver app) l'
      (serverEvents clientConfig app serverConfig handler l l' moves)
      (converse clientConfig app serverConfig handler l l' moves).swap := by
  have hswapped := horderly.2.swap (fun _ _ hm => hm.swap)
  rw [converse, Duplex.run_swap]
  exact (h.start_joined hcompatible).swap.relayed_run
    (Server.driver_performs handler clientConfig.clientId hcompatible.server)
    (Client.driver_performs app hcompatible.signed serverConfig.serverId hcompatible.client)
    (scripts_match clientConfig hcompatible.keys).symm (.start l' l 0 0 h.unheard.2) hswapped

/-- What an orderly run gives to the client the server has queued. -/
theorem Connected.client_heard [LawfulSodium]
    (h : Connected clientConfig app serverConfig handler l l' r r')
    (hcompatible : Compatible clientConfig app serverConfig)
    (horderly : OrderlyRun clientConfig app serverConfig handler l l' moves) {buf : Bytes}
    (hbuf : buf ∈ heard (l.acts (Client.driver app)
      (clientEvents clientConfig app serverConfig handler l l' moves))) (hordinary : Ordinary buf) :
    buf ∈ (converse clientConfig app serverConfig handler l l' moves).right.session.emitted :=
  (h.client_relayed hcompatible horderly).mem hbuf hordinary

/-- And what it gives to the server the client has queued. -/
theorem Connected.server_heard [LawfulSodium]
    (h : Connected clientConfig app serverConfig handler l l' r r')
    (hcompatible : Compatible clientConfig app serverConfig)
    (horderly : OrderlyRun clientConfig app serverConfig handler l l' moves) {buf : Bytes}
    (hbuf : buf ∈ heard (l'.acts (Server.driver handler)
      (serverEvents clientConfig app serverConfig handler l l' moves))) (hordinary : Ordinary buf) :
    buf ∈ (converse clientConfig app serverConfig handler l l' moves).left.session.common.emitted :=
  (h.server_relayed hcompatible horderly).mem hbuf hordinary

end

end Thrussh
