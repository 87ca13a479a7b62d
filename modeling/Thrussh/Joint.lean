import Thrussh.Agreement
import Thrussh.Limited
import Thrussh.Stream
import Thrussh.Turns

/-!
# Both sides of a connection

Two loops on a pair of byte streams: what each writes behind its identification
line is delivered to the other, in order and in parts of any size. In
between each loop reads, receives local messages and times out as it may. Whatever the
order, what a running loop has opened is what its peer has sealed, packet
for packet, each under the keys of the same exchange.
-/

namespace Thrussh

open Lib

/-! ### The system -/

/-- What a loop does on its own. -/
inductive Doing (M : Type) where
  /-- The branch of `cipher::read` wins. -/
  | read
  /-- The branch of `session.receiver` wins; the pending read had taken `taken` bytes. -/
  | message (m : Option M) (taken : Nat)
  /-- The timeout wins. -/
  | timeout

/-- What it does is an event of its loop. -/
def Doing.event {M : Type} : Doing M → Event M
  | .read => .read
  | .message m taken => .message m taken
  | .timeout => .timeout

/-- No read that is dropped has taken bytes. -/
def Doing.Whole {M : Type} : Doing M → Prop
  | .message _ taken => taken = 0
  | _ => True

instance {M : Type} : ∀ m : Doing M, Decidable m.Whole
  | .message _ taken => inferInstanceAs (Decidable (taken = 0))
  | .read => .isTrue trivial
  | .timeout => .isTrue trivial

/-- No move drops a read that has taken bytes. -/
def WholeMove {M N : Type} : Duplex.Move (Doing M) (Doing N) → Prop
  | .left m => m.Whole
  | .right m => m.Whole
  | _ => True

instance {M N : Type} : ∀ m : Duplex.Move (Doing M) (Doing N), Decidable (WholeMove m)
  | .left m => inferInstanceAs (Decidable m.Whole)
  | .right m => inferInstanceAs (Decidable m.Whole)
  | .toLeft _ => .isTrue trivial
  | .toRight _ => .isTrue trivial

section
variable [Deps] {C S M C' S' M' : Type} [SessionConfig C] [SessionConfig C']

/-- A loop as a process on byte streams; its identification line is read apart. -/
def Driver.process (d : Driver C S M) (line : Bytes) : Process UInt8 (Loop S) (Doing M) where
  deliver bytes l := l.iterate d (.arrive bytes)
  act m l := l.iterate d m.event
  written l := l.output.drop line.length

/-- What an input of a process is for its loop. -/
def inputEvent {M : Type} : Doing M ⊕ List UInt8 → Event M
  | .inl m => m.event
  | .inr bytes => .arrive bytes

/-- What happens to the left loop along a run. -/
def leftEvents (d : Driver C S M) (d' : Driver C' S' M') (line line' : Bytes)
    (j : Duplex (Loop S) (Loop S')) (moves : List (Duplex.Move (Doing M) (Doing M'))) :
    List (Event M) :=
  (Duplex.inputs (d.process line) (d'.process line') j moves).map inputEvent

/-- The left loop of a run is where its events lead. -/
theorem left_eq_run {d : Driver C S M} {d' : Driver C' S' M'} {line line' : Bytes}
    (j : Duplex (Loop S) (Loop S'))
    (moves : List (Duplex.Move (Doing M) (Doing M'))) :
    (Duplex.run (d.process line) (d'.process line') j moves).left =
      j.left.run d (leftEvents d d' line line' j moves) := by
  rw [Duplex.left_run, Loop.run, leftEvents, List.foldl_map]
  congr 1
  funext l i
  cases i <;> rfl

/-- No packet of a session is so long that there is no room for its padding. -/
def CommonSession.Ample {C : Type} (s : CommonSession C) : Prop :=
  s.Roomy ∧ ∀ r ∈ s.writeBuffer.history, r.payload.length < 2 ^ 32 - 17

instance {C : Type} (s : CommonSession C) : Decidable s.Ample :=
  inferInstanceAs (Decidable (s.Roomy ∧ ∀ r ∈ s.writeBuffer.history, _))

/-- The condition on the moves of a connection: reads are not torn, and packets fit. -/
def Orderly (d : Driver C S M) (d' : Driver C' S' M') (m : Duplex.Move (Doing M) (Doing M'))
    (j : Duplex (Loop S) (Loop S')) : Prop :=
  WholeMove m ∧ (d.common j.left.session).Ample ∧ (d'.common j.right.session).Ample

instance (d : Driver C S M) (d' : Driver C' S' M') (m : Duplex.Move (Doing M) (Doing M'))
    (j : Duplex (Loop S) (Loop S')) : Decidable (Orderly d d' m j) :=
  inferInstanceAs (Decidable (WholeMove m ∧ _ ∧ _))

omit [SessionConfig C] [SessionConfig C'] in
/-- The condition is the same from either side. -/
theorem Orderly.swap {d : Driver C S M} {d' : Driver C' S' M'}
    {m : Duplex.Move (Doing M) (Doing M')} {j : Duplex (Loop S) (Loop S')}
    (h : Orderly d d' m j) : Orderly d' d m.swap j.swap := by
  obtain ⟨hwhole, hample, hample'⟩ := h
  refine ⟨?_, hample', hample⟩
  cases m <;> exact hwhole

/-! ### What one side knows of the other -/

/-- A loop that runs has heard a part of what the other side has told. -/
structure Loop.Listens (d : Driver C S M) (x : Script C) (line : Bytes) (v : Progress)
    (history : List PacketRecord) (sent : List SentPacket) (arrived : Bytes) (l : Loop S) :
    Prop where
  /-- Where it stands. -/
  stands : Stands d x line v l
  /-- It has told everything that it has sealed. -/
  told : history = (d.common l.session).writeBuffer.history
  /-- The packets of exchanges that it has opened. -/
  heard : exchanges l.opened = v.heard
  /-- Each is opened with the label of its place. -/
  labelled : Labelled l.buffer.history
  /-- The stream is open. -/
  eof : l.eof = false
  /-- It begins at the boundary of a packet. -/
  aligned : l.Aligned sent arrived

/-- One side of a connection, on which the other side stands at `v'` and has told `history'`. -/
structure Partner (d : Driver C S M) (x : Script C) (line : Bytes) (v : Progress)
    (history : List PacketRecord) (v' : Progress) (history' : List PacketRecord) (arrived : Bytes)
    (l : Loop S) : Prop where
  /-- What it has told. -/
  told : l.Told d x line v history
  /-- It has heard a part of what the other side has said. -/
  heard : v.heard <+: v'.said
  /-- While it runs. -/
  listens : l.stage = .running →
    l.Listens d x line v history (sentUnder (sealingKey v'.past) history') arrived

/-- Both sides of a connection. -/
def Joined (d : Driver C S M) (d' : Driver C' S' M') (x : Script C) (x' : Script C')
    (line line' : Bytes) (j : Duplex (Loop S) (Loop S')) : Prop :=
  ∃ v history v' history',
    Partner d x line v history v' history' ((j.right.output.drop line'.length).take j.toLeft) j.left ∧
    Partner d' x' line' v' history' v history ((j.left.output.drop line.length).take j.toRight)
      j.right ∧
    j.toLeft ≤ (j.right.output.drop line'.length).length ∧
    j.toRight ≤ (j.left.output.drop line.length).length

section
variable {d : Driver C S M} {d' : Driver C' S' M'} {x : Script C} {x' : Script C'}
  {line line' : Bytes} {v v' : Progress} {history history' : List PacketRecord} {arrived : Bytes}
  {l : Loop S} {l' : Loop S'}

theorem Joined.swap {j : Duplex (Loop S) (Loop S')} (h : Joined d d' x x' line line' j) :
    Joined d' d x' x line' line j.swap := by
  obtain ⟨v, history, v', history', hleft, hright, htoLeft, htoRight⟩ := h
  exact ⟨v', history', v, history, hright, hleft, htoRight, htoLeft⟩

/-- What a loop has written behind its line are the packets of its history. -/
theorem Loop.Told.bytes_eq (h : l.Told d x line v history) :
    l.output.drop line.length = wires 0 (sentUnder (sealingKey v.past) history) := by
  obtain ⟨before, b, houtput, hbuffer, hhistory, htranscript⟩ := h.written
  have hbytes := htranscript.bytes_eq
  rw [hbuffer, List.append_nil, hhistory] at hbytes
  rw [houtput, List.drop_left, hbytes]

omit [Deps] in
/-- More packets, and more rounds, leave the packets that there are. -/
theorem sentUnder_mono {past past' : List Round} (hpast : past <+: past')
    (hhistory : history <+: history') (hknown : ∀ r ∈ history, r.epoch ≤ past.length) :
    sentUnder (sealingKey past) history <+: sentUnder (sealingKey past') history' := by
  obtain ⟨later, rfl⟩ := hpast
  obtain ⟨more, rfl⟩ := hhistory
  have hsame : sentUnder (sealingKey (past ++ later)) history = sentUnder (sealingKey past) history := by
    refine List.map_congr_left fun r hr => ?_
    have hle := hknown r hr
    cases hepoch : r.epoch with
    | zero => rfl
    | succ n =>
      rw [hepoch] at hle
      have hlt : n < past.length := hle
      rw [sealingKey, sealingKey, List.getElem?_append_left hlt]
  rw [← hsame]
  unfold sentUnder
  rw [List.map_append]
  exact List.prefix_append _ _

omit [SessionConfig C] in
/-- A stream on which more will be sent. -/
theorem Loop.Aligned.more {sent sent' : List SentPacket} (h : l.Aligned sent arrived)
    (hsent : sent <+: sent') : l.Aligned sent' arrived := by
  obtain ⟨rest, rfl⟩ := hsent
  obtain ⟨before, after, hsplit, hopened, hseqn, hleads, harrived⟩ := h.boundary
  refine ⟨before, after ++ rest, ?_, hopened, hseqn, ?_, harrived⟩
  · rw [hsplit, List.append_assoc]
  · rw [wires_append]
    exact hleads.trans (List.prefix_append _ _)

omit [Deps] in
/-- A place in what was said holds the packet that was sealed there. -/
theorem said_of_append {before after : List PacketRecord} {r : PacketRecord} {said : List Bytes}
    (hsaid : exchanges ((before ++ r :: after).map PacketRecord.payload) = said)
    (hexchange : ExchangePacket r.payload) :
    said[(exchanges (before.map PacketRecord.payload)).length]? = some r.payload := by
  have hsplit : (before ++ r :: after).map PacketRecord.payload =
      before.map PacketRecord.payload ++ ([r.payload] ++ after.map PacketRecord.payload) := by
    rw [List.map_append, List.map_cons, List.singleton_append]
  rw [← hsaid, hsplit, exchanges_append, exchanges_append, exchanges_single hexchange,
    List.getElem?_append_right (Nat.le_refl _), Nat.sub_self]
  rfl

/-- The next packet on the stream is sealed with the key that the session opens it with, and it
is expected. -/
theorem Loop.Listens.next (h : l.Listens d x line v history
    (sentUnder (sealingKey v'.past) history') arrived) (hmatches : x.Matches x')
    (htold' : l'.Told d' x' line' v' history') (hjoins : v.Joins v')
    {before after : List SentPacket}
    (hsent : sentUnder (sealingKey v'.past) history' = before ++ after)
    (hopened : l.opened = before.map SentPacket.payload) {p : SentPacket} (hp : p ∈ after.head?) :
    p.key = (d.common l.session).cipher.remoteToLocal ∧ x.Expects v p.payload := by
  obtain ⟨_, b, -, -, rfl, htranscript⟩ := htold'.written
  obtain ⟨bytes, -, hstanding⟩ := h.stands.place
  obtain ⟨first, rest, hhistory, rfl, rfl⟩ := List.map_eq_append_iff.mp hsent
  obtain ⟨r, later, rfl, hr⟩ : ∃ r later, rest = r :: later ∧
      (⟨sealingKey v'.past r.epoch, r.payload⟩ : SentPacket) = p := by
    cases rest with
    | nil => cases hp
    | cons r later => exact ⟨r, later, rfl, Option.some.inj hp⟩
  have hlabelled := htranscript.labelled
  have hknown := htranscript.known r
  have hearly := htranscript.early r
  have hsaid := htranscript.said
  rw [hhistory] at hlabelled hknown hearly hsaid
  have hmem : r ∈ first ++ r :: later := List.mem_append_right _ List.mem_cons_self
  have hfirst : exchanges (first.map PacketRecord.payload) = v.heard := by
    rw [← h.heard, hopened, List.map_map]
    rfl
  obtain ⟨hmod, hdiv⟩ := v.heard_place hstanding.place.peer_few
  have hepoch : r.epoch = v.past.length := by rw [hlabelled.epoch_eq, hfirst, hdiv]
  subst hr
  refine ⟨?_, fun hexchange => ?_, fun hpast => ?_⟩
  · have hle := hknown hmem
    rw [hepoch] at hle
    obtain ⟨_, _, -, -, -, hmine⟩ := h.stands.told.written
    rw [hstanding.cipher_eq]
    dsimp only
    rw [hepoch]
    exact hmatches.meet hjoins hmine.archive htranscript.archive (Nat.le_refl _) hle
  · have hplace := said_of_append hsaid hexchange
    rw [hfirst] at hplace
    have hrecites := htranscript.recited _ _ hplace
    rw [hmod, hmatches.role, ← hmatches.pref] at hrecites
    exact hrecites
  · refine hearly hmem ?_
    rw [hepoch, hpast]
    rfl

omit [Deps] in
/-- A short packet leaves room for its padding. -/
theorem fits_of_short (key : CipherKey) {payload : Bytes} (h : payload.length < 2 ^ 32 - 17) :
    key.Fits payload := by
  have hpadding := paddingLength_le key payload
  simp only [CipherKey.Fits, CipherKey.bodyLength, paddingLengthLen]
  omega

/-- The packets that a side has told are as short as those that it has sealed. -/
theorem Loop.Told.fits (h : l.Told d x line v history) (hample : (d.common l.session).Ample) :
    ∀ p ∈ sentUnder (sealingKey v.past) history, p.key.Fits p.payload := by
  intro p hp
  obtain ⟨r, hr, rfl⟩ := List.mem_map.mp hp
  exact fits_of_short _ (hample.2 r (h.sealed.subset hr))

/-- What a loop that runs finds when it reads. -/
theorem Loop.Listens.reads [LawfulSodium] (h : l.Listens d x line v history
    (sentUnder (sealingKey v'.past) history') arrived) (hmatches : x.Matches x')
    (htold' : l'.Told d' x' line' v' history') (hjoins : v.Joins v')
    (hample' : (d'.common l'.session).Ample) (e : Event M) :
    InStep d (sentUnder (sealingKey v'.past) history') l e ∧
      ∃ after, ReadsNext (d.common l.session).cipher l.buffer after l.stream false (l.nextRead d) ∧
        ∀ p ∈ after.head?, x.Expects v p.payload := by
  have hstep : InStep d (sentUnder (sealingKey v'.past) history') l e := by
    obtain ⟨before, after, hsent, hopened, -⟩ := h.aligned.boundary
    intro p hp
    have hlength : l.buffer.history.length = before.length := by
      have hcount := congrArg List.length hopened
      simpa [opened] using hcount
    rw [hsent, hlength, List.getElem?_append_right (Nat.le_refl _), Nat.sub_self,
      ← List.head?_eq_getElem?] at hp
    exact (h.next hmatches htold' hjoins hsent hopened hp).1
  obtain ⟨before, after, hsent, hopened, -, -, -, hreads⟩ :=
    h.aligned.reads (htold'.fits hample') hstep
  rw [h.eof] at hreads
  exact ⟨hstep, after, hreads, fun p hp => (h.next hmatches htold' hjoins hsent hopened hp).2⟩

/-- A loop that runs on opens its next packet with the label of its place. -/
theorem Loop.Listens.labelled_iterate (h : l.Listens d x line v history
    (sentUnder (sealingKey v'.past) history') arrived) (hrunning : l.stage = .running)
    {after : List SentPacket} {e : Event M}
    (hreads : ReadsNext (d.common l.session).cipher l.buffer after l.stream false (l.nextRead d))
    (hnext : (Loop.iterate d l e).stage = .running) :
    Labelled (Loop.iterate d l e).buffer.history := by
  obtain ⟨-, hhistory⟩ := iterate_running hnext
  rw [hhistory]
  cases e with
  | arrive bytes => exact h.labelled
  | close => exact h.labelled
  | message m taken => exact h.labelled
  | timeout => exact h.labelled
  | read =>
    unfold readBuffer
    rw [hrunning]
    cases hresult : l.nextRead d with
    | pending => exact h.labelled
    | panic => exact h.labelled
    | err e b rest =>
      rw [hresult] at hreads
      cases hreads.of_err.1
    | ok n b rest =>
      rw [hresult] at hreads
      obtain ⟨p, later, head, -, -, -, rfl⟩ := hreads.of_ok
      obtain ⟨_, -, hstanding⟩ := h.stands.place
      obtain ⟨before, _, -, hopened, hseqn, -⟩ := h.aligned.boundary
      have hcount : before.length = l.buffer.history.length := by
        have hlength := congrArg List.length hopened
        simpa [opened] using hlength.symm
      refine h.labelled.snoc ?_ ?_
      · change (d.common l.session).cipher.epoch = (exchanges l.opened).length / roundLength
        rw [h.heard, (v.heard_place hstanding.place.peer_few).2, hstanding.cipher_eq]
        rfl
      · change l.buffer.seqn = _
        rw [hseqn, hcount]

omit [Deps] in
/-- What has been delivered stays, whatever else is written. -/
theorem take_of_leading {bytes bytes' : Bytes} (h : bytes <+: bytes') {n : Nat}
    (hn : n ≤ bytes.length) : bytes'.take n = bytes.take n ∧ n ≤ bytes'.length := by
  obtain ⟨rest, rfl⟩ := h
  rw [List.take_append_of_le_length hn, List.length_append]
  exact ⟨rfl, by omega⟩

/-- What a loop that runs opens is on the stream. -/
theorem Partner.aligned [LawfulSodium] (hmatches : x.Matches x') {delivered : Nat}
    (h : Partner d x line v history v' history' ((l'.output.drop line'.length).take delivered) l)
    (h' : Partner d' x' line' v' history' v history arrived l') (hrunning : l.stage = .running)
    (m : Doing M) (hwhole : m.Whole) (hample' : (d'.common l'.session).Ample) :
    (l.iterate d m.event).Aligned (sentUnder (sealingKey v'.past) history')
      ((l'.output.drop line'.length).take delivered) := by
  have hlistens := h.listens hrunning
  obtain ⟨hstep, -⟩ := hlistens.reads hmatches h'.told ⟨h.heard, h'.heard⟩ hample' m.event
  have harrivals : arrivals [m.event] = [] := by cases m <;> rfl
  have htaken : Loop.NothingTaken l m.event := by
    cases m with
    | read => exact trivial
    | timeout => exact trivial
    | message m taken => exact hwhole
  have haligned := hlistens.aligned.iterate (h'.told.fits hample') m.event hstep htaken (by
    rw [harrivals, List.append_nil, h'.told.bytes_eq]
    exact List.take_prefix _ _)
  rwa [harrivals, List.append_nil] at haligned

/-- A loop that runs acts. -/
theorem Partner.acts [LawfulSodium] {E : CommonSession C → Bytes → CommonSession C → Prop}
    (hd : d.Performs x E) (hmatches : x.Matches x') {delivered : Nat}
    (h : Partner d x line v history v' history' ((l'.output.drop line'.length).take delivered) l)
    (h' : Partner d' x' line' v' history' v history arrived l') (hrunning : l.stage = .running)
    (m : Doing M) (hwhole : m.Whole) (hroomy : (d.common (l.iterate d m.event).session).Roomy)
    (hample' : (d'.common l'.session).Ample) :
    ∃ v₁ history₁, Partner d x line v₁ history₁ v' history'
        ((l'.output.drop line'.length).take delivered) (l.iterate d m.event) ∧
      v.past <+: v₁.past ∧ history <+: history₁ := by
  have hlistens := h.listens hrunning
  obtain ⟨-, after, hreads, hexpects⟩ :=
    hlistens.reads hmatches h'.told ⟨h.heard, h'.heard⟩ hample' m.event
  obtain ⟨v₁, history₁, htold₁, hgrows, hpast, hheard, hrun⟩ :=
    hlistens.stands.iterate hd hrunning hlistens.heard m.event hreads hexpects hroomy
  rw [← hlistens.told] at hgrows
  have haligned := h.aligned hmatches h' hrunning m hwhole hample'
  have hopened : exchanges (l.iterate d m.event).opened <+: v'.said := by
    obtain ⟨_, b, -, -, rfl, htranscript⟩ := h'.told.written
    rw [← htranscript.said]
    have hpayloads : (sentUnder (sealingKey v'.past) b.history).map SentPacket.payload =
        b.history.map PacketRecord.payload := by
      rw [sentUnder, List.map_map]
      rfl
    rw [← hpayloads]
    exact exchanges_mono haligned.opened_prefix
  have heof : (l.iterate d m.event).eof = false := by
    rw [Loop.iterate_eof d l (by cases m <;> simp [Doing.event]), hlistens.eof]
  refine ⟨v₁, history₁, ⟨htold₁, ?_, fun hnext => ?_⟩, hpast, hgrows⟩
  · rcases hheard with heq | heq
    · rw [heq]
      exact h.heard
    · rw [heq]
      exact hopened
  · obtain ⟨hstands, htold, heq⟩ := hrun hnext
    exact ⟨hstands, htold, heq.symm, hlistens.labelled_iterate hrunning hreads hnext, heof, haligned⟩

/-- A loop that is left does nothing more. -/
theorem Partner.stopped {v' : Progress} (h : Partner d x line v history v' history' arrived l)
    (hstopped : l.stage ≠ .running) (e : Event M) (arrived' : Bytes) :
    Partner d x line v history v' history' arrived' (l.iterate d e) := by
  obtain ⟨hsession, houtput, hstage⟩ := Loop.iterate_stands (d := d) hstopped e
  refine ⟨h.told.stop houtput ?_, h.heard, fun hrunning => absurd hrunning hstage⟩
  rw [hsession]
  exact .refl _

/-- What was said is said later on. -/
theorem Loop.Told.said_grows {v₁ : Progress} {history₁ : List PacketRecord} {l₁ : Loop S}
    (h : l.Told d x line v history) (h₁ : l₁.Told d x line v₁ history₁)
    (hgrows : history <+: history₁) : v.said <+: v₁.said := by
  obtain ⟨_, b, -, -, rfl, htranscript⟩ := h.written
  obtain ⟨_, b₁, -, -, rfl, htranscript₁⟩ := h₁.written
  rw [← htranscript.said, ← htranscript₁.said]
  exact exchanges_mono (hgrows.map _)

/-- The other side may tell more. -/
theorem Partner.later {v₁ : Progress} {history₁ : List PacketRecord} {l₁ : Loop S} {delivered : Nat}
    (h : Partner d' x' line' v' history' v history
      ((l.output.drop line.length).take delivered) l')
    (htold : l.Told d x line v history) (htold₁ : l₁.Told d x line v₁ history₁)
    (hpast : v.past <+: v₁.past) (hgrows : history <+: history₁)
    (hdelivered : delivered ≤ (l.output.drop line.length).length) :
    Partner d' x' line' v' history' v₁ history₁ ((l₁.output.drop line.length).take delivered) l' ∧
      delivered ≤ (l₁.output.drop line.length).length := by
  have hsent : sentUnder (sealingKey v.past) history <+: sentUnder (sealingKey v₁.past) history₁ := by
    obtain ⟨_, b, -, -, rfl, htranscript⟩ := htold.written
    exact sentUnder_mono hpast hgrows htranscript.known
  have hbytes : l.output.drop line.length <+: l₁.output.drop line.length := by
    obtain ⟨rest, hrest⟩ := hsent
    rw [htold.bytes_eq, htold₁.bytes_eq, ← hrest, wires_append]
    exact List.prefix_append _ _
  obtain ⟨htake, hle⟩ := take_of_leading hbytes hdelivered
  refine ⟨⟨h.told, h.heard.trans (htold.said_grows htold₁ hgrows), fun hrunning => ?_⟩, hle⟩
  have hlistens := h.listens hrunning
  rw [htake]
  exact ⟨hlistens.stands, hlistens.told, hlistens.heard, hlistens.labelled, hlistens.eof,
    hlistens.aligned.more hsent⟩

/-- More of what the other side has written is delivered. -/
theorem Partner.delivered [LawfulSodium] (hmatches : x.Matches x') {n : Nat} {delivered : Nat}
    (h : Partner d x line v history v' history' ((l'.output.drop line'.length).take delivered) l)
    (h' : Partner d' x' line' v' history' v history arrived l')
    (hdelivered : delivered ≤ (l'.output.drop line'.length).length)
    (hample' : (d'.common l'.session).Ample) :
    let symbols := Duplex.next (l'.output.drop line'.length) delivered n
    Partner d x line v history v' history'
        ((l'.output.drop line'.length).take (delivered + symbols.length))
        (l.iterate d (.arrive symbols)) ∧
      delivered + symbols.length ≤ (l'.output.drop line'.length).length := by
  intro symbols
  obtain ⟨htake, hle⟩ := Duplex.take_next (l'.output.drop line'.length) hdelivered n
  refine ⟨?_, hle⟩
  by_cases hrunning : l.stage = .running
  · have hlistens := h.listens hrunning
    have hjoins : v.Joins v' := ⟨h.heard, h'.heard⟩
    obtain ⟨hstep, -⟩ := hlistens.reads hmatches h'.told hjoins hample' (.arrive symbols)
    have haligned := hlistens.aligned.iterate (h'.told.fits hample') (.arrive symbols) hstep
      trivial (by
        rw [arrivals, arrivals, List.append_nil, htake, h'.told.bytes_eq]
        exact List.take_prefix _ _)
    rw [arrivals, arrivals, List.append_nil, htake] at haligned
    have hnext : l.iterate d (.arrive symbols) = { l with stream := l.stream ++ symbols } := by
      simp only [Loop.iterate, hlistens.eof, Bool.false_eq_true, if_false]
    rw [hnext] at haligned ⊢
    have hstands := hlistens.stands
    exact ⟨⟨h.told.written, h.told.sealed, h.told.queued⟩, h.heard, fun _ =>
      ⟨⟨hstands.place, hstands.cleared, hstands.sound, hstands.drained⟩, hlistens.told,
        hlistens.heard, hlistens.labelled, hlistens.eof, haligned⟩⟩
  · exact h.stopped hrunning _ _

/-- A move of the one side, or to it, keeps both sides joined. -/
theorem Joined.move [LawfulSodium] {E : CommonSession C → Bytes → CommonSession C → Prop}
    (hd : d.Performs x E) (hmatches : x.Matches x') {j : Duplex (Loop S) (Loop S')}
    (h : Joined d d' x x' line line' j) {m : Duplex.Move (Doing M) (Doing M')}
    (hm : (∃ doing, m = .left doing) ∨ ∃ n, m = .toLeft n)
    (horderly : Orderly d d' m (j.step (d.process line) (d'.process line') m)) :
    Joined d d' x x' line line' (j.step (d.process line) (d'.process line') m) := by
  obtain ⟨v, history, v', history', hleft, hright, htoLeft, htoRight⟩ := h
  obtain ⟨hwhole, hample, hample'⟩ := horderly
  rcases hm with ⟨doing, rfl⟩ | ⟨n, rfl⟩
  · by_cases hrunning : j.left.stage = .running
    · obtain ⟨v₁, history₁, hleft₁, hpast, hgrows⟩ :=
        hleft.acts hd hmatches hright hrunning doing hwhole hample.1 hample'
      obtain ⟨hright₁, hle⟩ := hright.later hleft.told hleft₁.told hpast hgrows htoRight
      exact ⟨v₁, history₁, v', history', hleft₁, hright₁, htoLeft, hle⟩
    · obtain ⟨-, houtput, -⟩ := Loop.iterate_stands (d := d) hrunning doing.event
      have hwritten : (j.left.iterate d doing.event).output.drop line.length =
          j.left.output.drop line.length := by rw [houtput]
      refine ⟨v, history, v', history', hleft.stopped hrunning _ _, ?_, htoLeft, ?_⟩
      · change Partner d' x' line' v' history' v history
          (((j.left.iterate d doing.event).output.drop line.length).take j.toRight) j.right
        rw [hwritten]
        exact hright
      · change j.toRight ≤ ((j.left.iterate d doing.event).output.drop line.length).length
        rw [hwritten]
        exact htoRight
  · obtain ⟨hleft₁, hle⟩ := hleft.delivered hmatches (n := n) hright htoLeft hample'
    refine ⟨v, history, v', history', hleft₁, ?_, hle, ?_⟩
    · have houtput : (j.left.iterate d (.arrive
          (Duplex.next (j.right.output.drop line'.length) j.toLeft n))).output = j.left.output := by
        simp only [Loop.iterate]
        split <;> rfl
      change Partner d' x' line' v' history' v history (((j.left.iterate d (.arrive
        (Duplex.next (j.right.output.drop line'.length) j.toLeft n))).output.drop
          line.length).take j.toRight) j.right
      rw [houtput]
      exact hright
    · change j.toRight ≤ ((j.left.iterate d (.arrive
        (Duplex.next (j.right.output.drop line'.length) j.toLeft n))).output.drop line.length).length
      have houtput : (j.left.iterate d (.arrive
          (Duplex.next (j.right.output.drop line'.length) j.toLeft n))).output = j.left.output := by
        simp only [Loop.iterate]
        split <;> rfl
      rw [houtput]
      exact htoRight

/-- Every move keeps both sides joined. -/
theorem Joined.step [LawfulSodium] {E : CommonSession C → Bytes → CommonSession C → Prop}
    {E' : CommonSession C' → Bytes → CommonSession C' → Prop} (hd : d.Performs x E)
    (hd' : d'.Performs x' E') (hmatches : x.Matches x') {j : Duplex (Loop S) (Loop S')}
    (h : Joined d d' x x' line line' j) {m : Duplex.Move (Doing M) (Doing M')}
    (horderly : Orderly d d' m (j.step (d.process line) (d'.process line') m)) :
    Joined d d' x x' line line' (j.step (d.process line) (d'.process line') m) := by
  have hswap : (∃ doing, m = .right doing) ∨ (∃ n, m = .toRight n) →
      Joined d d' x x' line line' (j.step (d.process line) (d'.process line') m) := by
    intro hm
    have hm' : (∃ doing, m.swap = .left doing) ∨ ∃ n, m.swap = .toLeft n := by
      rcases hm with ⟨doing, rfl⟩ | ⟨n, rfl⟩
      · exact .inl ⟨doing, rfl⟩
      · exact .inr ⟨n, rfl⟩
    have horderly' := horderly.swap
    rw [Duplex.step_swap] at horderly'
    have hmoved := Joined.move hd' hmatches.symm h.swap hm' horderly'
    rw [← Duplex.step_swap] at hmoved
    exact hmoved.swap
  cases m with
  | left doing => exact h.move hd hmatches (.inl ⟨doing, rfl⟩) horderly
  | toLeft n => exact h.move hd hmatches (.inr ⟨n, rfl⟩) horderly
  | right doing => exact hswap (.inl ⟨doing, rfl⟩)
  | toRight n => exact hswap (.inr ⟨n, rfl⟩)

/-- Every run keeps both sides joined. -/
theorem Joined.run [LawfulSodium] {E : CommonSession C → Bytes → CommonSession C → Prop}
    {E' : CommonSession C' → Bytes → CommonSession C' → Prop} (hd : d.Performs x E)
    (hd' : d'.Performs x' E') (hmatches : x.Matches x') {j : Duplex (Loop S) (Loop S')}
    (h : Joined d d' x x' line line' j) {moves : List (Duplex.Move (Doing M) (Doing M'))}
    (horderly : Duplex.Along (d.process line) (d'.process line') (Orderly d d') j moves) :
    Joined d d' x x' line line' (Duplex.run (d.process line) (d'.process line') j moves) :=
  Duplex.Along.kept (fun _ _ hj hm => hj.step hd hd' hmatches hm) h horderly

/-- The packets that a running loop has opened are those that the other side has sealed, in
order, none lost and none twice, each in the same epoch. -/
theorem Joined.labels {j : Duplex (Loop S) (Loop S')} (h : Joined d d' x x' line line' j)
    (hrunning : j.left.stage = .running) :
    j.left.buffer.history.map PacketRecord.label <+:
      (d'.common j.right.session).writeBuffer.history.map PacketRecord.label := by
  obtain ⟨v, history, v', history', hleft, hright, -, -⟩ := h
  have hlistens := hleft.listens hrunning
  have hpayloads := hlistens.aligned.opened_prefix
  obtain ⟨_, b, -, -, rfl, htranscript⟩ := hright.told.written
  have hsent : (sentUnder (sealingKey v'.past) b.history).map SentPacket.payload =
      b.history.map PacketRecord.payload := by
    rw [sentUnder, List.map_map]
    rfl
  rw [hsent] at hpayloads
  exact (hlistens.labelled.label_leads htranscript.labelled hpayloads).trans
    (hright.told.sealed.map _)

end

end

end Thrussh
