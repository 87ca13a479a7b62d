import Mathlib.Data.Option.Basic
import Thrussh.Deeds

/-!
# Quiet steps

A step of a session is quiet when it queues packets and changes channels,
but seals nothing and leaves the key exchange and the authentication alone.
Everything a session does with a packet of an open channel, flushes apart,
is quiet. `P` is what is known of every packet queued. The steps that move
the authentication along are the staged ones.
-/

namespace Thrussh

open Lib

variable [Deps]

/-- Whether a message number belongs to the connection protocol, or is that of a DISCONNECT. -/
abbrev OfConnection (m : UInt8) : Prop := m = msg.DISCONNECT ∨ msg.GLOBAL_REQUEST ≤ m

/-- Whether a packet belongs to the connection protocol, or is a DISCONNECT. -/
def ConnectionPacket (body : Bytes) : Prop := ∃ m ∈ body.head?, OfConnection m

/-- Whether a message number is one of a key exchange. -/
abbrev OfExchange (m : UInt8) : Prop :=
  m = msg.KEXINIT ∨ m = msg.NEWKEYS ∨ m = msg.KEX_ECDH_INIT ∨ m = msg.KEX_ECDH_REPLY

/-- Whether a packet is one of a key exchange. -/
def ExchangePacket (body : Bytes) : Prop := ∃ m ∈ body.head?, OfExchange m

instance (body : Bytes) : Decidable (ExchangePacket body) :=
  inferInstanceAs (Decidable (∃ m ∈ body.head?, _))

/-- A packet that is only sent from the queue: neither one of an exchange nor the client's
service request. -/
def Ordinary (body : Bytes) : Prop :=
  ¬ ExchangePacket body ∧ body.head? ≠ some msg.SERVICE_REQUEST

instance (body : Bytes) : Decidable (Ordinary body) :=
  inferInstanceAs (Decidable (¬ _ ∧ ¬ _))

/-- The bytes `push_packet!` appends. -/
def frame (body : Bytes) : Bytes := be32 (UInt32.ofNat body.length) ++ body

/-- Nothing is compressed in either direction. -/
structure Encrypted.Uncompressed (enc : Encrypted) : Prop where
  /-- The negotiated compression from server to client. -/
  server : enc.serverCompression = .none
  /-- The negotiated compression from client to server. -/
  client : enc.clientCompression = .none
  /-- The active compressor. -/
  compress : enc.compress = .none
  /-- The active decompressor. -/
  decompress : enc.decompress = .none

/-- What a quiet step leaves of `enc`, and the packets it queues. -/
structure QuietEnc (P : Bytes → Prop) (e e' : Encrypted) : Prop where
  /-- Only the channels and the queue change. -/
  same : e' = { e with
    channels := e'.channels, lastChannelId := e'.lastChannelId, write := e'.write
    emitted := e'.emitted, deeds := e'.deeds }
  /-- Packets are appended to the queue. -/
  pushed : ∃ l : List Bytes, (∀ b ∈ l, P b) ∧ e'.write = e.write ++ l.flatMap frame ∧
    e'.emitted = e.emitted ++ l
  /-- Every change is one of the steps that the deeds account for. -/
  deeds : Deeds e e'

/-- What a staged step leaves of `enc`. -/
structure StagedEnc (e e' : Encrypted) : Prop where
  /-- Only the stage and the compression change. -/
  same : e' = { e with state := e'.state, compress := e'.compress, decompress := e'.decompress }
  /-- Compression starts only if it was negotiated. -/
  uncompressed : e.Uncompressed → e'.Uncompressed

/-- What a quiet step leaves of a session. -/
structure Quiet {C : Type} (P : Bytes → Prop) (s t : CommonSession C) : Prop where
  /-- What can change besides `enc`. -/
  same : t = { s with
    encrypted := t.encrypted, wantsReply := t.wantsReply
    disconnected := t.disconnected, buffer := t.buffer, tick := t.tick
    writeBuffer := { s.writeBuffer with buffer := t.writeBuffer.buffer } }
  /-- Only a disconnect in the clear writes to the buffer. -/
  output : t.disconnected = s.disconnected ∨ s.encrypted.isSome = true →
    t.writeBuffer.buffer = s.writeBuffer.buffer
  /-- A session that has disconnected stays so. -/
  disconnected : s.disconnected = true → t.disconnected = true
  /-- `enc` changes quietly. -/
  encrypted : Option.Rel (QuietEnc P) s.encrypted t.encrypted

/-- What a staged step leaves of a session. -/
structure Staged {C : Type} (s t : CommonSession C) : Prop where
  /-- The user, the method and `enc` can change. -/
  same : t = { s with
    authUser := t.authUser, authMethod := t.authMethod, encrypted := t.encrypted }
  /-- `enc` changes its stage. -/
  encrypted : Option.Rel StagedEnc s.encrypted t.encrypted

/-- Related sessions are both encrypted or both not. -/
theorem isSome_of_rel {R : Encrypted → Encrypted → Prop} {a b : Option Encrypted}
    (h : Option.Rel R a b) : b.isSome = a.isSome := by
  cases h <;> rfl

variable {P : Bytes → Prop}

/-- Pushing packets changes the queue and nothing else. -/
theorem pushAll_eq (enc : Encrypted) (bodies : List Bytes) :
    enc.pushAll bodies = { enc with
      write := enc.write ++ bodies.flatMap frame, emitted := enc.emitted ++ bodies } := by
  induction bodies generalizing enc with
  | nil => simp [Encrypted.pushAll]
  | cons body bodies ih =>
    have hstep : enc.pushAll (body :: bodies) = (enc.push body).pushAll bodies := rfl
    rw [hstep, ih]
    simp [Encrypted.push, pushPacket, frame]

namespace QuietEnc

theorem refl (e : Encrypted) : QuietEnc P e e :=
  ⟨rfl, ⟨[], by simp, by simp, by simp⟩, .refl⟩

theorem trans {e f g : Encrypted} (h : QuietEnc P e f) (k : QuietEnc P f g) : QuietEnc P e g := by
  obtain ⟨l, hl, hwrite, hemitted⟩ := h.pushed
  obtain ⟨m, hm, kwrite, kemitted⟩ := k.pushed
  refine ⟨?_, ⟨l ++ m, ?_, ?_, ?_⟩, h.deeds.trans k.deeds⟩
  · rw [k.same, h.same]
  · intro b hb
    rcases List.mem_append.mp hb with hb | hb
    · exact hl b hb
    · exact hm b hb
  · rw [kwrite, hwrite, List.flatMap_append, List.append_assoc]
  · rw [kemitted, hemitted, List.append_assoc]

/-- A step that only changes channels. -/
theorem of_channels {e e' : Encrypted} (hdeed : Does e e')
    (hsame : e' = { e with
      channels := e'.channels, lastChannelId := e'.lastChannelId, deeds := e'.deeds }) :
    QuietEnc P e e' := by
  refine ⟨?_, ⟨[], by simp, ?_, ?_⟩, .single hdeed⟩
  · rw [hsame]
  · rw [hsame]
    simp
  · rw [hsame]
    simp

theorem setChannel (e : Encrypted) {id : UInt32} {ch ch' : Channel}
    (hch : e.channels id = some ch) (hpending : ch'.pendingData = ch.pendingData) :
    QuietEnc P e (e.setChannel id ch') :=
  of_channels (.channel e hch hpending) rfl

theorem insertChannel (e : Encrypted) (id : UInt32) {ch : Channel}
    (hpending : ch.pendingData = []) : QuietEnc P e (e.insertChannel id ch) :=
  of_channels (.opened e id hpending) rfl

theorem removeChannel (e : Encrypted) (id : UInt32) : QuietEnc P e (e.removeChannel id) :=
  of_channels (.removed e id) rfl

/-- A step that queues packets, and may change channels. -/
theorem of_pushAll {e e' : Encrypted} {l : List Bytes} (hdeed : Does e e')
    (h : ∀ b ∈ l, P b)
    (hsame : e' = { e.pushAll l with channels := e'.channels, deeds := e'.deeds }) :
    QuietEnc P e e' := by
  rw [pushAll_eq] at hsame
  refine ⟨?_, ⟨l, h, ?_, ?_⟩, .single hdeed⟩
  · rw [hsame]
  · rw [hsame]
  · rw [hsame]

/-- A packet that neither carries data nor ends them. -/
theorem push (e : Encrypted) {body : Bytes} (h : P body) (hbody : ∀ m ∈ body.head?, Dataless m) :
    QuietEnc P e (e.push body) :=
  of_pushAll (l := [body]) (.push e hbody) (by simpa using h) rfl

/-- A signed request. -/
theorem pushSigned (e : Encrypted) {body : Bytes} (h : P body) : QuietEnc P e (e.pushSigned body) :=
  of_pushAll (l := [body]) (.signed e body) (by simpa using h) rfl

end QuietEnc

namespace Quiet

variable {C : Type}

theorem refl (s : CommonSession C) : Quiet P s s :=
  ⟨rfl, fun _ => rfl, id, by
    cases s.encrypted with
    | none => exact .none
    | some e => exact .some (.refl e)⟩

/-- A quiet change of `enc`. -/
theorem modifyEnc (s : CommonSession C) {f : Encrypted → Encrypted}
    (h : ∀ enc, QuietEnc P enc (f enc)) : Quiet P s (s.modifyEnc f) :=
  ⟨rfl, fun _ => rfl, id, by
    unfold CommonSession.modifyEnc
    cases s.encrypted with
    | none => exact .none
    | some e => exact .some (h e)⟩

/-- A change of the fields that belong to a request in progress. -/
theorem fields (s : CommonSession C) (wantsReply : Bool) (buffer : Bytes) (tick : Nat) :
    Quiet P s { s with wantsReply := wantsReply, buffer := buffer, tick := tick } :=
  ⟨rfl, fun _ => rfl, id, (refl s).encrypted⟩

/-- A session that disconnects queues its DISCONNECT, or writes it in the clear. -/
theorem disconnect (s : CommonSession C) (reason : Disconnect) (description languageTag : Bytes)
    (h : ∀ body, body.head? = some msg.DISCONNECT → P body) :
    Quiet P s (s.disconnect reason description languageTag) := by
  unfold CommonSession.disconnect
  dsimp only
  by_cases hdisconnected : s.disconnected = true
  · rw [if_pos hdisconnected]
    exact .refl s
  · rw [if_neg hdisconnected]
    have hoff : (true = s.disconnected) → False := fun heq => hdisconnected heq.symm
    cases henc : s.encrypted with
    | none =>
      refine ⟨rfl, fun hor => ?_, fun _ => rfl, ?_⟩
      · rcases hor with heq | hsome
        · exact (hoff heq).elim
        · rw [henc] at hsome
          cases hsome
      · rw [henc]
        exact .none
    | some enc =>
      refine ⟨rfl, fun _ => rfl, fun _ => rfl, ?_⟩
      simp only [CommonSession.modifyEnc, henc, Option.map_some]
      exact .some (.push enc (h _ rfl) (by rintro m ⟨⟩; decide))

end Quiet

namespace Staged

variable {C : Type}

/-- A change of the user and of the method. -/
theorem request (s : CommonSession C) (user : Bytes) (method : Option Method) :
    Staged s { s with authUser := user, authMethod := method } :=
  ⟨rfl, by
    cases s.encrypted with
    | none => exact .none
    | some e => exact .some ⟨rfl, id⟩⟩

/-- A change of the stage. -/
theorem modifyEnc (s : CommonSession C) {f : Encrypted → Encrypted}
    (h : ∀ enc, StagedEnc enc (f enc)) : Staged s (s.modifyEnc f) :=
  ⟨rfl, by
    unfold CommonSession.modifyEnc
    cases s.encrypted with
    | none => exact .none
    | some e => exact .some (h e)⟩

end Staged

section
variable {C : Type}

/-- Where `updateEnc` ends. -/
theorem final_updateEnc (f : Encrypted → Except Fault Encrypted) (s : CommonSession C) :
    final (updateEnc f s) = match s.encrypted with
      | none => s
      | some enc => match f enc with
        | .ok enc => { s with encrypted := some enc }
        | .error _ => s := by
  simp only [updateEnc, run_bind, run_get]
  cases henc : s.encrypted with
  | none => rfl
  | some enc =>
    simp only [run_bind]
    cases f enc with
    | ok enc => rfl
    | error e => rfl

/-- Where `withEnc` ends. -/
theorem final_withEnc {α : Type} (f : Encrypted → Except Fault (α × Encrypted))
    (s : CommonSession C) :
    final (withEnc f s) = match s.encrypted with
      | none => s
      | some enc => match f enc with
        | .ok (_, enc) => { s with encrypted := some enc }
        | .error _ => s := by
  simp only [withEnc, run_bind, run_get]
  cases henc : s.encrypted with
  | none => rfl
  | some enc =>
    simp only [run_bind]
    cases f enc with
    | ok res => rfl
    | error e => rfl

/-- Replacing `enc` by a quiet successor. -/
theorem Quiet.replace {s : CommonSession C} {enc enc' : Encrypted} (h : s.encrypted = some enc)
    (hquiet : QuietEnc P enc enc') : Quiet P s { s with encrypted := some enc' } :=
  ⟨rfl, fun _ => rfl, id, by
    rw [h]
    exact .some hquiet⟩

/-- A partial change of `enc` is quiet when every result is. -/
theorem updateEnc_quiet {f : Encrypted → Except Fault Encrypted}
    (h : ∀ enc enc', f enc = .ok enc' → QuietEnc P enc enc') (s : CommonSession C) :
    Quiet P s (final (updateEnc f s)) := by
  rw [final_updateEnc]
  cases henc : s.encrypted with
  | none => exact .refl s
  | some enc =>
    dsimp only
    cases hf : f enc with
    | error e => exact .refl s
    | ok enc' => exact .replace henc (h enc enc' hf)

/-- A partial change of `enc` that returns a value is quiet when every result is. -/
theorem withEnc_quiet {α : Type} {f : Encrypted → Except Fault (α × Encrypted)}
    (h : ∀ enc a enc', f enc = .ok (a, enc') → QuietEnc P enc enc') (s : CommonSession C) :
    Quiet P s (final (withEnc f s)) := by
  rw [final_withEnc]
  cases henc : s.encrypted with
  | none => exact .refl s
  | some enc =>
    dsimp only
    cases hf : f enc with
    | error e => exact .refl s
    | ok res => exact .replace henc (h enc res.1 res.2 hf)

end

/-! The operations of `Encrypted` are quiet when `P` holds of every packet of
the connection protocol. -/

section
variable (hP : ∀ body : Bytes, ConnectionPacket body → P body)

include hP

theorem push_quiet (enc : Encrypted) {m : UInt8} {rest : Bytes}
    (h : OfConnection m ∧ Dataless m) : QuietEnc P enc (enc.push (m :: rest)) :=
  .push enc (hP _ ⟨m, rfl, h.1⟩) (by rintro _ ⟨⟩; exact h.2)

theorem byte_quiet (enc : Encrypted) (id : UInt32) {m : UInt8} (h : OfConnection m) :
    QuietEnc P enc (enc.byte id m) := by
  have hdeed : Does enc (enc.byte id m) := .byte enc id m
  unfold Encrypted.byte at hdeed ⊢
  cases hch : enc.channels id with
  | none => exact .refl enc
  | some ch =>
    rw [hch] at hdeed
    refine .of_pushAll (l := [m :: be32 ch.recipientChannel]) hdeed (fun b hb => ?_) rfl
    rw [List.mem_singleton.mp hb]
    exact hP _ ⟨m, rfl, h⟩

theorem eof_quiet (enc : Encrypted) (id : UInt32) : QuietEnc P enc (enc.eof id) :=
  byte_quiet hP enc id (by decide)

theorem adjustWindowSize_quiet (enc : Encrypted) (id : UInt32) (data : Bytes) (target : UInt32) :
    QuietEnc P enc (enc.adjustWindowSize id data target).1 := by
  have hreceives := adjustWindowSize_receives enc id data target
  generalize (enc.adjustWindowSize id data target).1 = enc' at hreceives
  cases hreceives with
  | unknown h => exact .refl enc
  | kept hch hlarge => exact .setChannel enc hch rfl
  | granted hch hsmall =>
    exact (push_quiet hP enc (m := msg.CHANNEL_WINDOW_ADJUST) (by decide)).trans
      (.setChannel _ hch rfl)

/-- What is transmitted is quiet, if its packets belong to the connection protocol. -/
theorem Transmits.quiet {enc enc' : Encrypted} {id : UInt32}
    {packet : Channel → Bytes → Bytes} {deed : UInt32 → List Bytes → Deed}
    (h : Transmits packet deed id enc enc')
    (hpacket : ∀ ch chunk, ConnectionPacket (packet ch chunk))
    (hdeed : Does enc enc') : QuietEnc P enc enc' := by
  cases h with
  | unknown h => exact .refl enc
  | @known ch window pending chunks hch =>
    refine .of_pushAll (l := chunks.map (packet ch)) hdeed (fun b hb => ?_) rfl
    obtain ⟨chunk, -, rfl⟩ := List.mem_map.mp hb
    exact hP _ (hpacket ch chunk)

theorem flushPending_quiet {enc enc' : Encrypted} {id : UInt32} {total : Nat}
    (h : enc.flushPending id = .ok (enc', total)) : QuietEnc P enc enc' :=
  (flushPending_transmits h).quiet hP (fun _ _ => ⟨msg.CHANNEL_DATA, rfl, by decide⟩)
    (.flushPending h)

theorem data_quiet {enc enc' : Encrypted} {id : UInt32} {buf0 : Bytes}
    (h : enc.data id buf0 = .ok enc') : QuietEnc P enc enc' :=
  (submit_transmits h).quiet hP (fun _ _ => ⟨msg.CHANNEL_DATA, rfl, by decide⟩) (.data h)

theorem extendedData_quiet {enc enc' : Encrypted} {id ext : UInt32} {buf0 : Bytes}
    (h : enc.extendedData id ext buf0 = .ok enc') : QuietEnc P enc enc' :=
  (submit_transmits h).quiet hP (fun _ _ => ⟨msg.CHANNEL_EXTENDED_DATA, rfl, by decide⟩)
    (.data h)

end

omit [Deps] in
/-- A message number of the connection protocol is none of a key exchange. -/
theorem OfConnection.not_exchange {m : UInt8} (h : OfConnection m) : ¬ OfExchange m := by
  rintro (rfl | rfl | rfl | rfl)
  all_goals exact absurd h (by decide)

omit [Deps] in
/-- A packet of a key exchange has one of its numbers. -/
theorem exchangePacket_cons {m : UInt8} {rest : Bytes} :
    ExchangePacket (m :: rest) ↔ OfExchange m := by
  simp [ExchangePacket]

omit [Deps] in
/-- The number of a packet tells whether it is only sent from the queue. -/
theorem ordinary_cons {m : UInt8} {rest : Bytes} :
    Ordinary (m :: rest) ↔ ¬ OfExchange m ∧ m ≠ msg.SERVICE_REQUEST := by
  simp [Ordinary, exchangePacket_cons]

omit [Deps] in
/-- What holds of every packet that is only sent from the queue holds of the packets of
the connection protocol. -/
theorem of_connection (hP : ∀ body : Bytes, Ordinary body → P body) :
    ∀ body : Bytes, ConnectionPacket body → P body := by
  rintro body ⟨m, hm, hconnection⟩
  refine hP body ⟨?_, fun hservice => ?_⟩
  · rintro ⟨m', hm', hexchange⟩
    cases Option.mem_unique hm hm'
    exact OfConnection.not_exchange hconnection hexchange
  · cases Option.mem_unique hm hservice
    exact absurd hconnection (by decide)

theorem adjustRecipientWindow_quiet {enc enc' : Encrypted} {id amount window : UInt32}
    (h : enc.adjustRecipientWindow id amount = .ok (window, enc')) : QuietEnc P enc enc' := by
  obtain ⟨ch, hch, -, rfl⟩ := adjustRecipientWindow_ok h
  exact .setChannel enc hch rfl

theorem newChannelId_quiet {enc enc' : Encrypted} {id : UInt32}
    (h : enc.newChannelId = .ok (id, enc')) : QuietEnc P enc enc' := by
  unfold Encrypted.newChannelId at h
  simp only [bind, Except.bind] at h
  cases hid : freeId enc.channels (2 ^ 32) enc.lastChannelId with
  | error e => rw [hid] at h; cases h
  | ok id' =>
    rw [hid] at h
    cases h
    exact .of_channels (.idle rfl rfl rfl) rfl

theorem newChannel_quiet {enc enc' : Encrypted} {windowSize maxpacket id : UInt32}
    (h : enc.newChannel windowSize maxpacket = .ok (id, enc')) : QuietEnc P enc enc' := by
  unfold Encrypted.newChannel at h
  simp only [bind, Except.bind] at h
  cases hid : enc.newChannelId with
  | error e => rw [hid] at h; cases h
  | ok res =>
    rw [hid] at h
    cases h
    exact (newChannelId_quiet hid).trans (.insertChannel _ _ rfl)

end Thrussh
