import Thrussh.Auth
import Thrussh.Kex
import Thrussh.Lib.Moves

/-!
# The state shared by the two roles

`Channel`, `Encrypted` and `CommonSession`. `enc.write` is the source's byte
buffer of length-prefixed packets with its cursor. `emitted` and `deeds` are
history variables: the packets ever queued in it, and what has been done to
the channels, with the packets that came of it. The channel table is a
function from ids. The clock and the random bytes are the answers of the
session's `World` to its successive questions, counted by `tick`. `flushes`,
another history variable, notes what every flush found.
-/

namespace Thrussh

open Deps Lib

/-- Data pending on a channel: the buffers, each with its ext code and the offset. -/
abbrev Pending := List (Bytes × Option UInt32 × Nat)

/-- `Channel`. -/
structure Channel where
  /-- The peer's number for the channel. -/
  recipientChannel : UInt32
  /-- Our own number. -/
  senderChannel : UInt32
  /-- What we may still send. -/
  recipientWindowSize : UInt32
  /-- What the peer may still send. -/
  senderWindowSize : UInt32
  /-- The peer's limit for one packet. -/
  recipientMaximumPacketSize : UInt32
  /-- Our limit for one packet. -/
  senderMaximumPacketSize : UInt32
  /-- Has the other side confirmed the channel? -/
  confirmed : Bool
  /-- Whether the last request wants a reply. -/
  wantsReply : Bool
  /-- Buffers not fully sent. -/
  pendingData : Pending
  deriving DecidableEq, Repr

/-- `channel.recipient_window_size += amount` on a CHANNEL_WINDOW_ADJUST. -/
def Channel.addWindow (ch : Channel) (amount : UInt32) : Except Fault Channel :=
  if ch.recipientWindowSize.toNat + amount.toNat < 2 ^ 32 then
    .ok { ch with recipientWindowSize := ch.recipientWindowSize + amount }
  else .error .overflow

/-- `EncryptedState`. -/
inductive EncryptedState where
  | waitingServiceRequest (sent accepted : Bool)
  | waitingAuthRequest (auth : AuthRequest)
  | initCompression
  | authenticated
  deriving DecidableEq, Repr

/-- `Limits`. -/
structure Limits where
  /-- Bytes written before a re-exchange. -/
  rekeyWriteLimit : Nat
  /-- Bytes read before a re-exchange. -/
  rekeyReadLimit : Nat
  /-- Time before a re-exchange. -/
  rekeyTimeLimit : Nat
  deriving DecidableEq, Repr

/-- `Limits::new`, with its assertion. -/
def Limits.new (writeLimit readLimit timeLimit : Nat) : Except Fault Limits :=
  if writeLimit ≤ 2 ^ 30 ∧ readLimit ≤ 2 ^ 30 then .ok ⟨writeLimit, readLimit, timeLimit⟩
  else .error .panic

/-- `Disconnect`, a reason for disconnection, as its number. -/
inductive Disconnect where
  | hostNotAllowedToConnect | protocolError | keyExchangeFailed | reserved | macError
  | compressionError | serviceNotAvailable | protocolVersionNotSupported | hostKeyNotVerifiable
  | connectionLost | byApplication | tooManyConnections | authCancelledByUser
  | noMoreAuthMethodsAvailable | illegalUserName
  deriving DecidableEq, Repr

/-- `reason as u32`. -/
def Disconnect.code : Disconnect → UInt32
  | .hostNotAllowedToConnect => 1
  | .protocolError => 2
  | .keyExchangeFailed => 3
  | .reserved => 4
  | .macError => 5
  | .compressionError => 6
  | .serviceNotAvailable => 7
  | .protocolVersionNotSupported => 8
  | .hostKeyNotVerifiable => 9
  | .connectionLost => 10
  | .byApplication => 11
  | .tooManyConnections => 12
  | .authCancelledByUser => 13
  | .noMoreAuthMethodsAvailable => 14
  | .illegalUserName => 15

/-- What the two roles' `Config`s have in common. -/
class SessionConfig (C : Type) where
  /-- The role whose configuration this is. -/
  role : Role
  /-- The limits before a re-exchange. -/
  limits : C → Limits
  /-- The preferred algorithms. -/
  preferred : C → Preferred

/-- History: something done to a channel of the table, with the packets it queues. -/
inductive Deed where
  /-- `data` or `extended_data` on a channel. -/
  | data (id : UInt32) (packets : List Bytes)
  /-- `byte` on a channel, which ends its data or closes it, with the data pending on it. -/
  | byte (id : UInt32) (m : UInt8) (pending : Pending) (packet : Bytes)
  /-- `flush_pending` on a channel. -/
  | flushPending (id : UInt32) (packets : List Bytes)
  /-- `channels.insert` makes an entry for a new channel. -/
  | opened (id : UInt32)
  /-- A signed request to authenticate is queued as the agent has returned it. -/
  | signed (packet : Bytes)
  deriving DecidableEq

section
variable [Deps]

/-- `Encrypted`. -/
structure Encrypted where
  /-- The stage of service and authentication. -/
  state : EncryptedState
  /-- It's always Some, except when it is taken out temporarily. -/
  exchange : Option Exchange
  /-- The secrets of the last exchange. -/
  kex : Algorithm
  /-- Index of the host key. -/
  key : Nat
  /-- The negotiated MAC. -/
  mac : Option Bytes
  /-- The session id. -/
  sessionId : Bytes32
  /-- The re-exchange in progress. -/
  rekey : Option Kex
  /-- The channel table. -/
  channels : UInt32 → Option Channel
  /-- The last id given to a channel. -/
  lastChannelId : UInt32
  /-- Not used. -/
  wantsReply : Bool
  /-- Length-prefixed packets to seal. -/
  write : Bytes
  /-- Start of the next packet to seal. -/
  writeCursor : Nat
  /-- Instant of the last exchange. -/
  lastRekey : Nat
  /-- Compression from server to client. -/
  serverCompression : Compression
  /-- Compression from client to server. -/
  clientCompression : Compression
  /-- The active compressor. -/
  compress : Compress
  /-- The active decompressor. -/
  decompress : Decompress
  /-- History: every packet ever queued in `write`. -/
  emitted : List Bytes
  /-- History: everything ever done to a channel. -/
  deeds : List Deed

/-- History: what a call of `Encrypted::flush` found. -/
structure FlushRecord where
  /-- Whether the session had sent its KEXINIT and waited for the peer's. -/
  waiting : Bool
  /-- The packets in `write` from the cursor on. -/
  queued : List Bytes
  deriving DecidableEq, Repr

/-- `CommonSession`. -/
structure CommonSession (C : Type) where
  /-- The user being authenticated. -/
  authUser : Bytes
  /-- The configuration. -/
  config : C
  /-- The encrypted session, once the first exchange is over. -/
  encrypted : Option Encrypted
  /-- The client's way to authenticate. -/
  authMethod : Option Method
  /-- Bytes to send. -/
  writeBuffer : SSHBuffer
  /-- The first exchange. -/
  kex : Option Kex
  /-- The pair in use. -/
  cipher : CipherPair
  /-- Whether a global request wants a reply. -/
  wantsReply : Bool
  /-- Whether this side has disconnected. -/
  disconnected : Bool
  /-- Scratch buffer of the client's signatures. -/
  buffer : Bytes
  /-- Where instants and random bytes come from. -/
  world : World
  /-- Questions asked of the world and of the handler so far. -/
  tick : Nat
  /-- History: what every flush so far found. -/
  flushes : List FlushRecord

/-- A step of the common state. -/
abbrev CommonM (C : Type) := EStateM Fault (CommonSession C)

/-- `push_packet!` on `enc.write`. -/
def Encrypted.push (enc : Encrypted) (body : Bytes) : Encrypted :=
  { enc with write := pushPacket enc.write body, emitted := enc.emitted ++ [body] }

/-- A deed is noted. -/
def Encrypted.note (enc : Encrypted) (d : Deed) : Encrypted := { enc with deeds := enc.deeds ++ [d] }

/-- A signed request is queued as the agent has returned it. -/
def Encrypted.pushSigned (enc : Encrypted) (body : Bytes) : Encrypted :=
  (enc.push body).note (.signed body)

/-- The packets that have been queued since an earlier state. -/
def Encrypted.queuedSince (enc before : Encrypted) : List Bytes :=
  enc.emitted.drop before.emitted.length

/-- A change of an entry in place. -/
def Encrypted.setChannel (enc : Encrypted) (id : UInt32) (ch : Channel) : Encrypted :=
  { enc with channels := Function.update enc.channels id (some ch) }

/-- `channels.insert`. -/
def Encrypted.insertChannel (enc : Encrypted) (id : UInt32) (ch : Channel) : Encrypted :=
  (enc.setChannel id ch).note (.opened id)

/-- `channels.remove`. -/
def Encrypted.removeChannel (enc : Encrypted) (id : UInt32) : Encrypted :=
  { enc with channels := Function.update enc.channels id none }

/-- `Encrypted::byte`. -/
def Encrypted.byte (enc : Encrypted) (id : UInt32) (m : UInt8) : Encrypted :=
  match enc.channels id with
  | some ch =>
    let packet := m :: be32 ch.recipientChannel
    (enc.push packet).note (.byte id m ch.pendingData packet)
  | none => enc

/-- `Encrypted::eof`. -/
def Encrypted.eof (enc : Encrypted) (id : UInt32) : Encrypted := enc.byte id msg.CHANNEL_EOF

/-- `Encrypted::adjust_window_size`. -/
def Encrypted.adjustWindowSize (enc : Encrypted) (id : UInt32) (data : Bytes) (target : UInt32) :
    Encrypted × Bool :=
  match enc.channels id with
  | none => (enc, false)
  | some ch =>
    -- Extra data is ignored here, as in RFC 4254 section 5.2.
    let ch :=
      if UInt32.ofNat data.length ≤ ch.senderWindowSize then
        { ch with senderWindowSize := ch.senderWindowSize - UInt32.ofNat data.length }
      else ch
    if ch.senderWindowSize < target / 2 then
      ((enc.push (msg.CHANNEL_WINDOW_ADJUST :: be32 ch.recipientChannel ++
          be32 (target - ch.senderWindowSize))).setChannel id
        { ch with senderWindowSize := target }, true)
    else (enc.setChannel id ch, false)

/-- What both roles do on a CHANNEL_WINDOW_ADJUST, with the new window. -/
def Encrypted.adjustRecipientWindow (enc : Encrypted) (id : UInt32) (amount : UInt32) :
    Except Fault (UInt32 × Encrypted) :=
  match enc.channels id with
  | none => .error (.error .wrongChannel)
  | some ch => do
    let ch ← ch.addWindow amount
    .ok (ch.recipientWindowSize, enc.setChannel id ch)

/-- `&s[a..b]`, which panics out of range. -/
def slice (s : Bytes) (a b : Nat) : Except Fault Bytes :=
  if a ≤ b ∧ b ≤ s.length then .ok ((s.take b).drop a) else .error .panic

/-- The `while buf.len() > 0` loop of `data_noqueue` and `extended_data`:
one packet of at most `maxSize` bytes each time, taken off the window. Each
repetition that sends something shortens `buf`, so a loop longer than `buf`
never ends. -/
def chunkLoop (packet : Bytes → Bytes) (maxSize : Nat) :
    Nat → Encrypted → UInt32 → Bytes → Except Fault (Encrypted × UInt32)
  | _, enc, window, [] => .ok (enc, window)
  | 0, _, _, _ :: _ => .error .diverge
  | fuel + 1, enc, window, buf@(_ :: _) =>
    let off := min buf.length maxSize
    if UInt32.ofNat off ≤ window then
      chunkLoop packet maxSize fuel (enc.push (packet (buf.take off))) (window - UInt32.ofNat off)
        (buf.drop off)
    else .error .overflow

/-- The part of a buffer that the window allows, `&buf0[from..window]` or `&buf0[from..]`. -/
def windowSlice (window : UInt32) (buf0 : Bytes) (start : Nat) : Except Fault Bytes :=
  if UInt32.ofNat buf0.length > window then slice buf0 start window.toNat
  else slice buf0 start buf0.length

/-- The body of a CHANNEL_DATA packet. -/
def dataPacket (recipient : UInt32) (data : Bytes) : Bytes :=
  msg.CHANNEL_DATA :: be32 recipient ++ sshString data

/-- The body of a CHANNEL_EXTENDED_DATA packet. -/
def extendedDataPacket (recipient ext : UInt32) (data : Bytes) : Bytes :=
  msg.CHANNEL_EXTENDED_DATA :: be32 recipient ++ be32 ext ++ sshString data

/-- Send what the window allows of a buffer from an offset on: the state, the
channel and how many bytes were sent. -/
def Encrypted.sendChunks (enc : Encrypted) (ch : Channel) (packet : Bytes → Bytes) (buf0 : Bytes)
    (start : Nat) : Except Fault (Encrypted × Channel × Nat) := do
  let buf ← windowSlice ch.recipientWindowSize buf0 start
  let (enc, window) ← chunkLoop packet ch.recipientMaximumPacketSize.toNat buf.length enc
    ch.recipientWindowSize buf
  .ok (enc, { ch with recipientWindowSize := window }, buf.length)

/-- `Encrypted::data_noqueue`. -/
def Encrypted.dataNoqueue (enc : Encrypted) (ch : Channel) (buf0 : Bytes) (start : Nat) :
    Except Fault (Encrypted × Channel × Nat) :=
  enc.sendChunks ch (dataPacket ch.recipientChannel) buf0 start

/-- The `while let Some(..) = pop_front()` loop of `flush_pending`. -/
def flushPendingLoop :
    Pending → Encrypted → Channel → Nat →
      Except Fault (Encrypted × Channel × Nat)
  | [], enc, ch, total => .ok (enc, { ch with pendingData := [] }, total)
  | (buf, a, size) :: rest, enc, ch, total => do
    let (enc, ch, sent) ← enc.dataNoqueue ch buf size
    if sent < buf.length then
      .ok (enc, { ch with pendingData := (buf, a, sent) :: rest }, total + sent)
    else flushPendingLoop rest enc ch (total + sent)

/-- `Encrypted::flush_pending`, with the number of bytes sent. -/
def Encrypted.flushPending (enc : Encrypted) (id : UInt32) : Except Fault (Encrypted × Nat) :=
  match enc.channels id with
  | none => .ok (enc, 0)
  | some ch => do
    let (enc', ch, total) ← flushPendingLoop ch.pendingData enc ch 0
    .ok ((enc'.setChannel id ch).note (.flushPending id (enc'.queuedSince enc)), total)

/-- What `data` and `extended_data` share: queue behind pending data, or send
and queue the rest. -/
def Encrypted.submit (enc : Encrypted) (id : UInt32) (ext : Option UInt32)
    (packet : Channel → Bytes → Bytes) (buf0 : Bytes) : Except Fault Encrypted :=
  match enc.channels id with
  | none => .ok enc
  | some ch =>
    if ch.confirmed then
      if ch.pendingData = [] then do
        let (enc', ch, sent) ← enc.sendChunks ch (packet ch) buf0 0
        let ch := if sent < buf0.length then { ch with pendingData := [(buf0, ext, sent)] } else ch
        .ok ((enc'.setChannel id ch).note (.data id (enc'.queuedSince enc)))
      else
        .ok ((enc.setChannel id { ch with
          pendingData := ch.pendingData ++ [(buf0, ext, 0)] }).note (.data id []))
    else .error .panic

/-- `Encrypted::data`. -/
def Encrypted.data (enc : Encrypted) (id : UInt32) (buf0 : Bytes) : Except Fault Encrypted :=
  enc.submit id none (fun ch => dataPacket ch.recipientChannel) buf0

/-- `Encrypted::extended_data`. -/
def Encrypted.extendedData (enc : Encrypted) (id ext : UInt32) (buf0 : Bytes) :
    Except Fault Encrypted :=
  enc.submit id (some ext) (fun ch => extendedDataPacket ch.recipientChannel ext) buf0

/-- The search for an id without an entry, over all `2 ^ 32` of them. -/
def freeId (channels : UInt32 → Option Channel) : Nat → UInt32 → Except Fault UInt32
  | 0, _ => .error .diverge
  | fuel + 1, last =>
    if (channels (last + 1)).isSome then freeId channels fuel (last + 1) else .ok (last + 1)

/-- `Encrypted::new_channel_id`. -/
def Encrypted.newChannelId (enc : Encrypted) : Except Fault (UInt32 × Encrypted) := do
  let id ← freeId enc.channels (2 ^ 32) enc.lastChannelId
  .ok (id, { enc with lastChannelId := id })

/-- `Encrypted::new_channel`. -/
def Encrypted.newChannel (enc : Encrypted) (windowSize maxpacket : UInt32) :
    Except Fault (UInt32 × Encrypted) := do
  let (id, enc) ← enc.newChannelId
  .ok (id, enc.insertChannel id ⟨0, id, 0, windowSize, 0, maxpacket, false, false, []⟩)

/-- The packets in a buffer of length-prefixed packets. -/
def unframe : Nat → Bytes → List Bytes
  | 0, _ => []
  | fuel + 1, write =>
    match headBe32 write with
    | none => []
    | some len => (write.drop 4).take len.toNat :: unframe fuel (write.drop (4 + len.toNat))

/-- The packets that are in `write` from the cursor on. -/
def Encrypted.queued (enc : Encrypted) : List Bytes :=
  unframe enc.write.length (enc.write.drop enc.writeCursor)

/-- Whether the session has sent its KEXINIT and waits for the peer's. -/
def Encrypted.waiting (enc : Encrypted) : Bool :=
  match enc.rekey with
  | some (.kexInit _) => true
  | _ => false

/-- The loop of `Encrypted::flush`: compress and seal the packets of `write`
from the cursor on. Each packet takes four bytes of `write` at least. -/
def flushLoop (cipher : CipherPair) : Nat → EStateM Fault (Encrypted × SSHBuffer) Unit
  | 0 => pure ()
  | fuel + 1 => do
    let (enc, _) ← get
    if enc.writeCursor < enc.write.length then
      match headBe32 (enc.write.drop enc.writeCursor) with
      | none => throw .panic
      | some len => do
        let packet ← lift (slice enc.write (enc.writeCursor + 4) (enc.writeCursor + 4 + len.toNat))
        match enc.compress.compress packet with
        | .error (.error _) => throw .panic -- `unwrap()`
        | .error e => throw e
        | .ok (packet, compress) => do
          modify fun p => ({ p.1 with compress := compress }, p.2)
          zoom Prod.snd (fun b p => (p.1, b)) (cipher.write .queued packet)
          modify fun p => ({ p.1 with writeCursor := p.1.writeCursor + 4 + len.toNat }, p.2)
          flushLoop cipher fuel
    else pure ()

/-- `Encrypted::flush` up to the trigger: seal everything, then clear. -/
def Encrypted.flush (enc : Encrypted) (cipher : CipherPair) :
    EStateM Fault (Encrypted × SSHBuffer) Unit := do
  flushLoop cipher enc.write.length
  modify fun p =>
    if p.1.writeCursor ≥ p.1.write.length then ({ p.1 with writeCursor := 0, write := [] }, p.2)
    else p

variable {C : Type}

/-- `Instant::now()`. -/
def now : CommonM C Nat := fun s =>
  .ok (s.world.clock s.tick) { s with tick := s.tick + 1 }

/-- The random bytes of one step. -/
def rand : CommonM C Rand := fun s =>
  .ok (s.world.rand s.tick) { s with tick := s.tick + 1 }

/-- A step of `enc`, when there is one. -/
def CommonSession.modifyEnc (s : CommonSession C) (f : Encrypted → Encrypted) : CommonSession C :=
  { s with encrypted := s.encrypted.map f }

/-- A step of `enc` that can fail, when there is one. -/
def updateEnc (f : Encrypted → Except Fault Encrypted) : CommonM C Unit := do
  let s ← get
  match s.encrypted with
  | none => pure ()
  | some enc => do
    let enc ← lift (f enc)
    set { s with encrypted := some enc }

/-- A step of `enc` that returns a value, where the source unwraps `enc`. -/
def withEnc {α : Type} (f : Encrypted → Except Fault (α × Encrypted)) : CommonM C α := do
  let s ← get
  match s.encrypted with
  | none => throw .panic
  | some enc => do
    let (a, enc) ← lift (f enc)
    set { s with encrypted := some enc }
    pure a

/-- A step on `write_buffer`. -/
def withWriteBuffer {α : Type} (x : EStateM Fault SSHBuffer α) : CommonM C α :=
  zoom CommonSession.writeBuffer (fun b s => { s with writeBuffer := b }) x

/-- `CommonSession::newkeys`. -/
def CommonSession.newkeys (s : CommonSession C) (k : NewKeys) : CommonSession C :=
  match s.encrypted with
  | some enc =>
    { s with
      encrypted := some { enc with
        exchange := some k.exchange, kex := k.kex, key := k.key, mac := k.names.mac }
      cipher := { k.cipher with epoch := s.cipher.epoch + 1 } }
  | none => s

/-- `CommonSession::encrypted`. -/
def CommonSession.toEncrypted (s : CommonSession C) (state : EncryptedState) (k : NewKeys)
    (now : Nat) : CommonSession C :=
  { s with
    encrypted := some {
      state := state, exchange := some k.exchange, kex := k.kex, key := k.key
      mac := k.names.mac, sessionId := k.sessionId, rekey := none, channels := fun _ => none
      lastChannelId := 1, wantsReply := false, write := [], writeCursor := 0, lastRekey := now
      serverCompression := k.names.serverCompression
      clientCompression := k.names.clientCompression
      compress := .none, decompress := .none, emitted := [], deeds := [] }
    cipher := { k.cipher with epoch := s.cipher.epoch + 1 } }

/-- `CommonSession::disconnect`. Before the first exchange is over the packet
goes into `write_buffer` as it is. -/
def CommonSession.disconnect (s : CommonSession C) (reason : Disconnect)
    (description languageTag : Bytes) : CommonSession C :=
  let body := msg.DISCONNECT :: be32 reason.code ++ sshString description ++ sshString languageTag
  if s.disconnected then s
  else
    let s := { s with disconnected := true }
    match s.encrypted with
    | some _ => s.modifyEnc (·.push body)
    | none =>
      { s with writeBuffer := { s.writeBuffer with buffer := pushPacket s.writeBuffer.buffer body } }

/-- `CommonSession::byte`. -/
def CommonSession.byte (s : CommonSession C) (id : UInt32) (m : UInt8) : CommonSession C :=
  s.modifyEnc (·.byte id m)

/-- `server_write` and `client_write`: make a KEXINIT, record it and seal it. -/
def KexInit.ownWrite (k : KexInit) (role : Role) (preferred : Preferred) (cipher : CipherPair)
    (cookie : Vector UInt8 16) : EStateM Fault SSHBuffer KexInit := do
  let payload := writeKex preferred cookie
  let exchange := match role with
    | .client => { k.exchange with clientKexInit := payload }
    | .server => { k.exchange with serverKexInit := payload }
  cipher.write .kexinit payload
  pure { k with exchange := exchange, sent := true }

variable [SessionConfig C]

/-- The end of `Session::flush`: start a re-exchange, unless one is in progress. -/
def initiateRekey : CommonM C Unit := do
  let s ← get
  match s.encrypted with
  | none => pure ()
  | some enc =>
    match enc.rekey, enc.exchange with
    | none, some exchange => do
      modify (·.modifyEnc fun enc => { enc with exchange := none })
      let r ← rand
      let k ← withWriteBuffer ((KexInit.initiateRekey exchange enc.sessionId).ownWrite
        (SessionConfig.role C) (SessionConfig.preferred s.config) s.cipher r.cookie)
      modify (·.modifyEnc fun enc => { enc with rekey := some (.kexInit k) })
    | _, _ => pure ()

/-- `Encrypted::flush` on the session: what it seals, and whether a limit is reached. -/
def flushPackets : CommonM C Bool := do
  let s ← get
  match s.encrypted with
  | none => pure false
  | some enc => do
    modify fun s => { s with flushes := s.flushes ++ [⟨enc.waiting, enc.queued⟩] }
    zoom (fun s => (enc, s.writeBuffer))
      (fun p s => { s with encrypted := some p.1, writeBuffer := p.2 }) (enc.flush s.cipher)
    let now ← now
    let s ← get
    let limits := SessionConfig.limits s.config
    pure (limits.rekeyWriteLimit ≤ s.writeBuffer.bytes ||
      limits.rekeyTimeLimit ≤ now - enc.lastRekey)

/-- `Session::flush`, the same in both roles. -/
def flush : CommonM C Unit := do
  let due ← flushPackets
  if due then initiateRekey else pure ()

omit [SessionConfig C] in
/-- A change of `enc` returns what it computes. -/
theorem run_withEnc {α : Type} {s : CommonSession C} {enc enc' : Encrypted} {a : α}
    {f : Encrypted → Except Fault (α × Encrypted)} (henc : s.encrypted = some enc)
    (hf : f enc = .ok (a, enc')) :
    (withEnc f : CommonM C α) s = .ok a { s with encrypted := some enc' } := by
  unfold withEnc
  rw [run_bind, run_get]
  dsimp only
  rw [henc]
  dsimp only
  rw [run_bind, hf, run_lift_ok]
  rfl

end

end Thrussh
