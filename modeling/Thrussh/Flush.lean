import Thrussh.Quiet

/-!
# What a flush does

`CipherPair::write` appends one sealed packet, or panics on a packet longer
than a length field can say. `Session::flush` seals a prefix of the packets
queued, and may then start a re-exchange with a KEXINIT.
-/

namespace Thrussh

open Lib

variable [Deps]

/-- The buffer after `CipherPair::write` has sealed a payload into it. -/
def SSHBuffer.sealed (b : SSHBuffer) (pair : CipherPair) (origin : Origin) (payload : Bytes) :
    SSHBuffer :=
  { b with
    buffer := b.buffer ++ pair.localToRemote.wire b.seqn payload
    bytes := b.bytes + payload.length
    seqn := b.seqn + 1
    history := b.history ++ [⟨pair.epoch, b.seqn, payload, origin⟩] }

/-- The buffer after sealing a list of payloads. -/
def SSHBuffer.sealAll (b : SSHBuffer) (pair : CipherPair) (origin : Origin)
    (payloads : List Bytes) : SSHBuffer :=
  payloads.foldl (fun b payload => b.sealed pair origin payload) b

omit [Deps] in
/-- The padding of a packet is at most 16 bytes long. -/
theorem paddingLength_le (key : CipherKey) (payload : Bytes) : key.paddingLength payload ≤ 16 := by
  cases key with
  | clear =>
    simp only [CipherKey.paddingLength]
    split <;> omega
  | chacha20Poly1305 key =>
    simp only [CipherKey.paddingLength, packetLengthLen, paddingLengthLen, minimumPacketLen]
    split <;> split <;> omega

/-- A write seals its payload, or panics and leaves the buffer as it was. -/
theorem write_cases (pair : CipherPair) (origin : Origin) (payload : Bytes) (b : SSHBuffer) :
    pair.write origin payload b = .ok () (b.sealed pair origin payload) ∨
      pair.write origin payload b = .error .panic b := by
  unfold CipherPair.write
  dsimp only
  split
  · exact .inl rfl
  · exact .inr rfl

/-- A payload that leaves room for the padding is sealed. -/
theorem write_ok (pair : CipherPair) (origin : Origin) {p : Bytes} (b : SSHBuffer)
    (h : p.length < 2 ^ 32 - 17) :
    pair.write origin p b = .ok () (b.sealed pair origin p) := by
  have hpadding := paddingLength_le pair.localToRemote p
  unfold CipherPair.write
  dsimp only
  refine if_pos ⟨?_, ?_⟩
  · simp only [paddingLengthLen]
    omega
  · omega

/-- The compression of a list of packets, from one state of the compressor to another. -/
inductive Compresses : Compress → List Bytes → List Bytes → Compress → Prop where
  | nil (c : Compress) : Compresses c [] [] c
  | cons {c c' c'' : Compress} {packet out : Bytes} {packets outs : List Bytes}
      (head : c.compress packet = .ok (out, c')) (tail : Compresses c' packets outs c'') :
      Compresses c (packet :: packets) (out :: outs) c''

/-- Compression keeps the number of packets. -/
theorem Compresses.length_eq {c c' : Compress} {packets outs : List Bytes}
    (h : Compresses c packets outs c') : outs.length = packets.length := by
  induction h with
  | nil c => rfl
  | cons head tail ih => simp [ih]

/-- Without a compressor the packets go out as they are. -/
theorem Compresses.eq_of_none {c c' : Compress} {packets outs : List Bytes}
    (h : Compresses c packets outs c') (hc : c = .none) : outs = packets := by
  induction h with
  | nil c => rfl
  | cons head tail ih =>
    subst hc
    simp only [Compress.compress, Except.ok.injEq, Prod.mk.injEq] at head
    obtain ⟨rfl, rfl⟩ := head
    rw [ih rfl]

/-- The flush loop touches the compressor and the cursor of `enc`, and seals
the compression of a prefix of the queue. -/
theorem flushLoop_final (pair : CipherPair) (fuel : Nat) (enc : Encrypted) (b : SSHBuffer) :
    ∃ compress writeCursor packets outs c,
      (final (flushLoop pair fuel (enc, b))).1 =
        { enc with compress := compress, writeCursor := writeCursor } ∧
      (enc.compress = .none → compress = .none) ∧
      packets <+: unframe fuel (enc.write.drop enc.writeCursor) ∧
      Compresses enc.compress packets outs c ∧
      (final (flushLoop pair fuel (enc, b))).2 = b.sealAll pair .queued outs := by
  induction fuel generalizing enc b with
  | zero => exact ⟨_, _, [], [], _, rfl, id, List.nil_prefix, .nil _, rfl⟩
  | succ fuel ih =>
    have hstop : ∃ compress writeCursor packets outs c,
        enc = { enc with compress := compress, writeCursor := writeCursor } ∧
        (enc.compress = .none → compress = .none) ∧
        packets <+: unframe (fuel + 1) (enc.write.drop enc.writeCursor) ∧
        Compresses enc.compress packets outs c ∧ b = b.sealAll pair .queued outs :=
      ⟨enc.compress, enc.writeCursor, [], [], _, rfl, id, List.nil_prefix, .nil _, rfl⟩
    simp only [flushLoop, run_bind, run_get]
    by_cases hcursor : enc.writeCursor < enc.write.length
    · simp only [if_pos hcursor]
      cases hhead : headBe32 (enc.write.drop enc.writeCursor) with
      | none => exact hstop
      | some len =>
        simp only [run_bind]
        unfold slice
        by_cases hslice : enc.writeCursor + 4 ≤ enc.writeCursor + 4 + len.toNat ∧
            enc.writeCursor + 4 + len.toNat ≤ enc.write.length
        · simp only [if_pos hslice, run_lift_ok]
          set packet := (enc.write.take (enc.writeCursor + 4 + len.toNat)).drop
            (enc.writeCursor + 4) with hpacket
          have hfirst : packet = ((enc.write.drop enc.writeCursor).drop 4).take len.toNat := by
            rw [hpacket, List.drop_drop, List.drop_take]
            congr 1
            omega
          cases hcompress : enc.compress.compress packet with
          | error e =>
            cases e with
            | error e => exact hstop
            | panic => exact hstop
            | overflow => exact hstop
            | diverge => exact hstop
          | ok res =>
            obtain ⟨out, compress⟩ := res
            have hnone : enc.compress = .none → compress = .none := by
              intro hc
              rw [hc] at hcompress
              simp only [Compress.compress, Except.ok.injEq, Prod.mk.injEq] at hcompress
              exact hcompress.2.symm
            simp only [run_bind, run_modify, zoom]
            rcases write_cases pair .queued out b with hwrite | hwrite
            · rw [hwrite]
              simp only
              obtain ⟨compress', cursor', packets, outs, c, hsame, hnone', hprefix, hcomp, hsealed⟩ :=
                ih { enc with compress := compress, writeCursor := enc.writeCursor + 4 + len.toNat }
                  (b.sealed pair .queued out)
              refine ⟨compress', cursor', packet :: packets, out :: outs, c, hsame,
                fun hc => hnone' (hnone hc), ?_, .cons hcompress hcomp, hsealed⟩
              simp only [unframe, hhead]
              rw [← hfirst, List.cons_prefix_cons]
              refine ⟨rfl, ?_⟩
              rw [List.drop_drop, ← Nat.add_assoc]
              exact hprefix
            · rw [hwrite]
              exact ⟨compress, enc.writeCursor, [], [], _, rfl, hnone, List.nil_prefix, .nil _, rfl⟩
        · simp only [if_neg hslice, run_lift_error]
          exact hstop
    · simp only [if_neg hcursor]
      exact hstop

/-- A flush loop that is given enough steps and does not fail reaches the end of the queue. -/
theorem flushLoop_ok {pair : CipherPair} {fuel : Nat} {enc enc' : Encrypted} {b b' : SSHBuffer}
    (hfuel : enc.write.length ≤ enc.writeCursor + fuel)
    (h : flushLoop pair fuel (enc, b) = .ok () (enc', b')) :
    enc'.write.length ≤ enc'.writeCursor := by
  induction fuel generalizing enc b with
  | zero =>
    cases h
    exact hfuel
  | succ fuel ih =>
    simp only [flushLoop, run_bind, run_get] at h
    by_cases hcursor : enc.writeCursor < enc.write.length
    · simp only [if_pos hcursor] at h
      cases hhead : headBe32 (enc.write.drop enc.writeCursor) with
      | none =>
        rw [hhead] at h
        cases h
      | some len =>
        rw [hhead] at h
        simp only [run_bind] at h
        cases hslice : slice enc.write (enc.writeCursor + 4) (enc.writeCursor + 4 + len.toNat) with
        | error e =>
          rw [hslice] at h
          cases h
        | ok packet =>
          rw [hslice] at h
          simp only [run_lift_ok] at h
          cases hcompress : enc.compress.compress packet with
          | error e =>
            rw [hcompress] at h
            cases e <;> cases h
          | ok res =>
            obtain ⟨out, compress⟩ := res
            rw [hcompress] at h
            simp only [run_bind, run_modify, zoom] at h
            rcases write_cases pair .queued out b with hwrite | hwrite
            · rw [hwrite] at h
              simp only at h
              refine ih ?_ h
              dsimp only
              omega
            · rw [hwrite] at h
              cases h
    · simp only [if_neg hcursor] at h
      cases h
      omega

/-- The compressor takes a packet, and what it makes of it fits into one. -/
def Encrypted.Carries (enc : Encrypted) (packet : Bytes) : Prop :=
  ∃ out compress, enc.compress.compress packet = .ok (out, compress) ∧ out.length < 2 ^ 32 - 17

/-- A flush of a queue with a single packet, which is carried, returns. -/
theorem encFlush_carries (pair : CipherPair) {enc : Encrypted} {packet : Bytes} (b : SSHBuffer)
    (hwrite : enc.write = frame packet) (hcursor : enc.writeCursor = 0)
    (hshort : packet.length < 2 ^ 32) (h : enc.Carries packet) :
    ∃ p, enc.flush pair (enc, b) = .ok () p := by
  obtain ⟨out, compress, hcompress, hout⟩ := h
  have hlen : (UInt32.ofNat packet.length).toNat = packet.length := by
    rw [UInt32.toNat_ofNat']
    exact Nat.mod_eq_of_lt hshort
  have hlength : enc.write.length = packet.length + 3 + 1 := by
    rw [hwrite, frame, List.length_append, length_be32]
    omega
  have hhead : headBe32 enc.write = some (UInt32.ofNat packet.length) := by
    rw [hwrite]
    exact headBe32_append _ _
  have hslice : slice enc.write 4 (4 + packet.length) = .ok packet := by
    have hbounds : 4 ≤ 4 + packet.length ∧ 4 + packet.length ≤ enc.write.length := by omega
    unfold slice
    rw [if_pos hbounds, List.take_of_length_le (by omega), hwrite]
    rfl
  have hend : ∀ fuel (e : Encrypted) (b : SSHBuffer), e.write.length ≤ e.writeCursor →
      flushLoop pair fuel (e, b) = .ok () (e, b) := by
    intro fuel e b hle
    cases fuel with
    | zero => rfl
    | succ fuel =>
      unfold flushLoop
      rw [run_bind, run_get]
      dsimp only
      rw [if_neg (by omega)]
      rfl
  have hstep : ∀ fuel, ∃ p, flushLoop pair (fuel + 1) (enc, b) = .ok () p := by
    intro fuel
    unfold flushLoop
    rw [run_bind, run_get]
    dsimp only
    rw [if_pos (by omega), hcursor, List.drop_zero, hhead]
    dsimp only
    rw [hlen, Nat.zero_add, run_bind, run_lift hslice]
    dsimp only
    rw [hcompress]
    simp only [run_bind, run_modify, zoom, write_ok pair .queued b hout]
    exact ⟨_, hend fuel _ _ (by dsimp only; omega)⟩
  obtain ⟨p, hloop⟩ : ∃ p, flushLoop pair enc.write.length (enc, b) = .ok () p := by
    rw [hlength]
    exact hstep _
  unfold Encrypted.flush
  rw [run_bind, hloop]
  exact ⟨_, rfl⟩

variable {C : Type}

/-- What the flush of the queue makes of a session: a flush record, and a
prefix of the queue compressed and sealed. -/
structure PacketsFlushed (s t : CommonSession C) (enc enc' : Encrypted) : Prop where
  /-- The session is encrypted. -/
  encrypted : s.encrypted = some enc
  /-- What changes of the session. -/
  session : t = { s with
    encrypted := some enc', writeBuffer := t.writeBuffer
    flushes := s.flushes ++ [⟨enc.waiting, enc.queued⟩], tick := t.tick }
  /-- What changes of `enc`. -/
  same : enc' = { enc with
    compress := enc'.compress, write := enc'.write, writeCursor := enc'.writeCursor }
  /-- No compressor appears. -/
  uncompressed : enc.compress = .none → enc'.compress = .none
  /-- The run of `Encrypted::flush`. -/
  run : final (enc.flush s.cipher (enc, s.writeBuffer)) = (enc', t.writeBuffer)
  /-- A prefix of the queue is compressed and sealed. -/
  packets : ∃ packets outs c, packets <+: enc.queued ∧ Compresses enc.compress packets outs c ∧
    t.writeBuffer = s.writeBuffer.sealAll s.cipher .queued outs

/-- `Encrypted::flush` seals a prefix of the queue. -/
theorem encFlush_final (pair : CipherPair) (enc : Encrypted) (b : SSHBuffer) :
    ∃ enc', (final (enc.flush pair (enc, b))).1 = enc' ∧
      enc' = { enc with
        compress := enc'.compress, write := enc'.write, writeCursor := enc'.writeCursor } ∧
      (enc.compress = .none → enc'.compress = .none) ∧
      ∃ packets outs c, packets <+: enc.queued ∧ Compresses enc.compress packets outs c ∧
        (final (enc.flush pair (enc, b))).2 = b.sealAll pair .queued outs := by
  obtain ⟨compress, cursor, packets, outs, c, hsame, hnone, hprefix, hcomp, hsealed⟩ :=
    flushLoop_final pair enc.write.length enc b
  unfold Encrypted.flush
  rw [final_bind]
  cases hloop : flushLoop pair enc.write.length (enc, b) with
  | ok u p =>
    rw [hloop] at hsame hsealed
    simp only [final_ok] at hsame hsealed
    simp only [run_modify, final_ok]
    split
    · refine ⟨_, rfl, ?_, ?_, packets, outs, c, hprefix, hcomp, hsealed⟩
      · rw [hsame]
      · rw [hsame]
        exact hnone
    · refine ⟨_, rfl, ?_, ?_, packets, outs, c, hprefix, hcomp, hsealed⟩
      · rw [hsame]
      · rw [hsame]
        exact hnone
  | error e p =>
    rw [hloop] at hsame hsealed
    simp only [final_error] at hsame hsealed
    refine ⟨_, rfl, ?_, ?_, packets, outs, c, hprefix, hcomp, hsealed⟩
    · rw [hsame]
    · rw [hsame]
      exact hnone

/-- A flush leaves the bytes of the queue, or drops them all. -/
theorem encFlush_write (pair : CipherPair) (enc : Encrypted) (b : SSHBuffer) :
    (final (enc.flush pair (enc, b))).1.write = enc.write ∨
      (final (enc.flush pair (enc, b))).1.write = [] := by
  obtain ⟨compress, cursor, packets, outs, c, hsame, -⟩ :=
    flushLoop_final pair enc.write.length enc b
  unfold Encrypted.flush
  rw [final_bind]
  cases hloop : flushLoop pair enc.write.length (enc, b) with
  | ok u p =>
    rw [hloop, final_ok] at hsame
    simp only [run_modify, final_ok]
    split
    · exact .inr rfl
    · rw [hsame]
      exact .inl rfl
  | error e p =>
    rw [hloop, final_error] at hsame
    rw [hsame]
    exact .inl rfl

/-- A flush of the queue that returns has emptied it. -/
theorem encFlush_ok {pair : CipherPair} {enc enc' : Encrypted} {b b' : SSHBuffer}
    (h : enc.flush pair (enc, b) = .ok () (enc', b')) :
    enc'.write = [] ∧ enc'.writeCursor = 0 := by
  unfold Encrypted.flush at h
  simp only [run_bind] at h
  cases hloop : flushLoop pair enc.write.length (enc, b) with
  | ok u p =>
    obtain ⟨enc1, b1⟩ := p
    have hend := flushLoop_ok (Nat.le_add_left _ _) hloop
    rw [hloop] at h
    simp only [run_modify, ge_iff_le, if_pos hend] at h
    cases h
    exact ⟨rfl, rfl⟩
  | error e p =>
    rw [hloop] at h
    cases h

/-- A flush leaves the bytes of the queue, or drops them all. -/
theorem PacketsFlushed.write {s t : CommonSession C} {enc enc' : Encrypted}
    (h : PacketsFlushed s t enc enc') : enc'.write = enc.write ∨ enc'.write = [] := by
  have hwrite := encFlush_write s.cipher enc s.writeBuffer
  rw [h.run] at hwrite
  exact hwrite

variable [SessionConfig C]

/-- A session that is not encrypted flushes nothing. -/
theorem flushPackets_none {s : CommonSession C} (h : s.encrypted = none) :
    flushPackets s = .ok false s := by
  simp only [flushPackets, run_bind, run_get, h]
  rfl

/-- Where the flush of an encrypted session's queue ends. -/
theorem flushPackets_final {s : CommonSession C} {enc : Encrypted} (h : s.encrypted = some enc) :
    ∃ enc', PacketsFlushed s (final (flushPackets s)) enc enc' := by
  obtain ⟨enc', henc', hsame, hnone, packets, outs, c, hprefix, hcomp, hsealed⟩ :=
    encFlush_final s.cipher enc s.writeBuffer
  simp only [flushPackets, run_bind, run_get, h, run_modify, zoom]
  cases hflush : enc.flush s.cipher (enc, s.writeBuffer) with
  | ok u p =>
    rw [hflush] at henc' hsealed
    simp only [now, run_pure, final_ok] at henc' hsealed ⊢
    refine ⟨enc', h, ?_, hsame, hnone, ?_, packets, outs, c, hprefix, hcomp, hsealed⟩
    · rw [henc']
    · rw [hflush, final_ok, ← henc']
  | error e p =>
    rw [hflush] at henc' hsealed
    simp only [final_error] at henc' hsealed ⊢
    refine ⟨enc', h, ?_, hsame, hnone, ?_, packets, outs, c, hprefix, hcomp, hsealed⟩
    · rw [henc']
    · rw [hflush, final_error, ← henc']

/-- A flush of the queue that returns has emptied it; it asks for a
re-exchange if the bytes sealed have reached the limit. -/
theorem flushPackets_ok {s t : CommonSession C} {enc : Encrypted} {due : Bool}
    (h : s.encrypted = some enc) (hok : flushPackets s = .ok due t) :
    ∃ enc', PacketsFlushed s t enc enc' ∧ enc'.write = [] ∧ enc'.writeCursor = 0 ∧
      (due = false →
        t.writeBuffer.bytes < (SessionConfig.limits s.config).rekeyWriteLimit) := by
  obtain ⟨enc', hflushed⟩ := flushPackets_final h
  rw [hok, final_ok] at hflushed
  refine ⟨enc', hflushed, ?_⟩
  simp only [flushPackets, run_bind, run_get, h, run_modify, zoom] at hok
  cases hflush : enc.flush s.cipher (enc, s.writeBuffer) with
  | error e p =>
    rw [hflush] at hok
    cases hok
  | ok u p =>
    obtain ⟨enc1, b1⟩ := p
    have hempty := encFlush_ok hflush
    rw [hflush] at hok
    simp only [now, run_pure] at hok
    cases hok
    have henc : enc1 = enc' := Option.some.inj (congrArg CommonSession.encrypted hflushed.session)
    rw [← henc]
    refine ⟨hempty.1, hempty.2, fun hdue => ?_⟩
    rw [Bool.or_eq_false_iff] at hdue
    simpa using hdue.1

/-- The session after it has started a re-exchange. -/
def CommonSession.startRekey (s : CommonSession C) (enc : Encrypted) (ex : Exchange) :
    CommonSession C :=
  let payload := writeKex (SessionConfig.preferred s.config) (s.world.rand s.tick).cookie
  let exchange := match SessionConfig.role C with
    | .client => { ex.cleared with clientKexInit := payload }
    | .server => { ex.cleared with serverKexInit := payload }
  { s with
    encrypted := some { enc with
      exchange := none, rekey := some (.kexInit ⟨none, exchange, some enc.sessionId, true⟩) }
    writeBuffer := s.writeBuffer.sealed s.cipher .kexinit payload
    tick := s.tick + 1 }

omit [Deps] [SessionConfig C] in
/-- A KEXINIT is no longer than a packet can be. -/
theorem length_writeKex_lt (prefs : Preferred) (cookie : Vector UInt8 16) :
    (writeKex prefs cookie).length < 2 ^ 32 - 17 := by
  have hshort := prefs.short
  simp only [writeKex, nameList, List.length_append, List.length_cons, length_sshString,
    Vector.length_toList, List.length_nil, List.intercalate_nil]
  omega

/-- Making and sealing an own KEXINIT never fails. -/
theorem ownWrite_ok (k : KexInit) (role : Role) (preferred : Preferred) (cipher : CipherPair)
    (cookie : Vector UInt8 16) (b : SSHBuffer) :
    k.ownWrite role preferred cipher cookie b =
      .ok { k with
        exchange := match role with
          | .client => { k.exchange with clientKexInit := writeKex preferred cookie }
          | .server => { k.exchange with serverKexInit := writeKex preferred cookie }
        sent := true }
        (b.sealed cipher .kexinit (writeKex preferred cookie)) := by
  simp only [KexInit.ownWrite, run_bind, write_ok cipher .kexinit b (length_writeKex_lt _ _)]
  rfl

/-- Starting a re-exchange, from a session that can. -/
theorem initiateRekey_start {s : CommonSession C} {enc : Encrypted} {ex : Exchange}
    (h : s.encrypted = some enc) (hrekey : enc.rekey = none) (hex : enc.exchange = some ex) :
    initiateRekey s = .ok () (s.startRekey enc ex) := by
  simp only [initiateRekey, run_bind, run_get, h, hrekey, hex, run_modify, rand,
    CommonSession.modifyEnc, withWriteBuffer, zoom, ownWrite_ok, Option.map_some]
  rfl

/-- Starting a re-exchange, where there is one already or none can be. -/
theorem initiateRekey_skip {s : CommonSession C}
    (h : ∀ enc, s.encrypted = some enc → enc.rekey ≠ none ∨ enc.exchange = none) :
    initiateRekey s = .ok () s := by
  simp only [initiateRekey, run_bind, run_get]
  cases henc : s.encrypted with
  | none => rfl
  | some enc =>
    cases hrekey : enc.rekey with
    | some k => simp only [hrekey, run_pure]
    | none =>
      have hex := (h enc henc).resolve_left fun hne => hne hrekey
      simp only [hrekey, hex, run_pure]

/-- What `Session::flush` makes of a session. -/
inductive FlushStep (s : CommonSession C) : CommonSession C → Prop where
  /-- The session is not encrypted. -/
  | none (h : s.encrypted = none) : FlushStep s s
  /-- The queue is flushed, and no re-exchange starts. -/
  | packets {t : CommonSession C} {enc enc' : Encrypted} (h : PacketsFlushed s t enc enc') :
    FlushStep s t
  /-- The queue is flushed, and a re-exchange starts. -/
  | rekey {t : CommonSession C} {enc enc' : Encrypted} {ex : Exchange}
    (h : PacketsFlushed s t enc enc') (hwrite : enc'.write = []) (hcursor : enc'.writeCursor = 0)
    (hrekey : enc.rekey = none) (hex : enc.exchange = some ex) :
    FlushStep s (t.startRekey enc' ex)

/-- Every flush is a flush step, also one that panics. -/
theorem flush_final (s : CommonSession C) : FlushStep s (final (flush s)) := by
  cases henc : s.encrypted with
  | none =>
    have hflush : flush s = .ok () s := by
      simp only [flush, run_bind, flushPackets_none henc]
      rfl
    rw [hflush]
    exact .none henc
  | some enc =>
    unfold flush
    rw [final_bind]
    cases hpackets : flushPackets s with
    | error e t =>
      obtain ⟨enc', h⟩ := flushPackets_final henc
      rw [hpackets, final_error] at h
      exact .packets h
    | ok due t =>
      obtain ⟨enc', h, hwrite, hcursor, -⟩ := flushPackets_ok henc hpackets
      have henc' : t.encrypted = some enc' := by rw [h.session]
      cases due with
      | false => exact .packets h
      | true =>
        simp only [if_true]
        by_cases hstart : enc.rekey = Option.none ∧ ∃ ex, enc.exchange = some ex
        · obtain ⟨hrekey, ex, hex⟩ := hstart
          have hrekey' : enc'.rekey = Option.none := by rw [h.same]; exact hrekey
          have hex' : enc'.exchange = some ex := by rw [h.same]; exact hex
          rw [initiateRekey_start henc' hrekey' hex', final_ok]
          exact .rekey h hwrite hcursor hrekey hex
        · rw [initiateRekey_skip, final_ok]
          · exact .packets h
          · intro enc1 henc1
            obtain rfl : enc' = enc1 := Option.some.inj (henc'.symm.trans henc1)
            rw [h.same]
            by_cases hrekey : enc.rekey = Option.none
            · refine .inr (Option.eq_none_iff_forall_ne_some.mpr fun ex hex => ?_)
              exact hstart ⟨hrekey, ex, hex⟩
            · exact .inl hrekey

/-- A flush that returns leaves nothing queued, and the cursor at the start. -/
theorem flush_ok_empty {s t : CommonSession C} (h : flush s = .ok () t) {enc : Encrypted}
    (henc : t.encrypted = some enc) : enc.write = [] ∧ enc.writeCursor = 0 := by
  simp only [flush, run_bind] at h
  cases hs : s.encrypted with
  | none =>
    rw [flushPackets_none hs] at h
    cases h
    rw [hs] at henc
    cases henc
  | some e =>
    cases hpackets : flushPackets s with
    | error e u =>
      rw [hpackets] at h
      cases h
    | ok due u =>
      obtain ⟨enc', hflushed, hwrite, hcursor, -⟩ := flushPackets_ok hs hpackets
      have hu : u.encrypted = some enc' := by rw [hflushed.session]
      rw [hpackets] at h
      cases due with
      | false =>
        cases h
        obtain rfl : enc' = enc := Option.some.inj (hu.symm.trans henc)
        exact ⟨hwrite, hcursor⟩
      | true =>
        simp only [if_true] at h
        by_cases hstart : enc'.rekey = none ∧ ∃ ex, enc'.exchange = some ex
        · obtain ⟨hrekey, ex, hex⟩ := hstart
          rw [initiateRekey_start hu hrekey hex] at h
          cases h
          cases henc
          exact ⟨hwrite, hcursor⟩
        · rw [initiateRekey_skip] at h
          · cases h
            obtain rfl : enc' = enc := Option.some.inj (hu.symm.trans henc)
            exact ⟨hwrite, hcursor⟩
          · intro enc1 henc1
            obtain rfl : enc' = enc1 := Option.some.inj (hu.symm.trans henc1)
            by_cases hrekey : enc'.rekey = none
            · refine .inr (Option.eq_none_iff_forall_ne_some.mpr fun ex hex => ?_)
              exact hstart ⟨hrekey, ex, hex⟩
            · exact .inl hrekey

theorem flush_ok_write {s t : CommonSession C} (h : flush s = .ok () t) {enc : Encrypted}
    (henc : t.encrypted = some enc) : enc.write = [] := (flush_ok_empty h henc).1

end Thrussh
