import Thrussh.Concrete
import Thrussh.PeerWindow

/-!
# The size reported as writable

A channel holds two windows and two limits: what the server may send
(`recipient`), and what it grants to the client (`sender`).
`writable_packet_size` reports the smaller of the second pair, whereas
`data_noqueue` sends by the first. A buffer of the reported size goes out as
one packet exactly when the second pair promises no more than the first.
-/

namespace Thrussh

/-- What the peer lets a channel send in one packet at the moment. -/
def Channel.room (ch : Channel) : UInt32 :=
  min ch.recipientWindowSize ch.recipientMaximumPacketSize

namespace Server

open Lib

section
variable [Deps]

/-- `Session::writable_packet_size`. -/
def Session.writablePacketSize (s : Session) (channel : UInt32) : UInt32 :=
  match s.common.encrypted with
  | some enc =>
    match enc.channels channel with
    | some ch => min ch.senderWindowSize ch.senderMaximumPacketSize
    | none => 0
  | none => 0

/-- A buffer is sent as one packet, and nothing of it is left waiting. -/
def SendsWhole (s : Session) (enc : Encrypted) (channel recipient : UInt32) (buf : Bytes) : Prop :=
  ∃ s' enc' ch', data channel buf s = .ok () s' ∧ s'.common.encrypted = some enc' ∧
    enc'.channels channel = some ch' ∧
    enc'.emitted = enc.emitted ++ [dataPacket recipient buf] ∧
    enc'.write = pushPacket enc.write (dataPacket recipient buf) ∧ ch'.pendingData = []

omit [Deps] in
/-- The reported size of a channel. -/
theorem writablePacketSize_eq [Deps] {s : Session} {enc : Encrypted} {channel : UInt32}
    {ch : Channel} (henc : s.common.encrypted = some enc) (hch : enc.channels channel = some ch) :
    s.writablePacketSize channel = min ch.senderWindowSize ch.senderMaximumPacketSize := by
  unfold Session.writablePacketSize
  rw [henc]
  dsimp only
  rw [hch]

/-- `Session::data` is `Encrypted::data` on the session's `enc`. -/
theorem run_data {s : Session} {enc : Encrypted} (henc : s.common.encrypted = some enc)
    (channel : UInt32) (buf : Bytes) : data channel buf s =
      match enc.data channel buf with
      | .ok enc' => .ok () { s with common := { s.common with encrypted := some enc' } }
      | .error e => .error e s := by
  have hassert : assertEncrypted s = .ok () s := by
    simp only [assertEncrypted, run_bind, run_get, henc, Option.isSome_some, if_true, run_pure]
  unfold data
  rw [run_bind, hassert]
  dsimp only
  unfold onCommon zoom updateEnc
  cases hdata : enc.data channel buf with
  | ok enc' => simp only [run_bind, run_get, henc, hdata, run_lift_ok, run_set]
  | error e => simp only [run_bind, run_get, henc, hdata, run_lift_error]

/-- A buffer that the window and the limit admit goes out as one chunk. -/
theorem sendChunks_whole (enc : Encrypted) {ch : Channel} {buf : Bytes} (packet : Bytes → Bytes)
    (hne : buf ≠ []) (hwindow : buf.length ≤ ch.recipientWindowSize.toNat)
    (hmax : buf.length ≤ ch.recipientMaximumPacketSize.toNat) :
    enc.sendChunks ch packet buf 0 = .ok (enc.push (packet buf), { ch with
      recipientWindowSize := ch.recipientWindowSize - UInt32.ofNat buf.length }, buf.length) := by
  have hlt := ch.recipientWindowSize.toNat_lt
  have hlength : (UInt32.ofNat buf.length).toNat = buf.length := by
    rw [UInt32.toNat_ofNat']
    omega
  have hend : partEnd ch.recipientWindowSize.toNat buf = buf.length := by
    have hmod : buf.length % 2 ^ 32 = buf.length := Nat.mod_eq_of_lt (by omega)
    unfold partEnd
    rw [hmod, if_neg (by omega)]
  have hslice : windowSlice ch.recipientWindowSize buf 0 = .ok buf := by
    rw [windowSlice_eq, hend, if_pos (Nat.zero_le _), List.take_length, List.drop_zero]
  have hloop : chunkLoop packet ch.recipientMaximumPacketSize.toNat buf.length enc
      ch.recipientWindowSize buf =
        .ok (enc.push (packet buf), ch.recipientWindowSize - UInt32.ofNat buf.length) := by
    cases buf with
    | nil => exact absurd rfl hne
    | cons b rest =>
      have hoff : min (b :: rest).length ch.recipientMaximumPacketSize.toNat =
          (b :: rest).length := Nat.min_eq_left hmax
      have hroom : UInt32.ofNat (b :: rest).length ≤ ch.recipientWindowSize := by
        rw [UInt32.le_iff_toNat_le, hlength]
        exact hwindow
      rw [List.length_cons] at hoff hroom ⊢
      simp only [chunkLoop, List.length_cons, hoff, if_pos hroom]
      have hdrop : (b :: rest).drop (rest.length + 1) = [] := List.drop_length
      have htake : (b :: rest).take (rest.length + 1) = b :: rest :=
        List.take_of_length_le (Nat.le_refl _)
      rw [hdrop, htake]
      cases rest <;> rfl
  simp only [Encrypted.sendChunks, hslice, bind, Except.bind, hloop]

section
variable {s : Session} {enc : Encrypted} {channel : UInt32} {ch : Channel}
  (henc : s.common.encrypted = some enc) (hch : enc.channels channel = some ch)
  (hconfirmed : ch.confirmed = true) (hpending : ch.pendingData = [])
include henc hch hconfirmed hpending

/-- What fits the window and the limit is sent whole. -/
theorem sendsWhole_of_room {buf : Bytes} (hne : buf ≠ []) (hroom : buf.length ≤ ch.room.toNat) :
    SendsWhole s enc channel ch.recipientChannel buf := by
  have hmin := toNat_min ch.recipientWindowSize ch.recipientMaximumPacketSize
  change ch.room.toNat = _ at hmin
  have hsend := sendChunks_whole enc (dataPacket ch.recipientChannel) hne
    (show buf.length ≤ ch.recipientWindowSize.toNat by omega)
    (show buf.length ≤ ch.recipientMaximumPacketSize.toNat by omega)
  have hdata : enc.data channel buf =
      .ok (((enc.push (dataPacket ch.recipientChannel buf)).setChannel channel { ch with
        recipientWindowSize := ch.recipientWindowSize - UInt32.ofNat buf.length }).note
          (.data channel [dataPacket ch.recipientChannel buf])) := by
    have hqueued := queuedSince_pushAll enc [dataPacket ch.recipientChannel buf]
    unfold Encrypted.data Encrypted.submit
    rw [hch]
    dsimp only
    rw [if_pos hconfirmed, if_pos hpending]
    simp only [hsend, bind, Except.bind, Nat.lt_irrefl, if_false]
    exact congrArg (fun l => Except.ok (Encrypted.note _ (.data channel l))) hqueued
  have hrun := run_data henc channel buf
  rw [hdata] at hrun
  exact ⟨_, _, _, hrun, rfl, Function.update_self .., rfl, rfl, hpending⟩

/-- What is sent whole fits the window and the limit. -/
theorem room_of_sendsWhole {buf : Bytes}
    (h : SendsWhole s enc channel ch.recipientChannel buf) : buf.length ≤ ch.room.toNat := by
  obtain ⟨s', enc', ch', hrun, henc', hch', hemitted, -, hpending'⟩ := h
  rw [run_data henc] at hrun
  cases hdata : enc.data channel buf with
  | error e =>
    rw [hdata] at hrun
    cases hrun
  | ok enc1 =>
    rw [hdata] at hrun
    cases hrun
    cases henc'
    unfold Encrypted.data Encrypted.submit at hdata
    rw [hch] at hdata
    dsimp only at hdata
    rw [if_pos hconfirmed, if_pos hpending] at hdata
    by_cases hfits : PartFits ch.recipientWindowSize.toNat ch.recipientMaximumPacketSize.toNat buf 0
    · obtain ⟨window, chunks, hsend, hsizes, hflatten, hwindow⟩ :=
        sendChunks_fits enc (dataPacket ch.recipientChannel) hfits
      simp only [hsend, bind, Except.bind, Except.ok.injEq] at hdata
      subst hdata
      simp only [note_channels, Encrypted.setChannel, Function.update_self,
        Option.some.injEq] at hch'
      have hmin := toNat_min ch.recipientWindowSize ch.recipientMaximumPacketSize
      change ch.room.toNat = _ at hmin
      by_cases hleft : partEnd ch.recipientWindowSize.toNat buf - 0 < buf.length
      · -- a part of the buffer is left waiting
        rw [if_pos hleft] at hch'
        rw [← hch'] at hpending'
        cases hpending'
      · -- all of it was sent, and as a single chunk
        have hpackets : chunks.map (dataPacket ch.recipientChannel) =
            [dataPacket ch.recipientChannel buf] := by
          have hall : enc.emitted ++ chunks.map (dataPacket ch.recipientChannel) =
              enc.emitted ++ [dataPacket ch.recipientChannel buf] := by
            rw [← hemitted, ← pushAll_emitted]
            rfl
          exact List.append_cancel_left hall
        have hone : chunks.length = 1 := by
          have hlength := congrArg List.length hpackets
          simpa using hlength
        obtain ⟨c, rfl⟩ := List.length_eq_one_iff.mp hone
        obtain ⟨-, hc⟩ := hsizes c List.mem_cons_self
        simp only [List.flatten_cons, List.flatten_nil, List.append_nil] at hflatten hwindow
        omega
    · obtain ⟨e, -, hsend⟩ := sendChunks_crashes enc (dataPacket ch.recipientChannel) hfits
      simp only [hsend, bind, Except.bind] at hdata
      cases hdata

end

/-- Every buffer up to the reported size is sent as one packet if and only if
the reported size is within what the client lets the server send. -/
theorem writable_iff {s : Session} {enc : Encrypted} {channel : UInt32} {ch : Channel}
    (henc : s.common.encrypted = some enc) (hch : enc.channels channel = some ch)
    (hconfirmed : ch.confirmed = true) (hpending : ch.pendingData = []) :
    (∀ buf : Bytes, 1 ≤ buf.length → buf.length ≤ (s.writablePacketSize channel).toNat →
      SendsWhole s enc channel ch.recipientChannel buf) ↔
    min ch.senderWindowSize ch.senderMaximumPacketSize ≤
      min ch.recipientWindowSize ch.recipientMaximumPacketSize := by
  have hsize := writablePacketSize_eq henc hch
  have hlt := (s.writablePacketSize channel).toNat_lt
  rw [← hsize, UInt32.le_iff_toNat_le]
  constructor
  · intro hall
    by_cases hzero : (s.writablePacketSize channel).toNat = 0
    · omega
    · have hlength : (zeros (s.writablePacketSize channel).toNat).length =
          (s.writablePacketSize channel).toNat := length_zeros _
      have hsends := hall (zeros (s.writablePacketSize channel).toNat) (by omega) (by omega)
      have hroom := room_of_sendsWhole henc hch hconfirmed hpending hsends
      rw [hlength] at hroom
      exact hroom
  · intro hle buf hpos hwritable
    have hne : buf ≠ [] := List.ne_nil_of_length_pos hpos
    exact sendsWhole_of_room henc hch hconfirmed hpending hne (Nat.le_trans hwritable hle)

end

end Server

/-- A server of which a client has opened a session, with a window of 100 bytes. -/
def Concrete.narrow : @Loop (@Server.Session deps) :=
  letI := deps
  server.run (Server.driver handler) (authenticated ++ [.arrive (sealed sessionOpen), .read])

/-- The channel of that session. -/
def Concrete.narrowChannel : Channel := ⟨5, 2, 100, 2097152, 100, 32768, true, false, []⟩

namespace Server

/-- A buffer of the reported size is cut at the window. -/
theorem writable_exceeds :
    letI := Concrete.deps
    runStream Concrete.serverConfig Concrete.handler Concrete.clientConfig.clientId
        Concrete.world = .ok Concrete.server ∧
      Concrete.narrow.stage = .running ∧
      Concrete.narrow.session.writablePacketSize 2 = 32768 ∧
      ∃ enc, Concrete.narrow.session.common.encrypted = some enc ∧ enc.state = .authenticated ∧
        enc.channels 2 = some Concrete.narrowChannel ∧
        ¬ ∀ buf : Bytes, 1 ≤ buf.length →
          buf.length ≤ (Concrete.narrow.session.writablePacketSize 2).toNat →
          SendsWhole Concrete.narrow.session enc 2 Concrete.narrowChannel.recipientChannel buf := by
  let _ := Concrete.deps
  have hstate : (Concrete.narrow.session.common.encrypted.map fun enc => enc.state) =
      some .authenticated := by decide +kernel
  have hchannel : (Concrete.narrow.session.common.encrypted.bind fun enc => enc.channels 2) =
      some Concrete.narrowChannel := by decide +kernel
  have hsize : Concrete.narrow.session.writablePacketSize 2 = 32768 := by decide +kernel
  refine ⟨Concrete.runStream_eq Concrete.handler, by decide +kernel, hsize, ?_⟩
  cases henc : Concrete.narrow.session.common.encrypted with
  | none =>
    rw [henc] at hstate
    cases hstate
  | some enc =>
    rw [henc] at hstate hchannel
    refine ⟨enc, rfl, Option.some.inj hstate, hchannel, fun hall => ?_⟩
    have hlength : (zeros 101).length = 101 := length_zeros _
    have hsends := hall (zeros 101) (by omega) (by rw [hsize, hlength]; decide)
    have hroom := @room_of_sendsWhole Concrete.deps _ _ _ _ henc hchannel rfl rfl _ hsends
    rw [hlength] at hroom
    revert hroom
    decide

/-- A channel whose client grants as much as the server does. -/
theorem writable_iff_even :
    letI := Concrete.deps
    let s := Concrete.serverWithChannel 100
    (∀ buf : Bytes, 1 ≤ buf.length → buf.length ≤ (s.writablePacketSize 7).toNat →
      SendsWhole s (Concrete.withPeerChannel 100) 7 2 buf) ↔ (100 : UInt32) ≤ 100 := by
  let _ := Concrete.deps
  exact @writable_iff Concrete.deps (Concrete.serverWithChannel 100) (Concrete.withPeerChannel 100)
    7 ⟨2, 7, 100, 100, 100, 100, true, false, []⟩ rfl rfl rfl rfl

end Server

end Thrussh
