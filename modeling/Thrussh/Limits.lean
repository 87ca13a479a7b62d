import Thrussh.Rearming
import Thrussh.Rekey

/-!
# What starts a re-exchange in time

`write_buffer.bytes` never falls behind the bytes written under the keys in
use, so the flush at the end of a turn starts a re-exchange as soon as the
write limit is reached. `rekey_read_limit` is in no condition of the source:
the read limit is kept only as long as nothing reaches it.
-/

namespace Thrussh

open Lib

variable [Deps] {C S M : Type}

/-! ### Bytes under the keys in use -/

section

omit [Deps] in
/-- The payload bytes of the packets sealed or opened under the keys of an exchange. -/
def payloadUnder (epoch : Nat) (packets : List PacketRecord) : Nat :=
  payloadBytes (packets.filter fun r => r.epoch = epoch)

omit [Deps] in
theorem payloadUnder_append (epoch : Nat) (packets packets' : List PacketRecord) :
    payloadUnder epoch (packets ++ packets') =
      payloadUnder epoch packets + payloadUnder epoch packets' := by
  simp only [payloadUnder, List.filter_append, payloadBytes_append]

omit [Deps] in
/-- Nothing has passed under keys that come later. -/
theorem payloadUnder_later {epoch : Nat} {packets : List PacketRecord}
    (h : ∀ r ∈ packets, r.epoch < epoch) : payloadUnder epoch packets = 0 := by
  have hnone : packets.filter (fun r => r.epoch = epoch) = [] := by
    rw [List.filter_eq_nil_iff]
    intro r hr
    have hlt := h r hr
    simp only [decide_eq_true_eq]
    omega
  rw [payloadUnder, hnone]
  rfl

/-- A buffer that has counted all that is sealed under the keys of an exchange. -/
structure SSHBuffer.Metered (b : SSHBuffer) (epoch : Nat) : Prop where
  /-- Nothing is sealed under keys that come later. -/
  known : ∀ r ∈ b.history, r.epoch ≤ epoch
  /-- Every byte is counted. -/
  counted : payloadUnder epoch b.history ≤ b.bytes

variable {b : SSHBuffer} {pair : CipherPair}

theorem SSHBuffer.Metered.sealed (h : b.Metered pair.epoch) (origin : Origin) (payload : Bytes) :
    (b.sealed pair origin payload).Metered pair.epoch := by
  have hcounted := h.counted
  constructor
  · intro r hr
    change r ∈ b.history ++ [⟨pair.epoch, b.seqn, payload, origin⟩] at hr
    rcases List.mem_append.mp hr with hold | hnew
    · exact h.known r hold
    · exact Nat.le_of_eq (congrArg PacketRecord.epoch (List.mem_singleton.mp hnew))
  · change payloadUnder pair.epoch (b.history ++ [⟨pair.epoch, b.seqn, payload, origin⟩]) ≤
      b.bytes + payload.length
    have hnew : payloadUnder pair.epoch [⟨pair.epoch, b.seqn, payload, origin⟩] =
        payload.length := by
      simp [payloadUnder, payloadBytes]
    rw [payloadUnder_append, hnew]
    omega

theorem SSHBuffer.Metered.sealAll (h : b.Metered pair.epoch) (origin : Origin)
    (payloads : List Bytes) : (b.sealAll pair origin payloads).Metered pair.epoch := by
  induction payloads generalizing b with
  | nil => exact h
  | cons payload payloads ih => exact ih (h.sealed origin payload)

theorem SSHBuffer.Metered.sealEach (h : b.Metered pair.epoch) (packets : List (Origin × Bytes)) :
    (b.sealEach pair packets).Metered pair.epoch := by
  induction packets generalizing b with
  | nil => exact h
  | cons p packets ih => exact ih (h.sealed p.1 p.2)

omit [Deps] in
/-- Under new keys nothing has been sealed, whatever the counter says. -/
theorem SSHBuffer.Metered.next {epoch : Nat} (h : b.Metered epoch) (bytes : Nat) :
    SSHBuffer.Metered { b with bytes := bytes } (epoch + 1) := by
  constructor
  · intro r hr
    have hknown := h.known r hr
    omega
  · have hnone : payloadUnder (epoch + 1) b.history = 0 :=
      payloadUnder_later fun r hr => Nat.lt_succ_of_le (h.known r hr)
    change payloadUnder (epoch + 1) b.history ≤ bytes
    rw [hnone]
    exact Nat.zero_le _

end

/-- The bytes written under the keys in use. -/
def CommonSession.written (s : CommonSession C) : Nat :=
  payloadUnder s.cipher.epoch s.writeBuffer.history

/-- A session whose counter has not fallen behind. -/
def CommonSession.Metered (s : CommonSession C) : Prop := s.writeBuffer.Metered s.cipher.epoch

/-! ### Steps under the keys in use -/

/-- A step that leaves the keys in use, counts what it seals, and ends no exchange. -/
structure Stays (s t : CommonSession C) : Prop where
  /-- The pair stays. -/
  cipher : t.cipher = s.cipher
  /-- The limits stay. -/
  config : t.config = s.config
  /-- The counter does not fall behind. -/
  metered : s.Metered → t.Metered
  /-- A session that cannot start an exchange does not become one that can. -/
  busy : s.phase ≠ .idle → t.phase ≠ .idle

section
variable {s t u : CommonSession C}

theorem Stays.refl (s : CommonSession C) : Stays s s := ⟨rfl, rfl, id, id⟩

theorem Stays.trans (h : Stays s t) (h' : Stays t u) : Stays s u := by
  have hcipher := h'.cipher.trans h.cipher
  have hconfig := h'.config.trans h.config
  exact ⟨hcipher, hconfig, h'.metered ∘ h.metered, h'.busy ∘ h.busy⟩

/-- A step that leaves the records of the exchange. -/
theorem Stays.of_records (hcipher : t.cipher = s.cipher) (hconfig : t.config = s.config)
    (hmetered : s.Metered → t.Metered) (hrecords : t.kex = s.kex ∧
      Option.Rel (fun e e' => e'.rekey = e.rekey ∧ e'.exchange = e.exchange)
        s.encrypted t.encrypted) : Stays s t := by
  have hphase := phase_of_records hrecords.1 hrecords.2
  refine ⟨hcipher, hconfig, hmetered, ?_⟩
  rw [hphase]
  exact id

/-- A step that seals nothing. -/
theorem metered_of_same (hcipher : t.cipher = s.cipher)
    (hhistory : t.writeBuffer.history = s.writeBuffer.history)
    (hbytes : t.writeBuffer.bytes = s.writeBuffer.bytes) (h : s.Metered) : t.Metered := by
  obtain ⟨hknown, hcounted⟩ := h
  constructor
  · rw [hhistory, hcipher]
    exact hknown
  · rw [hhistory, hcipher, hbytes]
    exact hcounted

theorem Quiet.stays {P : Bytes → Prop} (h : Quiet P s t) : Stays s t := by
  have hcipher : t.cipher = s.cipher := by rw [h.same]
  have hconfig : t.config = s.config := by rw [h.same]
  have hhistory : t.writeBuffer.history = s.writeBuffer.history := by rw [h.same]
  have hbytes : t.writeBuffer.bytes = s.writeBuffer.bytes := by rw [h.same]
  exact .of_records hcipher hconfig (metered_of_same hcipher hhistory hbytes) h.records

theorem Staged.stays (h : Staged s t) : Stays s t := by
  have hcipher : t.cipher = s.cipher := by rw [h.same]
  have hconfig : t.config = s.config := by rw [h.same]
  have hhistory : t.writeBuffer.history = s.writeBuffer.history := by rw [h.same]
  have hbytes : t.writeBuffer.bytes = s.writeBuffer.bytes := by rw [h.same]
  exact .of_records hcipher hconfig (metered_of_same hcipher hhistory hbytes) h.records

theorem PacketsFlushed.stays {enc enc' : Encrypted} (h : PacketsFlushed s t enc enc') :
    Stays s t := by
  have hcipher : t.cipher = s.cipher := by rw [h.session]
  have hconfig : t.config = s.config := by rw [h.session]
  refine .of_records hcipher hconfig (fun hmetered => ?_) ⟨by rw [h.session], ?_⟩
  · obtain ⟨packets, outs, c, -, -, hsealed⟩ := h.packets
    unfold CommonSession.Metered
    rw [hsealed, hcipher]
    exact SSHBuffer.Metered.sealAll hmetered _ _
  · rw [h.encrypted, h.encrypted_eq]
    exact .some (by rw [h.same]; exact ⟨rfl, rfl⟩)

variable [SessionConfig C]

theorem FlushStep.stays (h : FlushStep s t) : Stays s t := by
  cases h with
  | none h => exact .refl s
  | packets h => exact h.stays
  | @rekey u enc enc' ex h hwrite hcursor hrekey hex =>
    have hstart : Stays u (u.startRekey enc' ex) := by
      refine ⟨rfl, rfl, fun hmetered => ?_, fun _ => ?_⟩
      · exact SSHBuffer.Metered.sealed hmetered _ _
      · change Phase.waiting ≠ .idle
        decide
    exact h.stays.trans hstart

theorem Small.stays (h : Small s t) : Stays s t := by
  cases h with
  | quiet h => exact h.stays
  | staged h => exact h.stays
  | service h =>
    rw [h]
    exact ⟨rfl, rfl, fun hmetered => SSHBuffer.Metered.sealed hmetered _ _, id⟩
  | call h =>
    rw [h]
    exact (flush_final s).stays

theorem outside_stays : Outside (Stays : CommonSession C → CommonSession C → Prop) where
  small _ _ h := h.stays
  inflate s enc decompress henc := by
    refine .of_records rfl rfl (metered_of_same rfl rfl rfl) ⟨rfl, ?_⟩
    rw [henc]
    exact .some ⟨rfl, rfl⟩
  clear _ := ⟨rfl, rfl, metered_of_same rfl rfl rfl, id⟩

omit [SessionConfig C] in
/-- A packet of the exchange that seals under the keys in use. -/
theorem Seals.metered {packets : List (Origin × Bytes)} (h : Seals s t packets) (hs : s.Metered) :
    t.Metered := by
  have hbuffer : t.writeBuffer = s.writeBuffer.sealEach s.cipher packets := by rw [h.same]
  have hcipher : t.cipher = s.cipher := by rw [h.same]
  unfold CommonSession.Metered
  rw [hbuffer, hcipher]
  exact SSHBuffer.Metered.sealEach hs packets

omit [SessionConfig C] in
theorem Installs.metered {bytes : Nat} {packets : List (Origin × Bytes)}
    (h : Installs s t bytes packets) (hs : s.Metered) : t.Metered := by
  have hbuffer : t.writeBuffer =
      SSHBuffer.sealEach { s.writeBuffer with bytes := bytes } t.cipher packets := by rw [h.same]
  have hnext := SSHBuffer.Metered.next hs bytes
  unfold CommonSession.Metered
  rw [hbuffer]
  rw [← h.epoch] at hnext
  exact hnext.sealEach packets

/-! ### The write limit -/

/-- A flush that leaves a session without an exchange has counted less than the limit. -/
theorem flush_idle (h : flush s = .ok () t) (hidle : t.phase = .idle) :
    t.writeBuffer.bytes < (SessionConfig.limits s.config).rekeyWriteLimit := by
  unfold flush at h
  rw [run_bind] at h
  cases henc : s.encrypted with
  | none =>
    rw [flushPackets_none henc] at h
    simp only [Bool.false_eq_true, if_false, run_pure] at h
    cases h
    simp only [CommonSession.phase, henc] at hidle
    cases hk : s.kex with
    | none =>
      rw [hk] at hidle
      cases hidle
    | some k =>
      rw [hk] at hidle
      cases k <;> cases hidle
  | some enc =>
    cases hpackets : flushPackets s with
    | error e u =>
      rw [hpackets] at h
      cases h
    | ok due u =>
      obtain ⟨enc', hflushed, -, -, hbelow⟩ := flushPackets_ok henc hpackets
      rw [hpackets] at h
      cases due with
      | false =>
        simp only [Bool.false_eq_true, if_false, run_pure] at h
        cases h
        exact hbelow rfl
      | true =>
        simp only [if_true] at h
        have henc' := hflushed.encrypted_eq
        cases hrekey : enc'.rekey with
        | some k =>
          rw [initiateRekey_skip fun e he => .inl (by
            obtain rfl : enc' = e := Option.some.inj (henc'.symm.trans he)
            rw [hrekey]
            exact Option.some_ne_none k)] at h
          cases h
          simp only [CommonSession.phase, henc', Encrypted.phase, hrekey] at hidle
          cases k <;> cases hidle
        | none =>
          cases hex : enc'.exchange with
          | none =>
            rw [initiateRekey_skip fun e he => .inr (by
              obtain rfl : enc' = e := Option.some.inj (henc'.symm.trans he)
              exact hex)] at h
            cases h
            simp only [CommonSession.phase, henc', Encrypted.phase, hrekey, hex,
              Option.isSome_none, Bool.false_eq_true, if_false] at hidle
            cases hidle
          | some ex =>
            rw [initiateRekey_start henc' hrekey hex] at h
            cases h
            change Phase.waiting = .idle at hidle
            cases hidle

/-- Between two turns a session has written less than the limit under the keys
in use, or an exchange is in progress; its exchange is not lost. -/
structure CommonSession.WritesWithin (s : CommonSession C) : Prop where
  /-- The exchange is not lost. -/
  notLost : s.NotLost
  /-- The counter has not fallen behind. -/
  metered : s.Metered
  /-- The limit is not reached. -/
  below : s.phase = .idle → s.written < (SessionConfig.limits s.config).rekeyWriteLimit

/-- Steps under the keys in use that seal nothing keep below the limit. -/
theorem CommonSession.WritesWithin.of_stays (h : s.WritesWithin) (hstays : Stays s t)
    (hlost : t.NotLost)
    (hhistory : t.writeBuffer.history = s.writeBuffer.history) : t.WritesWithin := by
  refine ⟨hlost, hstays.metered h.metered, fun hidle => ?_⟩
  have hsame : t.written = s.written := by
    unfold CommonSession.written
    rw [hhistory, hstays.cipher]
  rw [hsame, hstays.config]
  refine h.below ?_
  by_contra hbusy
  exact hstays.busy hbusy hidle

/-- In every run without a late KEXINIT the write limit starts a re-exchange. -/
theorem writesWithin_invariant :
    Invariant (fun _ => True) noLateKexInit (CommonSession.WritesWithin (C := C))
      (fun s => s.NotLost ∧ s.Metered) fun _ => True where
  enter _ h := ⟨h.notLost, h.metered⟩
  leave _ _ := trivial
  inflate s enc decompress henc h := by
    have hlost := (notLost_invariant fun _ => True).inflate s enc decompress henc h.notLost
    exact h.of_stays (outside_stays.inflate s enc decompress henc) hlost rfl
  advance s t buf h hs hallowed hadvance := by
    have hmetered := h.metered
    refine ⟨(notLost_invariant fun _ => True).advance s t buf h.notLost hs hallowed hadvance, ?_⟩
    cases hadvance with
    | skip ht => rw [ht]; exact hmetered
    | answer _ _ hseals _ => exact hseals.metered hmetered
    | serve _ _ hseals => exact hseals.metered hmetered
    | guess _ _ hseals => exact hseals.metered hmetered
    | finish _ _ hseals _ => exact hseals.metered hmetered
    | install _ _ hinstalls => exact hinstalls.metered hmetered
    | drop _ _ _ _ hseals => exact hseals.metered hmetered
  seals _ _ _ _ _ _ := trivial
  turn s t h hs hphase hturn := by
    refine ⟨(notLost_invariant fun _ => True).turn s t h.1 hs hphase hturn, ?_⟩
    cases hturn with
    | busy hbusy =>
      cases hbusy with
      | quiet hquiet => exact hquiet.stays.metered h.2
      | flush hflush => exact hflush.stays.metered h.2
    | staged hstaged => exact hstaged.stays.metered h.2
  message s t enc h hs henc hrekey hlocals := by
    refine ⟨(notLost_invariant fun _ => True).message s t enc h.notLost hs henc hrekey hlocals, ?_⟩
    have hmetered := h.metered
    induction hlocals with
    | refl => exact hmetered
    | tail _ hlocal ih => exact hlocal.small.stays.metered ih
  flush s t h hs hflush := by
    have hlost := (notLost_invariant fun _ => True).flush s t h.1 hs hflush
    have hstep := flush_final s
    rw [hflush, final_ok] at hstep
    have hmetered := hstep.stays.metered h.2
    refine ⟨hlost, (outside_stays.clear t).metered hmetered, fun hidle => ?_⟩
    have hbelow := flush_idle hflush hidle
    have hcounted := hmetered.counted
    change t.written < (SessionConfig.limits t.config).rekeyWriteLimit
    rw [hstep.stays.config]
    exact Nat.lt_of_le_of_lt hcounted hbelow
  settle s t h hstaged := by
    have hlost := (notLost_invariant fun _ => True).settle s t h.notLost hstaged
    have hhistory : t.writeBuffer.history = s.writeBuffer.history := by rw [hstaged.same]
    exact h.of_stays hstaged.stays hlost hhistory

end

end Thrussh
