import Thrussh.Provenance

/-!
# The counters of a re-exchange

`Session::flush` starts a re-exchange once the payload bytes that
`write_buffer.bytes` counts, or the time since `last_rekey`, have reached
their limits. The acts of a run tell when the keys in use were installed; the
counters agree with them as long as every completed re-exchange resets them.
-/

namespace Thrussh

open Lib

variable [Deps] {C S M : Type}

omit [Deps] in
/-- The payload bytes of some packets. -/
def payloadBytes (packets : List PacketRecord) : Nat := (packets.map (·.payload.length)).sum

/-! ### The keys in use -/

section
variable (d : Driver C S M)

/-- Whether an act is the peer's NEWKEYS, by which new keys come into use. -/
def Driver.installs : Act S M → Bool
  | .reply s buf => decide ((d.common s).phase = .newKeys) && decide (buf.head? = some msg.NEWKEYS)
  | .message _ _ => false

/-- Whether an act completes a re-exchange. -/
def Driver.completes (act : Act S M) : Bool :=
  d.installs act && (d.common act.session).encrypted.isSome

/-- The clock when the keys in use were installed. -/
def Driver.installedAt (acts : List (Act S M)) : Nat :=
  (acts.filter d.installs).getLast?.elim 0 fun act =>
    (d.common act.session).world.clock (d.common act.session).tick

/-- How many packets had been sealed when the last re-exchange was completed.
Under the first keys everything since the start of the connection counts. -/
def Driver.sealedAt (acts : List (Act S M)) : Nat :=
  (acts.filter d.completes).getLast?.elim 0 fun act =>
    (d.common act.session).writeBuffer.history.length

variable {d} {acts : List (Act S M)} {act : Act S M}

/-- An act that installs nothing leaves what is told of the keys in use. -/
theorem installed_append (acts : List (Act S M)) (h : d.installs act = false) :
    d.installedAt (acts ++ [act]) = d.installedAt acts ∧
      d.sealedAt (acts ++ [act]) = d.sealedAt acts := by
  have hcompletes : d.completes act = false := by
    rw [Driver.completes, h, Bool.false_and]
  constructor
  · simp only [Driver.installedAt, List.filter_append, List.filter_cons, h, Bool.false_eq_true,
      if_false, List.filter_nil, List.append_nil]
  · simp only [Driver.sealedAt, List.filter_append, List.filter_cons, hcompletes,
      Bool.false_eq_true, if_false, List.filter_nil, List.append_nil]

/-- An act that installs keys does so at its own time. -/
theorem installedAt_append (h : d.installs act = true) :
    d.installedAt (acts ++ [act]) =
      (d.common act.session).world.clock (d.common act.session).tick := by
  simp only [Driver.installedAt, List.filter_append, List.filter_cons, h, if_true,
    List.filter_nil, List.getLast?_append, List.getLast?_singleton, Option.some_or,
    Option.elim_some]

theorem sealedAt_append (h : d.completes act = true) :
    d.sealedAt (acts ++ [act]) = (d.common act.session).writeBuffer.history.length := by
  simp only [Driver.sealedAt, List.filter_append, List.filter_cons, h, if_true,
    List.filter_nil, List.getLast?_append, List.getLast?_singleton, Option.some_or,
    Option.elim_some]

/-- The first keys are counted from the start of the connection. -/
theorem sealedAt_append_first (h : (d.common act.session).encrypted = none) :
    d.sealedAt (acts ++ [act]) = d.sealedAt acts := by
  have hcompletes : d.completes act = false := by
    rw [Driver.completes, h, Option.isSome_none, Bool.and_false]
  simp only [Driver.sealedAt, List.filter_append, List.filter_cons, hcompletes,
    Bool.false_eq_true, if_false, List.filter_nil, List.append_nil]

end

/-! ### Counting what is sealed -/

/-- What a buffer counts is what is sealed into it. -/
def Counts (b b' : SSHBuffer) : Prop :=
  ∃ new, b'.history = b.history ++ new ∧ b'.bytes = b.bytes + payloadBytes new

section
variable {b b' b'' : SSHBuffer}

omit [Deps] in
theorem payloadBytes_append (packets packets' : List PacketRecord) :
    payloadBytes (packets ++ packets') = payloadBytes packets + payloadBytes packets' := by
  simp only [payloadBytes, List.map_append, List.sum_append]

omit [Deps] in
/-- Sealing nothing counts nothing. -/
theorem Counts.of_same (hhistory : b'.history = b.history) (hbytes : b'.bytes = b.bytes) :
    Counts b b' := ⟨[], by rw [hhistory, List.append_nil], hbytes⟩

omit [Deps] in
theorem Counts.trans (h : Counts b b') (h' : Counts b' b'') : Counts b b'' := by
  obtain ⟨new, hhistory, hbytes⟩ := h
  obtain ⟨new', hhistory', hbytes'⟩ := h'
  refine ⟨new ++ new', ?_, ?_⟩
  · rw [hhistory', hhistory, List.append_assoc]
  · have hsum := payloadBytes_append new new'
    omega

theorem counts_sealed (b : SSHBuffer) (pair : CipherPair) (origin : Origin) (payload : Bytes) :
    Counts b (b.sealed pair origin payload) :=
  ⟨[⟨pair.epoch, b.seqn, payload, origin⟩], rfl, by simp [SSHBuffer.sealed, payloadBytes]⟩

theorem counts_sealAll (b : SSHBuffer) (pair : CipherPair) (origin : Origin)
    (payloads : List Bytes) : Counts b (b.sealAll pair origin payloads) := by
  induction payloads generalizing b with
  | nil => exact .of_same rfl rfl
  | cons payload payloads ih =>
    have hfirst := counts_sealed b pair origin payload
    exact hfirst.trans (ih (b.sealed pair origin payload))

theorem counts_sealEach (b : SSHBuffer) (pair : CipherPair) (packets : List (Origin × Bytes)) :
    Counts b (b.sealEach pair packets) := by
  induction packets generalizing b with
  | nil => exact .of_same rfl rfl
  | cons p packets ih =>
    have hfirst := counts_sealed b pair p.1 p.2
    exact hfirst.trans (ih (b.sealed pair p.1 p.2))

end

/-- The time stamp of an encrypted session. -/
def CommonSession.rekeyedAt (s : CommonSession C) : Option Nat := s.encrypted.map (·.lastRekey)

/-- A step that counts what it seals, and leaves the time stamp. -/
structure Keeping (s t : CommonSession C) : Prop where
  /-- What is sealed is counted. -/
  counts : Counts s.writeBuffer t.writeBuffer
  /-- The time stamp stays. -/
  time : t.rekeyedAt = s.rekeyedAt

/-- The counters agree with what is told of the keys in use. -/
structure Tallied (n since : Nat) (s : CommonSession C) : Prop where
  /-- The packets had been sealed. -/
  began : n ≤ s.writeBuffer.history.length
  /-- The bytes are those sealed since. -/
  bytes : s.writeBuffer.bytes = payloadBytes (s.writeBuffer.history.drop n)
  /-- The time stamp is the one of the installation. -/
  time : ∀ at', s.rekeyedAt = some at' → at' = since

section
variable {s t u : CommonSession C} {n since : Nat}

theorem Tallied.keep (h : Tallied n since s) (hkeeping : Keeping s t) :
    Tallied n since t := by
  obtain ⟨⟨new, hhistory, hbytes⟩, htime⟩ := hkeeping
  have hbegan := h.began
  constructor
  · rw [hhistory, List.length_append]
    omega
  · rw [hbytes, h.bytes, hhistory, List.drop_append_of_le_length h.began, payloadBytes_append]
  · intro at' hat
    rw [htime] at hat
    exact h.time at' hat

/-! ### What a session does outside of the exchange -/

/-- Steps that leave the time stamp of `enc`. -/
theorem rekeyedAt_of_rel {a b : Option Encrypted}
    (h : Option.Rel (fun e e' => e'.lastRekey = e.lastRekey) a b) :
    b.map (·.lastRekey) = a.map (·.lastRekey) := by
  cases h with
  | none => rfl
  | some h => exact congrArg some h

theorem Quiet.keeping {P : Bytes → Prop} (h : Quiet P s t) : Keeping s t := by
  have hhistory : t.writeBuffer.history = s.writeBuffer.history := by rw [h.same]
  have hbytes : t.writeBuffer.bytes = s.writeBuffer.bytes := by rw [h.same]
  constructor
  · exact .of_same hhistory hbytes
  · refine rekeyedAt_of_rel ?_
    have henc := h.encrypted
    generalize s.encrypted = a at henc
    generalize t.encrypted = b at henc
    cases henc with
    | none => exact .none
    | some henc => exact .some (by rw [henc.same])

theorem Staged.keeping (h : Staged s t) : Keeping s t := by
  have hhistory : t.writeBuffer.history = s.writeBuffer.history := by rw [h.same]
  have hbytes : t.writeBuffer.bytes = s.writeBuffer.bytes := by rw [h.same]
  constructor
  · exact .of_same hhistory hbytes
  · refine rekeyedAt_of_rel ?_
    have henc := h.encrypted
    generalize s.encrypted = a at henc
    generalize t.encrypted = b at henc
    cases henc with
    | none => exact .none
    | some henc => exact .some (by rw [henc.same])

theorem PacketsFlushed.keeping {enc enc' : Encrypted} (h : PacketsFlushed s t enc enc') :
    Keeping s t := by
  obtain ⟨packets, outs, c, -, -, hsealed⟩ := h.packets
  constructor
  · rw [hsealed]
    exact counts_sealAll _ _ _ _
  · have htime : enc'.lastRekey = enc.lastRekey := by rw [h.same]
    unfold CommonSession.rekeyedAt
    rw [h.encrypted, h.encrypted_eq, Option.map_some, Option.map_some, htime]

/-- A packet of the exchange that seals under the keys in use. -/
theorem Seals.keeping {packets : List (Origin × Bytes)} (h : Seals s t packets) : Keeping s t := by
  have hbuffer : t.writeBuffer = s.writeBuffer.sealEach s.cipher packets := by rw [h.same]
  constructor
  · rw [hbuffer]
    exact counts_sealEach _ _ _
  · refine rekeyedAt_of_rel ?_
    have henc := h.encrypted
    generalize s.encrypted = a at henc
    generalize t.encrypted = b at henc
    cases henc with
    | none => exact .none
    | some henc => exact .some (by rw [henc])

variable [SessionConfig C]

theorem FlushStep.keeping (h : FlushStep s t) : Keeping s t := by
  cases h with
  | none h => exact ⟨.of_same rfl rfl, rfl⟩
  | packets h => exact h.keeping
  | rekey h hwrite hcursor hrekey hex =>
    obtain ⟨hcounts, htime⟩ := h.keeping
    constructor
    · exact hcounts.trans (counts_sealed _ _ _ _)
    · rw [← htime]
      unfold CommonSession.rekeyedAt
      rw [h.encrypted_eq]
      rfl

/-- A step of a session outside of the exchange, in which every flush is a
call of `Session::flush`. -/
inductive Small (s t : CommonSession C) : Prop where
  /-- Packets are queued, or channels change. -/
  | quiet (h : Quiet (fun _ => True) s t)
  /-- A step of the authentication. -/
  | staged (h : Staged s t)
  /-- The client's service request is sealed. -/
  | service {payload : Bytes}
    (h : t = { s with writeBuffer := s.writeBuffer.sealed s.cipher .service payload })
  /-- The session is flushed. -/
  | call (h : t = final (flush s))

instance : Calling (fun _ => True) (Small : CommonSession C → CommonSession C → Prop) where
  quiet := .quiet
  call := .call rfl

instance : Staging (fun _ => True) (Small : CommonSession C → CommonSession C → Prop) where
  quiet := .quiet
  staged := .staged

theorem Local.small (h : Local (fun _ => True) s t) : Small s t := by
  cases h with
  | quiet h => exact .quiet h
  | staged h => exact .staged h
  | service hpayload h => exact .service h

theorem Small.keeping (h : Small s t) : Keeping s t := by
  cases h with
  | quiet h => exact h.keeping
  | staged h => exact h.keeping
  | service h =>
    rw [h]
    exact ⟨counts_sealed _ _ _ _, rfl⟩
  | call h =>
    rw [h]
    exact (flush_final s).keeping

theorem Tallied.keep_all (h : Tallied n since s) (hsteps : Relation.ReflTransGen Small s t) :
    Tallied n since t := by
  induction hsteps with
  | refl => exact h
  | tail _ hstep ih => exact ih.keep hstep.keeping

/-! ### What makes a flush start a re-exchange -/

/-- A flush of the session starts a re-exchange. -/
def CommonSession.Starts (s : CommonSession C) : Prop :=
  s.exchanging = none ∧ (final (flush s)).exchanging.isSome = true

/-- A limit is reached at a flush: the payload bytes of all packets but the
first `n`, those that the flush has just sealed included and its KEXINIT not,
or the time since `since`. -/
def CommonSession.LimitReached (s : CommonSession C) (n since : Nat) : Prop :=
  (SessionConfig.limits s.config).rekeyWriteLimit ≤
      payloadBytes ((final (flush s)).writeBuffer.history.dropLast.drop n) ∨
    (SessionConfig.limits s.config).rekeyTimeLimit ≤ s.world.clock s.tick - since

/-- A flush asks for a re-exchange because of the bytes that it has counted,
or because of the time. -/
theorem flushPackets_due {enc : Encrypted} {due : Bool} (henc : s.encrypted = some enc)
    (h : flushPackets s = .ok due t) :
    due = (decide ((SessionConfig.limits s.config).rekeyWriteLimit ≤ t.writeBuffer.bytes) ||
      decide ((SessionConfig.limits s.config).rekeyTimeLimit ≤
        s.world.clock s.tick - enc.lastRekey)) := by
  simp only [flushPackets, run_bind, run_get, henc, run_modify, zoom] at h
  cases hflush : enc.flush s.cipher (enc, s.writeBuffer) with
  | error e p =>
    rw [hflush] at h
    cases h
  | ok u p =>
    rw [hflush] at h
    simp only [now, run_pure] at h
    cases h
    rfl

/-- A flush starts a re-exchange only if one of the counters has reached its limit. -/
theorem CommonSession.Starts.spec (h : s.Starts) :
    ∃ enc, s.encrypted = some enc ∧ ∃ t r, Keeping s t ∧
      (final (flush s)).writeBuffer.history = t.writeBuffer.history ++ [r] ∧
      ((SessionConfig.limits s.config).rekeyWriteLimit ≤ t.writeBuffer.bytes ∨
        (SessionConfig.limits s.config).rekeyTimeLimit ≤
          s.world.clock s.tick - enc.lastRekey) := by
  obtain ⟨hnone, hsome⟩ := h
  cases henc : s.encrypted with
  | none =>
    have hflush : flush s = .ok () s := by
      simp only [flush, run_bind, flushPackets_none henc]
      rfl
    rw [hflush, final_ok, hnone] at hsome
    cases hsome
  | some enc =>
    have hsame : ∀ {t enc'}, PacketsFlushed s t enc enc' → t.exchanging = none := by
      intro t enc' hflushed
      rw [exchanging_some hflushed.encrypted_eq, hflushed.same]
      exact (exchanging_some henc).symm.trans hnone
    refine ⟨enc, rfl, ?_⟩
    unfold flush at hsome ⊢
    rw [final_bind] at hsome ⊢
    cases hpackets : flushPackets s with
    | error e t =>
      obtain ⟨enc', hflushed⟩ := flushPackets_final henc
      rw [hpackets, final_error] at hflushed
      rw [hpackets] at hsome
      simp only [hsame hflushed, Option.isSome_none, Bool.false_eq_true] at hsome
    | ok due t =>
      obtain ⟨enc', hflushed, -, -, -⟩ := flushPackets_ok henc hpackets
      have hdue := flushPackets_due henc hpackets
      rw [hpackets] at hsome
      dsimp only at hsome ⊢
      cases due with
      | false =>
        simp only [Bool.false_eq_true, if_false, run_pure, final_ok, hsame hflushed,
          Option.isSome_none] at hsome
      | true =>
        simp only [if_true] at hsome ⊢
        have hrekey : enc'.rekey = none := (exchanging_some hflushed.encrypted_eq).symm.trans
          (hsame hflushed)
        cases hex : enc'.exchange with
        | none =>
          have hskip : initiateRekey t = .ok () t := by
            refine initiateRekey_skip fun e he => .inr ?_
            obtain rfl : enc' = e := Option.some.inj (hflushed.encrypted_eq.symm.trans he)
            exact hex
          simp only [hskip, final_ok, hsame hflushed, Option.isSome_none, Bool.false_eq_true]
            at hsome
        | some ex =>
          rw [initiateRekey_start hflushed.encrypted_eq hrekey hex, final_ok]
          refine ⟨t, _, hflushed.keeping, rfl, ?_⟩
          simpa using hdue.symm

/-- Where the counters agree with what is told of the keys in use, a flush
starts a re-exchange only if a limit is reached. -/
theorem CommonSession.Starts.limitReached (h : s.Starts) (hcounted : Tallied n since s) :
    s.LimitReached n since := by
  obtain ⟨enc, henc, t, r, hkeeping, hhistory, hlimit⟩ := h.spec
  have ht := hcounted.keep hkeeping
  have htime : enc.lastRekey = since := hcounted.time _ (by
    unfold CommonSession.rekeyedAt
    rw [henc, Option.map_some])
  unfold CommonSession.LimitReached
  rw [hhistory, List.dropLast_concat, ← ht.bytes, ← htime]
  exact hlimit

end

end Thrussh
