import Thrussh.Output
import Thrussh.Rounds

/-!
# The transcript of a side

What a side of a connection takes for an exchange with its peer is its
`Script`. The transcript of what the side has written lists packets with
their labels, sealed under the keys of the rounds that are over: the packets of
exchanges among them are those of the rounds, and what is sealed in the clear
belongs to an exchange.
-/

namespace Thrussh

open Lib

/-- A packet that belongs to no exchange. -/
abbrev Unrelated (body : Bytes) : Prop := ¬ ExchangePacket body

/-- The packets among some payloads that are only sent from the queue. -/
def ordinaries (payloads : List Bytes) : List Bytes := payloads.filter fun body => Ordinary body

theorem ordinaries_mono {payloads payloads' : List Bytes} (h : payloads <+: payloads') :
    ordinaries payloads <+: ordinaries payloads' :=
  h.filter _

variable [Deps] {C : Type}

/-- What a side takes for an exchange with its peer. -/
structure Script (C : Type) where
  /-- The own configuration. -/
  config : C
  /-- The client's identification line. -/
  clientId : Bytes
  /-- The server's. -/
  serverId : Bytes
  /-- What the peer prefers. -/
  peerPref : Preferred
  /-- The record between both KEXINITs and the own NEWKEYS, for a session id, the packets
  sent and the packets heard. -/
  dh : Option Bytes32 → List Bytes → List Bytes → Kex → Prop
  /-- An exchange that is over, for a session id. -/
  deals : Option Bytes32 → Round → Prop

/-- Every round is a deal, with the session id of the first. -/
def Script.Archive (x : Script C) (past : List Round) : Prop :=
  ∀ before round after, past = before ++ round :: after →
    x.deals (Progress.mk before [] []).id round

omit [Deps] in
theorem Script.Archive.nil (x : Script C) : x.Archive [] := by
  intro before round after h
  cases before <;> cases h

omit [Deps] in
/-- One more deal. -/
theorem Script.Archive.snoc {x : Script C} {past : List Round} (h : x.Archive past) {round : Round}
    (hdeals : x.deals (Progress.mk past [] []).id round) : x.Archive (past ++ [round]) := by
  intro before round' after heq
  rcases List.eq_nil_or_concat after with rfl | ⟨after, last, rfl⟩
  · obtain ⟨rfl, hround⟩ := List.append_inj' heq rfl
    cases hround
    exact hdeals
  · have heq' : past ++ [round] = (before ++ round' :: after) ++ [last] := by
      rw [heq]
      simp
    exact h before round' after (List.append_inj' heq' rfl).1

/-- The transcript of a side: what it has written before, and what is in its buffer. -/
structure Transcript [SessionConfig C] (x : Script C) (v : Progress) (before : Bytes)
    (b : SSHBuffer) : Prop where
  /-- Every packet is sealed under the key of its epoch. -/
  bytes_eq : before ++ b.buffer = wires 0 (sentUnder (sealingKey v.past) b.history)
  /-- The number of the next packet. -/
  next : b.seqn = UInt32.ofNat b.history.length
  /-- Every packet has the label of its place. -/
  labelled : Labelled b.history
  /-- No packet is sealed under keys that come later. -/
  known : ∀ r ∈ b.history, r.epoch ≤ v.past.length
  /-- The packets of exchanges are those that the side has sent. -/
  said : exchanges (b.history.map PacketRecord.payload) = v.said
  /-- Each is what the role sends at its place. -/
  recited : Recited (SessionConfig.role C) (SessionConfig.preferred x.config) v.said
  /-- In the clear nothing else is sent. -/
  early : ∀ r ∈ b.history, r.epoch = 0 → ExchangePacket r.payload
  /-- Other packets come from the queue. -/
  ordinary : ∀ r ∈ b.history, Ordinary r.payload → r.origin = .queued
  /-- The rounds that are over. -/
  archive : x.Archive v.past

namespace Transcript

variable [SessionConfig C] {x : Script C} {v : Progress} {before : Bytes} {b : SSHBuffer}

/-- A side seals one more packet, unless it has sent its NEWKEYS: one of the exchange
that is at its place, or another one that is not in the clear. -/
theorem sealed (h : Transcript x v before b) (hfew : v.own.length < roundLength) (origin : Origin)
    {payload : Bytes}
    (hrecites : ExchangePacket payload →
      Recites (SessionConfig.role C) (SessionConfig.preferred x.config) v.own.length payload)
    (hother : ¬ ExchangePacket payload → v.past ≠ [])
    (hordinary : Ordinary payload → origin = .queued) :
    Transcript x { v with own := v.own ++ exchanges [payload] } before
      (b.sealed (pairOf v.past) origin payload) := by
  obtain ⟨hmod, hdiv⟩ := v.said_place hfew
  set r : PacketRecord := ⟨v.past.length, b.seqn, payload, origin⟩ with hr
  have hhistory : (b.sealed (pairOf v.past) origin payload).history = b.history ++ [r] := rfl
  have hsaid : v.said ++ exchanges [payload] =
      Progress.said { v with own := v.own ++ exchanges [payload] } := by
    simp only [Progress.said, List.append_assoc]
  constructor
  · have hlast : wires b.seqn (sentUnder (sealingKey v.past) [r]) =
        (pairOf v.past).localToRemote.wire b.seqn payload := by
      simp only [sentUnder, List.map_cons, List.map_nil, wires, List.append_nil]
      rfl
    have hcount : (sentUnder (sealingKey v.past) b.history).length = b.history.length :=
      List.length_map _
    rw [hhistory, sentUnder, List.map_append, wires_append, UInt32.zero_add, ← sentUnder,
      ← sentUnder, hcount, ← h.next, hlast, ← h.bytes_eq, List.append_assoc]
    rfl
  · change b.seqn + 1 = _
    rw [hhistory, List.length_append, List.length_singleton, h.next, UInt32.ofNat_add]
    rfl
  · rw [hhistory]
    refine h.labelled.snoc ?_ h.next
    rw [h.said, hdiv]
  · intro r' hr'
    rw [hhistory] at hr'
    rcases List.mem_append.mp hr' with hold | hlast
    · exact h.known r' hold
    · cases List.mem_singleton.mp hlast
      exact Nat.le_refl _
  · rw [hhistory, List.map_append, exchanges_append, h.said]
    exact hsaid
  · rw [← hsaid]
    by_cases hexchange : ExchangePacket payload
    · rw [exchanges_single hexchange]
      refine h.recited.snoc ?_
      rw [hmod]
      exact hrecites hexchange
    · rw [exchanges_other hexchange, List.append_nil]
      exact h.recited
  · intro r' hr' hzero
    rw [hhistory] at hr'
    rcases List.mem_append.mp hr' with hold | hlast
    · exact h.early r' hold hzero
    · rw [List.mem_singleton.mp hlast] at hzero ⊢
      by_contra hexchange
      exact hother hexchange (List.length_eq_zero_iff.mp hzero)
  · intro r' hr' hpayload
    rw [hhistory] at hr'
    rcases List.mem_append.mp hr' with hold | hlast
    · exact h.ordinary r' hold hpayload
    · rw [List.mem_singleton.mp hlast] at hpayload ⊢
      exact hordinary hpayload
  · exact h.archive

/-- A side seals the next of its packets of the exchange. -/
theorem recite (h : Transcript x v before b) (hfew : v.own.length < roundLength) (origin : Origin)
    (payload : Bytes) (hexchange : ExchangePacket payload)
    (hrecites : Recites (SessionConfig.role C) (SessionConfig.preferred x.config) v.own.length
      payload) :
    Transcript x { v with own := v.own ++ [payload] } before
      (b.sealed (pairOf v.past) origin payload) := by
  have hsealed := h.sealed hfew origin (fun _ => hrecites) (fun hnot => absurd hexchange hnot)
    fun hordinary => absurd hexchange hordinary.1
  rwa [exchanges_single hexchange] at hsealed

/-- Packets from the queue leave the progress. -/
theorem sealAll (h : Transcript x v before b) (hfew : v.own.length < roundLength)
    {payloads : List Bytes} (hpayloads : ∀ p ∈ payloads, Unrelated p) (hpast : v.past ≠ []) :
    Transcript x v before (b.sealAll (pairOf v.past) .queued payloads) := by
  induction payloads generalizing b with
  | nil => exact h
  | cons payload payloads ih =>
    have hunrelated := hpayloads payload List.mem_cons_self
    have hfirst := h.sealed hfew .queued (fun hexchange => absurd hexchange hunrelated)
      (fun _ => hpast) fun _ => rfl
    rw [exchanges_other hunrelated, List.append_nil] at hfirst
    exact ih hfirst fun p hp => hpayloads p (List.mem_cons_of_mem _ hp)

/-- What a side has heard is not in its transcript. -/
theorem hear (h : Transcript x v before b) (peer : List Bytes) :
    Transcript x { v with peer := peer } before b :=
  ⟨h.bytes_eq, h.next, h.labelled, h.known, h.said, h.recited, h.early,
    h.ordinary, h.archive⟩

/-- The count of bytes is not either. -/
theorem count (h : Transcript x v before b) (bytes : Nat) :
    Transcript x v before { b with bytes := bytes } :=
  ⟨h.bytes_eq, h.next, h.labelled, h.known, h.said, h.recited, h.early,
    h.ordinary, h.archive⟩

/-- What is in the buffer is written. -/
theorem clear (h : Transcript x v before b) : Transcript x v (before ++ b.buffer) b.clear := by
  refine ⟨?_, h.next, h.labelled, h.known, h.said, h.recited, h.early,
    h.ordinary, h.archive⟩
  simp only [SSHBuffer.clear, List.append_nil]
  exact h.bytes_eq

/-- The ordinary packets that have been sealed come from the queue. -/
theorem ordinaries_eq (h : Transcript x v before b) :
    ordinaries (b.history.map PacketRecord.payload) = ordinaries (sealedPayloads b.history) := by
  unfold ordinaries sealedPayloads
  rw [List.filter_map, List.filter_map, List.filter_filter]
  congr 1
  refine List.filter_congr fun r hr => ?_
  have hqueued := h.ordinary r hr
  by_cases hordinary : Ordinary r.payload
  · simp [hordinary, hqueued hordinary]
  · simp [hordinary]

/-- A round is over: its keys are those of the next epoch. -/
theorem complete (h : Transcript x v before b) {round : Round} (hown : v.own = round.said)
    (hdeals : x.deals v.id round) : Transcript x ⟨v.past ++ [round], [], []⟩ before b := by
  have hsaid : v.said = Progress.said ⟨v.past ++ [round], [], []⟩ := by
    simp only [Progress.said, hown, List.flatMap_append, List.flatMap_singleton, List.append_nil]
  constructor
  · rw [h.bytes_eq]
    congr 1
    refine List.map_congr_left fun r hr => ?_
    rw [sealingKey_append _ _ (h.known r hr)]
  · exact h.next
  · exact h.labelled
  · intro r hr
    have hknown := h.known r hr
    rw [List.length_append]
    omega
  · rw [h.said, hsaid]
  · rw [← hsaid]
    exact h.recited
  · exact h.early
  · exact h.ordinary
  · exact h.archive.snoc hdeals

end Transcript

end Thrussh
