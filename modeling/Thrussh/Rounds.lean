import Thrussh.Lib.Duplex
import Thrussh.Passes
import Thrussh.Select
import Thrussh.Written

/-!
# The exchanges of a connection, one after the other

In each exchange a role sends three packets: its KEXINIT, its message of the
Diffie-Hellman exchange and NEWKEYS, and hears three of its peer. A `Round` is
an exchange that is over. Counting the packets of exchanges in what has been
sealed gives the epoch of every packet: three of them make an epoch. So the
labels of a list of packets, epoch and sequence number, depend on nothing but
the payloads.
-/

namespace Thrussh

open Lib

/-! ### Labels -/

/-- The packets of exchanges among some payloads. -/
def exchanges (payloads : List Bytes) : List Bytes :=
  payloads.filter fun payload => ExchangePacket payload

/-- How many packets make an epoch. -/
abbrev roundLength : Nat := 3

/-- Count the packets of exchanges, and all packets. -/
def countPacket (n : Nat × Nat) (payload : Bytes) : Nat × Nat :=
  (n.1 + (exchanges [payload]).length, n.2 + 1)

/-- The epoch, the sequence number and the payload of a packet behind so many others. -/
def labelPacket (n : Nat × Nat) (payload : Bytes) : Nat × UInt32 × Bytes :=
  (n.1 / roundLength, UInt32.ofNat n.2, payload)

/-- The labels of the first packets on a stream. -/
def labels (payloads : List Bytes) : List (Nat × UInt32 × Bytes) :=
  outputs countPacket labelPacket (0, 0) payloads

/-- The label of a packet in a history. -/
def PacketRecord.label (r : PacketRecord) : Nat × UInt32 × Bytes := (r.epoch, r.seqn, r.payload)

/-- The packets of a history have the labels of their payloads. -/
def Labelled (history : List PacketRecord) : Prop :=
  history.map PacketRecord.label = labels (history.map PacketRecord.payload)

@[simp] theorem exchanges_nil : exchanges [] = [] := rfl

@[simp] theorem exchanges_append (payloads payloads' : List Bytes) :
    exchanges (payloads ++ payloads') = exchanges payloads ++ exchanges payloads' :=
  List.filter_append ..

theorem exchanges_mono {payloads payloads' : List Bytes} (h : payloads <+: payloads') :
    exchanges payloads <+: exchanges payloads' :=
  h.filter _

/-- A packet of an exchange counts. -/
theorem exchanges_single {payload : Bytes} (h : ExchangePacket payload) :
    exchanges [payload] = [payload] := by
  simp [exchanges, h]

/-- Another packet does not. -/
theorem exchanges_other {payload : Bytes} (h : ¬ ExchangePacket payload) :
    exchanges [payload] = [] := by
  simp [exchanges, h]

theorem foldl_countPacket (n : Nat × Nat) (payloads : List Bytes) :
    payloads.foldl countPacket n = (n.1 + (exchanges payloads).length, n.2 + payloads.length) := by
  induction payloads generalizing n with
  | nil => rfl
  | cons payload payloads ih =>
    have hsplit : exchanges (payload :: payloads) = exchanges [payload] ++ exchanges payloads :=
      exchanges_append [payload] payloads
    rw [List.foldl_cons, ih, hsplit, List.length_append, List.length_cons]
    simp only [countPacket, Prod.mk.injEq]
    omega

/-- The label of one more packet. -/
theorem labels_snoc (payloads : List Bytes) (payload : Bytes) :
    labels (payloads ++ [payload]) = labels payloads ++
      [((exchanges payloads).length / roundLength, UInt32.ofNat payloads.length, payload)] := by
  rw [labels, outputs_append, foldl_countPacket, Nat.zero_add, Nat.zero_add]
  rfl

@[simp] theorem length_labels (payloads : List Bytes) :
    (labels payloads).length = payloads.length :=
  length_outputs ..

theorem Labelled.nil : Labelled [] := rfl

/-- One more packet with the label of its place. -/
theorem Labelled.snoc {history : List PacketRecord} (h : Labelled history) {r : PacketRecord}
    (hepoch : r.epoch =
      (exchanges (history.map PacketRecord.payload)).length / roundLength)
    (hseqn : r.seqn = UInt32.ofNat history.length) : Labelled (history ++ [r]) := by
  unfold Labelled at h ⊢
  rw [List.map_append, List.map_append, h, List.map_singleton, List.map_singleton, labels_snoc,
    List.length_map]
  simp only [PacketRecord.label, hepoch, hseqn]

/-- A part of a labelled history up to a packet. -/
theorem Labelled.of_append {history rest : List PacketRecord} (h : Labelled (history ++ rest)) :
    Labelled history := by
  unfold Labelled at h ⊢
  rw [List.map_append, List.map_append, labels, outputs_append] at h
  refine (List.append_inj h ?_).1
  rw [length_outputs, List.length_map, List.length_map]

/-- Every packet of a labelled history has the epoch of its place. -/
theorem Labelled.epoch_eq {before after : List PacketRecord} {r : PacketRecord}
    (h : Labelled (before ++ r :: after)) :
    r.epoch = (exchanges (before.map PacketRecord.payload)).length / roundLength := by
  have hlast : Labelled (before ++ [r]) := by
    rw [List.append_cons] at h
    exact h.of_append
  have hbefore : Labelled before := hlast.of_append
  unfold Labelled at hlast hbefore
  rw [List.map_append, List.map_append, List.map_singleton, List.map_singleton, labels_snoc,
    hbefore] at hlast
  have hlabel := List.append_cancel_left hlast
  exact congrArg Prod.fst (List.singleton_inj.mp hlabel)

/-- Histories of which the one has the first payloads of the other, and both have the
labels of their payloads. -/
theorem Labelled.label_leads {history history' : List PacketRecord} (h : Labelled history)
    (h' : Labelled history')
    (hpayloads : history.map PacketRecord.payload <+: history'.map PacketRecord.payload) :
    history.map PacketRecord.label <+: history'.map PacketRecord.label := by
  unfold Labelled at h h'
  rw [h, h']
  exact outputs_mono _ _ _ hpayloads

/-! ### Rounds -/

/-- An exchange that is over: what this side has sent, what it has heard and the keys. -/
structure Round where
  /-- The own KEXINIT and the own message of the Diffie-Hellman exchange. -/
  own : Bytes × Bytes
  /-- The peer's. -/
  peer : Bytes × Bytes
  /-- The keys that were installed. -/
  keys : NewKeys

/-- The packets of a round that this side has sent. -/
def Round.said (round : Round) : List Bytes := [round.own.1, round.own.2, [msg.NEWKEYS]]

/-- The packets of a round that this side has heard. -/
def Round.heard (round : Round) : List Bytes := [round.peer.1, round.peer.2, [msg.NEWKEYS]]

/-- How far a side has come: the rounds that are over, and what it has sent and
heard of the next one. -/
structure Progress where
  /-- The exchanges that are over. -/
  past : List Round
  /-- The own packets of the exchange in progress. -/
  own : List Bytes
  /-- The peer's packets of the exchange in progress. -/
  peer : List Bytes

/-- All packets of exchanges that a side has sent. -/
def Progress.said (v : Progress) : List Bytes := v.past.flatMap Round.said ++ v.own

/-- All packets of exchanges that a side has heard. -/
def Progress.heard (v : Progress) : List Bytes := v.past.flatMap Round.heard ++ v.peer

/-- The session id: that of the first round. -/
def Progress.id (v : Progress) : Option Bytes32 := v.past.head?.map (·.keys.sessionId)

/-- The key a side seals with in an epoch. -/
def sealingKey (past : List Round) : Nat → CipherKey
  | 0 => .clear
  | n + 1 => past[n]?.elim .clear (·.keys.cipher.localToRemote)

/-- The key a side opens with in an epoch. -/
def openingKey (past : List Round) : Nat → CipherKey
  | 0 => .clear
  | n + 1 => past[n]?.elim .clear (·.keys.cipher.remoteToLocal)

/-- The pair in use after some rounds. -/
def pairOf (past : List Round) : CipherPair :=
  ⟨sealingKey past past.length, openingKey past past.length, past.length⟩

theorem length_flatMap_said (past : List Round) :
    (past.flatMap Round.said).length = roundLength * past.length := by
  induction past with
  | nil => rfl
  | cons round past ih =>
    rw [List.flatMap_cons, List.length_append, ih, List.length_cons]
    simp only [Round.said, List.length_cons, List.length_nil, roundLength]
    omega

theorem length_flatMap_heard (past : List Round) :
    (past.flatMap Round.heard).length = roundLength * past.length := by
  induction past with
  | nil => rfl
  | cons round past ih =>
    rw [List.flatMap_cons, List.length_append, ih, List.length_cons]
    simp only [Round.heard, List.length_cons, List.length_nil, roundLength]
    omega

theorem Progress.length_said (v : Progress) :
    v.said.length = roundLength * v.past.length + v.own.length := by
  rw [Progress.said, List.length_append, length_flatMap_said]

theorem Progress.length_heard (v : Progress) :
    v.heard.length = roundLength * v.past.length + v.peer.length := by
  rw [Progress.heard, List.length_append, length_flatMap_heard]

/-- The place of the next packet that this side sends. -/
theorem Progress.said_place (v : Progress) (hfew : v.own.length < roundLength) :
    v.said.length % roundLength = v.own.length ∧ v.said.length / roundLength = v.past.length := by
  rw [v.length_said]
  rw [roundLength] at hfew ⊢
  omega

/-- The place of the next packet that it hears. -/
theorem Progress.heard_place (v : Progress) (hfew : v.peer.length < roundLength) :
    v.heard.length % roundLength = v.peer.length ∧
      v.heard.length / roundLength = v.past.length := by
  rw [v.length_heard]
  rw [roundLength] at hfew ⊢
  omega

/-- One more round leaves the keys of the epochs before it. -/
theorem sealingKey_append (past : List Round) (round : Round) {n : Nat} (h : n ≤ past.length) :
    sealingKey (past ++ [round]) n = sealingKey past n := by
  cases n with
  | zero => rfl
  | succ n =>
    have hlt : n < past.length := h
    rw [sealingKey, sealingKey, List.getElem?_append_left hlt]

/-- After one more round its pair is in use, under the next number. -/
theorem pairOf_append (past : List Round) (round : Round) :
    pairOf (past ++ [round]) = { round.keys.cipher with epoch := past.length + 1 } := by
  unfold pairOf
  rw [List.length_append, List.length_singleton]
  simp [sealingKey, openingKey]

/-- One more round leaves the session id, if there was one. -/
theorem id_append {past : List Round} (hne : past ≠ []) (round : Round) (own peer : List Bytes) :
    (Progress.mk (past ++ [round]) own peer).id = past.head?.map (·.keys.sessionId) := by
  unfold Progress.id
  rw [List.head?_append_of_ne_nil _ hne]

/-! ### What a role sends and hears -/

/-- The peer's role. -/
def Role.peer : Role → Role
  | .client => .server
  | .server => .client

/-- What a role with these preferences sends as the packet of an exchange at a place. -/
def Recites (role : Role) (pref : Preferred) : Nat → Bytes → Prop
  | 0, payload => ∃ cookie, payload = writeKex pref cookie
  | 1, payload => payload.head? = some role.peer.dhMessage
  | _, payload => payload = [msg.NEWKEYS]

/-- The packets of exchanges that a role sends, one after the other. -/
def Recited (role : Role) (pref : Preferred) (said : List Bytes) : Prop :=
  ∀ i payload, said[i]? = some payload → Recites role pref (i % roundLength) payload

theorem Recited.nil (role : Role) (pref : Preferred) : Recited role pref [] := by
  intro i payload h
  cases h

theorem Recited.snoc {role : Role} {pref : Preferred} {said : List Bytes}
    (h : Recited role pref said) {payload : Bytes}
    (hlast : Recites role pref (said.length % roundLength) payload) :
    Recited role pref (said ++ [payload]) := by
  intro i payload' hi
  by_cases hlt : i < said.length
  · rw [List.getElem?_append_left hlt] at hi
    exact h i payload' hi
  · rw [List.getElem?_append_right (by omega)] at hi
    obtain ⟨hzero, heq⟩ := List.getElem?_eq_some_iff.mp hi
    have hi' : i = said.length := by
      rw [List.length_singleton] at hzero
      omega
    subst hi'
    simp only [Nat.sub_self, List.getElem_cons_zero] at heq
    rw [← heq]
    exact hlast

/-- What a role chooses from the peer's names does not compress. -/
def Uncompressing (role : Role) (pref peer : Preferred) : Prop :=
  ∀ choice ∈ select role pref.compression (joined peer.compression),
    Compression.fromString choice.2 = .none

instance (role : Role) (pref peer : Preferred) : Decidable (Uncompressing role pref peer) :=
  inferInstanceAs (Decidable (∀ choice ∈ select role pref.compression (joined peer.compression), _))

/-- What a role chooses from the peer's KEXINIT: it ignores no guess, and does not compress. -/
structure Settles (role : Role) (pref : Preferred) (buf : Bytes) (names : Names) : Prop where
  /-- The negotiation. -/
  read : readKex role buf pref = .ok names
  /-- The peer has guessed nothing. -/
  guessed : names.ignoreGuessed = false
  /-- Nothing is compressed. -/
  uncompressed : names.clientCompression = .none ∧ names.serverCompression = .none

/-- What is read in the KEXINIT of such a peer. -/
theorem readKex_settles {role : Role} {pref peer : Preferred} (hchoice : Uncompressing role pref peer)
    {cookie : Vector UInt8 16} {names : Names}
    (hread : readKex role (writeKex peer cookie) pref = .ok names) :
    Settles role pref (writeKex peer cookie) names := by
  have h := hread
  rw [readKex_writeKex] at h
  obtain ⟨_, -, h⟩ := ok_of_bind h
  obtain ⟨_, -, h⟩ := ok_of_bind h
  obtain ⟨_, -, h⟩ := ok_of_bind h
  obtain ⟨⟨first, compression⟩, hcompression, h⟩ := ok_of_bind h
  have hnone : Compression.fromString compression = .none := by
    unfold selectOr at hcompression
    split at hcompression
    · next choice hselect =>
      cases hcompression
      exact hchoice _ hselect
    · cases hcompression
  cases h
  exact ⟨hread, rfl, hnone, hnone⟩

end Thrussh
