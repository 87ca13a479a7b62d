import Thrussh.Keeps
import Thrussh.Roles
import Thrussh.Shutdown
import Thrussh.Stream

/-!
# What is written

Behind the identification line a loop writes packets, each made by
`CipherPair::write` under the key of its epoch and numbered one after the
other. `write_buffer` is written to elsewhere too: a disconnect in the clear
puts a frame without padding there, and no `cipher::read` finds the message
in it. Only the client's handler can ask for one, when it is given the
session before the first turn.
-/

namespace Thrussh

open Lib

section
variable [Deps]

omit [Deps] in
/-- The packets of a history, each sealed under the key of its epoch. -/
def sentUnder (keys : Nat → CipherKey) (history : List PacketRecord) : List SentPacket :=
  history.map fun r => ⟨keys r.epoch, r.payload⟩

omit [Deps] in
/-- Sequence numbers that are consecutive from 0 on, and wrap. -/
def Numbered (history : List PacketRecord) : Prop :=
  history.map PacketRecord.seqn = (List.range history.length).map UInt32.ofNat

/-- Bytes are the packets of a history, in order. -/
structure Wired (bytes : Bytes) (history : List PacketRecord) : Prop where
  /-- Every packet is sealed under the key of its epoch, at first in the clear. -/
  bytes_eq : ∃ keys : Nat → CipherKey, keys 0 = .clear ∧
    bytes = wires 0 (sentUnder keys history)
  /-- The packets are numbered one after the other. -/
  numbered : Numbered history

/-- What has been written, the bytes still in a buffer included, are the
packets of its history, and the next one is sealed under the pair in use. -/
structure Laid (pair : CipherPair) (bytes : Bytes) (b : SSHBuffer) : Prop where
  /-- The pair in use has the key of its epoch. -/
  bytes_eq : ∃ keys : Nat → CipherKey, keys 0 = .clear ∧ keys pair.epoch = pair.localToRemote ∧
    bytes = wires 0 (sentUnder keys b.history)
  /-- No packet is sealed under keys that come later. -/
  known : ∀ r ∈ b.history, r.epoch ≤ pair.epoch
  /-- The packets are numbered one after the other. -/
  numbered : Numbered b.history
  /-- The number of the next one. -/
  next : b.seqn = UInt32.ofNat b.history.length

theorem Laid.wired {pair : CipherPair} {bytes : Bytes} {b : SSHBuffer} (h : Laid pair bytes b) :
    Wired bytes b.history := by
  obtain ⟨keys, hclear, -, hbytes⟩ := h.bytes_eq
  exact ⟨⟨keys, hclear, hbytes⟩, h.numbered⟩

omit [Deps] in
/-- Keys of other epochs change nothing. -/
theorem sentUnder_update {keys : Nat → CipherKey} {epoch : Nat} {history : List PacketRecord}
    (h : ∀ r ∈ history, r.epoch < epoch) (key : CipherKey) :
    sentUnder (Function.update keys epoch key) history = sentUnder keys history := by
  refine List.map_congr_left fun r hr => ?_
  have hne : r.epoch ≠ epoch := Nat.ne_of_lt (h r hr)
  rw [Function.update_of_ne hne]

omit [Deps] in
/-- One more packet takes the next number. -/
theorem Numbered.snoc {history : List PacketRecord} (h : Numbered history) {r : PacketRecord}
    (hr : r.seqn = UInt32.ofNat history.length) : Numbered (history ++ [r]) := by
  unfold Numbered at h ⊢
  rw [List.map_append, h, List.length_append, List.length_singleton, List.range_succ,
    List.map_append, List.map_singleton, List.map_singleton, hr]

variable {pair : CipherPair} {bytes : Bytes} {b : SSHBuffer}

/-- Nothing has been laid into a new buffer. -/
theorem laid_new : Laid clearPair ([] ++ SSHBuffer.new.buffer) SSHBuffer.new := by
  constructor
  · exact ⟨fun _ => .clear, rfl, rfl, rfl⟩
  · intro r hr
    cases hr
  · rfl
  · rfl

/-- A write lays one more packet. -/
theorem Laid.sealed {before : Bytes} (h : Laid pair (before ++ b.buffer) b) (origin : Origin)
    (payload : Bytes) :
    Laid pair (before ++ (b.sealed pair origin payload).buffer) (b.sealed pair origin payload) := by
  obtain ⟨keys, hclear, hkey, hbytes⟩ := h.bytes_eq
  have hhistory : (b.sealed pair origin payload).history =
      b.history ++ [⟨pair.epoch, b.seqn, payload, origin⟩] := rfl
  have hlast : wires b.seqn (sentUnder keys [⟨pair.epoch, b.seqn, payload, origin⟩]) =
      pair.localToRemote.wire b.seqn payload := by
    simp only [sentUnder, List.map_cons, List.map_nil, wires, List.append_nil, hkey]
  have hlength : (sentUnder keys b.history).length = b.history.length := List.length_map _
  constructor
  · refine ⟨keys, hclear, hkey, ?_⟩
    rw [hhistory, sentUnder, List.map_append, wires_append, UInt32.zero_add, ← sentUnder,
      ← sentUnder, hlength, ← h.next, hlast, ← hbytes, List.append_assoc]
    rfl
  · intro r hr
    rw [hhistory] at hr
    rcases List.mem_append.mp hr with hold | hlast
    · exact h.known r hold
    · exact Nat.le_of_eq (congrArg PacketRecord.epoch (List.mem_singleton.mp hlast))
  · rw [hhistory]
    exact h.numbered.snoc h.next
  · change b.seqn + 1 = _
    rw [hhistory, List.length_append, List.length_singleton, h.next, UInt32.ofNat_add]
    rfl

theorem Laid.sealAll {before : Bytes} (h : Laid pair (before ++ b.buffer) b) (origin : Origin)
    (payloads : List Bytes) :
    Laid pair (before ++ (b.sealAll pair origin payloads).buffer)
      (b.sealAll pair origin payloads) := by
  induction payloads generalizing b with
  | nil => exact h
  | cons payload payloads ih => exact ih (h.sealed origin payload)

theorem Laid.sealEach {before : Bytes} (h : Laid pair (before ++ b.buffer) b)
    (packets : List (Origin × Bytes)) :
    Laid pair (before ++ (b.sealEach pair packets).buffer) (b.sealEach pair packets) := by
  induction packets generalizing b with
  | nil => exact h
  | cons p packets ih => exact ih (h.sealed p.1 p.2)

/-- A new pair has a key of its own. -/
theorem Laid.renew (h : Laid pair bytes b) {pair' : CipherPair}
    (hepoch : pair'.epoch = pair.epoch + 1) (count : Nat) :
    Laid pair' bytes { b with bytes := count } := by
  obtain ⟨keys, hclear, hkey, hbytes⟩ := h.bytes_eq
  have hlater : ∀ r ∈ b.history, r.epoch < pair'.epoch := by
    intro r hr
    have hknown := h.known r hr
    omega
  have hpos : 0 ≠ pair'.epoch := by omega
  constructor
  · refine ⟨Function.update keys pair'.epoch pair'.localToRemote, ?_, Function.update_self .., ?_⟩
    · rw [Function.update_of_ne hpos]
      exact hclear
    · rw [sentUnder_update hlater]
      exact hbytes
  · intro r hr
    exact Nat.le_of_lt (hlater r hr)
  · exact h.numbered
  · exact h.next

end

/-! ### Steps of a session -/

section
variable [Deps] {C S M : Type}

/-- What has been written before the buffer, and what is in it, are whole packets. -/
def CommonSession.Placed (before : Bytes) (s : CommonSession C) : Prop :=
  Laid s.cipher (before ++ s.writeBuffer.buffer) s.writeBuffer

variable {P : Bytes → Prop} {before : Bytes} {s t : CommonSession C}

/-- A step that leaves the pair and the packets. -/
theorem CommonSession.Placed.of_same (h : s.Placed before) (hcipher : t.cipher = s.cipher)
    (hbuffer : t.writeBuffer.buffer = s.writeBuffer.buffer)
    (hhistory : t.writeBuffer.history = s.writeBuffer.history)
    (hseqn : t.writeBuffer.seqn = s.writeBuffer.seqn) : t.Placed before := by
  obtain ⟨hwires, hknown, hnumbered, hnext⟩ := h
  constructor
  · rw [hcipher, hbuffer, hhistory]
    exact hwires
  · rw [hcipher, hhistory]
    exact hknown
  · rw [hhistory]
    exact hnumbered
  · rw [hseqn, hhistory]
    exact hnext

/-- A quiet step, unless it is a disconnect in the clear. -/
theorem Quiet.placed (h : Quiet P s t)
    (hor : t.disconnected = s.disconnected ∨ s.encrypted.isSome = true) (hs : s.Placed before) :
    t.Placed before := by
  have hbuffer := h.output hor
  refine hs.of_same ?_ hbuffer ?_ ?_
  · rw [h.same]
  · rw [h.same]
  · rw [h.same]

theorem Staged.placed (h : Staged s t) (hs : s.Placed before) : t.Placed before := by
  refine hs.of_same ?_ ?_ ?_ ?_
  · rw [h.same]
  · rw [h.same]
  · rw [h.same]
  · rw [h.same]

theorem PacketsFlushed.placed {enc enc' : Encrypted} (h : PacketsFlushed s t enc enc')
    (hs : s.Placed before) : t.Placed before := by
  obtain ⟨packets, outs, c, -, -, hsealed⟩ := h.packets
  have hcipher : t.cipher = s.cipher := by rw [h.session]
  unfold CommonSession.Placed
  rw [hsealed, hcipher]
  exact Laid.sealAll hs _ _

theorem Seals.placed {packets : List (Origin × Bytes)} (h : Seals s t packets)
    (hs : s.Placed before) : t.Placed before := by
  have hbuffer : t.writeBuffer = s.writeBuffer.sealEach s.cipher packets := by rw [h.same]
  have hcipher : t.cipher = s.cipher := by rw [h.same]
  unfold CommonSession.Placed
  rw [hbuffer, hcipher]
  exact Laid.sealEach hs packets

theorem Installs.placed {count : Nat} {packets : List (Origin × Bytes)}
    (h : Installs s t count packets) (hs : s.Placed before) : t.Placed before := by
  have hbuffer : t.writeBuffer =
      SSHBuffer.sealEach { s.writeBuffer with bytes := count } t.cipher packets := by rw [h.same]
  have hnew : Laid t.cipher (before ++ s.writeBuffer.buffer)
      { s.writeBuffer with bytes := count } := Laid.renew hs h.epoch count
  unfold CommonSession.Placed
  rw [hbuffer]
  exact Laid.sealEach (b := { s.writeBuffer with bytes := count }) hnew packets

theorem Advance.placed {buf : Bytes} (h : Advance buf s t) (hs : s.Placed before) :
    t.Placed before := by
  cases h with
  | skip ht =>
    rw [ht]
    exact hs
  | answer _ _ hseals _ => exact hseals.placed hs
  | serve _ _ hseals => exact hseals.placed hs
  | guess _ _ hseals => exact hseals.placed hs
  | finish _ _ hseals _ => exact hseals.placed hs
  | install _ _ hinstalls => exact hinstalls.placed hs
  | drop _ _ _ _ hseals => exact hseals.placed hs

variable [SessionConfig C]

theorem FlushStep.placed (h : FlushStep s t) (hs : s.Placed before) : t.Placed before := by
  cases h with
  | none h => exact hs
  | packets h => exact h.placed hs
  | @rekey u enc enc' ex h hwrite hcursor hrekey hex =>
    have hu : u.Placed before := h.placed hs
    exact Laid.sealed hu _ _

theorem Turn.placed (h : Turn P s t) (hsome : s.encrypted.isSome = true) (hs : s.Placed before) :
    t.Placed before := by
  cases h with
  | busy h =>
    cases h with
    | quiet h => exact h.placed (.inr hsome) hs
    | flush h => exact h.placed hs
  | staged h => exact h.placed hs

omit [SessionConfig C] in
theorem Local.placed (h : Local P s t) (hsome : s.encrypted.isSome = true) (hs : s.Placed before) :
    t.Placed before := by
  cases h with
  | quiet h => exact h.placed (.inr hsome) hs
  | staged h => exact h.placed hs
  | service hpayload h =>
    subst h
    exact Laid.sealed hs _ _

/-- Outside the exchange an encrypted session places whole packets. -/
theorem placed_of_turns (h : Relation.ReflTransGen (Turn P) s t)
    (hsome : s.encrypted.isSome = true) (hs : s.Placed before) : t.Placed before := by
  have hall : t.encrypted.isSome = true ∧ t.Placed before := by
    induction h with
    | refl => exact ⟨hsome, hs⟩
    | tail _ hstep ih =>
      obtain ⟨hsome, hplaced⟩ := ih
      exact ⟨hstep.isSome_eq.trans hsome, hstep.placed hsome hplaced⟩
  exact hall.2

omit [SessionConfig C] in
/-- So it does with local messages. -/
theorem placed_of_locals (h : Relation.ReflTransGen (Local P) s t)
    (hsome : s.encrypted.isSome = true) (hs : s.Placed before) : t.Placed before := by
  have hall : t.encrypted.isSome = true ∧ t.Placed before := by
    induction h with
    | refl => exact ⟨hsome, hs⟩
    | tail _ hstep ih =>
      obtain ⟨hsome, hplaced⟩ := ih
      exact ⟨hstep.isSome_eq.trans hsome, hstep.placed hsome hplaced⟩
  exact hall.2

end

/-! ### Runs of a loop -/

section
variable [Deps] {C S M : Type} [SessionConfig C] {P : Bytes → Prop} {before line : Bytes}
  {d : Driver C S M}

/-- A flush places whole packets, also when it fails. -/
theorem Driver.Behaves.flush_placed (hd : d.Behaves P) {s : S}
    (hs : (d.common s).Placed before) :
    (d.common (final (zoom d.common d.setCommon flush s))).Placed before := by
  have hstep := (flush_final (d.common s)).placed hs
  unfold zoom
  cases hflush : flush (d.common s) with
  | ok u c =>
    rw [hflush] at hstep
    dsimp only [final]
    rw [hd.common_set]
    exact hstep
  | error e c =>
    rw [hflush] at hstep
    dsimp only [final]
    rw [hd.common_set]
    exact hstep

/-- `reply` places whole packets, also when it fails. -/
theorem Driver.Behaves.reply_placed (hd : d.Behaves P) {s : S} (buf : Bytes)
    (hsound : (d.common s).Sound) (hs : (d.common s).Placed before) :
    (d.common (final (d.reply buf s))).Placed before := by
  by_cases hin : (d.common s).InExchange buf
  · rcases hd.exchange s buf hsound hin with ⟨t, hadvance, -, hreply | hreply⟩ |
      ⟨e, t, packets, hreply, hseals⟩
    · rw [hreply]
      exact hadvance.placed hs
    · have ht : (d.common t).Placed before := hadvance.placed hs
      rw [hreply]
      exact hd.flush_placed ht
    · rw [hreply]
      exact hseals.placed hs
  · have hsome : (d.common s).encrypted.isSome = true :=
      Option.isSome_iff_ne_none.mpr fun hnone => hin (.inl hnone)
    exact placed_of_turns (hd.serve s buf hsound hin) hsome hs

namespace Loop

/-- What a loop has written behind its line, and what waits in the buffer,
are whole packets. -/
def Pours (d : Driver C S M) (line : Bytes) (l : Loop S) : Prop :=
  ∃ before, l.output = line ++ before ∧ (d.common l.session).Placed before

variable {l : Loop S}

/-- The end of a turn writes what waits in the buffer. -/
theorem endTurn_pours (hd : d.Behaves P) (h : Pours d line l) : Pours d line (endTurn d l) := by
  obtain ⟨before, houtput, hplaced⟩ := h
  have hflushed := hd.flush_placed hplaced
  unfold endTurn
  cases hflush : zoom d.common d.setCommon flush l.session with
  | error e s =>
    rw [hflush] at hflushed
    exact ⟨before, houtput, hflushed⟩
  | ok u s =>
    rw [hflush] at hflushed
    dsimp only [final] at hflushed
    have hcleared : (d.common (clearWrite d s)).Placed
        (before ++ (d.common s).writeBuffer.buffer) := by
      unfold clearWrite
      rw [hd.common_set]
      unfold CommonSession.Placed at hflushed ⊢
      simp only [SSHBuffer.clear, List.append_nil]
      exact ⟨hflushed.bytes_eq, hflushed.known, hflushed.numbered, hflushed.next⟩
    have hsettled := (hd.settle (clearWrite d s)).placed hcleared
    have houtput' : l.output ++ (d.common s).writeBuffer.buffer =
        line ++ (before ++ (d.common s).writeBuffer.buffer) := by
      rw [houtput, List.append_assoc]
    dsimp only
    split
    · exact ⟨_, houtput', hsettled⟩
    · exact ⟨_, houtput', hsettled⟩

theorem serve_pours (hd : d.Behaves P) (h : Pours d line l) (hsound : (d.common l.session).Sound)
    (buf : Bytes) : Pours d line (serve d l buf) := by
  unfold serve
  cases buf with
  | nil => exact h
  | cons m rest =>
    dsimp only
    by_cases hdisconnect : m = msg.DISCONNECT
    · rw [if_pos hdisconnect]
      exact h
    rw [if_neg hdisconnect]
    by_cases hsmall : m ≤ 4
    · rw [if_pos hsmall]
      exact h
    rw [if_neg hsmall]
    obtain ⟨before, houtput, hplaced⟩ := h
    have hreply := hd.reply_placed (m :: rest) hsound hplaced
    cases hresult : d.reply (m :: rest) l.session with
    | ok u s =>
      rw [hresult] at hreply
      exact endTurn_pours hd ⟨before, houtput, hreply⟩
    | error e s =>
      rw [hresult] at hreply
      exact ⟨before, houtput, hreply⟩

theorem handle_pours (hd : d.Behaves P) (h : Pours d line l) (hsound : (d.common l.session).Sound)
    (fresh : Bool) : Pours d line (handle d l fresh) := by
  unfold handle
  by_cases hshort : l.buffer.buffer.length < 5
  · rw [if_pos hshort]
    exact h
  rw [if_neg hshort]
  cases henc : (d.common l.session).encrypted with
  | none =>
    dsimp only
    split
    · exact serve_pours (l := l.pass (l.buffer.buffer.drop 5) fresh) hd h hsound _
    · exact serve_pours hd h hsound _
  | some enc =>
    dsimp only
    cases hdecompress : enc.decompress.decompress (l.buffer.buffer.drop 5) with
    | error e =>
      cases e with
      | error e => exact h
      | panic => exact h
      | overflow => exact h
      | diverge => exact h
    | ok res =>
      obtain ⟨buf, decompress⟩ := res
      obtain ⟨before, houtput, hplaced⟩ := h
      dsimp only
      have hsound' := hd.keeps_sound.inflate _ enc decompress henc hsound
      refine serve_pours (l := { l.pass (l.buffer.buffer.drop 5) fresh with
        session := d.setCommon { d.common l.session with
          encrypted := some { enc with decompress := decompress } } l.session })
        hd ⟨before, houtput, ?_⟩ hsound' buf
      dsimp only
      rw [hd.common_set]
      exact hplaced.of_same rfl rfl rfl rfl

/-- One event keeps what a loop has written whole packets. -/
theorem iterate_pours (hd : d.Behaves P) (h : Pours d line l)
    (hsound : l.stage = .running → (d.common l.session).Sound) (e : Event M) :
    Pours d line (iterate d l e) := by
  cases e with
  | arrive bytes =>
    unfold iterate
    dsimp only
    split
    · exact h
    · exact h
  | close => exact h
  | timeout =>
    unfold iterate
    dsimp only
    split
    · exact h
    · exact h
  | message m taken =>
    unfold iterate
    dsimp only
    by_cases hstage : l.stage = .running
    · rw [if_pos hstage]
      unfold turnMessage
      by_cases hcannot : (l.isRekeying d || !l.canHaveTaken d taken) = true
      · rw [if_pos hcannot]
        exact h
      rw [if_neg hcannot]
      have hidle : l.isRekeying d = false := by
        simp only [Bool.not_eq_true, Bool.or_eq_false_iff] at hcannot
        exact hcannot.1
      obtain ⟨enc, henc, -⟩ := idle_of_not_rekeying hidle
      obtain ⟨before, houtput, hplaced⟩ := h
      have hsome : (d.common l.session).encrypted.isSome = true := by rw [henc, Option.isSome_some]
      have hmessage := placed_of_locals (hd.message l.session m) hsome hplaced
      dsimp only
      cases hresult : d.message m l.session with
      | error e s =>
        rw [hresult] at hmessage
        exact ⟨before, houtput, hmessage⟩
      | ok b s =>
        rw [hresult] at hmessage
        cases b with
        | true => exact ⟨before, houtput, hmessage⟩
        | false => exact endTurn_pours hd ⟨before, houtput, hmessage⟩
    · rw [if_neg hstage]
      exact h
  | read =>
    cases hstage : l.stage with
    | running =>
      have hready := hsound hstage
      simp only [iterate, hstage, turnRead]
      cases l.nextRead d with
      | pending => exact h
      | panic => exact h
      | ok n buffer rest =>
        exact handle_pours (l := { l with
          buffer := buffer, stream := rest, stage := .running }) hd h hready true
      | err e buffer rest =>
        dsimp only
        split
        · exact h
        · exact handle_pours (l := { l with
            buffer := buffer, stream := rest, stage := .running }) hd h hready false
    | draining =>
      simp only [iterate, hstage, drain]
      split
      · exact h
      · exact h
      · split
        · exact h
        · exact h
      · exact h
    | finished result =>
      simp only [iterate, hstage]
      exact h

/-- Every run keeps what a loop has written whole packets. -/
theorem run_pours (hd : d.Behaves P) (h : Pours d line l)
    (hkept : Kept (fun s => (d.common s).Sound) (fun _ => True) l) (events : List (Event M)) :
    Pours d line (run d l events) := by
  induction events generalizing l with
  | nil => exact h
  | cons e events ih =>
    have hnext := iterate_pours hd h hkept.running e
    exact ih hnext (iterate_kept hd.keeps_sound hkept e)

/-- The loop before its first turn has written its line and whole packets. -/
theorem start_pours (hd : d.Behaves P) {s : S} (hs : (d.common s).Placed []) :
    Pours d line (start d s line) := by
  have hflushed := hd.flush_placed hs
  unfold start
  dsimp only
  cases hflush : zoom d.common d.setCommon flush s with
  | error e t =>
    rw [hflush] at hflushed
    exact ⟨[], (List.append_nil line).symm, hflushed⟩
  | ok u t =>
    rw [hflush] at hflushed
    dsimp only [final] at hflushed
    have hcleared : (d.common (clearWrite d t)).Placed (d.common t).writeBuffer.buffer := by
      unfold clearWrite
      rw [hd.common_set]
      unfold CommonSession.Placed at hflushed ⊢
      simp only [SSHBuffer.clear, List.append_nil]
      exact ⟨hflushed.bytes_eq, hflushed.known, hflushed.numbered, hflushed.next⟩
    dsimp only
    split
    · exact ⟨_, rfl, hcleared⟩
    · exact ⟨_, rfl, hcleared⟩

/-- An event changes neither the session nor the output of a loop that is left. -/
theorem iterate_stands (h : l.stage ≠ .running) (e : Event M) :
    (iterate d l e).session = l.session ∧ (iterate d l e).output = l.output ∧
      (iterate d l e).stage ≠ .running := by
  unfold iterate
  cases e with
  | arrive bytes =>
    dsimp only
    split
    · exact ⟨rfl, rfl, h⟩
    · exact ⟨rfl, rfl, h⟩
  | close => exact ⟨rfl, rfl, h⟩
  | message m taken =>
    dsimp only
    rw [if_neg h]
    exact ⟨rfl, rfl, h⟩
  | timeout =>
    have hnot : ¬ (l.stage = .running ∧ d.timeout (d.common l.session).config = true) :=
      fun hand => h hand.1
    dsimp only
    rw [if_neg hnot]
    exact ⟨rfl, rfl, h⟩
  | read =>
    cases hstage : l.stage with
    | running => exact absurd hstage h
    | finished result =>
      dsimp only
      rw [hstage]
      exact ⟨rfl, rfl, fun hrunning => by cases hrunning⟩
    | draining =>
      dsimp only
      unfold drain
      split
      · exact ⟨rfl, rfl, h⟩
      · exact ⟨rfl, rfl, fun hrunning => by cases hrunning⟩
      · split
        · exact ⟨rfl, rfl, fun hrunning => by cases hrunning⟩
        · exact ⟨rfl, rfl, h⟩
      · exact ⟨rfl, rfl, fun hrunning => by cases hrunning⟩

/-- No run changes the session or the output of a loop that is left. -/
theorem run_stands (h : l.stage ≠ .running) (events : List (Event M)) :
    (run d l events).session = l.session ∧ (run d l events).output = l.output := by
  induction events generalizing l with
  | nil => exact ⟨rfl, rfl⟩
  | cons e events ih =>
    obtain ⟨hsession, houtput, hstage⟩ := iterate_stands (d := d) h e
    obtain ⟨hsession', houtput'⟩ := ih hstage
    exact ⟨hsession'.trans hsession, houtput'.trans houtput⟩

/-- Behind its line a loop has put packets into its buffer, and nothing else. -/
def Written (d : Driver C S M) (line : Bytes) (l : Loop S) : Prop :=
  ∃ bytes, l.output ++ (d.common l.session).writeBuffer.buffer = line ++ bytes ∧
    Wired bytes (d.common l.session).writeBuffer.history

/-- `cipher::read` of the peer finds a message in the clear among the bytes of a loop. -/
def Finds (d : Driver C S M) (l : Loop S) (message : Bytes) : Prop :=
  ∃ before after n b b' rest,
    l.output ++ (d.common l.session).writeBuffer.buffer = before ++ after ∧
    Thrussh.read clearPair b after false = .ok n b' rest ∧ b'.buffer.drop 5 = message

omit [SessionConfig C] in
theorem Pours.written (h : Pours d line l) : Written d line l := by
  obtain ⟨before, houtput, hplaced⟩ := h
  refine ⟨before ++ (d.common l.session).writeBuffer.buffer, ?_, hplaced.wired⟩
  rw [houtput, List.append_assoc]

end Loop

end

/-! ### What is done before the first turn -/

namespace Client

variable [Deps]

/-- A step that leaves the common part of a session which is not encrypted
and, if it may disconnect, has disconnected before. -/
def Calm (off : Prop) (s t : Session) : Prop :=
  s.common.encrypted = none → (off → s.common.disconnected = true) → t.common = s.common

variable {off : Prop}

theorem calm_of_moves {α : Type} {x : M α} {p : Prop} (h : Moves (Calm p) x) {s : Session}
    (hnone : s.common.encrypted = none) (hoff : p → s.common.disconnected = true) :
    (final (x s)).common = s.common := by
  refine h.invariant (p := fun t => t.common = s.common) (fun t u hstep ht => ?_) rfl
  have hu : u.common = t.common := hstep (by rw [ht]; exact hnone) (by rw [ht]; exact hoff)
  exact hu.trans ht

/-- A program on the common part that does nothing to it. -/
theorem onCommon_calm {α : Type} {x : CommonM Config α}
    (h : ∀ c : CommonSession Config, c.encrypted = none → (off → c.disconnected = true) →
      final (x c) = c) : Moves (Calm off) (onCommon x) := by
  intro s
  refine .single fun hnone hoff => ?_
  have hfinal := h s.common hnone hoff
  unfold onCommon zoom
  cases hx : x s.common with
  | ok a c =>
    rw [hx] at hfinal
    exact hfinal
  | error e c =>
    rw [hx] at hfinal
    exact hfinal

theorem withEnc_calm {α : Type} (f : Encrypted → Except Fault (α × Encrypted)) :
    Moves (Calm off) (onCommon (Thrussh.withEnc f)) := by
  refine onCommon_calm fun c hnone _ => ?_
  unfold Thrussh.withEnc
  simp only [run_bind, run_get, hnone]
  rfl

theorem modifyEnc_calm (f : Encrypted → Encrypted) : Moves (Calm off) (modifyEnc f) := by
  refine Moves.modify fun s => .single fun hnone _ => ?_
  dsimp only
  simp only [CommonSession.modifyEnc, hnone, Option.map_none]
  rw [← hnone]

theorem modify_calm {f : Session → Session} (h : ∀ s, (f s).common = s.common) :
    Moves (Calm off) (modify f : M Unit) :=
  Moves.modify fun s => .single fun _ _ => h s

theorem sendTo_calm (channel : UInt32) (m : OpenChannelMsg) :
    Moves (Calm off) (sendTo channel m) :=
  modify_calm fun s => by
    split
    · rfl
    · rfl

theorem openChannel_calm (typ rest : Bytes) : Moves (Calm off) (openChannel typ rest) := by
  refine Moves.get.bind fun s => ?_
  dsimp only
  split
  · exact withEnc_calm _
  · exact .pure _

theorem assertEncrypted_bind_calm {x : M Unit} (h : Moves (Calm off) x) :
    Moves (Calm off) (assertEncrypted >>= fun _ => x) :=
  assertEncrypted_moves.bind fun _ => h

theorem updateEnc_calm (f : Encrypted → Except Fault Encrypted) :
    Moves (Calm off) (onCommon (updateEnc f)) := by
  refine onCommon_calm fun c hnone _ => ?_
  rw [final_updateEnc, hnone]

theorem flushAdjusted_calm (channel newSize : UInt32) :
    Moves (Calm off) (flushAdjusted channel newSize) := by
  refine Moves.get.bind fun s => ?_
  split
  · refine (withEnc_calm _).bind fun size => ?_
    split
    · exact sendTo_calm channel _
    · exact .throw _
  · exact sendTo_calm channel _

theorem createForwardedTcpipChannel_calm (remoteChannel : UInt32) (sender : Nat)
    (windowSize maxPacketSize : UInt32) : Moves (Calm off)
      (createForwardedTcpipChannel remoteChannel sender windowSize maxPacketSize) := by
  refine Moves.get.bind fun s => ?_
  refine .bind (withEnc_calm _) fun id => ?_
  refine .bind (modify_calm fun _ => rfl) fun _ => ?_
  refine .bind (modifyEnc_calm _) fun _ => ?_
  exact Moves.get.bind fun _ => modifyEnc_calm _

/-- A session that has disconnected does not disconnect again. -/
theorem disconnect_calm (hoff : off) (reason : Disconnect) (description languageTag : Bytes) :
    Moves (Calm off) (disconnect reason description languageTag) := by
  refine onCommon_calm fun c _ hdisconnected => ?_
  rw [run_modify, final_ok]
  unfold CommonSession.disconnect
  exact if_pos (hdisconnected hoff)

/-- Whether a call is a disconnect. -/
def Call.leaves : Call → Bool
  | .disconnect _ _ _ => true
  | _ => false

/-- Whatever a handler does with a session that is not encrypted, only the
first disconnect changes its common part. -/
theorem runCall_calm {call : Call} (h : call.leaves = true → off) :
    Moves (Calm off) (runCall call) := by
  cases call with
  | channelOpenSession => exact (openChannel_calm _ _).bind fun _ => .pure _
  | channelOpenX11 originatorAddress originatorPort =>
    exact (openChannel_calm _ _).bind fun _ => .pure _
  | channelOpenDirectTcpip hostToConnect portToConnect originatorAddress originatorPort =>
    exact (openChannel_calm _ _).bind fun _ => .pure _
  | requestPty channel wantReply term colWidth rowHeight pixWidth pixHeight terminalModes =>
    exact modifyEnc_calm _
  | requestX11 channel wantReply singleConnection protocol cookie x11ScreenNumber =>
    exact modifyEnc_calm _
  | setEnv channel wantReply variableName variableValue => exact modifyEnc_calm _
  | requestShell wantReply channel => exact modifyEnc_calm _
  | exec channel wantReply command => exact modifyEnc_calm _
  | signal channel sig => exact modifyEnc_calm _
  | requestSubsystem wantReply channel name => exact modifyEnc_calm _
  | windowChange channel colWidth rowHeight pixWidth pixHeight => exact modifyEnc_calm _
  | tcpipForward wantReply address port => exact modifyEnc_calm _
  | cancelTcpipForward wantReply address port => exact modifyEnc_calm _
  | data channel d => exact assertEncrypted_bind_calm (updateEnc_calm _)
  | eof channel => exact assertEncrypted_bind_calm (modifyEnc_calm _)
  | extendedData channel ext d => exact assertEncrypted_bind_calm (updateEnc_calm _)
  | disconnect reason description languageTag =>
    exact disconnect_calm (h rfl) reason description languageTag
  | confirmChannelOpen remoteChannelNo localChannelNo =>
    exact Moves.get.bind fun _ => modifyEnc_calm _
  | sendTo channel m => exact sendTo_calm channel m
  | forget channel => exact modify_calm fun _ => rfl
  | sendReply reply => exact modify_calm fun _ => rfl
  | flushAdjusted channel newSize => exact flushAdjusted_calm channel newSize
  | createForwardedTcpipChannel remoteChannel sender windowSize maxPacketSize =>
    exact createForwardedTcpipChannel_calm remoteChannel sender windowSize maxPacketSize

/-- A disconnect in the clear writes a frame, and nothing that is sealed. -/
structure Frames (s t : CommonSession Config) : Prop where
  /-- The session has disconnected. -/
  disconnected : t.disconnected = true
  /-- It is not encrypted. -/
  encrypted : t.encrypted = none
  /-- There are more bytes in the buffer. -/
  longer : s.writeBuffer.buffer.length < t.writeBuffer.buffer.length
  /-- Nothing is sealed. -/
  history : t.writeBuffer.history = s.writeBuffer.history

/-- Calls of a handler on a session that is not encrypted, with a disconnect among them. -/
theorem runCalls_frames {calls : List Call} (hcalls : calls.any Call.leaves = true)
    {s t : Session} (hnone : s.common.encrypted = none) (hopen : s.common.disconnected = false)
    (h : calls.forM runCall s = .ok () t) : Frames s.common t.common := by
  induction calls generalizing s with
  | nil => cases hcalls
  | cons call calls ih =>
    change (runCall call >>= fun _ => calls.forM runCall) s = .ok () t at h
    rw [run_bind] at h
    cases hcall : runCall call s with
    | error e u =>
      rw [hcall] at h
      cases h
    | ok x u =>
      rw [hcall] at h
      dsimp only at h
      cases hleaves : call.leaves with
      | false =>
        have hcalm : (final (runCall call s)).common = s.common :=
          calm_of_moves (p := False) (runCall_calm fun htrue => by
            rw [hleaves] at htrue
            cases htrue) hnone False.elim
        rw [hcall, final_ok] at hcalm
        rw [List.any_cons, hleaves, Bool.false_or] at hcalls
        have hrest := ih hcalls (by rw [hcalm]; exact hnone) (by rw [hcalm]; exact hopen) h
        rw [hcalm] at hrest
        exact hrest
      | true =>
        cases call with
        | disconnect reason description languageTag =>
          have hu : u.common = s.common.disconnect reason description languageTag := by
            cases hcall
            rfl
          have hfirst : Frames s.common u.common := by
            rw [hu]
            unfold CommonSession.disconnect
            simp only [hopen, Bool.false_eq_true, if_false, hnone]
            refine ⟨rfl, rfl, ?_, rfl⟩
            simp only [pushPacket, List.length_append, length_be32]
            omega
          have hrest : (final (calls.forM runCall u)).common = u.common :=
            calm_of_moves (p := True) (Moves.forM (fun call => runCall_calm fun _ => trivial)
              calls) hfirst.encrypted fun _ => hfirst.disconnected
          rw [h, final_ok] at hrest
          rw [hrest]
          exact hfirst
        | _ => cases hleaves

/-- What a handler does with the session it is given before the first turn. -/
def Application.greeting (app : Application) (s : Session) : List Call :=
  (app.handler s.common.tick .onSessionConnected s).calls

/-- The bytes a client has put into its buffer are packets, and the peer finds
each DISCONNECT that was asked for before the first turn. -/
structure WellWritten (config : Config) (app : Application) (s : Session) (l : Loop Session) :
    Prop where
  /-- Whole packets. -/
  written : l.Written (driver app) (config.clientId ++ [13, 10])
  /-- The DISCONNECT in the clear. -/
  found : ∀ reason description languageTag,
    .disconnect reason description languageTag ∈ app.greeting s →
      l.Finds (driver app)
        (msg.DISCONNECT :: be32 reason.code ++ sshString description ++ sshString languageTag)

/-- The session of the client before its handler has seen it has laid its KEXINIT. -/
theorem readSshId_placed {config : Config} {sshid : Bytes} {world : World} {s : Session}
    (h : readSshId config sshid world = .ok s) :
    s.common.Placed [] ∧ s.common.disconnected = false ∧ ∃ payload,
      s.common.writeBuffer = SSHBuffer.new.sealed clearPair .kexinit payload := by
  simp only [readSshId, ownWrite_ok] at h
  cases h
  exact ⟨laid_new.sealed _ _, rfl, _, rfl⟩

/-- Every loop of the client begins with the session of `read_ssh_id`, once the
calls of its handler have been made. -/
theorem connectStream_calls {config : Config} {app : Application} {sshid : Bytes} {world : World}
    {s : Session} {l : Loop Session} (hs : readSshId config sshid world = .ok s)
    (h : connectStream config app sshid world = .ok l) :
    ∃ u t, (app.greeting s).forM runCall u = .ok () t ∧
      u.common = { s.common with tick := s.common.tick + 1 } ∧
      l = Loop.start (driver app) t (config.clientId ++ [13, 10]) := by
  unfold connectStream at h
  rw [hs] at h
  simp only [bind, Except.bind] at h
  cases hfinish : finish app .onSessionConnected s with
  | error e t =>
    rw [hfinish] at h
    cases h
  | ok x t =>
    rw [hfinish] at h
    cases h
    unfold finish at hfinish
    rw [run_bind] at hfinish
    unfold ask at hfinish
    dsimp only at hfinish
    rw [run_bind] at hfinish
    split at hfinish
    · rename_i y u hcalls
      split at hfinish
      · cases hfinish
      · cases hfinish
        exact ⟨_, _, hcalls, rfl, rfl⟩
    · cases hfinish

/-- A loop that has disconnected in the clear has written more than packets. -/
theorem not_written_of_frames {config : Config} {app : Application} {sshid : Bytes} {world : World}
    {s u t : Session} (hs : readSshId config sshid world = .ok s)
    (hu : u.common = { s.common with tick := s.common.tick + 1 }) (ht : Frames u.common t.common)
    (line : Bytes) (events : List (Event Msg)) :
    ¬ ((Loop.start (driver app) t line).run (driver app) events).Written (driver app) line := by
  obtain ⟨-, -, payload, hbuffer⟩ := readSshId_placed hs
  have hflush : flush t.common = .ok () t.common := by
    simp only [flush, run_bind, flushPackets_none ht.encrypted]
    rfl
  have hstart : Loop.start (driver app) t line =
      { session := Loop.clearWrite (driver app) t, buffer := .new, stream := [], eof := false
        output := line ++ t.common.writeBuffer.buffer, stage := .draining, passed := [] } := by
    have hzoom : zoom (driver app).common (driver app).setCommon flush t = .ok () t := by
      have hcommon : (driver app).common t = t.common := rfl
      unfold zoom
      rw [hcommon, hflush]
      rfl
    unfold Loop.start
    dsimp only
    rw [hzoom]
    have hleft : ((driver app).common (Loop.clearWrite (driver app) t)).disconnected = true :=
      ht.disconnected
    have hdrains : (driver app).drains (Loop.clearWrite (driver app) t) = true := ht.disconnected
    dsimp only
    rw [if_pos hleft]
    unfold Loop.leave
    dsimp only
    rw [if_pos hdrains]
    rfl
  have hstopped : (Loop.start (driver app) t line).stage ≠ .running := by
    rw [hstart]
    exact fun hrunning => by cases hrunning
  obtain ⟨hsession, houtput⟩ := Loop.run_stands (d := driver app) hstopped events
  rintro ⟨bytes, hbytes, hwired⟩
  rw [hsession, houtput, hstart] at hbytes
  rw [hsession, hstart] at hwired
  have hhistory : t.common.writeBuffer.history = [⟨0, 0, payload, .kexinit⟩] := by
    rw [ht.history, hu]
    dsimp only
    rw [hbuffer]
    rfl
  have hbytes' : bytes = t.common.writeBuffer.buffer := by
    have hcleared : ((driver app).common
        (Loop.clearWrite (driver app) t)).writeBuffer.buffer = [] := rfl
    dsimp only at hbytes
    rw [hcleared, List.append_nil] at hbytes
    exact (List.append_cancel_left hbytes).symm
  have hcleared : ((driver app).common (Loop.clearWrite (driver app) t)).writeBuffer.history =
      t.common.writeBuffer.history := rfl
  obtain ⟨keys, hclear, hwires⟩ := hwired.bytes_eq
  dsimp only at hwires
  rw [hcleared, hhistory] at hwires
  have hfirst : s.common.writeBuffer.buffer = bytes := by
    rw [hwires, hbuffer]
    simp only [sentUnder, List.map_cons, List.map_nil, wires, List.append_nil, hclear]
    rfl
  have hlonger := ht.longer
  rw [hu] at hlonger
  dsimp only at hlonger
  rw [hfirst, hbytes'] at hlonger
  exact Nat.lt_irrefl _ hlonger

/-- Nor has a client whose handler disconnects before the first turn. -/
theorem not_written_of_leaves {config : Config} {app : Application} {sshid : Bytes} {world : World}
    {s : Session} {l : Loop Session} (hs : readSshId config sshid world = .ok s)
    (hl : connectStream config app sshid world = .ok l)
    (hleaves : (app.greeting s).any Call.leaves = true) (events : List (Event Msg)) :
    ¬ (l.run (driver app) events).Written (driver app) (config.clientId ++ [13, 10]) := by
  obtain ⟨-, hopen, -⟩ := readSshId_placed hs
  have hnone : s.common.encrypted = none := (readSshId_initial hs).encrypted
  obtain ⟨u, t, hcalls, hu, rfl⟩ := connectStream_calls hs hl
  have hnone' : u.common.encrypted = none := by rw [hu]; exact hnone
  have hopen' : u.common.disconnected = false := by rw [hu]; exact hopen
  exact not_written_of_frames hs hu (runCalls_frames hleaves hnone' hopen' hcalls) _ events

end Client

/-- In every run of a server the bytes put into `write_buffer` are packets of
`CipherPair::write`. In a run of a client they are, if and only if its handler
does not disconnect when it is given the session before the first turn. -/
theorem written_iff [Deps] :
    (∀ (config : Server.Config) (handler : Server.Handler) (sshid : Bytes) (world : World)
      (l : Loop Server.Session) (events : List (Event (UInt32 × ChannelMsg))),
      Server.runStream config handler sshid world = .ok l →
      (l.run (Server.driver handler) events).Written (Server.driver handler)
        (config.serverId ++ [13, 10])) ∧
    ∀ (config : Client.Config) (app : Client.Application) (sshid : Bytes) (world : World)
      (s : Client.Session) (l : Loop Client.Session) (events : List (Event Client.Msg)),
      Client.readSshId config sshid world = .ok s →
      Client.connectStream config app sshid world = .ok l →
      (Client.WellWritten config app s (l.run (Client.driver app) events) ↔
        (app.greeting s).any Client.Call.leaves = false) := by
  constructor
  · intro config handler sshid world l events hl
    have hd := Server.driver_behaves (P := fun _ => True) (fun _ _ => trivial) handler
    unfold Server.runStream at hl
    cases hid : Server.readSshId config sshid world with
    | error e =>
      rw [hid] at hl
      cases hl
    | ok s =>
      rw [hid] at hl
      cases hl
      have hsound : s.common.Sound := (Server.readSshId_initial hid).sound
      have hplaced : s.common.Placed [] := by
        simp only [Server.readSshId, ownWrite_ok] at hid
        cases hid
        exact laid_new.sealed _ _
      have hstart := Loop.start_kept hd.keeps_sound hsound (config.serverId ++ [13, 10])
      exact (Loop.run_pours hd (Loop.start_pours hd hplaced) hstart events).written
  · intro config app sshid world s l events hs hl
    have hd := Client.driver_behaves (P := fun _ => True) (fun _ _ => trivial) app
      fun _ _ _ _ => trivial
    constructor
    · intro hwell
      by_contra hleaves
      rw [Bool.not_eq_false] at hleaves
      exact Client.not_written_of_leaves hs hl hleaves events hwell.written
    · intro hstays
      obtain ⟨hplaced, -, -⟩ := Client.readSshId_placed hs
      have hnone : s.common.encrypted = none := (Client.readSshId_initial hs).encrypted
      obtain ⟨u, t, hcalls, hu, rfl⟩ := Client.connectStream_calls hs hl
      have hnone' : u.common.encrypted = none := by rw [hu]; exact hnone
      have hcalm : (final ((app.greeting s).forM Client.runCall u)).common = u.common := by
        refine Client.calm_of_moves (p := False) ?_ hnone' False.elim
        refine Moves.forM_mem fun call hcall => Client.runCall_calm fun htrue => ?_
        have hany := List.any_eq_false.mp hstays call hcall
        exact hany htrue
      rw [hcalls, final_ok, hu] at hcalm
      have hplaced' : t.common.Placed [] := by
        rw [hcalm]
        exact hplaced.of_same rfl rfl rfl rfl
      have hsound : t.common.Sound := by
        rw [hcalm]
        exact (Client.readSshId_initial hs).sound.of_records rfl (by
          rw [hnone]
          exact .none)
      have hstart := Loop.start_kept hd.keeps_sound hsound (config.clientId ++ [13, 10])
      constructor
      · exact (Loop.run_pours hd (Loop.start_pours hd hplaced') hstart events).written
      · intro reason description languageTag hmem
        have hany := List.any_eq_false.mp hstays _ hmem
        exact absurd rfl hany

namespace Concrete

/-- The session of a client before its handler has seen it. -/
def greetedClient : @Client.Session deps :=
  letI := deps
  returned (Client.readSshId clientConfig serverConfig.serverId world) (by decide +kernel)

theorem greetedClient_eq :
    letI := deps
    Client.readSshId clientConfig serverConfig.serverId world = .ok greetedClient :=
  returned_spec _ _

/-- The payloads that `cipher::read` finds in a stream, in the clear. -/
def payloads : Nat → SSHBuffer → Bytes → List Bytes
  | 0, _, _ => []
  | fuel + 1, b, stream =>
    match @read deps clearPair b stream false with
    | .ok _ b' rest => b'.buffer.drop 5 :: payloads fuel b'.clear rest
    | _ => []

/-- What a client that disconnects before its first turn has written behind its line. -/
def leavingBytes : Bytes := leavingClient.output.drop (clientConfig.clientId.length + 2)

theorem leavingBytes_payloads :
    (payloads 3 .new leavingBytes).tail = [[0, 0, 0, 11, 0, 0, 0, 0, 0, 0, 0]] := by
  decide +kernel

end Concrete

/-- The client has written a frame behind its KEXINIT. The peer takes its
first byte, the number of DISCONNECT, for the length of the padding, and
reads another message. -/
theorem written_fails :
    letI := Concrete.deps
    Client.readSshId Concrete.clientConfig Concrete.serverConfig.serverId Concrete.world =
        .ok Concrete.greetedClient ∧
      Client.connectStream Concrete.clientConfig Concrete.leavingApplication
        Concrete.serverConfig.serverId Concrete.world = .ok Concrete.leavingClient ∧
      Concrete.leavingApplication.greeting Concrete.greetedClient =
        [.disconnect .byApplication [] []] ∧
      ¬ (Concrete.leavingClient.run (Client.driver Concrete.leavingApplication) []).Written
        (Client.driver Concrete.leavingApplication) (Concrete.clientConfig.clientId ++ [13, 10]) ∧
      (Concrete.payloads 3 .new Concrete.leavingBytes).tail =
        [[0, 0, 0, 11, 0, 0, 0, 0, 0, 0, 0]] := by
  let _ := Concrete.deps
  have hgreeting : Concrete.leavingApplication.greeting Concrete.greetedClient =
      [.disconnect .byApplication [] []] := by decide +kernel
  have hleaves : (Concrete.leavingApplication.greeting Concrete.greetedClient).any
      Client.Call.leaves = true := by rw [hgreeting]; rfl
  have hnot := @Client.not_written_of_leaves Concrete.deps _ _ _ _ _ _ Concrete.greetedClient_eq
    Concrete.leavingClient_eq hleaves []
  exact ⟨Concrete.greetedClient_eq, Concrete.leavingClient_eq, hgreeting, hnot,
    Concrete.leavingBytes_payloads⟩

/-- A server through its first exchange, and a client in its first. -/
theorem written_handshake :
    letI := Concrete.deps
    (Concrete.server.run (Server.driver Concrete.handler) Concrete.handshake).Written
        (Server.driver Concrete.handler) (Concrete.serverConfig.serverId ++ [13, 10]) ∧
      (Client.WellWritten Concrete.clientConfig Concrete.application Concrete.greetedClient
        (Concrete.client.run (Client.driver Concrete.application)
          [.arrive (Concrete.clear Concrete.kexinit), .read]) ↔
        (Concrete.application.greeting Concrete.greetedClient).any Client.Call.leaves = false) := by
  let _ := Concrete.deps
  have hwritten := @written_iff Concrete.deps
  constructor
  · exact hwritten.1 _ _ _ _ _ _ (Concrete.runStream_eq _)
  · exact hwritten.2 _ _ _ _ _ _ _ Concrete.greetedClient_eq Concrete.connectStream_eq

end Thrussh
