import Mathlib.Data.List.Forall2
import Thrussh.Concrete
import Thrussh.Roles

/-!
# The queue of packets over a whole run

What `flush` relies on: `write` holds whole packets, the cursor stands at the
start of one, and what has been sealed are the packets ever queued, each once
and in order. Every emitter and every flush of either role keeps it, as long
as the packets are shorter than a length field can say.
-/

namespace Thrussh

open Lib

/-- A packet whose length fits a length field. -/
abbrev Short (body : Bytes) : Prop := body.length < 2 ^ 32

/-- `flush` finds a list of whole packets on its way from a cursor to the end
of `write`, and every index it uses is in range. -/
inductive Walks (write : Bytes) : Nat → List Bytes → Prop where
  | done {cursor : Nat} (h : cursor = write.length) : Walks write cursor []
  | step {cursor : Nat} {len : UInt32} {packet : Bytes} {packets : List Bytes}
    (hcursor : cursor < write.length) (hhead : headBe32 (write.drop cursor) = some len)
    (hslice : slice write (cursor + 4) (cursor + 4 + len.toNat) = .ok packet)
    (htail : Walks write (cursor + 4 + len.toNat) packets) : Walks write cursor (packet :: packets)

/-- A slice is as long as its bounds say, and stays there when bytes are appended. -/
theorem slice_ok {s packet : Bytes} {a b : Nat} (h : slice s a b = .ok packet) :
    a ≤ b ∧ packet.length = b - a ∧ ∀ rest, slice (s ++ rest) a b = .ok packet := by
  unfold slice at h
  by_cases hbounds : a ≤ b ∧ b ≤ s.length
  · rw [if_pos hbounds] at h
    cases h
    refine ⟨hbounds.1, ?_, fun rest => ?_⟩
    · rw [List.length_drop, List.length_take]
      omega
    · have hbounds' : a ≤ b ∧ b ≤ (s ++ rest).length := by
        rw [List.length_append]
        omega
      rw [slice, if_pos hbounds', List.take_append_of_le_length hbounds.2]
  · rw [if_neg hbounds] at h
    cases h

/-- The integer at the head stays there when bytes are appended. -/
theorem headBe32_append_of_some {s : Bytes} {len : UInt32} (h : headBe32 s = some len)
    (rest : Bytes) : headBe32 (s ++ rest) = some len := by
  match s, h with
  | _ :: _ :: _ :: _ :: _, h => exact h

theorem length_frame (body : Bytes) : (frame body).length = 4 + body.length := by
  rw [frame, List.length_append, length_be32]

/-- Frames are walked through one by one. -/
theorem walks_frames (pre : Bytes) {bodies : List Bytes} (h : ∀ b ∈ bodies, Short b) :
    Walks (pre ++ bodies.flatMap frame) pre.length bodies := by
  induction bodies generalizing pre with
  | nil => exact .done (by simp)
  | cons body bodies ih =>
    have hshort : body.length < 2 ^ 32 := h body (List.mem_cons_self ..)
    have hlen : (UInt32.ofNat body.length).toNat = body.length := by
      rw [UInt32.toNat_ofNat']
      omega
    have hwrite : pre ++ (body :: bodies).flatMap frame =
        (pre ++ frame body) ++ bodies.flatMap frame := by
      rw [List.flatMap_cons, List.append_assoc]
    have hnext : (pre ++ frame body).length = pre.length + 4 + body.length := by
      rw [List.length_append, length_frame]
      omega
    have htail := ih (pre ++ frame body) fun b hb => h b (List.mem_cons_of_mem _ hb)
    rw [hwrite]
    rw [hnext, ← hlen] at htail
    refine .step ?_ ?_ ?_ htail
    · rw [List.length_append, hnext]
      omega
    · rw [List.append_assoc, List.drop_left, frame, List.append_assoc]
      exact headBe32_append _ _
    · have hbounds : pre.length + 4 ≤ pre.length + 4 + body.length ∧
          pre.length + 4 + body.length ≤
            ((pre ++ frame body) ++ bodies.flatMap frame).length := by
        rw [List.length_append, hnext]
        omega
      rw [hlen, slice, if_pos hbounds, ← hnext, List.take_left, frame, ← List.append_assoc]
      have hpre : (pre ++ be32 (UInt32.ofNat body.length)).length = pre.length + 4 := by
        rw [List.length_append, length_be32]
      rw [← hpre, List.drop_left]

/-- Frames appended to a queue are walked through after it. -/
theorem Walks.append {write : Bytes} {cursor : Nat} {packets bodies : List Bytes}
    (h : Walks write cursor packets) (hshort : ∀ b ∈ bodies, Short b) :
    Walks (write ++ bodies.flatMap frame) cursor (packets ++ bodies) := by
  induction h with
  | done hcursor =>
    rw [hcursor]
    exact walks_frames write hshort
  | step hcursor hhead hslice htail ih =>
    refine .step ?_ ?_ ((slice_ok hslice).2.2 _) ih
    · rw [List.length_append]
      omega
    · rw [List.drop_append_of_le_length (Nat.le_of_lt hcursor)]
      exact headBe32_append_of_some hhead _

/-- A walk that starts at the end finds nothing. -/
theorem Walks.eq_nil {write : Bytes} {cursor : Nat} {packets : List Bytes}
    (h : Walks write cursor packets) (hend : write.length ≤ cursor) : packets = [] := by
  cases h with
  | done hcursor => rfl
  | step hcursor hhead hslice htail => omega

/-- What a flush reads in `write` is what it walks through. -/
theorem Walks.unframe_eq {write : Bytes} {cursor : Nat} {packets : List Bytes}
    (h : Walks write cursor packets) {fuel : Nat} (hfuel : write.length ≤ cursor + fuel) :
    unframe fuel (write.drop cursor) = packets := by
  induction h generalizing fuel with
  | done hcursor =>
    rw [hcursor, List.drop_length]
    cases fuel with
    | zero => rfl
    | succ fuel => rfl
  | @step cursor len packet packets hcursor hhead hslice htail ih =>
    cases fuel with
    | zero => omega
    | succ fuel =>
      have hpacket : ((write.drop cursor).drop 4).take len.toNat = packet := by
        unfold slice at hslice
        split at hslice
        · cases hslice
          rw [List.drop_drop, List.drop_take]
          congr 1
          omega
        · cases hslice
      simp only [unframe, hhead]
      rw [hpacket, List.drop_drop, ← Nat.add_assoc, ih (by omega)]

section
variable [Deps]

/-- The payloads that `Encrypted::flush` has handed to `CipherPair::write`. -/
def sealedPayloads (history : List PacketRecord) : List Bytes :=
  (history.filter fun r => r.origin = .queued).map (·.payload)

/-- The second is what the compressor makes of the first, in some state of it. -/
def CompressesTo (payload out : Bytes) : Prop := ∃ c c', Compress.compress c payload = .ok (out, c')

/-- The queue is in line with everything ever queued: the packets handed on,
each once and in order, and those still pending. -/
structure Lined (enc : Encrypted) (sent handed pending : List Bytes) : Prop where
  /-- Every packet is handed on or pending. -/
  emitted : enc.emitted = handed ++ pending
  /-- `write` holds whole packets and the cursor stands at the start of one. -/
  framed : ∃ front, front <:+ handed ∧ enc.write = (front ++ pending).flatMap frame ∧
    enc.writeCursor = (front.flatMap frame).length
  /-- The next flush walks through the pending packets. -/
  walks : Walks enc.write enc.writeCursor pending
  /-- What has been sealed are the packets handed on, compressed. -/
  sealed : List.Forall₂ CompressesTo handed sent

omit [Deps] in
/-- A packet of another origin does not come from the queue. -/
theorem sealedPayloads_append (history : List PacketRecord) {r : PacketRecord}
    (h : r.origin ≠ .queued) : sealedPayloads (history ++ [r]) = sealedPayloads history := by
  simp [sealedPayloads, h]

/-- What is sealed from the queue is noted. -/
theorem sealedPayloads_sealAll (b : SSHBuffer) (pair : CipherPair) (payloads : List Bytes) :
    sealedPayloads (b.sealAll pair .queued payloads).history =
      sealedPayloads b.history ++ payloads := by
  induction payloads generalizing b with
  | nil => simp [SSHBuffer.sealAll]
  | cons payload payloads ih =>
    have hstep : b.sealAll pair .queued (payload :: payloads) =
        (b.sealed pair .queued payload).sealAll pair .queued payloads := rfl
    rw [hstep, ih]
    simp [sealedPayloads, SSHBuffer.sealed]

/-- Packets of other origins do not come from the queue. -/
theorem sealedPayloads_sealEach (b : SSHBuffer) (pair : CipherPair)
    {packets : List (Origin × Bytes)} (h : ∀ p ∈ packets, p.1 ≠ .queued) :
    sealedPayloads (b.sealEach pair packets).history = sealedPayloads b.history := by
  induction packets generalizing b with
  | nil => rfl
  | cons packet packets ih =>
    have hstep : b.sealEach pair (packet :: packets) =
        (b.sealed pair packet.1 packet.2).sealEach pair packets := rfl
    rw [hstep, ih _ fun p hp => h p (List.mem_cons_of_mem _ hp)]
    exact sealedPayloads_append _ (h packet (List.mem_cons_self ..))

/-- What is compressed one after the other is compressed each. -/
theorem Compresses.forall₂ {c c' : Compress} {packets outs : List Bytes}
    (h : Compresses c packets outs c') : List.Forall₂ CompressesTo packets outs := by
  induction h with
  | nil c => exact .nil
  | cons head tail ih => exact .cons ⟨_, _, head⟩ ih

/-- Where a run of the flush loop ends that starts with packets to walk
through: some of them are handed on in their order, and the cursor stands at
the start of the next. -/
def HandsOn (pair : CipherPair) (enc : Encrypted) (b : SSHBuffer) (pending : List Bytes)
    (x : EStateM.Result Fault (Encrypted × SSHBuffer) Unit) : Prop :=
  ∃ handed rest outs c compress, pending = handed ++ rest ∧
    Compresses enc.compress handed outs c ∧
    Walks enc.write (enc.writeCursor + (handed.flatMap frame).length) rest ∧
    final x =
      ({ enc with
          compress := compress
          writeCursor := enc.writeCursor + (handed.flatMap frame).length },
        b.sealAll pair .queued outs) ∧
    ∀ p, x = .ok () p → compress = c

/-- A run that stops at once hands nothing on. -/
theorem HandsOn.stop {pair : CipherPair} {enc : Encrypted} {b : SSHBuffer} {pending : List Bytes}
    {x : EStateM.Result Fault (Encrypted × SSHBuffer) Unit}
    (h : Walks enc.write enc.writeCursor pending) (hx : final x = (enc, b)) :
    HandsOn pair enc b pending x :=
  ⟨[], pending, [], enc.compress, enc.compress, rfl, .nil _, h, hx, fun _ _ => rfl⟩

/-- The flush loop hands on the packets it walks through. -/
theorem flushLoop_handsOn (pair : CipherPair) (fuel : Nat) {enc : Encrypted} (b : SSHBuffer)
    {pending : List Bytes} (h : Walks enc.write enc.writeCursor pending) :
    HandsOn pair enc b pending (flushLoop pair fuel (enc, b)) := by
  induction fuel generalizing enc b pending with
  | zero => exact .stop h rfl
  | succ fuel ih =>
    simp only [flushLoop, run_bind, run_get]
    generalize hwrite : enc.write = write at h
    generalize hcur : enc.writeCursor = cursor at h
    cases h with
    | done hcursor =>
      rw [if_neg (by omega)]
      exact .stop (by rw [hwrite, hcur]; exact .done hcursor) rfl
    | @step cursor len packet packets hcursor hhead hslice htail =>
      subst hwrite hcur
      have hwalk : Walks enc.write enc.writeCursor (packet :: packets) :=
        .step hcursor hhead hslice htail
      rw [if_pos hcursor, hhead]
      simp only [run_bind, hslice, run_lift_ok]
      cases hcompress : enc.compress.compress packet with
      | error e => cases e <;> exact .stop hwalk rfl
      | ok res =>
        obtain ⟨out, compress⟩ := res
        simp only [run_bind, run_modify, zoom]
        rcases write_cases pair .queued out b with hsealed | hsealed
        · rw [hsealed]
          have hlength : packet.length = len.toNat := by
            have hpacket := (slice_ok hslice).2.1
            omega
          have hhands : HandsOn pair
              { enc with compress := compress, writeCursor := enc.writeCursor + 4 + len.toNat }
              (b.sealed pair .queued out) packets (flushLoop pair fuel (_, _)) := ih _ htail
          obtain ⟨handed, rest, outs, c, compress', hsplit, hcomp, hrest, hfinal, hok⟩ := hhands
          have hadvance : enc.writeCursor + ((packet :: handed).flatMap frame).length =
              enc.writeCursor + 4 + len.toNat + (handed.flatMap frame).length := by
            rw [List.flatMap_cons, List.length_append, length_frame, hlength]
            omega
          refine ⟨packet :: handed, rest, out :: outs, c, compress', ?_, .cons hcompress hcomp,
            ?_, ?_, hok⟩
          · rw [hsplit, List.cons_append]
          · rw [hadvance]
            exact hrest
          · rw [hadvance]
            exact hfinal
        · rw [hsealed]
          refine ⟨[], _, [], enc.compress, compress, rfl, .nil _, hwalk, rfl, fun p hp => ?_⟩
          cases hp

/-- What a flush of the queue does: packets it walks through are handed on,
and if it returns, all of them, and the queue is empty. -/
structure Handed (pair : CipherPair) (enc enc' : Encrypted) (b b' : SSHBuffer)
    (handed rest outs : List Bytes) : Prop where
  /-- What changes of `enc`. -/
  same : enc' = { enc with
    compress := enc'.compress, write := enc'.write, writeCursor := enc'.writeCursor }
  /-- The packets go out as they were sealed. -/
  sealed : b' = b.sealAll pair .queued outs
  /-- They are compressed. -/
  compresses : ∃ c, Compresses enc.compress handed outs c
  /-- The queue keeps the others behind the cursor, or is empty. -/
  queue : enc'.write = enc.write ∧
      enc'.writeCursor = enc.writeCursor + (handed.flatMap frame).length ∨
    enc'.write = [] ∧ enc'.writeCursor = 0 ∧ rest = []
  /-- The others can be walked through next. -/
  walks : Walks enc'.write enc'.writeCursor rest

/-- Where `Encrypted::flush` ends. -/
theorem encFlush_handed (pair : CipherPair) {enc enc' : Encrypted} {b b' : SSHBuffer}
    {pending : List Bytes} (h : Walks enc.write enc.writeCursor pending)
    (hrun : final (enc.flush pair (enc, b)) = (enc', b')) :
    ∃ handed rest outs, pending = handed ++ rest ∧ Handed pair enc enc' b b' handed rest outs := by
  obtain ⟨handed, rest, outs, c, compress, hsplit, hcomp, hrest, hfinal, -⟩ :=
    flushLoop_handsOn pair enc.write.length b h
  refine ⟨handed, rest, outs, hsplit, ?_⟩
  unfold Encrypted.flush at hrun
  rw [final_bind] at hrun
  cases hloop : flushLoop pair enc.write.length (enc, b) with
  | error e p =>
    rw [hloop] at hfinal hrun
    rw [final_error] at hfinal
    cases hfinal.symm.trans hrun
    exact ⟨rfl, rfl, ⟨c, hcomp⟩, .inl ⟨rfl, rfl⟩, hrest⟩
  | ok u p =>
    have hend : p.1.write.length ≤ p.1.writeCursor := flushLoop_ok (Nat.le_add_left _ _) hloop
    rw [hloop] at hfinal hrun
    rw [final_ok] at hfinal
    subst hfinal
    dsimp only at hend
    have hnil := hrest.eq_nil hend
    simp only [run_modify, final_ok, ge_iff_le, if_pos hend] at hrun
    cases hrun
    exact ⟨rfl, rfl, ⟨c, hcomp⟩, .inr ⟨rfl, rfl, hnil⟩, by rw [hnil]; exact .done rfl⟩

/-- A flush keeps the queue in line. -/
theorem Lined.handed {enc enc' : Encrypted} {pair : CipherPair} {b b' : SSHBuffer}
    {before handed rest outs : List Bytes}
    (h : Lined enc (sealedPayloads b.history) before (handed ++ rest))
    (hflush : Handed pair enc enc' b b' handed rest outs) :
    Lined enc' (sealedPayloads b'.history) (before ++ handed) rest := by
  obtain ⟨front, hfront, hwrite, hcursor⟩ := h.framed
  refine ⟨?_, ?_, hflush.walks, ?_⟩
  · rw [hflush.same, List.append_assoc]
    exact h.emitted
  · rcases hflush.queue with ⟨hwrite', hcursor'⟩ | ⟨hwrite', hcursor', hrest⟩
    · obtain ⟨gone, rfl⟩ := hfront
      refine ⟨front ++ handed, ⟨gone, by rw [List.append_assoc]⟩, ?_, ?_⟩
      · rw [hwrite', hwrite, List.append_assoc]
      · rw [hcursor', hcursor, List.flatMap_append, List.length_append]
    · refine ⟨[], List.nil_suffix, ?_, hcursor'⟩
      rw [hwrite', hrest]
      rfl
  · obtain ⟨c, hcomp⟩ := hflush.compresses
    rw [hflush.sealed, sealedPayloads_sealAll]
    exact List.rel_append h.sealed hcomp.forall₂

/-- Packets appended to the queue keep it in line. -/
theorem Lined.pushed {enc enc' : Encrypted} {sent handed pending bodies : List Bytes}
    (h : Lined enc sent handed pending)
    (hshort : ∀ b ∈ bodies, Short b) (hemitted : enc'.emitted = enc.emitted ++ bodies)
    (hwrite : enc'.write = enc.write ++ bodies.flatMap frame)
    (hcursor : enc'.writeCursor = enc.writeCursor) :
    Lined enc' sent handed (pending ++ bodies) := by
  obtain ⟨front, hfront, hframes, hboundary⟩ := h.framed
  refine ⟨?_, ⟨front, hfront, ?_, ?_⟩, ?_, h.sealed⟩
  · rw [hemitted, h.emitted, List.append_assoc]
  · rw [hwrite, hframes, ← List.flatMap_append, List.append_assoc]
  · rw [hcursor, hboundary]
  · rw [hwrite, hcursor]
    exact h.walks.append hshort

/-- A flush of the queue that returns has handed everything on, to the
session's compressor in the state the packet before left it in. -/
theorem encFlush_empties {pair : CipherPair} {enc enc' : Encrypted} {b b' : SSHBuffer}
    {pending : List Bytes} (h : Walks enc.write enc.writeCursor pending)
    (hok : enc.flush pair (enc, b) = .ok () (enc', b')) :
    ∃ outs, Compresses enc.compress pending outs enc'.compress ∧
      b' = b.sealAll pair .queued outs := by
  obtain ⟨handed, rest, outs, c, compress, hsplit, hcomp, hrest, hfinal, hc⟩ :=
    flushLoop_handsOn pair enc.write.length b h
  unfold Encrypted.flush at hok
  simp only [run_bind] at hok
  cases hloop : flushLoop pair enc.write.length (enc, b) with
  | error e p =>
    rw [hloop] at hok
    cases hok
  | ok u p =>
    have hend : p.1.write.length ≤ p.1.writeCursor := flushLoop_ok (Nat.le_add_left _ _) hloop
    rw [hloop] at hfinal hok
    rw [final_ok] at hfinal
    obtain rfl := hc p hloop
    subst hfinal
    dsimp only at hend
    have hnil := hrest.eq_nil hend
    simp only [run_modify, ge_iff_le, if_pos hend] at hok
    cases hok
    refine ⟨outs, ?_, rfl⟩
    rw [hsplit, hnil, List.append_nil]
    exact hcomp

variable {C : Type}

/-- The queue holds the last of the packets ever queued. -/
def Encrypted.Framed (enc : Encrypted) : Prop :=
  ∃ front, front <:+ enc.emitted ∧ enc.write = front.flatMap frame

/-- The queue of a session is in line, if every packet ever queued is short. -/
structure CommonSession.InLine (s : CommonSession C) : Prop where
  /-- The queue holds packets that were queued. -/
  framed : ∀ enc ∈ s.encrypted, enc.Framed
  /-- Nothing comes from the queue before the first exchange is over. -/
  clear : s.encrypted = none → sealedPayloads s.writeBuffer.history = []
  /-- An encrypted session has its queue in line. -/
  encrypted : ∀ enc, s.encrypted = some enc → (∀ b ∈ enc.emitted, Short b) →
    ∃ handed pending, Lined enc (sealedPayloads s.writeBuffer.history) handed pending

/-- What keeps the queue in line when nothing is sealed from it. -/
def Appends (e e' : Encrypted) : Prop :=
  ∃ bodies, e'.emitted = e.emitted ++ bodies ∧ e'.write = e.write ++ bodies.flatMap frame ∧
    e'.writeCursor = e.writeCursor

/-- A queue that is left alone. -/
theorem Appends.of_eq {e e' : Encrypted} (hemitted : e'.emitted = e.emitted)
    (hwrite : e'.write = e.write) (hcursor : e'.writeCursor = e.writeCursor) : Appends e e' :=
  ⟨[], by simp [hemitted], by simp [hwrite], hcursor⟩

/-- A freshly encrypted session: nothing is queued, and nothing was. -/
structure CommonSession.Fresh (s : CommonSession C) (enc : Encrypted) : Prop where
  /-- The session is encrypted. -/
  encrypted : s.encrypted = some enc
  /-- Nothing has been queued. -/
  emitted : enc.emitted = []
  /-- The queue is empty. -/
  write : enc.write = []
  /-- The cursor is at its start. -/
  writeCursor : enc.writeCursor = 0
  /-- Nothing has been sealed from the queue. -/
  sealed : sealedPayloads s.writeBuffer.history = []

/-- A fresh session has its queue in line. -/
theorem CommonSession.Fresh.inLine {s : CommonSession C} {enc : Encrypted} (h : s.Fresh enc) : s.InLine := by
  refine ⟨fun enc' henc' => ?_, fun _ => h.sealed, fun enc' henc' _ => ⟨[], [], ?_⟩⟩
  · obtain rfl : enc = enc' := Option.some.inj (h.encrypted.symm.trans henc')
    exact ⟨[], List.nil_suffix, h.write⟩
  obtain rfl : enc = enc' := Option.some.inj (h.encrypted.symm.trans henc')
  refine ⟨h.emitted, ⟨[], List.suffix_rfl, h.write, h.writeCursor⟩, .done ?_, ?_⟩
  · rw [h.writeCursor, h.write]
    rfl
  · rw [h.sealed]
    exact .nil

namespace CommonSession.InLine

variable {P : Bytes → Prop} {s t : CommonSession C}

/-- Packets are appended, and nothing is sealed from the queue. -/
theorem appends (hs : s.InLine) (henc : Option.Rel Appends s.encrypted t.encrypted)
    (hsealed : sealedPayloads t.writeBuffer.history = sealedPayloads s.writeBuffer.history) :
    t.InLine := by
  obtain ⟨hframed, hclear, hencrypted⟩ := hs
  generalize s.encrypted = a at hframed hclear hencrypted henc
  generalize ht : t.encrypted = b at henc
  cases henc with
  | none =>
    refine ⟨fun enc henc => ?_, fun _ => ?_, fun enc henc => ?_⟩
    · rw [ht] at henc
      cases henc
    · rw [hsealed]
      exact hclear rfl
    · rw [ht] at henc
      cases henc
  | @some e e' h =>
    obtain ⟨bodies, hemitted, hwrite, hcursor⟩ := h
    refine ⟨fun enc henc => ?_, fun hnone => ?_, fun enc henc hshort => ?_⟩
    · rw [ht] at henc
      cases henc
      obtain ⟨front, ⟨gone, hgone⟩, hfront⟩ := hframed e rfl
      refine ⟨front ++ bodies, ⟨gone, ?_⟩, ?_⟩
      · rw [hemitted, ← hgone, List.append_assoc]
      · rw [hwrite, hfront, List.flatMap_append]
    · rw [ht] at hnone
      cases hnone
    · rw [ht] at henc
      cases henc
      rw [hemitted] at hshort
      obtain ⟨handed, pending, hlined⟩ := hencrypted e rfl fun b hb =>
        hshort b (List.mem_append_left _ hb)
      rw [hsealed]
      exact ⟨handed, pending ++ bodies, hlined.pushed
        (fun b hb => hshort b (List.mem_append_right _ hb)) hemitted hwrite hcursor⟩

theorem quiet (hs : s.InLine) (h : Quiet P s t) : t.InLine := by
  refine hs.appends ?_ (by rw [h.same])
  have henc := h.encrypted
  generalize s.encrypted = a at henc
  generalize t.encrypted = b at henc
  cases henc with
  | none => exact .none
  | some henc =>
    obtain ⟨bodies, -, hwrite, hemitted⟩ := henc.pushed
    exact .some ⟨bodies, hemitted, hwrite, by rw [henc.same]⟩

theorem staged (hs : s.InLine) (h : Staged s t) : t.InLine := by
  refine hs.appends ?_ (by rw [h.same])
  have henc := h.encrypted
  generalize s.encrypted = a at henc
  generalize t.encrypted = b at henc
  cases henc with
  | none => exact .none
  | some henc => exact .some (.of_eq (by rw [henc.same]) (by rw [henc.same]) (by rw [henc.same]))

theorem flushed (hs : s.InLine) {enc enc' : Encrypted} (h : PacketsFlushed s t enc enc') :
    t.InLine := by
  refine ⟨fun enc1 henc1 => ?_, fun hnone => ?_, fun enc1 henc1 hshort => ?_⟩
  · obtain rfl : enc' = enc1 := Option.some.inj (h.encrypted_eq.symm.trans henc1)
    obtain ⟨front, hfront, hwrite⟩ := hs.framed enc h.encrypted
    have hemitted : enc'.emitted = enc.emitted := by rw [h.same]
    unfold Encrypted.Framed
    rw [hemitted]
    rcases h.write with hsame | hempty
    · exact ⟨front, hfront, hsame.trans hwrite⟩
    · exact ⟨[], List.nil_suffix, hempty⟩
  · rw [h.encrypted_eq] at hnone
    cases hnone
  · obtain rfl : enc' = enc1 := Option.some.inj (h.encrypted_eq.symm.trans henc1)
    have hemitted : enc'.emitted = enc.emitted := by rw [h.same]
    rw [hemitted] at hshort
    obtain ⟨before, pending, hlined⟩ := hs.encrypted enc h.encrypted hshort
    obtain ⟨handed, rest, outs, rfl, hhanded⟩ := encFlush_handed s.cipher hlined.walks h.run
    exact ⟨_, _, hlined.handed hhanded⟩

variable [SessionConfig C]

theorem flush (hs : s.InLine) (h : FlushStep s t) : t.InLine := by
  cases h with
  | none h => exact hs
  | packets h => exact hs.flushed h
  | rekey h hwrite hcursor hrekey hex =>
    rename_i u enc enc' ex
    refine (hs.flushed h).appends ?_ (sealedPayloads_append _ (by simp))
    rw [h.encrypted_eq]
    exact .some (.of_eq rfl rfl rfl)

theorem turn (hs : s.InLine) (h : Turn P s t) : t.InLine := by
  cases h with
  | busy h =>
    cases h with
    | quiet h => exact hs.quiet h
    | flush h => exact hs.flush h
  | staged h => exact hs.staged h

omit [SessionConfig C] in
theorem message (hs : s.InLine) (h : Local P s t) : t.InLine := by
  cases h with
  | quiet h => exact hs.quiet h
  | staged h => exact hs.staged h
  | service hpayload h =>
    subst h
    refine hs.appends ?_ (sealedPayloads_append _ (by simp))
    dsimp only
    cases s.encrypted with
    | none => exact .none
    | some enc => exact .some (.of_eq rfl rfl rfl)

omit [SessionConfig C] in
/-- A step of a key exchange leaves the queue alone. -/
theorem seals (hs : s.InLine) {packets : List (Origin × Bytes)} (h : Seals s t packets) :
    t.InLine := by
  refine hs.appends ?_ ?_
  · have henc := h.encrypted
    generalize s.encrypted = a at henc
    generalize t.encrypted = b at henc
    cases henc with
    | none => exact .none
    | some henc => exact .some (.of_eq (by rw [henc]) (by rw [henc]) (by rw [henc]))
  · rw [h.same]
    refine sealedPayloads_sealEach _ _ fun p hp hqueued => ?_
    have hkex := h.isKex p hp
    rw [hqueued] at hkex
    cases hkex

omit [SessionConfig C] in
/-- The first exchange ends with an empty queue, another one leaves it alone. -/
theorem installs (hs : s.InLine) {bytes : Nat} {packets : List (Origin × Bytes)}
    (h : Installs s t bytes packets) : t.InLine := by
  have hsealed : sealedPayloads t.writeBuffer.history = sealedPayloads s.writeBuffer.history := by
    rw [h.same]
    refine sealedPayloads_sealEach _ _ fun p hp => ?_
    rw [(h.service p hp).1]
    simp
  have henc := h.encrypted
  cases hnone : s.encrypted with
  | none =>
    rw [hnone] at henc
    obtain ⟨enc, ht, hwrite, hcursor, hemitted, -⟩ := henc
    have hfresh : t.Fresh enc := ⟨ht, hemitted, hwrite, hcursor, hsealed.trans (hs.clear hnone)⟩
    exact hfresh.inLine
  | some enc =>
    rw [hnone] at henc
    obtain ⟨enc', ht, hsame⟩ := henc
    refine hs.appends ?_ hsealed
    rw [hnone, ht]
    exact .some (.of_eq (by rw [hsame]) (by rw [hsame]) (by rw [hsame]))

omit [SessionConfig C] in
theorem advance (hs : s.InLine) {buf : Bytes} (h : Advance buf s t) : t.InLine := by
  cases h with
  | skip h => exact h ▸ hs
  | answer _ _ h => exact hs.seals h
  | serve _ _ h => exact hs.seals h
  | guess _ _ h => exact hs.seals h
  | finish _ _ h => exact hs.seals h
  | install _ _ h => exact hs.installs h
  | drop _ _ _ _ h => exact hs.seals h

/-- The queue stays in line in every run of a loop. -/
theorem invariant :
    Invariant P (fun _ _ => True) (C := C) InLine InLine InLine where
  enter _ hs := hs
  leave _ hs := hs
  inflate s enc decompress henc hs := by
    refine hs.appends ?_ rfl
    rw [henc]
    exact .some (.of_eq rfl rfl rfl)
  advance _ _ _ hs _ _ h := hs.advance h
  seals _ _ _ hs _ h := hs.seals h
  turn _ _ hs _ _ h := hs.turn h
  message _ _ _ hs _ _ _ h := by
    induction h with
    | refl => exact hs
    | tail _ h ih => exact ih.message h
  flush s t hs _ h := by
    have hstep := flush_final s
    rw [h] at hstep
    have ht := hs.flush hstep
    exact ⟨ht.framed, ht.clear, ht.encrypted⟩
  settle _ _ hs h := hs.staged h

end CommonSession.InLine

section
variable [SessionConfig C] {P : Bytes → Prop} {s t : CommonSession C}

/-- What a flush that returns has done to a queue with packets pending: all of
them have gone through the session's compressor and been sealed, in order. -/
def Emptied (s t : CommonSession C) (enc : Encrypted) (pending : List Bytes) : Prop :=
  ∃ enc' outs, t.encrypted = some enc' ∧ enc'.write = [] ∧ enc'.writeCursor = 0 ∧
    enc'.emitted = enc.emitted ∧ Compresses enc.compress pending outs enc'.compress ∧
    sealedPayloads t.writeBuffer.history = sealedPayloads s.writeBuffer.history ++ outs

/-- A flush of the queue that returns empties it. -/
theorem flushPackets_emptied {enc : Encrypted} {pending : List Bytes} {due : Bool}
    (henc : s.encrypted = some enc) (hwalk : Walks enc.write enc.writeCursor pending)
    (h : flushPackets s = .ok due t) : Emptied s t enc pending := by
  obtain ⟨enc', hflushed, hwrite, hcursor, -⟩ := flushPackets_ok henc h
  simp only [flushPackets, run_bind, run_get, henc, run_modify, zoom] at h
  cases hflush : enc.flush s.cipher (enc, s.writeBuffer) with
  | error e p =>
    rw [hflush] at h
    cases h
  | ok u p =>
    obtain ⟨enc1, b1⟩ := p
    have hrun := hflushed.run
    rw [hflush] at hrun
    cases hrun
    obtain ⟨outs, hcomp, hsealed⟩ := encFlush_empties hwalk hflush
    refine ⟨enc', outs, hflushed.encrypted_eq, hwrite, hcursor, ?_, hcomp, ?_⟩
    · rw [hflushed.same]
    · rw [hsealed, sealedPayloads_sealAll]

/-- `Session::flush`, when it returns, empties the queue; a KEXINIT that
starts a re-exchange does not come from it. -/
theorem flush_emptied {enc : Encrypted} {pending : List Bytes} (henc : s.encrypted = some enc)
    (hwalk : Walks enc.write enc.writeCursor pending) (h : flush s = .ok () t) :
    Emptied s t enc pending := by
  simp only [flush, run_bind] at h
  cases hpackets : flushPackets s with
  | error e u =>
    rw [hpackets] at h
    cases h
  | ok due u =>
    have hemptied := flushPackets_emptied henc hwalk hpackets
    obtain ⟨enc', outs, henc', hwrite, hcursor, hemitted, hcomp, hsealed⟩ := hemptied
    rw [hpackets] at h
    cases due with
    | false =>
      cases h
      exact ⟨enc', outs, henc', hwrite, hcursor, hemitted, hcomp, hsealed⟩
    | true =>
      simp only [if_true] at h
      by_cases hstart : enc'.rekey = none ∧ ∃ ex, enc'.exchange = some ex
      · obtain ⟨hrekey, ex, hex⟩ := hstart
        rw [initiateRekey_start henc' hrekey hex] at h
        cases h
        refine ⟨_, outs, rfl, hwrite, hcursor, hemitted, hcomp, ?_⟩
        rw [← hsealed]
        exact sealedPayloads_append _ (by simp)
      · rw [initiateRekey_skip] at h
        · cases h
          exact ⟨enc', outs, henc', hwrite, hcursor, hemitted, hcomp, hsealed⟩
        · intro enc1 henc1
          obtain rfl : enc' = enc1 := Option.some.inj (henc'.symm.trans henc1)
          by_cases hrekey : enc'.rekey = none
          · exact .inr (Option.eq_none_iff_forall_ne_some.mpr fun ex hex => hstart ⟨hrekey, ex, hex⟩)
          · exact .inl hrekey

/-- The queue of an encrypted session between two calls: it is in line, and a
flush that returns empties it. -/
def CommonSession.QueueKept (s : CommonSession C) : Prop :=
  ∃ enc handed pending, s.encrypted = some enc ∧
    Lined enc (sealedPayloads s.writeBuffer.history) handed pending ∧ enc.queued = pending ∧
    ∀ t, flush s = .ok () t → Emptied s t enc pending

/-- A session whose queue is in line keeps it, if every packet is short. -/
theorem CommonSession.InLine.queueKept (h : s.InLine) (hsome : s.encrypted.isSome = true)
    (hshort : ∀ b ∈ s.emitted, Short b) : s.QueueKept := by
  obtain ⟨enc, henc⟩ := Option.isSome_iff_exists.mp hsome
  rw [emitted_some henc] at hshort
  obtain ⟨handed, pending, hlined⟩ := h.encrypted enc henc hshort
  refine ⟨enc, handed, pending, henc, hlined, hlined.walks.unframe_eq (Nat.le_add_left _ _), ?_⟩
  exact fun t ht => flush_emptied henc hlined.walks ht

end

/-- The queue of a loop's session stays in line from its first turn on. -/
theorem Loop.run_inLine {S M : Type} [SessionConfig C] {d : Driver C S M} {P : Bytes → Prop}
    (hd : d.Behaves P) {s : S} (hs : (d.common s).Initial) (output : Bytes)
    (events : List (Event M)) :
    (d.common ((Loop.start d s output).run d events).session).InLine := by
  have hclear : sealedPayloads (d.common s).writeBuffer.history = [] := by
    obtain ⟨payload, buffer, hbuffer⟩ := hs.writeBuffer
    rw [hbuffer]
    exact sealedPayloads_append [] (by simp)
  have hstart : (d.common s).InLine := by
    refine ⟨fun enc henc => ?_, fun _ => hclear, fun enc henc => ?_⟩
    · rw [hs.encrypted] at henc
      cases henc
    · rw [hs.encrypted] at henc
      cases henc
  have hholds := run_holds hd CommonSession.InLine.invariant
    (start_holds hd CommonSession.InLine.invariant hstart hs.sound output) events
    (Along.of_forall (fun _ _ _ _ _ => trivial) _ _)
  exact hholds.ended

namespace Server

/-- A call of a program that queues packets, or a flush. -/
inductive Emission where
  /-- A public method of the session. -/
  | call (c : Call)
  /-- A local message. -/
  | message (m : Option (UInt32 × ChannelMsg))
  /-- A packet outside the key exchange, which is answered. -/
  | packet (buf : Bytes)
  /-- `Session::flush`. -/
  | flush

/-- The program of a call. -/
def emit (handler : Handler) : Emission → M Unit
  | .call c => runCall c
  | .message m => do
    let _ ← message m
  | .packet buf => serverReadState handler buf
  | .flush => onCommon Thrussh.flush

/-- A sequence of calls. A call that fails leaves the session where it failed. -/
def emitAll (handler : Handler) (s : Session) (calls : List Emission) : Session :=
  calls.foldl (fun s e => final (emit handler e s)) s

/-- Every call moves the session by steps outside the key exchange. -/
theorem emit_moves (handler : Handler) (e : Emission) :
    Moves (Over (Turn fun _ => True)) (emit handler e) := by
  cases e with
  | call c => exact runCall_moves (fun _ _ => trivial) c
  | message m => exact (message_moves (fun _ _ => trivial) m).bind fun _ => .pure _
  | packet buf => exact serverReadState_moves (fun _ _ => trivial) handler buf
  | flush => exact flush_moves

/-- Every sequence of calls keeps the queue in line. -/
theorem emitAll_inLine (handler : Handler) {s : Session}
    (hs : s.common.InLine ∧ s.common.encrypted.isSome = true) (calls : List Emission) :
    (emitAll handler s calls).common.InLine ∧
      (emitAll handler s calls).common.encrypted.isSome = true := by
  induction calls generalizing s with
  | nil => exact hs
  | cons e calls ih =>
    exact ih ((emit_moves handler e).invariant
      (p := fun s => s.common.InLine ∧ s.common.encrypted.isSome = true)
      (fun _ _ h hs => ⟨hs.1.turn h.common, h.common.isSome_eq.trans hs.2⟩) hs)

end Server

namespace Client

/-- A call of a program that queues packets, or a flush. -/
inductive Emission where
  /-- Something a handler does with the session. -/
  | call (c : Call)
  /-- A local message. -/
  | message (m : Option Msg)
  /-- A packet outside the key exchange, which is answered. -/
  | packet (buf : Bytes)
  /-- `Session::flush`. -/
  | flush
  /-- The end of a turn, which starts compression. -/
  | settle

/-- The program of a call. -/
def emit (app : Application) : Emission → M Unit
  | .call c => runCall c
  | .message m => do
    let _ ← message m
  | .packet buf => clientReadState app buf
  | .flush => onCommon Thrussh.flush
  | .settle => modify settle

/-- A sequence of calls. A call that fails leaves the session where it failed. -/
def emitAll (app : Application) (s : Session) (calls : List Emission) : Session :=
  calls.foldl (fun s e => final (emit app e s)) s

/-- Every call keeps the queue in line. -/
theorem emit_inLine (app : Application) (e : Emission) {s : Session}
    (hs : s.common.InLine ∧ s.common.encrypted.isSome = true) :
    (final (emit app e s)).common.InLine ∧
      (final (emit app e s)).common.encrypted.isSome = true := by
  have hturn : ∀ {x : M Unit}, Moves (Over (Turn fun _ => True)) x →
      (final (x s)).common.InLine ∧ (final (x s)).common.encrypted.isSome = true := fun hx =>
    hx.invariant (p := fun s => s.common.InLine ∧ s.common.encrypted.isSome = true)
      (fun _ _ h hs => ⟨hs.1.turn h, h.isSome_eq.trans hs.2⟩) hs
  cases e with
  | call c => exact hturn (runCall_moves (fun _ _ => trivial) c)
  | message m =>
    exact ((message_moves (fun _ _ => trivial) m).bind fun _ => .pure _).invariant
      (p := fun s => s.common.InLine ∧ s.common.encrypted.isSome = true)
      (fun _ _ h hs => ⟨hs.1.message h, h.isSome_eq.trans hs.2⟩) hs
  | packet buf =>
    exact hturn (clientReadState_moves (fun _ _ => trivial) (fun _ _ _ _ => trivial) buf)
  | flush =>
    exact hturn (Moves.zoom (q := Turn fun _ => True)
      (fun s => .single (Flushing.flush (flush_final s))) (fun _ _ _ h => .single h) fun _ => rfl)
  | settle => exact hturn (Moves.modify fun s => .single (.staged (settle_staged s)))

/-- Every sequence of calls keeps the queue in line. -/
theorem emitAll_inLine (app : Application) {s : Session}
    (hs : s.common.InLine ∧ s.common.encrypted.isSome = true) (calls : List Emission) :
    (emitAll app s calls).common.InLine ∧
      (emitAll app s calls).common.encrypted.isSome = true := by
  induction calls generalizing s with
  | nil => exact hs
  | cons e calls ih => exact ih (emit_inLine app e hs)

end Client

/-- In both roles, every sequence of calls that queue packets or flush keeps
the queue of an encrypted session, as long as every packet is short: whole
packets, every packet handed on once and in order, and nothing left by a flush. -/
theorem queue_kept :
    (∀ (handler : Server.Handler) (s : Server.Session) (enc : Encrypted), s.common.Fresh enc →
      ∀ calls : List Server.Emission,
        (∀ b ∈ (Server.emitAll handler s calls).common.emitted, Short b) →
          (Server.emitAll handler s calls).common.QueueKept) ∧
    ∀ (app : Client.Application) (s : Client.Session) (enc : Encrypted), s.common.Fresh enc →
      ∀ calls : List Client.Emission,
        (∀ b ∈ (Client.emitAll app s calls).common.emitted, Short b) →
          (Client.emitAll app s calls).common.QueueKept := by
  refine ⟨fun handler s enc hs calls hshort => ?_, fun app s enc hs calls hshort => ?_⟩
  · have hkept := Server.emitAll_inLine handler ⟨hs.inLine, by rw [hs.encrypted]; rfl⟩ calls
    exact hkept.1.queueKept hkept.2 hshort
  · have hkept := Client.emitAll_inLine app ⟨hs.inLine, by rw [hs.encrypted]; rfl⟩ calls
    exact hkept.1.queueKept hkept.2 hshort

end

/-- In both roles a packet is queued and flushed, and another one queued. -/
theorem queue_kept_disconnect :
    letI := Concrete.deps
    (Server.emitAll Concrete.handler (Concrete.serverSession .authenticated)
      [.call .requestFailure, .flush, .call (.disconnect .byApplication [] [])]).common.QueueKept ∧
    (Client.emitAll Concrete.application (Concrete.clientSession .authenticated)
      [.message (some (.tcpipForward true [] 22)), .flush,
        .call (.disconnect .byApplication [] [])]).common.QueueKept := by
  obtain ⟨hserver, hclient⟩ := @queue_kept Concrete.deps
  have hfresh : letI := Concrete.deps
      (Concrete.serverSession .authenticated).common.Fresh (Concrete.encrypted .authenticated) :=
    @CommonSession.Fresh.mk Concrete.deps _ _ _ rfl rfl rfl rfl (by decide +kernel)
  have hfresh' : letI := Concrete.deps
      (Concrete.clientSession .authenticated).common.Fresh (Concrete.encrypted .authenticated) :=
    @CommonSession.Fresh.mk Concrete.deps _ _ _ rfl rfl rfl rfl (by decide +kernel)
  exact ⟨hserver _ _ _ hfresh _ (by decide +kernel), hclient _ _ _ hfresh' _ (by decide +kernel)⟩

end Thrussh
