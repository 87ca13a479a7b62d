import Thrussh.Session

/-!
# The reader of the identification line

`SshRead::read_ssh_id` and `SshRead::poll_read`, on a transport that hands
out its bytes in pieces of any size. Bytes that `read_ssh_id` has taken
beyond the line stay in its buffer, and `poll_read` hands them out first, in
one piece. It panics exactly if the first reader has no room for them.
-/

namespace Thrussh

open Lib

/-- A transport: the bytes still to come, and how many of them it has ready
at each of its reads. -/
structure Transport where
  /-- The bytes still to come. -/
  bytes : Bytes
  /-- How many are ready at a read. -/
  split : Nat → Nat
  /-- The number of the next read. -/
  reads : Nat

/-- `poll_read` of the transport; nothing is ready while it is pending. -/
def Transport.poll (t : Transport) (capacity : Nat) : Bytes × Transport :=
  let n := min capacity (t.split t.reads)
  (t.bytes.take n, { t with bytes := t.bytes.drop n, reads := t.reads + 1 })

/-- `AsyncReadExt::read`, which waits until something is ready; it returns
nothing at the end of the stream, or into an empty slice. -/
def Transport.read (t : Transport) (capacity : Nat) : Bytes × Transport :=
  let n := min capacity (max 1 (t.split t.reads))
  (t.bytes.take n, { t with bytes := t.bytes.drop n, reads := t.reads + 1 })

/-- `ReadSshIdBuffer`. -/
structure ReadSshIdBuffer where
  /-- The bytes read. -/
  buf : Bytes
  /-- How many there are. -/
  total : Nat
  /-- How many of them belong to the line, or have been handed out. -/
  bytesRead : Nat
  /-- The length of the line. -/
  sshidLen : Nat
  deriving DecidableEq, Repr

/-- `ReadSshIdBuffer::new`. -/
def ReadSshIdBuffer.new : ReadSshIdBuffer := ⟨zeros 256, 0, 0, 0⟩

/-- `ReadSshIdBuffer::id`. -/
def ReadSshIdBuffer.id (b : ReadSshIdBuffer) : Bytes := b.buf.take b.sshidLen

/-- A read into `buf[total..]`, and `total += n`. -/
def ReadSshIdBuffer.fill (b : ReadSshIdBuffer) (bytes : Bytes) : ReadSshIdBuffer :=
  { b with
    buf := b.buf.take b.total ++ bytes ++ b.buf.drop (b.total + bytes.length)
    total := b.total + bytes.length }

/-- The bytes in the buffer that have not been handed out. -/
def ReadSshIdBuffer.leftover (b : ReadSshIdBuffer) : Bytes := (b.buf.take b.total).drop b.bytesRead

/-- The inner loop of `read_ssh_id`, from an index: the index it stops at and
`bytes_read`, which it sets at the end of a line. -/
def scanLine (buf : Bytes) (total bytesRead : Nat) : Nat → Nat → Nat × Nat
  | 0, i => (i, bytesRead)
  | fuel + 1, i =>
    if total - 1 ≤ i then (i, bytesRead)
    else if buf[i]? = some 13 ∧ buf[i + 1]? = some 10 then (i, i + 2)
    else if buf[i + 1]? = some 10 then (i + 1, i + 2)
    else scanLine buf total bytesRead fuel (i + 1)

/-- The outer loop of `read_ssh_id`. Each repetition reads a byte at least. -/
def readSshIdLoop : Nat → ReadSshIdBuffer → Transport → Except Fault (ReadSshIdBuffer × Transport)
  | 0, _, _ => .error .diverge
  | fuel + 1, b, t =>
    let (bytes, t) := t.read (b.buf.length - b.total)
    let b := b.fill bytes
    if bytes.length = 0 then .error (.error .disconnect)
    else
      let (i, bytesRead) := scanLine b.buf b.total b.bytesRead b.total 0
      if 0 < bytesRead then
        if 8 ≤ i ∧ b.buf.take 8 = ascii "SSH-2.0-" then
          .ok ({ b with bytesRead := bytesRead, sshidLen := i }, t)
        else
          -- a preliminary line is discarded, with all that is in the buffer
          readSshIdLoop fuel { b with total := 0, bytesRead := 0 } t
      else readSshIdLoop fuel { b with bytesRead := bytesRead } t

/-- `SshRead::read_ssh_id` on a fresh `SshRead`. -/
def readSshId (t : Transport) : Except Fault (ReadSshIdBuffer × Transport) :=
  readSshIdLoop (t.bytes.length + 1) .new t

/-- `SshRead`. -/
structure SshRead where
  /-- The buffer of the identification line. -/
  id : Option ReadSshIdBuffer
  /-- The transport. -/
  r : Transport

/-- `SshRead::poll_read` for a reader with a capacity; `put_slice` panics
when it is exceeded. -/
def SshRead.pollRead (s : SshRead) (capacity : Nat) : Except Fault (Bytes × SshRead) :=
  let inner : Except Fault (Bytes × SshRead) :=
    let (bytes, r) := s.r.poll capacity
    .ok (bytes, ⟨none, r⟩)
  match s.id with
  | some id =>
    if id.total > id.bytesRead then do
      let part ← slice id.buf id.bytesRead id.total
      if part.length ≤ capacity then
        .ok (part, { s with id := some { id with bytesRead := id.total } })
      else .error .panic
    else inner
  | none => inner

/-- Readers with these capacities, one after the other, and what each of them gets. -/
def SshRead.polls (s : SshRead) : List Nat → Except Fault (List Bytes × SshRead)
  | [] => .ok ([], s)
  | capacity :: rest => do
    let (bytes, s) ← s.pollRead capacity
    let (all, s) ← s.polls rest
    .ok (bytes :: all, s)

/-- What is left over from the identification. -/
def SshRead.leftover (s : SshRead) : Bytes := s.id.elim [] ReadSshIdBuffer.leftover

/-- All bytes that have not been handed out. -/
def SshRead.pending (s : SshRead) : Bytes := s.leftover ++ s.r.bytes

/-- What is counted in the buffer is there. -/
def SshRead.Counted (s : SshRead) : Prop := ∀ id, s.id = some id → id.total ≤ id.buf.length

/-! ### What is in the buffer -/

/-- A read never returns more than there is room for. -/
theorem read_length (t : Transport) (capacity : Nat) : (t.read capacity).1.length ≤ capacity := by
  simp only [Transport.read, List.length_take]
  omega

theorem read_bytes (t : Transport) (capacity : Nat) :
    (t.read capacity).1 ++ (t.read capacity).2.bytes = t.bytes := List.take_append_drop _ _

/-- Bytes that there is room for are put behind those in the buffer. -/
theorem fill_counted {b : ReadSshIdBuffer} {bytes : Bytes} (hb : b.total ≤ b.buf.length)
    (hroom : bytes.length ≤ b.buf.length - b.total) :
    (b.fill bytes).buf.length = b.buf.length ∧ (b.fill bytes).total ≤ b.buf.length ∧
      (b.fill bytes).buf.take (b.fill bytes).total = b.buf.take b.total ++ bytes := by
  have htake : (b.buf.take b.total ++ bytes).length = b.total + bytes.length := by
    rw [List.length_append, List.length_take]
    omega
  refine ⟨?_, ?_, ?_⟩
  · simp only [ReadSshIdBuffer.fill, List.length_append, List.length_take, List.length_drop]
    omega
  · simp only [ReadSshIdBuffer.fill]
    omega
  · simp only [ReadSshIdBuffer.fill]
    rw [← htake, List.take_left]

/-- The identification leaves a buffer that holds what is counted in it. -/
theorem readSshIdLoop_counted {fuel : Nat} {b b' : ReadSshIdBuffer} {t t' : Transport}
    (hb : b.total ≤ b.buf.length) (h : readSshIdLoop fuel b t = .ok (b', t')) :
    b'.total ≤ b'.buf.length := by
  induction fuel generalizing b t with
  | zero => cases h
  | succ fuel ih =>
    have hroom := read_length t (b.buf.length - b.total)
    obtain ⟨hlength, htotal, -⟩ := fill_counted hb hroom
    unfold readSshIdLoop at h
    simp only at h
    split at h
    · cases h
    split at h
    · split at h
      · cases h
        rw [hlength]
        exact htotal
      · exact ih (Nat.zero_le _) h
    · refine ih ?_ h
      dsimp only
      rw [hlength]
      exact htotal

theorem readSshId_counted {t t' : Transport} {b : ReadSshIdBuffer}
    (h : readSshId t = .ok (b, t')) : (⟨some b, t'⟩ : SshRead).Counted := by
  rintro id ⟨⟩
  exact readSshIdLoop_counted (Nat.zero_le _) h

/-! ### What the later readers get -/

section
variable {s s' : SshRead}

/-- Without a leftover a reader gets what the transport has ready. -/
theorem pollRead_inner (h : s.leftover = []) (hcounted : s.Counted) (capacity : Nat) :
    s.pollRead capacity =
      .ok ((s.r.poll capacity).1, ⟨none, (s.r.poll capacity).2⟩) := by
  unfold SshRead.pollRead
  cases hid : s.id with
  | none => rfl
  | some id =>
    have hnone : ¬ id.total > id.bytesRead := by
      have hcount := hcounted id hid
      rw [SshRead.leftover, hid] at h
      have hlength := congrArg List.length h
      simp only [Option.elim_some, ReadSshIdBuffer.leftover, List.length_drop, List.length_take,
        List.length_nil] at hlength
      omega
    dsimp only
    rw [if_neg hnone]

/-- A leftover goes to one reader as a whole, if there is room for it. -/
theorem pollRead_leftover (h : s.leftover ≠ []) (hcounted : s.Counted) (capacity : Nat) :
    (s.leftover.length ≤ capacity ∧ ∃ s', s.pollRead capacity = .ok (s.leftover, s') ∧
        s'.leftover = [] ∧ s'.Counted ∧ s'.r = s.r) ∨
      (capacity < s.leftover.length ∧ s.pollRead capacity = .error .panic) := by
  cases hid : s.id with
  | none =>
    rw [SshRead.leftover, hid] at h
    exact absurd rfl h
  | some id =>
    have hcount := hcounted id hid
    have hleftover : s.leftover = (id.buf.take id.total).drop id.bytesRead := by
      rw [SshRead.leftover, hid]
      rfl
    have hlength : s.leftover.length = id.total - id.bytesRead := by
      rw [hleftover, List.length_drop, List.length_take]
      omega
    have hmore : id.total > id.bytesRead := by
      have hpos := List.length_pos_of_ne_nil h
      omega
    have hslice : slice id.buf id.bytesRead id.total = .ok s.leftover := by
      rw [slice, if_pos ⟨by omega, hcount⟩, hleftover]
    unfold SshRead.pollRead
    simp only [hid, if_pos hmore, hslice, bind, Except.bind]
    by_cases hroom : s.leftover.length ≤ capacity
    · refine .inl ⟨hroom, ⟨some { id with bytesRead := id.total }, s.r⟩, ?_, ?_, ?_, rfl⟩
      · rw [if_pos hroom]
      · simp only [SshRead.leftover, Option.elim_some, ReadSshIdBuffer.leftover]
        exact List.drop_eq_nil_of_le (by rw [List.length_take]; omega)
      · rintro id' ⟨⟩
        exact hcount
    · exact .inr ⟨by omega, if_neg hroom⟩

/-- What a transport hands out fits the reader, and is no longer to come. -/
theorem poll_bytes (t : Transport) (capacity : Nat) :
    (t.poll capacity).1.length ≤ capacity ∧
      (t.poll capacity).1 ++ (t.poll capacity).2.bytes = t.bytes := by
  constructor
  · simp only [Transport.poll, List.length_take]
    omega
  · exact List.take_append_drop _ _

/-- What readers get is what was pending, in order, and never more than they
have room for. -/
def SshRead.Delivers (s : SshRead) (capacities : List Nat) : Prop :=
  ∃ all s', s.polls capacities = .ok (all, s') ∧
    List.Forall₂ (fun bytes capacity => bytes.length ≤ capacity) all capacities ∧
    all.flatten ++ s'.pending = s.pending

/-- Without a leftover all readers are served. -/
theorem delivers_of_empty (h : s.leftover = []) (hcounted : s.Counted) (capacities : List Nat) :
    s.Delivers capacities := by
  induction capacities generalizing s with
  | nil => exact ⟨[], s, rfl, .nil, rfl⟩
  | cons capacity rest ih =>
    obtain ⟨hroom, hbytes⟩ := poll_bytes s.r capacity
    have hnone : (⟨none, (s.r.poll capacity).2⟩ : SshRead).Counted := by rintro id ⟨⟩
    obtain ⟨all, s', hpolls, hall, hpending⟩ := ih (s := ⟨none, (s.r.poll capacity).2⟩) rfl hnone
    refine ⟨(s.r.poll capacity).1 :: all, s', ?_, .cons hroom hall, ?_⟩
    · simp only [SshRead.polls, pollRead_inner h hcounted, bind, Except.bind, hpolls]
    · have hrest : (⟨none, (s.r.poll capacity).2⟩ : SshRead).pending =
          (s.r.poll capacity).2.bytes := rfl
      rw [List.flatten_cons, List.append_assoc, hpending, hrest, hbytes, SshRead.pending, h,
        List.nil_append]

/-- The readers after the identification get all that is left over and then
the bytes of the transport, if and only if the first of them has room for
all that is left over. -/
theorem delivers_iff (hcounted : s.Counted) (capacities : List Nat) :
    s.Delivers capacities ↔ ∀ capacity ∈ capacities.head?, s.leftover.length ≤ capacity := by
  by_cases h : s.leftover = []
  · have hzero : s.leftover.length = 0 := by rw [h, List.length_nil]
    exact iff_of_true (delivers_of_empty h hcounted capacities) fun capacity _ => by omega
  cases capacities with
  | nil => exact iff_of_true ⟨[], s, rfl, .nil, rfl⟩ (by simp)
  | cons capacity rest =>
    rcases pollRead_leftover h hcounted capacity with ⟨hroom, s1, hpoll, hempty, hcounted1, hr⟩ |
      ⟨hcapacity, hpanic⟩
    · refine iff_of_true ?_ (by simpa using hroom)
      obtain ⟨all, s', hpolls, hall, hpending⟩ := delivers_of_empty hempty hcounted1 rest
      refine ⟨s.leftover :: all, s', ?_, .cons hroom hall, ?_⟩
      · simp only [SshRead.polls, hpoll, bind, Except.bind, hpolls]
      · rw [List.flatten_cons, List.append_assoc, hpending, SshRead.pending, hempty, hr,
          List.nil_append, SshRead.pending]
    · refine iff_of_false ?_ (by simpa using hcapacity)
      rintro ⟨all, s', hpolls, -⟩
      simp only [SshRead.polls, hpanic, bind, Except.bind] at hpolls
      cases hpolls

end

/-- A server whose first packet starts to arrive with its identification line. -/
def Concrete.eager (bytes : Bytes) : Transport :=
  ⟨ascii "SSH-2.0-x" ++ [13, 10] ++ bytes, fun _ => 1024, 0⟩

/-- With four bytes of the packet the length of the packet is read, and what follows it. -/
theorem delivers_four :
    ∃ b t, readSshId (Concrete.eager [0, 0, 0, 12]) = .ok (b, t) ∧
      (⟨some b, t⟩ : SshRead).Delivers [4, 16] := by
  have hfour : (readSshId (Concrete.eager [0, 0, 0, 12])).toOption.map (·.1.leftover.length) =
      some 4 := by decide +kernel
  cases hread : readSshId (Concrete.eager [0, 0, 0, 12]) with
  | error e =>
    rw [hread] at hfour
    cases hfour
  | ok res =>
    obtain ⟨b, t⟩ := res
    rw [hread] at hfour
    have hleftover : b.leftover.length = 4 := Option.some.inj hfour
    refine ⟨b, t, rfl, (delivers_iff (readSshId_counted hread) [4, 16]).mpr ?_⟩
    rintro capacity ⟨⟩
    exact Nat.le_of_eq hleftover

/-- With five bytes of it the reader of the length panics. -/
theorem poll_panics :
    (match readSshId (Concrete.eager [0, 0, 0, 12, 10]) with
      | .ok (b, t) => match (⟨some b, t⟩ : SshRead).polls [4, 16] with
        | .ok _ => none
        | .error e => some e
      | .error _ => none) = some .panic := by
  decide +kernel

end Thrussh
