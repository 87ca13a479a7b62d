import Mathlib.Logic.Relation
import Thrussh.SshRead

/-!
# Where the identification line is found

`read_ssh_id` looks for the end of a line in what it has read so far. A line
that does not identify the peer is discarded together with all that has been
read behind it, and the search starts again at what the transport has not
handed out yet. So the identification line is found if and only if one of
these starts is its first byte.
-/

namespace Thrussh

/-! ### Lines -/

/-- The number of bytes up to the first LF behind the first byte. -/
def lineEnd : Bytes → Option Nat
  | [] => none
  | _ :: s => (s.findIdx? (· = 10)).map (· + 2)

/-- The length of a line, without its end, that takes a number of bytes. -/
def lineLength (s : Bytes) (n : Nat) : Nat := if s[n - 2]? = some 13 then n - 2 else n - 1

/-- Whether a line that takes a number of bytes identifies the peer. -/
def Identifies (s : Bytes) (n : Nat) : Prop := 8 ≤ lineLength s n ∧ s.take 8 = ascii "SSH-2.0-"

instance (s : Bytes) (n : Nat) : Decidable (Identifies s n) :=
  inferInstanceAs (Decidable (_ ∧ _))

theorem lineEnd_some {s : Bytes} {n : Nat} (h : lineEnd s = some n) :
    2 ≤ n ∧ n ≤ s.length ∧ s[n - 1]? = some 10 ∧ ∀ j, 1 ≤ j → j + 1 < n → s[j]? ≠ some 10 := by
  cases s with
  | nil => cases h
  | cons a s =>
    obtain ⟨k, hk, rfl⟩ := Option.map_eq_some_iff.mp h
    obtain ⟨hlt, hlf, hmin⟩ := List.findIdx?_eq_some_iff_getElem.mp hk
    refine ⟨by omega, ?_, ?_, ?_⟩
    · rw [List.length_cons]
      omega
    · have hindex : k + 2 - 1 = k + 1 := rfl
      rw [hindex, List.getElem?_cons_succ, List.getElem?_eq_getElem hlt]
      simpa using hlf
    · intro j hj hlast hnone
      obtain ⟨j, rfl⟩ := Nat.exists_eq_add_of_le' hj
      rw [List.getElem?_cons_succ] at hnone
      have hjk : j < k := by omega
      obtain ⟨hjlt, hget⟩ := List.getElem?_eq_some_iff.mp hnone
      exact absurd hget (by simpa using hmin j hjk)

theorem lineEnd_none {s : Bytes} (h : lineEnd s = none) (j : Nat) (hj : 1 ≤ j) :
    s[j]? ≠ some 10 := by
  cases s with
  | nil => simp
  | cons a s =>
    have hall := List.findIdx?_eq_none_iff.mp (Option.map_eq_none_iff.mp h)
    obtain ⟨j, rfl⟩ := Nat.exists_eq_add_of_le' hj
    rw [List.getElem?_cons_succ]
    intro hlf
    have hmem := List.mem_of_getElem? hlf
    simpa using hall 10 hmem

/-! ### The scanner -/

/-- The scanner stops at the end of the line that is in the buffer. -/
theorem scanLine_found {buf : Bytes} {total bytesRead n : Nat} (htwo : 2 ≤ n) (hn : n ≤ total)
    (hlf : buf[n - 1]? = some 10) (hmin : ∀ j, 1 ≤ j → j + 1 < n → buf[j]? ≠ some 10)
    {fuel i : Nat} (hi : i + 1 < n) (hfuel : n ≤ i + fuel + 1) :
    scanLine buf total bytesRead fuel i = (lineLength buf n, n) := by
  induction fuel generalizing i with
  | zero => omega
  | succ fuel ih =>
    have hroom : ¬ total - 1 ≤ i := by omega
    unfold scanLine
    rw [if_neg hroom]
    by_cases hlast : i + 2 = n
    · have hnext : buf[i + 1]? = some 10 := by
        rw [← hlf]
        congr 1
        omega
      have hbefore : n - 2 = i := by omega
      by_cases hcr : buf[i]? = some 13
      · rw [if_pos ⟨hcr, hnext⟩, lineLength, hbefore, if_pos hcr, hlast]
      · have hone : i + 1 = n - 1 := by omega
        rw [if_neg fun h => hcr h.1, if_pos hnext, lineLength, hbefore, if_neg hcr, hlast, hone]
    · have hnext : buf[i + 1]? ≠ some 10 := hmin (i + 1) (by omega) (by omega)
      rw [if_neg fun h => hnext h.2, if_neg hnext]
      exact ih (by omega) (by omega)

/-- It finds nothing where no line ends. -/
theorem scanLine_none {buf : Bytes} {total bytesRead : Nat}
    (hnone : ∀ j, 1 ≤ j → j < total → buf[j]? ≠ some 10) (fuel i : Nat) :
    (scanLine buf total bytesRead fuel i).2 = bytesRead := by
  induction fuel generalizing i with
  | zero => rfl
  | succ fuel ih =>
    unfold scanLine
    by_cases hroom : total - 1 ≤ i
    · rw [if_pos hroom]
    · have hnext : buf[i + 1]? ≠ some 10 := hnone (i + 1) (by omega) (by omega)
      rw [if_neg hroom, if_neg fun h => hnext h.2, if_neg hnext]
      exact ih (i + 1)

/-! ### The reads up to the end of a line -/

/-- A read of something leaves less to come. -/
theorem read_lt {t : Transport} {capacity : Nat} (h : (t.read capacity).1.length ≠ 0) :
    (t.read capacity).2.bytes.length < t.bytes.length := by
  have hlength := congrArg List.length (read_bytes t capacity)
  rw [List.length_append] at hlength
  omega

/-- The loop does not depend on its fuel. -/
theorem readSshIdLoop_fuel {fuel fuel' : Nat} (b : ReadSshIdBuffer) (t : Transport)
    (hfuel : t.bytes.length < fuel) (hfuel' : t.bytes.length < fuel') :
    readSshIdLoop fuel b t = readSshIdLoop fuel' b t := by
  induction fuel generalizing b t fuel' with
  | zero => omega
  | succ fuel ih =>
    cases fuel' with
    | zero => omega
    | succ fuel' =>
      unfold readSshIdLoop
      by_cases hnone : (t.read (b.buf.length - b.total)).1.length = 0
      · simp only [if_pos hnone]
      · have hlt := read_lt hnone
        have hsame : ∀ b', readSshIdLoop fuel b' (t.read (b.buf.length - b.total)).2 =
            readSshIdLoop fuel' b' (t.read (b.buf.length - b.total)).2 :=
          fun b' => ih b' _ (by omega) (by omega)
        simp only [if_neg hnone, hsame]

/-- `read_ssh_id` from a buffer on. -/
def identify (b : ReadSshIdBuffer) (t : Transport) : Except Fault (ReadSshIdBuffer × Transport) :=
  readSshIdLoop (t.bytes.length + 1) b t

/-- One repetition, and the rest of the loop. -/
theorem identify_eq (b : ReadSshIdBuffer) (t : Transport) :
    identify b t =
      let r := t.read (b.buf.length - b.total)
      if r.1.length = 0 then .error (.error .disconnect)
      else
        let filled := b.fill r.1
        let found := scanLine filled.buf filled.total filled.bytesRead filled.total 0
        if 0 < found.2 then
          if 8 ≤ found.1 ∧ filled.buf.take 8 = ascii "SSH-2.0-" then
            .ok ({ filled with bytesRead := found.2, sshidLen := found.1 }, r.2)
          else identify { filled with total := 0, bytesRead := 0 } r.2
        else identify { filled with bytesRead := found.2 } r.2 := by
  by_cases hnone : (t.read (b.buf.length - b.total)).1.length = 0
  · rw [identify, readSshIdLoop]
    simp only [if_pos hnone]
  · have hlt := read_lt hnone
    have hsame : ∀ b', readSshIdLoop t.bytes.length b' (t.read (b.buf.length - b.total)).2 =
        identify b' (t.read (b.buf.length - b.total)).2 :=
      fun b' => readSshIdLoop_fuel b' _ hlt (Nat.lt_succ_self _)
    rw [identify, readSshIdLoop]
    simp only [if_neg hnone, hsame]

/-- The buffer holds a part of the stream behind a point, and the rest is to come. -/
structure Holds (b : ReadSshIdBuffer) (t : Transport) (s : Bytes) : Prop where
  /-- The buffer has its size. -/
  size : b.buf.length = 256
  /-- What is counted is in the buffer. -/
  total : b.total ≤ 256
  /-- What is counted was in the stream. -/
  le : b.total ≤ s.length
  /-- It is the start of it. -/
  held : b.buf.take b.total = s.take b.total
  /-- The rest is to come. -/
  rest : t.bytes = s.drop b.total
  /-- No line has been found. -/
  unread : b.bytesRead = 0

variable {b : ReadSshIdBuffer} {t : Transport} {s : Bytes}

/-- An empty buffer holds nothing. -/
theorem Holds.empty (hsize : b.buf.length = 256) (t : Transport) :
    Holds { b with total := 0, bytesRead := 0 } t t.bytes :=
  ⟨hsize, Nat.zero_le _, Nat.zero_le _, rfl, rfl, rfl⟩

/-- The bytes that are in the buffer. -/
theorem Holds.getElem? (h : Holds b t s) {j : Nat} (hj : j < b.total) : b.buf[j]? = s[j]? := by
  have hheld := congrArg (·[j]?) h.held
  simpa only [List.getElem?_take_of_lt hj] using hheld

/-- After a read the buffer holds more. -/
theorem Holds.fill (h : Holds b t s) :
    Holds (b.fill (t.read (256 - b.total)).1) (t.read (256 - b.total)).2 s := by
  have hroom := read_length t (256 - b.total)
  have hbytes := read_bytes t (256 - b.total)
  have hb : b.total ≤ b.buf.length := by rw [h.size]; exact h.total
  have hroom' : (t.read (256 - b.total)).1.length ≤ b.buf.length - b.total := by rwa [h.size]
  obtain ⟨hlength, htotal, hheld⟩ := fill_counted hb hroom'
  have hrest := h.rest
  have hle := h.le
  rw [← hbytes] at hrest
  have hlast := congrArg List.length hrest
  rw [List.length_append, List.length_drop] at hlast
  have hcount : (b.fill (t.read (256 - b.total)).1).total =
      b.total + (t.read (256 - b.total)).1.length := rfl
  refine ⟨hlength.trans h.size, h.size ▸ htotal, ?_, ?_, ?_, h.unread⟩
  · rw [hcount]
    omega
  · rw [hheld, hcount, h.held, List.take_add, ← hrest, List.take_left]
  · rw [hcount, ← List.drop_drop, ← hrest, List.drop_left]

/-- The reads of an identification up to the one that brings the last of
`need` bytes, from a number of bytes on: how many bytes there are then. -/
def fetch (need : Nat) : Nat → Nat → Transport → Nat × Transport
  | 0, total, t => (total, t)
  | fuel + 1, total, t =>
    if need ≤ total then (total, t)
    else
      fetch need fuel (total + (t.read (256 - total)).1.length) (t.read (256 - total)).2

/-- A search that does not find the identification line starts again behind
the read that brought the end of the line that it has found. -/
def Restarts (t t' : Transport) : Prop :=
  ∃ n, lineEnd t.bytes = some n ∧ n ≤ 256 ∧ ¬ Identifies t.bytes n ∧ t' = (fetch n n 0 t).2

/-- What is in the buffer of a line that is complete decides like the stream. -/
theorem Holds.line (h : Holds b t s) {n : Nat} (hend : lineEnd s = some n) (hn : n ≤ b.total) :
    scanLine b.buf b.total b.bytesRead b.total 0 = (lineLength s n, n) ∧
      (8 ≤ lineLength s n ∧ b.buf.take 8 = ascii "SSH-2.0-" ↔ Identifies s n) := by
  obtain ⟨htwo, -, hlf, hmin⟩ := lineEnd_some hend
  have hlength : lineLength b.buf n = lineLength s n := by
    rw [lineLength, lineLength, h.getElem? (by omega)]
  constructor
  · rw [scanLine_found htwo hn (by rw [h.getElem? (by omega), hlf]) ?_ (by omega) (by omega),
      hlength]
    intro j hj hjn
    rw [h.getElem? (by omega)]
    exact hmin j hj hjn
  · unfold Identifies
    refine and_congr_right fun height => ?_
    have height' : 8 ≤ n := by
      unfold lineLength at height
      split at height
      · omega
      · omega
    have htake : b.buf.take 8 = s.take 8 := by
      have hheld := congrArg (List.take 8) h.held
      rwa [List.take_take, List.take_take, Nat.min_eq_left (by omega)] at hheld
    rw [htake]

/-- Without the end of a line in the buffer nothing is found. -/
theorem Holds.noLine (h : Holds b t s) (hnone : ∀ j, 1 ≤ j → j < b.total → s[j]? ≠ some 10) :
    (scanLine b.buf b.total b.bytesRead b.total 0).2 = 0 := by
  rw [scanLine_none, h.unread]
  intro j hj hlt
  rw [h.getElem? hlt]
  exact hnone j hj hlt

/-- While there are more bytes and room for them, a read brings some. -/
theorem read_pos {t : Transport} {capacity : Nat} (hcapacity : 0 < capacity)
    (hbytes : 0 < t.bytes.length) : (t.read capacity).1.length ≠ 0 := by
  simp only [Transport.read, List.length_take]
  omega

/-- From a buffer that holds a part of a line, `read_ssh_id` reads up to the
end of the line; then it has found the line, or it starts again. -/
theorem identify_line {n : Nat} (hend : lineEnd s = some n) (hn : n ≤ 256) (h : Holds b t s)
    (hlt : b.total < n) (fuel : Nat) (hfuel : n ≤ b.total + fuel) :
    ∃ b', Holds b' (fetch n fuel b.total t).2 s ∧ n ≤ b'.total ∧
      identify b t = if Identifies s n then
          .ok ({ b' with bytesRead := n, sshidLen := lineLength s n }, (fetch n fuel b.total t).2)
        else identify { b' with total := 0, bytesRead := 0 } (fetch n fuel b.total t).2 := by
  induction fuel generalizing b t with
  | zero => omega
  | succ fuel ih =>
    obtain ⟨-, hle, -, hmin⟩ := lineEnd_some hend
    have hmore : 0 < t.bytes.length := by
      rw [h.rest, List.length_drop]
      omega
    have hsome : (t.read (256 - b.total)).1.length ≠ 0 := read_pos (by omega) hmore
    have hfilled := h.fill
    have hcount : (b.fill (t.read (256 - b.total)).1).total =
        b.total + (t.read (256 - b.total)).1.length := rfl
    have hfetch : fetch n (fuel + 1) b.total t =
        fetch n fuel (b.fill (t.read (256 - b.total)).1).total (t.read (256 - b.total)).2 := by
      rw [fetch, if_neg (by omega)]
      rfl
    rw [identify_eq, h.size]
    simp only [if_neg hsome]
    rw [hfetch]
    set filled := b.fill (t.read (256 - b.total)).1 with hset
    by_cases hin : n ≤ filled.total
    · -- the line is complete
      obtain ⟨hscan, hid⟩ := hfilled.line hend hin
      have hdone : fetch n fuel filled.total (t.read (256 - b.total)).2 =
          (filled.total, (t.read (256 - b.total)).2) := by
        cases fuel with
        | zero => rfl
        | succ fuel => rw [fetch, if_pos hin]
      rw [hdone]
      refine ⟨filled, hfilled, hin, ?_⟩
      have hpos : 0 < n := by omega
      simp only [hscan, if_pos hpos, hid]
    · -- more bytes are needed
      have hnoLine := hfilled.noLine fun j hj hjt => hmin j hj (by omega)
      have hunread := hfilled.unread
      simp only [hnoLine, Nat.lt_irrefl, if_false]
      have hsame : { filled with bytesRead := 0 } = filled := by rw [← hunread]
      rw [hsame]
      exact ih hfilled (by omega) (by omega)

/-- Without the end of a line in 256 bytes `read_ssh_id` fails. -/
theorem identify_noLine (hnone : ∀ j, 1 ≤ j → j < 256 → s[j]? ≠ some 10) (h : Holds b t s)
    (res : ReadSshIdBuffer × Transport) : identify b t ≠ .ok res := by
  obtain ⟨k, hk⟩ : ∃ k, t.bytes.length = k := ⟨_, rfl⟩
  induction k using Nat.strongRecOn generalizing b t with
  | ind k ih =>
    have hfilled := h.fill
    rw [identify_eq, h.size]
    by_cases hend : (t.read (256 - b.total)).1.length = 0
    · simp only [if_pos hend]
      exact fun h => by cases h
    · have hless := read_lt hend
      have htotal := hfilled.total
      have hnoLine := hfilled.noLine fun j hj hjt => hnone j hj (by omega)
      have hunread := hfilled.unread
      simp only [if_neg hend, hnoLine, Nat.lt_irrefl, if_false]
      set filled := b.fill (t.read (256 - b.total)).1 with hset
      have hsame : { filled with bytesRead := 0 } = filled := by rw [← hunread]
      rw [hsame]
      exact ih _ (by omega) hfilled rfl

/-! ### The searches -/

/-- A search that starts again starts behind the start of the one before. -/
theorem Restarts.later {t t' : Transport} (h : Restarts t t') :
    t'.bytes <:+ t.bytes ∧ t'.bytes.length < t.bytes.length := by
  obtain ⟨n, hend, hn, -, rfl⟩ := h
  obtain ⟨htwo, hle, -, -⟩ := lineEnd_some hend
  have hempty := Holds.empty (b := .new) (length_zeros 256) t
  obtain ⟨b', hholds, hcount, -⟩ := identify_line hend hn hempty (by dsimp only; omega) n
    (by dsimp only; omega)
  have hrest : (fetch n n 0 t).2.bytes = t.bytes.drop b'.total := hholds.rest
  rw [hrest]
  refine ⟨List.drop_suffix _ _, ?_⟩
  rw [List.length_drop]
  omega

/-- A search that starts again goes on as from a fresh buffer. -/
theorem Restarts.identify {t t' : Transport} (h : Restarts t t') (hsize : b.buf.length = 256) :
    ∃ b' : ReadSshIdBuffer, b'.buf.length = 256 ∧
      Thrussh.identify { b with total := 0, bytesRead := 0 } t =
        Thrussh.identify { b' with total := 0, bytesRead := 0 } t' := by
  obtain ⟨n, hend, hn, hid, rfl⟩ := h
  obtain ⟨htwo, -, -, -⟩ := lineEnd_some hend
  obtain ⟨b', hholds, -, hrun⟩ := identify_line hend hn (Holds.empty hsize t)
    (by dsimp only; omega) n (by dsimp only; omega)
  rw [if_neg hid] at hrun
  exact ⟨b', hholds.size, hrun⟩

theorem identify_restarts {t t' : Transport} (h : Relation.ReflTransGen Restarts t t')
    (hsize : b.buf.length = 256) :
    ∃ b' : ReadSshIdBuffer, b'.buf.length = 256 ∧
      identify { b with total := 0, bytesRead := 0 } t =
        identify { b' with total := 0, bytesRead := 0 } t' := by
  induction h with
  | refl => exact ⟨b, hsize, rfl⟩
  | tail _ hstep ih =>
    obtain ⟨b1, hsize1, hrun⟩ := ih
    obtain ⟨b2, hsize2, hrun'⟩ := hstep.identify hsize1
    exact ⟨b2, hsize2, hrun.trans hrun'⟩

/-- What a search that finds its line returns. -/
theorem identify_identifies {t : Transport} {n : Nat} (hend : lineEnd t.bytes = some n)
    (hn : n ≤ 256) (hid : Identifies t.bytes n) (hsize : b.buf.length = 256) :
    ∃ b' t', identify { b with total := 0, bytesRead := 0 } t = .ok (b', t') ∧
      b'.id = t.bytes.take (lineLength t.bytes n) ∧ b'.leftover ++ t'.bytes = t.bytes.drop n := by
  obtain ⟨htwo, -, -, -⟩ := lineEnd_some hend
  obtain ⟨b', hholds, hcount, hrun⟩ := identify_line hend hn (Holds.empty hsize t)
    (by dsimp only; omega) n (by dsimp only; omega)
  rw [if_pos hid] at hrun
  refine ⟨_, _, hrun, ?_, ?_⟩
  · have hlength : lineLength t.bytes n ≤ b'.total := by
      unfold lineLength
      split
      · omega
      · omega
    have hheld := congrArg (List.take (lineLength t.bytes n)) hholds.held
    rw [List.take_take, List.take_take, Nat.min_eq_left hlength] at hheld
    exact hheld
  · have hcut : t.bytes.drop b'.total = (t.bytes.drop n).drop (b'.total - n) := by
      rw [List.drop_drop, Nat.add_sub_cancel' hcount]
    simp only [ReadSshIdBuffer.leftover]
    rw [hholds.held, hholds.rest, List.drop_take, hcut, List.take_append_drop]

/-- A search that succeeds gets by restarts to a line that identifies the
peer, and returns this line. -/
theorem identify_ok {t t' : Transport} {b' : ReadSshIdBuffer} (hsize : b.buf.length = 256)
    (h : identify { b with total := 0, bytesRead := 0 } t = .ok (b', t')) :
    ∃ t1 n, Relation.ReflTransGen Restarts t t1 ∧ lineEnd t1.bytes = some n ∧
      Identifies t1.bytes n ∧ b'.id = t1.bytes.take (lineLength t1.bytes n) ∧
      b'.leftover ++ t'.bytes = t1.bytes.drop n := by
  obtain ⟨k, hk⟩ : ∃ k, t.bytes.length = k := ⟨_, rfl⟩
  induction k using Nat.strongRecOn generalizing b t with
  | ind k ih =>
    have hshort : ∃ n, lineEnd t.bytes = some n ∧ n ≤ 256 := by
      by_contra hnone
      refine identify_noLine (fun j hj hjt hlf => hnone ?_) (Holds.empty hsize t) _ h
      cases hend : lineEnd t.bytes with
      | none => exact absurd hlf (lineEnd_none hend j hj)
      | some n =>
        obtain ⟨-, -, -, hmin⟩ := lineEnd_some hend
        have hn : n ≤ j + 1 := by
          by_contra hlt
          exact hmin j hj (by omega) hlf
        exact ⟨n, rfl, by omega⟩
    obtain ⟨n, hend, hn⟩ := hshort
    by_cases hid : Identifies t.bytes n
    · obtain ⟨b1, t1, hrun, hline, hrest⟩ := identify_identifies hend hn hid hsize
      rw [h] at hrun
      cases hrun
      exact ⟨t, n, .refl, hend, hid, hline, hrest⟩
    · have hstep : Restarts t (fetch n n 0 t).2 := ⟨n, hend, hn, hid, rfl⟩
      obtain ⟨b1, hsize1, hrun⟩ := hstep.identify hsize
      rw [hrun] at h
      obtain ⟨t1, m, hreach, hfound⟩ := ih _ (hk ▸ hstep.later.2) hsize1 h rfl
      exact ⟨t1, m, .head hstep hreach, hfound⟩

/-! ### A greeting -/

/-- A line and its end. -/
structure Line where
  /-- The line without its end. -/
  content : Bytes
  /-- Whether it ends with CRLF, and not with LF. -/
  crlf : Bool
  /-- It is not empty. -/
  nonempty : content ≠ []
  /-- It is short. -/
  short : content.length ≤ 254
  /-- It is one line. -/
  noLf : 10 ∉ content
  /-- A CR before the LF belongs to the end. -/
  noCr : crlf = false → content.getLast? ≠ some 13

/-- The bytes of a line, with its end. -/
def Line.bytes (l : Line) : Bytes := l.content ++ if l.crlf then [13, 10] else [10]

theorem Line.length_bytes (l : Line) :
    l.bytes.length = l.content.length + if l.crlf then 2 else 1 := by
  cases hcrlf : l.crlf with
  | true => simp [Line.bytes, hcrlf]
  | false => simp [Line.bytes, hcrlf]

/-- The scanner takes the bytes of a line for a line. -/
theorem Line.end (l : Line) (rest : Bytes) :
    lineEnd (l.bytes ++ rest) = some l.bytes.length := by
  have hlength := l.length_bytes
  cases hcontent : l.content with
  | nil => exact absurd hcontent l.nonempty
  | cons a content =>
    have hnone : content.findIdx? (· = 10) = none := by
      rw [List.findIdx?_eq_none_iff]
      intro x hx
      have hne : x ≠ 10 := fun h => l.noLf (by rw [hcontent, ← h]; exact .tail _ hx)
      simpa using hne
    rw [hcontent, List.length_cons] at hlength
    cases hcrlf : l.crlf with
    | true =>
      rw [hcrlf, if_pos rfl] at hlength
      rw [hlength, Line.bytes, hcontent, hcrlf, if_pos rfl, List.append_assoc, List.cons_append,
        lineEnd, List.findIdx?_append, hnone]
      simp [List.findIdx?_cons]
      omega
    | false =>
      rw [hcrlf, if_neg Bool.false_ne_true] at hlength
      rw [hlength, Line.bytes, hcontent, hcrlf, if_neg Bool.false_ne_true, List.append_assoc,
        List.cons_append, lineEnd, List.findIdx?_append, hnone]
      simp [List.findIdx?_cons]

/-- It takes the content for the line without its end. -/
theorem Line.length_line (l : Line) (rest : Bytes) :
    lineLength (l.bytes ++ rest) l.bytes.length = l.content.length := by
  have hpos := List.length_pos_of_ne_nil l.nonempty
  rw [l.length_bytes, lineLength]
  cases hcrlf : l.crlf with
  | true =>
    have hcr : (l.bytes ++ rest)[l.content.length]? = some 13 := by
      simp [Line.bytes, hcrlf]
    rw [if_pos rfl, Nat.add_sub_cancel, if_pos hcr]
  | false =>
    have hlast : (l.bytes ++ rest)[l.content.length + 1 - 2]? = l.content.getLast? := by
      rw [List.getLast?_eq_getElem?, Line.bytes, List.append_assoc,
        List.getElem?_append_left (by omega)]
      rfl
    rw [if_neg Bool.false_ne_true, hlast, if_neg (l.noCr hcrlf), Nat.add_sub_cancel]

/-- The content is the start of the bytes. -/
theorem Line.take_content (l : Line) (rest : Bytes) :
    (l.bytes ++ rest).take l.content.length = l.content := by
  rw [Line.bytes, List.append_assoc, List.take_left]

/-- A line fits into the buffer. -/
theorem Line.fits (l : Line) : l.bytes.length ≤ 256 := by
  have hshort := l.short
  rw [l.length_bytes]
  split
  · omega
  · omega

/-- A line that starts as an identification does is taken for one. -/
theorem Line.identifies {l : Line} (h : ascii "SSH-2.0-" <+: l.content) (rest : Bytes) :
    Identifies (l.bytes ++ rest) l.bytes.length := by
  obtain ⟨version, hversion⟩ := h
  have height : (ascii "SSH-2.0-").length = 8 := by decide
  constructor
  · rw [l.length_line, ← hversion, List.length_append]
    omega
  · rw [Line.bytes, ← hversion, List.append_assoc, List.append_assoc, ← height, List.take_left]

/-- What a server sends first: any number of preliminary lines, and its
identification. -/
structure Greeting where
  /-- The preliminary lines. -/
  preliminary : List Line
  /-- None of them looks like an identification. -/
  plain : ∀ l ∈ preliminary, ¬ ascii "SSH-2.0-" <+: l.content
  /-- The identification line. -/
  ident : Line
  /-- It starts as it must. -/
  marked : ascii "SSH-2.0-" <+: ident.content
  /-- What follows it. -/
  rest : Bytes

/-- The bytes of a greeting. -/
def Greeting.stream (g : Greeting) : Bytes :=
  g.preliminary.flatMap Line.bytes ++ (g.ident.bytes ++ g.rest)

/-- `read_ssh_id` returns the identification line without its end, and
nothing behind it is lost. -/
def Greeting.Found (g : Greeting) (split : Nat → Nat) : Prop :=
  ∃ b t, readSshId ⟨g.stream, split, 0⟩ = .ok (b, t) ∧ b.id = g.ident.content ∧
    b.leftover ++ t.bytes = g.rest

/-- A list that starts with `SSH-2.0-` is not shifted by a byte. -/
theorem shifted_ne {content : Bytes} (h : ascii "SSH-2.0-" <+: content) (x y : UInt8) :
    x :: content ≠ content ++ [y] := by
  obtain ⟨version, rfl⟩ := h
  have hmark : ascii "SSH-2.0-" = [83, 83, 72, 45, 50, 46, 48, 45] := by decide
  rw [hmark]
  intro h
  simp at h

/-- Behind the content of an identification line the two ends of a line are
not both the end of one stream. -/
theorem ends_disjoint {content rest stream : Bytes} (hmark : ascii "SSH-2.0-" <+: content)
    (hcrlf : content ++ 13 :: 10 :: rest <:+ stream) (hlf : content ++ 10 :: rest <:+ stream) :
    False := by
  have hshorter : (content ++ 10 :: rest).length ≤ (content ++ 13 :: 10 :: rest).length := by
    simp only [List.length_append, List.length_cons]
    omega
  obtain ⟨front, hfront⟩ := List.suffix_of_suffix_length_le hlf hcrlf hshorter
  have hone : front.length = 1 := by
    have hlength := congrArg List.length hfront
    simp only [List.length_append, List.length_cons] at hlength
    omega
  obtain ⟨x, rfl⟩ := List.length_eq_one_iff.mp hone
  have hshifted : [x] ++ content ++ 10 :: rest = content ++ [13] ++ 10 :: rest := by
    rw [List.append_assoc, hfront, List.append_assoc, List.singleton_append]
  exact shifted_ne hmark x 13 (List.append_cancel_right hshifted)

/-- The end of a stream that is the content of an identification line, the
end of a line and what follows, is the one with the line's own end. -/
theorem Line.end_unique {l : Line} (hmark : ascii "SSH-2.0-" <+: l.content) {rest stream : Bytes}
    (hstream : l.bytes ++ rest <:+ stream) {ending : Bytes}
    (hending : ending = [13, 10] ∨ ending = [10])
    (h : l.content ++ ending ++ rest <:+ stream) :
    l.content ++ ending ++ rest = l.bytes ++ rest := by
  rw [Line.bytes, List.append_assoc] at hstream ⊢
  rw [List.append_assoc] at h ⊢
  cases hcrlf : l.crlf with
  | true =>
    rw [hcrlf, if_pos rfl] at hstream
    rcases hending with rfl | rfl
    · rw [if_pos rfl]
    · exact (ends_disjoint hmark hstream h).elim
  | false =>
    rw [hcrlf, if_neg Bool.false_ne_true] at hstream
    rcases hending with rfl | rfl
    · exact (ends_disjoint hmark h hstream).elim
    · rw [if_neg Bool.false_ne_true]

/-- What the scanner takes for a line is the line and one of the two ends. -/
theorem take_lineEnd {s : Bytes} {n : Nat} (hend : lineEnd s = some n) :
    ∃ ending : Bytes, (ending = [13, 10] ∨ ending = [10]) ∧
      s = s.take (lineLength s n) ++ ending ++ s.drop n := by
  obtain ⟨htwo, hle, hlf, -⟩ := lineEnd_some hend
  obtain ⟨hlt, hget⟩ := List.getElem?_eq_some_iff.mp hlf
  have hlast : s.drop (n - 1) = 10 :: s.drop n := by
    rw [List.drop_eq_getElem_cons hlt, hget, Nat.sub_add_cancel (by omega)]
  unfold lineLength
  by_cases hcr : s[n - 2]? = some 13
  · obtain ⟨hlt', hget'⟩ := List.getElem?_eq_some_iff.mp hcr
    have hboth : s.drop (n - 2) = 13 :: 10 :: s.drop n := by
      have hnext : n - 2 + 1 = n - 1 := by omega
      rw [List.drop_eq_getElem_cons hlt', hget', hnext, hlast]
    refine ⟨[13, 10], .inl rfl, ?_⟩
    rw [if_pos hcr, List.append_assoc]
    exact (List.take_append_drop (n - 2) s).symm.trans (by rw [hboth]; rfl)
  · refine ⟨[10], .inr rfl, ?_⟩
    rw [if_neg hcr, List.append_assoc]
    exact (List.take_append_drop (n - 1) s).symm.trans (by rw [hlast]; rfl)

/-- A search that starts again after some others starts at an end of the stream. -/
theorem suffix_of_restarts {t t' : Transport} (h : Relation.ReflTransGen Restarts t t') :
    t'.bytes <:+ t.bytes := by
  induction h with
  | refl => exact List.suffix_rfl
  | tail _ hstep ih => exact hstep.later.1.trans ih

/-- The identification line of a greeting is found if and only if one of the
searches for the end of a line starts at its first byte: the first search
starts at the first byte of the stream, and each of the others behind the
read that has brought the end of a line that does not identify the peer. -/
theorem Greeting.found_iff (g : Greeting) (split : Nat → Nat) :
    g.Found split ↔ ∃ t, Relation.ReflTransGen Restarts ⟨g.stream, split, 0⟩ t ∧
      t.bytes = g.ident.bytes ++ g.rest := by
  have hnew : readSshId ⟨g.stream, split, 0⟩ =
      identify { ReadSshIdBuffer.new with total := 0, bytesRead := 0 } ⟨g.stream, split, 0⟩ := rfl
  have hsize : ReadSshIdBuffer.new.buf.length = 256 := length_zeros 256
  constructor
  · rintro ⟨b, t', hrun, hline, hrest⟩
    rw [hnew] at hrun
    obtain ⟨t, n, hreach, hend, hid, hline', hrest'⟩ := identify_ok hsize hrun
    obtain ⟨ending, hending, hbytes⟩ := take_lineEnd hend
    rw [← hline', ← hrest', hline, hrest] at hbytes
    refine ⟨t, hreach, ?_⟩
    have hsuffix := suffix_of_restarts hreach
    rw [hbytes] at hsuffix
    rw [hbytes]
    exact Line.end_unique g.marked (List.suffix_append _ _) hending hsuffix
  · rintro ⟨t, hreach, hbytes⟩
    obtain ⟨b, hsize', hrun⟩ := identify_restarts hreach hsize
    have hend : lineEnd t.bytes = some g.ident.bytes.length := by rw [hbytes, g.ident.end]
    have hid : Identifies t.bytes g.ident.bytes.length := by
      rw [hbytes]
      exact Line.identifies g.marked g.rest
    obtain ⟨b', t', hfound, hline, hrest⟩ := identify_identifies hend g.ident.fits hid hsize'
    refine ⟨b', t', by rw [hnew, hrun, hfound], ?_, ?_⟩
    · rw [hline, hbytes, g.ident.length_line, g.ident.take_content]
    · rw [hrest, hbytes, List.drop_left]

/-- A preliminary line and the identification line in one read. -/
def Concrete.banner : Greeting where
  preliminary := [⟨ascii "hello", true, by decide, by decide, by decide, by decide⟩]
  plain := by decide
  ident := ⟨ascii "SSH-2.0-x", true, by decide, by decide, by decide, by decide⟩
  marked := by decide
  rest := []

/-- The identification line behind a preliminary line is lost with it if both
come in one read. -/
theorem banner_lost : ¬ Concrete.banner.Found fun _ => 1024 := by
  have hlost : (readSshId ⟨Concrete.banner.stream, fun _ => 1024, 0⟩).isOk = false := by
    decide +kernel
  rintro ⟨b, t, hrun, -⟩
  rw [hrun] at hlost
  cases hlost

end Thrussh
