import Thrussh.Concrete

/-!
# What the loops pass on

A payload is passed on to `decompress`, or to `reply` in the clear, in the
turn in which `cipher::read` returned it: always in the client's loop, and
in the server's loop exactly as long as no failing read leaves a payload in
the shared buffer.
-/

namespace Thrussh

namespace Loop

/-- A condition on every event of a run and the state it happens in. -/
def Along {S M : Type} (step : Loop S → Event M → Loop S) (P : Loop S → Event M → Prop) :
    Loop S → List (Event M) → Prop
  | _, [] => True
  | l, e :: events => P l e ∧ Along step P (step l e) events

/-- Two conditions that agree in the states an invariant allows agree along every run. -/
theorem along_congr {S M : Type} {step : Loop S → Event M → Loop S}
    {P Q : Loop S → Event M → Prop} {I : Loop S → Prop}
    (hstep : ∀ l e, I l → I (step l e)) (hiff : ∀ l e, I l → (P l e ↔ Q l e)) {l : Loop S}
    (hl : I l) (events : List (Event M)) : Along step P l events ↔ Along step Q l events := by
  induction events generalizing l with
  | nil => exact Iff.rfl
  | cons e events ih => exact and_congr (hiff l e hl) (ih (hstep l e hl))

/-- What holds of every event holds along every run. -/
theorem Along.of_forall {S M : Type} {step : Loop S → Event M → Loop S}
    {P : Loop S → Event M → Prop} (h : ∀ l e, P l e) (l : Loop S) (events : List (Event M)) :
    Along step P l events := by
  induction events generalizing l with
  | nil => exact trivial
  | cons e events ih => exact ⟨h l e, ih _⟩

/-- What the events of a run keep under a condition holds in its end. -/
theorem Along.kept {S M : Type} {step : Loop S → Event M → Loop S} {P : Loop S → Event M → Prop}
    {I : Loop S → Prop} (hstep : ∀ l e, I l → P l e → I (step l e)) {l : Loop S} (hl : I l)
    {events : List (Event M)} (h : Along step P l events) : I (events.foldl step l) := by
  induction events generalizing l with
  | nil => exact hl
  | cons e events ih => exact ih (hstep l e hl h.1) h.2

/-- A condition along a run implies another one where an invariant says so. -/
theorem Along.imp {S M : Type} {step : Loop S → Event M → Loop S} {P Q : Loop S → Event M → Prop}
    {I : Loop S → Prop} (hstep : ∀ l e, I l → P l e → I (step l e))
    (himp : ∀ l e, I l → P l e → Q l e) {l : Loop S} (hl : I l) {events : List (Event M)}
    (h : Along step P l events) : Along step Q l events := by
  induction events generalizing l with
  | nil => exact trivial
  | cons e events ih => exact ⟨himp l e hl h.1, ih (hstep l e hl h.1) h.2⟩

/-- A condition along a run holds along its end. -/
theorem Along.of_append {S M : Type} {step : Loop S → Event M → Loop S}
    {P : Loop S → Event M → Prop} {l : Loop S} {events events' : List (Event M)}
    (h : Along step P l (events ++ events')) : Along step P (events.foldl step l) events' := by
  induction events generalizing l with
  | nil => exact h
  | cons e events ih => exact ih h.2

/-- A condition along a run holds along its beginning. -/
theorem Along.before {S M : Type} {step : Loop S → Event M → Loop S}
    {P : Loop S → Event M → Prop} {l : Loop S} {events events' : List (Event M)}
    (h : Along step P l (events ++ events')) : Along step P l events := by
  induction events generalizing l with
  | nil => exact trivial
  | cons e events ih => exact ⟨h.1, ih h.2⟩

@[simp] theorem fail_passed {S : Type} (l : Loop S) (s : S) (e : Fault) :
    (l.fail s e).passed = l.passed := rfl

instance {S M : Type} (step : Loop S → Event M → Loop S) (P : Loop S → Event M → Prop)
    [∀ l e, Decidable (P l e)] : ∀ l events, Decidable (Along step P l events)
  | _, [] => inferInstanceAs (Decidable True)
  | l, e :: events =>
    have := instDecidableAlong step P (step l e) events
    inferInstanceAs (Decidable (P l e ∧ Along step P (step l e) events))

section
variable [Deps] {C S M : Type} [SessionConfig C] (d : Driver C S M)

/-- Whether the loop passes a payload on. -/
def heeds (l : Loop S) (payload : Bytes) : Bool :=
  (d.common l.session).encrypted.isSome || served payload

/-- Whether the loop passes on what a read has left in its buffer. -/
def passesOn (l : Loop S) (b : SSHBuffer) : Bool :=
  5 ≤ b.buffer.length && heeds d l (b.buffer.drop 5)

/-- The entries that a turn ending in a given buffer adds to the history. -/
def entry (l : Loop S) (b : SSHBuffer) (fresh : Bool) : List Passed :=
  if passesOn d l b then [⟨b.buffer.drop 5, fresh⟩] else []

/-- The bytes that the length field in front of the stream announces, the tag among them. -/
def announced (l : Loop S) : Option Nat :=
  let key := (d.common l.session).cipher.remoteToLocal
  if 4 ≤ l.stream.length then
    (key.packetLength l.buffer.seqn (l.stream.take 4)).map fun len => len.toNat + key.tagLen
  else none

/-- The first packet of the stream, all of it, with its length field and its tag. -/
def firstPacket (l : Loop S) (n : Nat) : Bytes := l.stream.take (4 + n)

/-- Where the tag of the first packet begins. -/
def tagStart (l : Loop S) (n : Nat) : Nat :=
  (l.firstPacket n).length - (d.common l.session).cipher.remoteToLocal.tagLen

/-- `open` on the first packet of the stream and its tag. -/
def opening (l : Loop S) (n : Nat) : Option Bytes :=
  (d.common l.session).cipher.remoteToLocal.open l.buffer.seqn
    ((l.firstPacket n).take (l.tagStart d n)) ((l.firstPacket n).drop (l.tagStart d n))

/-- Nothing that the loop heeds stands before the end of the stream. -/
structure EndsClean (l : Loop S) : Prop where
  /-- Nothing left in the buffer, where no length field has arrived. -/
  left : l.eof = true → l.stream.length < 4 → 5 ≤ l.buffer.buffer.length →
    heeds d l (l.buffer.buffer.drop 5) = false
  /-- Nothing in the stream, where the announced bytes have not arrived. -/
  cut : ∀ n ∈ l.announced d, l.eof = true → l.stream.length < 4 + n →
    heeds d l (l.stream.drop 5) = false

/-- Nothing that the loop heeds stands where a read fails: before the end of
the stream, under a wrong tag, or over a padding longer than the packet. -/
structure ReadsClean (l : Loop S) : Prop extends EndsClean d l where
  /-- Nothing under a tag that does not verify. -/
  tag : ∀ n ∈ l.announced d, 4 + n ≤ l.stream.length → l.opening d n = none →
    heeds d l ((l.firstPacket n).drop 5) = false
  /-- Nothing in a packet whose padding is longer than itself. -/
  padding : ∀ n ∈ l.announced d, 4 + n ≤ l.stream.length → ∀ opened ∈ l.opening d n,
    ∀ paddingLength ∈ opened[4]?, opened.length < 4 + paddingLength.toNat →
      heeds d l ((opened ++ (l.firstPacket n).drop (l.tagStart d n)).drop 5) = false

instance (l : Loop S) : Decidable (EndsClean d l) :=
  decidable_of_iff (_ ∧ _) ⟨fun h => ⟨h.1, h.2⟩, fun h => ⟨h.left, h.cut⟩⟩

instance (l : Loop S) : Decidable (ReadsClean d l) :=
  -- Bytes are looked up, not tried one by one.
  have (o : Option UInt8) (P : UInt8 → Prop) [DecidablePred P] : Decidable (∀ a ∈ o, P a) :=
    Option.decidableForallMem o
  decidable_of_iff (EndsClean d l ∧ _ ∧ _)
    ⟨fun h => ⟨h.1, h.2.1, h.2.2⟩, fun h => ⟨h.toEndsClean, h.tag, h.padding⟩⟩

/-- A condition on the state before every read of a running loop. -/
def BeforeRead (P : Loop S → Prop) (l : Loop S) : Event M → Prop
  | .read => l.stage = .running → P l
  | _ => True

instance (P : Loop S → Prop) [DecidablePred P] (l : Loop S) :
    ∀ e : Event M, Decidable (BeforeRead P l e)
  | .read => inferInstanceAs (Decidable (l.stage = .running → P l))
  | .arrive _ | .close | .message _ _ | .timeout => inferInstanceAs (Decidable True)

omit [Deps] in
/-- A payload filled up with zeros is served exactly when what has arrived of it is. -/
theorem served_resize {stream : Bytes} {n : Nat} (hlen : stream.length ≤ n) :
    served ((resize stream n).drop 5) = served (stream.drop 5) := by
  rw [resize, List.take_of_length_le hlen, List.drop_append]
  cases hdrop : stream.drop 5 with
  | cons m rest => rfl
  | nil =>
    rw [List.nil_append, zeros, List.drop_replicate]
    cases n - stream.length - (5 - stream.length) with
    | zero => rfl
    | succ k => rfl

omit [SessionConfig C] in
/-- What the loop heeds does not depend on the zeros behind it. -/
theorem heeds_resize (l : Loop S) {stream : Bytes} {n : Nat} (hlen : stream.length ≤ n) :
    heeds d l ((resize stream n).drop 5) = heeds d l (stream.drop 5) := by
  rw [heeds, heeds, served_resize hlen]

/-- A read does not fail, or leaves nothing that the loop passes on. -/
def FailsClean (l : Loop S) : ReadResult → Prop
  | .err _ buffer _ => passesOn d l buffer = false
  | _ => True

omit [SessionConfig C] in
/-- What the loop passes on out of a buffer of five bytes or more is what it heeds. -/
theorem passesOn_long (l : Loop S) (b : SSHBuffer) {bytes : Bytes} (hlong : 5 ≤ bytes.length) :
    passesOn d l { b with buffer := bytes } = heeds d l (bytes.drop 5) := by
  rw [passesOn, decide_eq_true hlong, Bool.true_and]

/-- The end of the stream does not make a whole packet fail. -/
theorem readPacket_ne_eof (pair : CipherPair) (b b' : SSHBuffer) (rest rest' : Bytes) :
    readPacket pair b rest ≠ .err .unexpectedEof b' rest' := by
  unfold readPacket
  dsimp only
  split
  · simp
  · split
    · simp
    · split <;> simp

omit [SessionConfig C] in
/-- A read that fails at the end of the stream leaves nothing that the loop passes on. -/
theorem EndsClean.fails {l : Loop S} (h : EndsClean d l) {b : SSHBuffer} {rest : Bytes}
    (hread : l.nextRead d = .err .unexpectedEof b rest) : passesOn d l b = false := by
  unfold nextRead Thrussh.read at hread
  by_cases hfield : l.stream.length < 4
  · rw [if_pos hfield] at hread
    cases heof : l.eof with
    | false =>
      rw [heof] at hread
      cases hread
    | true =>
      rw [heof] at hread
      cases hread
      simpa [passesOn] using h.left heof hfield
  · have hfour : 4 ≤ l.stream.length := by omega
    rw [if_neg hfield] at hread
    cases hlen : (d.common l.session).cipher.remoteToLocal.packetLength l.buffer.seqn
        (l.stream.take 4) with
    | none =>
      rw [hlen] at hread
      cases hread
    | some len =>
      rw [hlen] at hread
      dsimp only at hread
      split at hread
      · rename_i hcut
        have hclean := h.cut (len.toNat + (d.common l.session).cipher.remoteToLocal.tagLen)
          (by simp [announced, if_pos hfour, hlen])
        cases heof : l.eof with
        | false =>
          rw [heof] at hread
          cases hread
        | true =>
          rw [heof] at hread
          cases hread
          rw [passesOn_long d l l.buffer (by rw [length_resize]; omega),
            heeds_resize d l (by omega)]
          exact hclean heof hcut
      · exact absurd hread (readPacket_ne_eof _ _ _ _ _)

omit [SessionConfig C] in
/-- A whole packet that fails leaves nothing that the loop passes on exactly when it
heeds nothing under a wrong tag and nothing over a padding that is too long. -/
theorem readPacket_clean_iff (l : Loop S) {n : Nat}
    (htag : (d.common l.session).cipher.remoteToLocal.tagLen ≤ n)
    (hwhole : 4 + n ≤ l.stream.length) (rest : Bytes) :
    FailsClean d l (readPacket (d.common l.session).cipher
      { l.buffer with buffer := l.firstPacket n } rest) ↔
    (l.opening d n = none → heeds d l ((l.firstPacket n).drop 5) = false) ∧
    ∀ opened ∈ l.opening d n, ∀ paddingLength ∈ opened[4]?,
      opened.length < 4 + paddingLength.toNat →
        heeds d l ((opened ++ (l.firstPacket n).drop (l.tagStart d n)).drop 5) = false := by
  have hlength : (l.firstPacket n).length = 4 + n := by
    rw [firstPacket, List.length_take]
    omega
  have hopening : (d.common l.session).cipher.remoteToLocal.open l.buffer.seqn
      ((l.firstPacket n).take ((l.firstPacket n).length -
        (d.common l.session).cipher.remoteToLocal.tagLen))
      ((l.firstPacket n).drop ((l.firstPacket n).length -
        (d.common l.session).cipher.remoteToLocal.tagLen)) = l.opening d n := rfl
  unfold readPacket
  simp only [hopening]
  cases hopen : l.opening d n with
  | none =>
    -- only a key with a tag refuses
    have hlong : 5 ≤ (l.firstPacket n).length := by
      unfold opening at hopen
      cases hkey : (d.common l.session).cipher.remoteToLocal with
      | clear =>
        rw [hkey] at hopen
        cases hopen
      | chacha20Poly1305 key =>
        rw [hkey] at htag
        change 16 ≤ n at htag
        omega
    simp only [FailsClean]
    rw [passesOn_long d l l.buffer hlong]
    simp
  | some opened =>
    cases hdrop : opened.drop 4 with
    | nil =>
      have hnone : opened[4]? = none :=
        List.getElem?_eq_none (List.drop_eq_nil_iff.mp hdrop)
      simp [hdrop, FailsClean, hnone]
    | cons paddingLength body =>
      have hsome : opened[4]? = some paddingLength := by
        rw [← List.head?_drop, hdrop]
        rfl
      have hopened : opened.length = body.length + 5 := by
        have := congrArg List.length hdrop
        rw [List.length_drop, List.length_cons] at this
        omega
      by_cases hfits : paddingLength.toNat ≤ body.length + 1
      · have hnot : ¬ opened.length < 4 + paddingLength.toNat := by omega
        simp only [hdrop, if_pos hfits, FailsClean, Option.mem_some, hsome, forall_eq', hnot]
        simp
      · have hshort : opened.length < 4 + paddingLength.toNat := by omega
        have hlong : 5 ≤ (opened ++ (l.firstPacket n).drop (l.tagStart d n)).length := by
          rw [List.length_append]
          omega
        simp only [hdrop, if_neg hfits, FailsClean, Option.mem_some, hsome, forall_eq', hshort]
        change passesOn d l { l.buffer with
          buffer := opened ++ (l.firstPacket n).drop (l.tagStart d n) } = false ↔ _
        rw [passesOn_long d l l.buffer hlong]
        simp

omit [SessionConfig C] in
/-- The next read does not fail over something that the loop passes on, exactly
when nothing that it heeds has arrived where a read fails. -/
theorem readsClean_iff (l : Loop S) : ReadsClean d l ↔ FailsClean d l (l.nextRead d) := by
  unfold nextRead Thrussh.read
  by_cases hfield : l.stream.length < 4
  · have hnone : l.announced d = none := by
      rw [announced, if_neg (by omega)]
    rw [if_pos hfield]
    have hiff : ReadsClean d l ↔ (l.eof = true → 5 ≤ l.buffer.buffer.length →
        heeds d l (l.buffer.buffer.drop 5) = false) := by
      constructor
      · intro h heof
        exact h.left heof hfield
      · intro h
        refine ⟨⟨fun heof _ => h heof, ?_⟩, ?_, ?_⟩ <;> simp [hnone]
    rw [hiff]
    cases heof : l.eof with
    | false => simp [FailsClean]
    | true => simp [FailsClean, passesOn]
  · have hfour : 4 ≤ l.stream.length := by omega
    rw [if_neg hfield]
    cases hlen : (d.common l.session).cipher.remoteToLocal.packetLength l.buffer.seqn
        (l.stream.take 4) with
    | none =>
      have hnone : l.announced d = none := by
        simp only [announced, if_pos hfour, hlen, Option.map_none]
      refine iff_of_true ⟨⟨fun _ h => absurd h hfield, ?_⟩, ?_, ?_⟩ trivial <;> simp [hnone]
    | some len =>
      dsimp only
      obtain ⟨n, hn⟩ : ∃ n, n = len.toNat + (d.common l.session).cipher.remoteToLocal.tagLen :=
        ⟨_, rfl⟩
      rw [← hn]
      have hsome : l.announced d = some n := by
        simp only [announced, if_pos hfour, hlen, Option.map_some, hn]
      by_cases hcut : l.stream.length < 4 + n
      · simp only [if_pos hcut]
        have hiff : ReadsClean d l ↔ (l.eof = true → heeds d l (l.stream.drop 5) = false) := by
          have hnot : ¬ 4 + n ≤ l.stream.length := by omega
          constructor
          · intro h heof
            exact h.cut n hsome heof hcut
          · intro h
            refine ⟨⟨fun _ h => absurd h hfield, fun m hm heof _ => h heof⟩, ?_, ?_⟩
            · intro m hm hle
              rw [hsome] at hm
              cases hm
              exact absurd hle hnot
            · intro m hm hle
              rw [hsome] at hm
              cases hm
              exact absurd hle hnot
        rw [hiff]
        cases heof : l.eof with
        | false => simp [FailsClean]
        | true =>
          have hlong : 5 ≤ (resize l.stream (n + 4)).length := by
            rw [length_resize]
            omega
          simp only [if_true, FailsClean, forall_const]
          rw [passesOn_long d l l.buffer hlong, heeds_resize d l (by omega)]
      · have hwhole : 4 + n ≤ l.stream.length := by omega
        simp only [if_neg hcut]
        refine Iff.trans ?_ (readPacket_clean_iff d l (by omega) hwhole _).symm
        constructor
        · intro h
          exact ⟨h.tag n hsome hwhole, h.padding n hsome hwhole⟩
        · rintro ⟨htag, hpadding⟩
          refine ⟨⟨fun _ h => absurd h hfield, fun m hm _ hm' => ?_⟩, fun m hm _ => ?_,
            fun m hm _ => ?_⟩
          · rw [hsome] at hm
            cases hm
            exact absurd hm' hcut
          · rw [hsome] at hm
            cases hm
            exact htag
          · rw [hsome] at hm
            cases hm
            exact hpadding

omit [SessionConfig C] in
@[simp] theorem leave_passed (l : Loop S) : (l.leave d).passed = l.passed := rfl

@[simp] theorem endTurn_passed (l : Loop S) : (endTurn d l).passed = l.passed := by
  unfold endTurn
  split
  · rfl
  · dsimp only
    split <;> rfl

@[simp] theorem serve_passed (l : Loop S) (buf : Bytes) : (serve d l buf).passed = l.passed := by
  unfold serve
  split
  · rfl
  · split
    · rfl
    · split
      · rfl
      · split
        · rw [endTurn_passed]
        · rfl

/-- The read branch adds one entry when it passes its buffer on. -/
theorem handle_passed (l : Loop S) (fresh : Bool) :
    (handle d l fresh).passed = l.passed ++ entry d l l.buffer fresh := by
  unfold handle entry passesOn heeds
  by_cases hshort : l.buffer.buffer.length < 5
  · have hnot : ¬ 5 ≤ l.buffer.buffer.length := by omega
    simp [if_pos hshort, hnot]
  · have hlong : 5 ≤ l.buffer.buffer.length := by omega
    simp only [if_neg hshort]
    cases henc : (d.common l.session).encrypted with
    | some enc =>
      have hpass : (l.pass (l.buffer.buffer.drop 5) fresh).passed =
          l.passed ++ [⟨l.buffer.buffer.drop 5, fresh⟩] := rfl
      dsimp only
      split <;> simp [hlong, hpass]
    | none =>
      simp only [serve_passed, Option.isSome_none, Bool.false_or]
      by_cases hserved : served (l.buffer.buffer.drop 5) = true
      · simp [hserved, hlong, pass]
      · simp [hserved]

/-- The entries one event adds to the history. -/
def entries (l : Loop S) (e : Event M) : List Passed :=
  match e, l.stage, l.nextRead d with
  | .read, .running, .ok _ buffer _ => entry d l buffer true
  | .read, .running, .err _ buffer _ => if d.checksRead then [] else entry d l buffer false
  | _, _, _ => []

/-- What one event adds to the history. -/
theorem iterate_passed (l : Loop S) (e : Event M) :
    (iterate d l e).passed = l.passed ++ entries d l e := by
  cases e with
  | arrive bytes =>
    simp only [iterate, entries, List.append_nil]
    split <;> rfl
  | close => simp [iterate, entries]
  | timeout =>
    simp only [iterate, entries, List.append_nil]
    split <;> rfl
  | message m taken =>
    simp only [iterate, entries, List.append_nil]
    split
    · unfold turnMessage
      split
      · rfl
      · dsimp only
        split
        · rfl
        · rfl
        · rw [endTurn_passed]
    · rfl
  | read =>
    cases hstage : l.stage with
    | running =>
      simp only [iterate, entries, hstage, turnRead]
      cases hread : l.nextRead d with
      | pending => simp
      | panic => simp
      | ok n buffer rest =>
        simp only
        rw [handle_passed]
        rfl
      | err e buffer rest =>
        simp only
        split
        · simp
        · rw [handle_passed]
          rfl
    | draining =>
      simp only [iterate, entries, hstage, drain, List.append_nil]
      split
      · rfl
      · rfl
      · split <;> rfl
      · rfl
    | finished result => simp [iterate, entries, hstage]

omit [SessionConfig C] in
/-- One event keeps the history fresh exactly when nothing that the loop heeds has
arrived where its read fails, or the loop checks its reads. -/
theorem entries_fresh_iff (l : Loop S) (e : Event M) :
    (∀ p ∈ entries d l e, p.fresh = true) ↔
      d.checksRead = true ∨ BeforeRead (ReadsClean d) l e := by
  cases e with
  | read =>
    cases hstage : l.stage with
    | running =>
      simp only [BeforeRead, hstage, forall_const, readsClean_iff]
      cases hread : l.nextRead d with
      | ok n buffer rest => simp [entries, hstage, hread, entry, FailsClean]
      | err e buffer rest =>
        by_cases hpasses : passesOn d l buffer = true
        · simp [entries, hstage, hread, entry, hpasses, FailsClean]
        · simp [entries, hstage, hread, entry, hpasses, FailsClean]
      | pending => simp [entries, hstage, hread, FailsClean]
      | panic => simp [entries, hstage, hread, FailsClean]
    | draining => simp [entries, BeforeRead, hstage]
    | finished result => simp [entries, BeforeRead, hstage]
  | arrive bytes => simp [entries, BeforeRead]
  | close => simp [entries, BeforeRead]
  | message m taken => simp [entries, BeforeRead]
  | timeout => simp [entries, BeforeRead]

/-- The history only grows. -/
theorem run_passed (l : Loop S) (events : List (Event M)) :
    ∃ added, (run d l events).passed = l.passed ++ added := by
  induction events generalizing l with
  | nil => exact ⟨[], (List.append_nil _).symm⟩
  | cons e events ih =>
    obtain ⟨added, hadded⟩ := ih (iterate d l e)
    refine ⟨entries d l e ++ added, ?_⟩
    rw [← List.append_assoc, ← iterate_passed]
    exact hadded

/-- A run passes on only what its reads returned exactly when the loop checks its
reads or nothing that it heeds has arrived where a read fails. -/
theorem run_fresh_iff (l : Loop S) (hl : ∀ p ∈ l.passed, p.fresh = true)
    (events : List (Event M)) :
    (∀ p ∈ (run d l events).passed, p.fresh = true) ↔
      d.checksRead = true ∨ Along (iterate d) (BeforeRead (ReadsClean d)) l events := by
  induction events generalizing l with
  | nil => simpa [run, Along] using hl
  | cons e events ih =>
    have hstep := entries_fresh_iff d l e
    by_cases hentries : ∀ p ∈ entries d l e, p.fresh = true
    · have hnext : ∀ p ∈ (iterate d l e).passed, p.fresh = true := by
        rw [iterate_passed]
        intro p hp
        rcases List.mem_append.mp hp with hp | hp
        · exact hl p hp
        · exact hentries p hp
      have hrest := ih (iterate d l e) hnext
      change (∀ p ∈ (run d (iterate d l e) events).passed, p.fresh = true) ↔ _
      rw [hrest, Along]
      have hclean := hstep.mp hentries
      constructor
      · rintro (h | h)
        · exact .inl h
        · exact hclean.imp id fun hc => ⟨hc, h⟩
      · rintro (h | ⟨-, h⟩)
        · exact .inl h
        · exact .inr h
    · have hstale : ¬ ∀ p ∈ (run d (iterate d l e) events).passed, p.fresh = true := by
        obtain ⟨added, hadded⟩ := run_passed d (iterate d l e) events
        intro hall
        refine hentries fun p hp => hall p ?_
        rw [hadded, iterate_passed]
        exact List.mem_append_left _ (List.mem_append_right _ hp)
      have hnot := mt hstep.mpr hentries
      refine iff_of_false hstale ?_
      rintro (h | ⟨h, -⟩)
      · exact hnot (.inl h)
      · exact hnot (.inr h)

/-- A loop has passed nothing on before its first turn. -/
theorem start_passed (s : S) (output : Bytes) : (start d s output).passed = [] := by
  unfold start
  dsimp only
  split
  · rfl
  · split <;> rfl

end

end Loop

/-- In a run of the client's loop every payload passed on was returned by
`cipher::read` in the same turn; in a run of the server's loop this holds
exactly when nothing that the loop heeds has arrived where a read fails. -/
theorem passed_on_iff_read [Deps] :
    (∀ config app sshid world l, Client.connectStream config app sshid world = .ok l →
      ∀ events, ∀ p ∈ (l.run (Client.driver app) events).passed, p.fresh = true) ∧
    (∀ config handler sshid world l, Server.runStream config handler sshid world = .ok l →
      ∀ events, (∀ p ∈ (l.run (Server.driver handler) events).passed, p.fresh = true) ↔
        Loop.Along (Loop.iterate (Server.driver handler))
          (Loop.BeforeRead (Loop.ReadsClean (Server.driver handler))) l events) := by
  refine ⟨fun config app sshid world l hl events => ?_,
    fun config handler sshid world l hl events => ?_⟩
  · have hstart : l.passed = [] := by
      unfold Client.connectStream at hl
      cases hid : Client.readSshId config sshid world with
      | error e => rw [hid] at hl; cases hl
      | ok session =>
        rw [hid] at hl
        simp only [bind, Except.bind] at hl
        split at hl
        · cases hl
          exact Loop.start_passed _ _ _
        · cases hl
    exact (Loop.run_fresh_iff (Client.driver app) l (by simp [hstart]) events).mpr (.inl rfl)
  · have hstart : l.passed = [] := by
      unfold Server.runStream at hl
      cases hid : Server.readSshId config sshid world with
      | error e => rw [hid] at hl; cases hl
      | ok session =>
        rw [hid] at hl
        cases hl
        exact Loop.start_passed _ _ _
    rw [Loop.run_fresh_iff (Server.driver handler) l (by simp [hstart]) events]
    exact or_iff_right Bool.false_ne_true

/-- A DISCONNECT that arrives whole, at a client and at a server. -/
theorem passed_on_iff_read_disconnect :
    letI := Concrete.deps
    (∀ p ∈ (Concrete.client.run (Client.driver Concrete.application)
      [.arrive [0, 0, 0, 12, 10, 1], .arrive (zeros 10), .read]).passed, p.fresh = true) ∧
    ∀ p ∈ (Concrete.server.run (Server.driver Concrete.handler)
      [.arrive [0, 0, 0, 12, 10, 1], .arrive (zeros 10), .read]).passed, p.fresh = true := by
  have hiff := @passed_on_iff_read Concrete.deps
  refine ⟨hiff.1 _ _ _ _ _ Concrete.connectStream_eq _,
    (hiff.2 _ _ _ _ _ (Concrete.runStream_eq _) _).mpr ?_⟩
  decide +kernel

/-- A packet of the clear phase cut short by the end of the stream: the
server hands what has arrived of it to `reply`, filled up with zeros. -/
theorem passed_on_cut_short :
    letI := Concrete.deps
    (Concrete.server.run (Server.driver Concrete.handler)
      [.arrive [0, 0, 0, 12, 10, 5], .close, .read]).passed = [⟨5 :: zeros 10, false⟩] := by
  decide +kernel

end Thrussh
