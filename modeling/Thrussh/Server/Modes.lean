import Thrussh.Concrete
import Thrussh.Server.Serving

/-!
# Terminal modes

The loop over the mode string of a pty-req, for mode strings of every form.
A mode string is a list of five byte records, with a tail that is empty, or
starts with a zero code, or is a record that is cut short. The loop gives one
entry to every record, also to one whose code it does not know, and has room
for 130.
-/

namespace Thrussh.Server

open Lib Position

/-- The modes in the complete records before the first zero code, without
those whose code is unknown. -/
def completeModes : Bytes → List (Pty × UInt32)
  | code :: a :: b :: c :: d :: rest =>
    if code = 0 then []
    else match Pty.fromU8 code with
      | some mode => (mode, readBe32 a b c d) :: completeModes rest
      | none => completeModes rest
  | _ => []

/-- A mode string that a correct client can send: at most 130 standard modes,
and behind them nothing or a zero code. -/
def Regular (modeString : Bytes) : Prop :=
  ∃ modes tail, modeString = Client.modeList modes ++ tail ∧ modes.length ≤ 130 ∧
    (∀ m ∈ modes, m.1 ≠ Pty.ttyOpEnd) ∧ (tail = [] ∨ tail.head? = some 0)

/-- A record of a mode string: the code and the value. -/
abbrev ModeRecord : Type := UInt8 × UInt32

/-- The bytes of records. -/
def recordList (records : List ModeRecord) : Bytes :=
  records.flatMap fun r => r.1 :: be32 r.2

/-- The entry that the loop makes for a record; without a known code the
placeholder stays. -/
def ModeRecord.entry (r : ModeRecord) : Pty × UInt32 :=
  match Pty.fromU8 r.1 with
  | some mode => (mode, r.2)
  | none => (Pty.ttyOpEnd, 0)

/-- The mode of a record, if its code is known. -/
def ModeRecord.mode (r : ModeRecord) : Option (Pty × UInt32) :=
  (Pty.fromU8 r.1).map fun mode => (mode, r.2)

/-- Behind the last record nothing is left, or a zero code. -/
def Closed (tail : Bytes) : Prop := tail = [] ∨ tail.head? = some 0

/-- Behind the last record one is cut short. -/
def CutShort (tail : Bytes) : Prop := ∃ code rest, tail = code :: rest ∧ code ≠ 0 ∧
  headBe32 rest = none

/-- Four bytes are those of the integer that they are read as. -/
theorem headBe32_some {s : Bytes} {n : UInt32} (h : headBe32 s = some n) :
    ∃ rest, s = be32 n ++ rest := by
  match s, h with
  | a :: b :: c :: d :: rest, h =>
    simp only [headBe32, Option.some.injEq] at h
    refine ⟨rest, ?_⟩
    have ha := a.toNat_lt
    have hb := b.toNat_lt
    have hc := c.toNat_lt
    have hd := d.toNat_lt
    have hn : n.toNat = a.toNat * 2 ^ 24 + b.toNat * 2 ^ 16 + c.toNat * 2 ^ 8 + d.toNat := by
      rw [← h, readBe32, UInt32.toNat_ofNat']
      omega
    simp only [be32, List.cons_append, List.nil_append, List.cons.injEq, and_true]
    simp only [← UInt8.toNat_inj, UInt8.toNat_ofNat', hn]
    omega

theorem length_recordList (records : List ModeRecord) :
    (recordList records).length = 5 * records.length := by
  simp [recordList, List.length_flatMap, Nat.mul_comm]

theorem recordList_nil : recordList [] = [] := rfl

theorem recordList_append (records records' : List ModeRecord) :
    recordList (records ++ records') = recordList records ++ recordList records' := by
  simp only [recordList, List.flatMap_append]

/-- Every mode string is a list of records with a tail. -/
theorem split_records (modeString : Bytes) : ∃ records tail,
    modeString = recordList records ++ tail ∧ (∀ r ∈ records, r.1 ≠ 0) ∧
      (Closed tail ∨ CutShort tail) := by
  induction hlength : modeString.length using Nat.strongRecOn generalizing modeString with
  | _ length ih =>
    cases modeString with
    | nil => exact ⟨[], [], rfl, by simp, .inl (.inl rfl)⟩
    | cons code rest =>
      by_cases hzero : code = 0
      · exact ⟨[], code :: rest, rfl, by simp, .inl (.inr (by rw [hzero]; rfl))⟩
      cases hvalue : headBe32 rest with
      | none => exact ⟨[], code :: rest, rfl, by simp, .inr ⟨code, rest, rfl, hzero, hvalue⟩⟩
      | some value =>
        obtain ⟨rest', rfl⟩ := headBe32_some hvalue
        have hshort : rest'.length < length := by
          simp only [List.length_cons, List.length_append, length_be32] at hlength
          omega
        obtain ⟨records, tail, hsplit, hne, htail⟩ := ih _ hshort rest' rfl
        refine ⟨(code, value) :: records, tail, ?_, ?_, htail⟩
        · simp [recordList, hsplit]
        · intro r hr
          rcases List.mem_cons.mp hr with rfl | hr
          · exact hzero
          · exact hne r hr

/-- The complete modes are those of the records with a known code. -/
theorem completeModes_records {records : List ModeRecord} {tail : Bytes}
    (hne : ∀ r ∈ records, r.1 ≠ 0) (htail : Closed tail ∨ CutShort tail) :
    completeModes (recordList records ++ tail) = records.filterMap ModeRecord.mode := by
  induction records with
  | nil =>
    change completeModes tail = []
    unfold completeModes
    split
    · rename_i code a b c d rest
      have hzero : code = 0 := by
        rcases htail with (hnil | hhead) | ⟨code', rest', heq, hcode, hcut⟩
        · cases hnil
        · exact Option.some.inj hhead
        · cases heq
          cases hcut
      rw [if_pos hzero]
    · rfl
  | cons r records ih =>
    obtain ⟨code, value⟩ := r
    have hcode : code ≠ 0 := hne _ List.mem_cons_self
    have hrest := ih fun r hr => hne r (List.mem_cons_of_mem _ hr)
    have hvalue := headBe32_append value []
    simp only [be32, List.append_nil, headBe32, Option.some.injEq] at hvalue
    have hcons : recordList ((code, value) :: records) ++ tail =
        code :: (be32 value ++ (recordList records ++ tail)) := by
      simp [recordList]
    rw [hcons]
    simp only [be32, List.cons_append, List.nil_append, completeModes, if_neg hcode, hvalue, hrest,
      List.filterMap_cons, ModeRecord.mode]
    cases Pty.fromU8 code with
    | none => rfl
    | some mode => rfl

/-- The loop stands before the records that it has not read. -/
theorem drop_records (done todo : List ModeRecord) (tail : Bytes) :
    (recordList (done ++ todo) ++ tail).drop (5 * done.length) = recordList todo ++ tail := by
  rw [recordList_append, List.append_assoc]
  exact drop_append_length (length_recordList done) _

/-- A loop that ends has read every record, and has found none cut short. -/
theorem ptyModes_ok (done : List ModeRecord) {todo : List ModeRecord} {tail : Bytes} {fuel i : Nat}
    {modes modes' : List (Pty × UInt32)} (hne : ∀ r ∈ todo, r.1 ≠ 0)
    (htail : Closed tail ∨ CutShort tail) (hfuel : todo.length < fuel)
    (h : ptyModes (recordList (done ++ todo) ++ tail) fuel done.length modes = .ok (modes', i)) :
    Closed tail ∧ i = done.length + todo.length ∧ modes'.length = modes.length := by
  induction todo generalizing done fuel modes with
  | nil =>
    obtain ⟨fuel, rfl⟩ := Nat.exists_eq_add_of_lt hfuel
    unfold ptyModes at h
    rw [drop_records] at h
    rw [recordList_nil, List.nil_append] at h
    cases tail with
    | nil =>
      cases h
      exact ⟨.inl rfl, rfl, rfl⟩
    | cons code rest =>
      dsimp only at h
      by_cases hzero : code = 0
      · rw [if_pos hzero] at h
        cases h
        exact ⟨.inr (by rw [hzero]; rfl), rfl, rfl⟩
      · rw [if_neg hzero] at h
        rcases htail with (hnil | hhead) | ⟨code', rest', heq, -, hcut⟩
        · cases hnil
        · exact absurd (Option.some.inj hhead) hzero
        · cases heq
          rw [hcut] at h
          cases h
  | cons r todo ih =>
    obtain ⟨code, value⟩ := r
    have hcode : code ≠ 0 := hne _ List.mem_cons_self
    have hmore : ∀ r ∈ todo, r.1 ≠ 0 := fun r hr => hne r (List.mem_cons_of_mem _ hr)
    obtain ⟨fuel, rfl⟩ : ∃ n, fuel = n + 1 := Nat.exists_eq_add_one.mpr (by omega)
    have hless : todo.length < fuel := Nat.lt_of_succ_lt_succ hfuel
    have hcons : recordList ((code, value) :: todo) ++ tail =
        code :: (be32 value ++ (recordList todo ++ tail)) := by
      simp [recordList]
    have hsame : recordList (done ++ (code, value) :: todo) ++ tail =
        recordList ((done ++ [(code, value)]) ++ todo) ++ tail := by
      rw [List.append_assoc, List.singleton_append]
    have hlength : done.length + 1 = (done ++ [(code, value)]).length := by
      rw [List.length_append, List.length_singleton]
    unfold ptyModes at h
    rw [drop_records, hcons] at h
    simp only [if_neg hcode, headBe32_append] at h
    rw [hsame, hlength] at h
    split at h
    · split at h
      · obtain ⟨hclosed, hi, hmodes⟩ := ih _ hmore hless h
        refine ⟨hclosed, ?_, ?_⟩
        · rw [hi, ← hlength, List.length_cons]
          omega
        · rw [hmodes, List.length_set]
      · cases h
    · obtain ⟨hclosed, hi, hmodes⟩ := ih _ hmore hless h
      refine ⟨hclosed, ?_, hmodes⟩
      rw [hi, ← hlength, List.length_cons]
      omega

/-- The loop makes the entries of the records that it has room for. -/
theorem ptyModes_entries (done : List ModeRecord) {todo : List ModeRecord} {tail : Bytes}
    {fuel : Nat}
    (hne : ∀ r ∈ todo, r.1 ≠ 0) (hclosed : Closed tail) (hfuel : todo.length < fuel)
    (hshort : done.length + todo.length ≤ 130) :
    ptyModes (recordList (done ++ todo) ++ tail) fuel done.length
        (done.map ModeRecord.entry ++ List.replicate (130 - done.length) (Pty.ttyOpEnd, 0)) =
      .ok ((done ++ todo).map ModeRecord.entry ++
        List.replicate (130 - (done ++ todo).length) (Pty.ttyOpEnd, 0), (done ++ todo).length) := by
  induction todo generalizing done fuel with
  | nil =>
    obtain ⟨fuel, rfl⟩ : ∃ n, fuel = n + 1 := Nat.exists_eq_add_one.mpr (by omega)
    unfold ptyModes
    rw [drop_records]
    rw [recordList_nil, List.nil_append, List.append_nil]
    cases tail with
    | nil => rfl
    | cons code rest =>
      have hzero : code = 0 := by
        rcases hclosed with hnil | hhead
        · cases hnil
        · exact Option.some.inj hhead
      dsimp only
      rw [if_pos hzero]
  | cons r todo ih =>
    obtain ⟨code, value⟩ := r
    have hcode : code ≠ 0 := hne _ List.mem_cons_self
    have hmore : ∀ r ∈ todo, r.1 ≠ 0 := fun r hr => hne r (List.mem_cons_of_mem _ hr)
    obtain ⟨fuel, rfl⟩ : ∃ n, fuel = n + 1 := Nat.exists_eq_add_one.mpr (by omega)
    have hless : todo.length < fuel := Nat.lt_of_succ_lt_succ hfuel
    rw [List.length_cons] at hshort
    have hcons : recordList ((code, value) :: todo) ++ tail =
        code :: (be32 value ++ (recordList todo ++ tail)) := by
      simp [recordList]
    have hsame : recordList (done ++ (code, value) :: todo) ++ tail =
        recordList ((done ++ [(code, value)]) ++ todo) ++ tail := by
      rw [List.append_assoc, List.singleton_append]
    have hlength : done.length + 1 = (done ++ [(code, value)]).length := by
      rw [List.length_append, List.length_singleton]
    have hroom : 130 - done.length = (130 - (done ++ [(code, value)]).length) + 1 := by
      rw [← hlength]
      omega
    have hnext := ih (done ++ [(code, value)]) hmore hless (by omega)
    rw [List.append_assoc, List.singleton_append] at hnext
    unfold ptyModes
    rw [drop_records, hcons]
    simp only [if_neg hcode, headBe32_append]
    refine Eq.trans ?_ hnext
    rw [← hlength]
    have hplace : ∀ entry : Pty × UInt32,
        (done.map ModeRecord.entry ++
          List.replicate (130 - done.length) (Pty.ttyOpEnd, (0 : UInt32))).set done.length entry =
        done.map ModeRecord.entry ++ [entry] ++
          List.replicate (130 - (done ++ [(code, value)]).length) (Pty.ttyOpEnd, 0) := by
      intro entry
      rw [hroom, List.replicate_succ]
      simp
    have hin : done.length < (done.map ModeRecord.entry ++
        List.replicate (130 - done.length) (Pty.ttyOpEnd, (0 : UInt32))).length := by
      rw [List.length_append, List.length_map, List.length_replicate]
      omega
    cases hmode : Pty.fromU8 code with
    | some mode =>
      dsimp only
      rw [if_pos hin, hplace, List.map_append, List.map_singleton, ← hlength]
      simp only [ModeRecord.entry, hmode]
    | none =>
      dsimp only
      rw [List.map_append, List.map_singleton]
      simp only [ModeRecord.entry, hmode]
      rw [hroom, List.replicate_succ, ← hlength]
      simp

/-- What the loop makes of a mode string: an entry for every record, unless
one is cut short or there are too many. -/
theorem readPtyModes_records {records : List ModeRecord} {tail : Bytes}
    (hne : ∀ r ∈ records, r.1 ≠ 0) (htail : Closed tail ∨ CutShort tail) :
    (Closed tail ∧ records.length ≤ 130 ∧
        readPtyModes (recordList records ++ tail) = .ok (records.map ModeRecord.entry)) ∨
      ¬ (Closed tail ∧ records.length ≤ 130) ∧
        ∃ e, readPtyModes (recordList records ++ tail) = .error e := by
  have hfuel : records.length < (recordList records ++ tail).length + 1 := by
    rw [List.length_append, length_recordList]
    omega
  by_cases hfits : Closed tail ∧ records.length ≤ 130
  · refine .inl ⟨hfits.1, hfits.2, ?_⟩
    have hloop := ptyModes_entries [] hne hfits.1 hfuel (by simpa using hfits.2)
    simp only [List.nil_append, List.map_nil, List.length_nil, Nat.sub_zero] at hloop
    unfold readPtyModes
    simp only [hloop, bind, Except.bind]
    rw [if_pos (by simp), List.take_left' (by simp)]
  · refine .inr ⟨hfits, ?_⟩
    cases hread : readPtyModes (recordList records ++ tail) with
    | error e => exact ⟨e, rfl⟩
    | ok modes =>
      obtain ⟨⟨all, i⟩, hloop, hrest⟩ := ok_of_bind hread
      obtain ⟨hclosed, hi, hlength⟩ := ptyModes_ok [] hne htail hfuel hloop
      rw [List.length_replicate] at hlength
      rw [List.length_nil, Nat.zero_add] at hi
      dsimp only at hrest
      split at hrest
      · rename_i hle
        exact absurd ⟨hclosed, by omega⟩ hfits
      · cases hrest

/-- Only known codes leave no placeholder. -/
theorem known_of_entries {records : List ModeRecord}
    (h : records.map ModeRecord.entry = records.filterMap ModeRecord.mode) :
    ∀ r ∈ records, ∃ mode, Pty.fromU8 r.1 = some mode := by
  induction records with
  | nil => simp
  | cons r records ih =>
    cases hmode : Pty.fromU8 r.1 with
    | none =>
      have hnone : r.mode = none := by
        unfold ModeRecord.mode
        rw [hmode]
        rfl
      have hlength := congrArg List.length h
      have hle := List.length_filterMap_le ModeRecord.mode records
      rw [List.filterMap_cons_none hnone, List.length_map, List.length_cons] at hlength
      omega
    | some mode =>
      have hsome : r.mode = some (mode, r.2) := by
        unfold ModeRecord.mode
        rw [hmode]
        rfl
      rw [List.filterMap_cons_some hsome, List.map_cons] at h
      have hrest := ih (List.cons.inj h).2
      intro r' hr'
      rcases List.mem_cons.mp hr' with rfl | hr'
      · exact ⟨mode, hmode⟩
      · exact hrest r' hr'

/-- A mode is a record with a known code. -/
theorem fromU8_code {mode : Pty} (h : mode ≠ Pty.ttyOpEnd) : Pty.fromU8 mode.code = some mode := by
  have hne : mode.code ≠ 0 := by
    intro hzero
    refine h ?_
    cases mode
    cases hzero
    rfl
  unfold Pty.fromU8
  rw [if_neg hne, dif_pos mode.standard]

/-- A known code is the code of its mode. -/
theorem code_fromU8 {code : UInt8} {mode : Pty} (h : Pty.fromU8 code = some mode) :
    mode.code = code ∧ mode ≠ Pty.ttyOpEnd := by
  unfold Pty.fromU8 at h
  split at h
  · cases h
  · rename_i hne
    split at h
    · cases h
      refine ⟨rfl, fun heq => hne ?_⟩
      exact congrArg Pty.code heq
    · cases h

/-- The loop returns exactly the complete modes of the mode strings that a
correct client can send. -/
theorem readPtyModes_complete_iff (modeString : Bytes) :
    readPtyModes modeString = .ok (completeModes modeString) ↔ Regular modeString := by
  constructor
  · intro h
    obtain ⟨records, tail, rfl, hne, htail⟩ := split_records modeString
    rw [completeModes_records hne htail] at h
    rcases readPtyModes_records hne htail with ⟨hclosed, hshort, hread⟩ | ⟨-, e, herror⟩
    · rw [hread, Except.ok.injEq] at h
      have hknown := known_of_entries h
      have hmodes : Client.modeList (records.map ModeRecord.entry) = recordList records := by
        unfold Client.modeList recordList
        rw [List.flatMap_map]
        refine List.flatMap_congr fun r hr => ?_
        obtain ⟨mode, hmode⟩ := hknown r hr
        simp only [ModeRecord.entry, hmode, (code_fromU8 hmode).1]
      refine ⟨records.map ModeRecord.entry, tail, by rw [hmodes], ?_, fun m hm => ?_, hclosed⟩
      · rw [List.length_map]
        exact hshort
      · obtain ⟨r, hr, rfl⟩ := List.mem_map.mp hm
        obtain ⟨mode, hmode⟩ := hknown r hr
        simp only [ModeRecord.entry, hmode]
        exact (code_fromU8 hmode).2
    · rw [herror] at h
      cases h
  · rintro ⟨modes, tail, rfl, hshort, hend, htail⟩
    set records : List ModeRecord := modes.map fun m => (m.1.code, m.2) with hrecords
    have hlist : Client.modeList modes = recordList records := by
      unfold Client.modeList recordList
      rw [hrecords, List.flatMap_map]
    have hne : ∀ r ∈ records, r.1 ≠ 0 := by
      intro r hr hzero
      obtain ⟨m, hm, rfl⟩ := List.mem_map.mp hr
      have hcode := fromU8_code (hend m hm)
      dsimp only at hzero
      rw [hzero] at hcode
      cases hcode
    have hentries : records.map ModeRecord.entry = modes := by
      rw [hrecords, List.map_map]
      refine (List.map_congr_left fun m hm => ?_).trans (List.map_id modes)
      simp only [Function.comp, ModeRecord.entry, fromU8_code (hend m hm), id]
    have hmodes : records.filterMap ModeRecord.mode = modes := by
      rw [hrecords, List.filterMap_map]
      refine (List.filterMap_congr fun m hm => ?_).trans (List.filterMap_some)
      simp only [Function.comp, ModeRecord.mode, fromU8_code (hend m hm), Option.map_some]
    have hlength : records.length = modes.length := List.length_map _
    rw [hlist, completeModes_records hne (.inl htail), hmodes]
    rcases readPtyModes_records hne (.inl htail) with ⟨-, -, hread⟩ | ⟨hnot, -⟩
    · rw [hread, hentries]
    · exact absurd ⟨htail, by omega⟩ hnot

/-- A pty-req, and the fields that the server reads in it. -/
structure PtyPacket (packet : Bytes) (id : UInt32) (term : Bytes)
    (colWidth rowHeight pixWidth pixHeight : UInt32) (modeString : Bytes) : Prop where
  /-- It is a request on a channel. -/
  head : packet.head? = some msg.CHANNEL_REQUEST
  /-- It is a pty-req. -/
  request : ∃ r₁ r₂ r₃ want, (reader packet 1).readU32 = .ok (id, r₁) ∧
    r₁.readString = .ok (ascii "pty-req", r₂) ∧ r₂.readByte = .ok (want, r₃) ∧
    ∃ r₄ r₅ r₆ r₇ r₈ r₉, r₃.readString = .ok (term, r₄) ∧ fromUtf8 term = .ok term ∧
      r₄.readU32 = .ok (colWidth, r₅) ∧ r₅.readU32 = .ok (rowHeight, r₆) ∧
      r₆.readU32 = .ok (pixWidth, r₇) ∧ r₇.readU32 = .ok (pixHeight, r₈) ∧
      r₈.readString = .ok (modeString, r₉)

section
variable [Deps] {packet : Bytes} {id : UInt32} {term : Bytes}
  {colWidth rowHeight pixWidth pixHeight : UInt32} {modeString : Bytes}

/-- The server runs the loop over the mode string, and the handler gets its
turn with what the loop returns. -/
theorem PtyPacket.run (handler : Handler) (t : Session)
    (h : PtyPacket packet id term colWidth rowHeight pixWidth pixHeight modeString) :
    ∃ u : Session, u.callbacks = t.callbacks ∧
      serverReadAuthenticated handler packet t = match readPtyModes modeString with
        | .ok modes => turn handler
          (.ptyRequest id term colWidth rowHeight pixWidth pixHeight modes) u
        | .error e => .error e u := by
  obtain ⟨r₁, r₂, r₃, want, hid, htype, hwant, r₄, r₅, r₆, r₇, r₈, r₉, hterm, hutf8, hcol, hrow,
    hpixWidth, hpixHeight, hmode⟩ := h.request
  have hne : ∀ {m : UInt8}, m ≠ msg.CHANNEL_REQUEST → packet.head? ≠ some m := by
    intro m hm hsome
    rw [h.head] at hsome
    exact hm (Option.some.inj hsome).symm
  have hserved : serverReadAuthenticated handler packet t =
      serverReadChannelRequest handler packet t := by
    unfold serverReadAuthenticated
    have hdata : ¬ (packet.head? = some msg.CHANNEL_EXTENDED_DATA ∨
        packet.head? = some msg.CHANNEL_DATA) := by
      rw [not_or]
      exact ⟨hne (by decide), hne (by decide)⟩
    rw [if_neg (hne (by decide)), if_neg (hne (by decide)), if_neg (hne (by decide)), if_neg hdata,
      if_neg (hne (by decide)), if_pos h.head]
  rw [hserved]
  unfold serverReadChannelRequest
  rw [run_bind, run_lift hid]
  dsimp only
  rw [run_bind, run_lift htype]
  dsimp only
  rw [run_bind, run_lift hwant]
  dsimp only
  unfold modifyEnc
  rw [run_bind, run_modify]
  dsimp only
  rw [run_bind]
  have hcallback : channelRequestCallback id (ascii "pty-req") r₃ =
      (readPtyModes modeString).map fun modes =>
        some (.ptyRequest id term colWidth rowHeight pixWidth pixHeight modes) := by
    unfold channelRequestCallback
    rw [if_pos rfl]
    simp only [hterm, hutf8, hcol, hrow, hpixWidth, hpixHeight, hmode, bind, Except.bind]
    cases readPtyModes modeString with
    | error e => rfl
    | ok modes => rfl
  rw [hcallback]
  cases readPtyModes modeString with
  | error e =>
    refine ⟨_, ?_, rfl⟩
    rfl
  | ok modes =>
    refine ⟨_, ?_, rfl⟩
    rfl

/-- The handler is given exactly the complete modes of a pty-req if and only
if the mode string is one that a correct client can send. -/
theorem ptyModes_served_iff (handler : Handler) (t : Session)
    (h : PtyPacket packet id term colWidth rowHeight pixWidth pixHeight modeString) :
    (∃ u, Serves handler t packet (.ptyRequest id term colWidth rowHeight pixWidth pixHeight
      (completeModes modeString)) u) ↔ Regular modeString := by
  rw [← readPtyModes_complete_iff]
  obtain ⟨u, hcallbacks, hrun⟩ := h.run handler t
  constructor
  · rintro ⟨v, hserves⟩
    have hasked := hserves.asked
    rw [hrun] at hasked
    cases hread : readPtyModes modeString with
    | error e =>
      rw [hread, final_error, hcallbacks] at hasked
      have hlength := congrArg List.length hasked
      simp at hlength
    | ok modes =>
      rw [hread] at hasked
      have hturn := turn_callbacks handler
        (.ptyRequest id term colWidth rowHeight pixWidth pixHeight modes) u
      rw [hcallbacks] at hturn
      have hsame := List.append_cancel_left (hturn.symm.trans hasked)
      simp only [List.cons.injEq, Prod.mk.injEq, Callback.ptyRequest.injEq] at hsame
      rw [hsame.1.1.2.2.2.2.2.2]
  · intro hread
    rw [hread] at hrun
    exact ⟨u, .of_turn hcallbacks hrun⟩

end

/-- A pty-req whose mode string is cut behind the code of a record. -/
def cutPtyRequest : Bytes :=
  channelRequest 7 (ascii "pty-req") (1 :: sshString (ascii "xterm") ++ be32 80 ++ be32 24 ++
    be32 0 ++ be32 0 ++ sshString [53])

/-- A pty-req with one mode. -/
def echoPtyRequest : Bytes :=
  channelRequest 7 (ascii "pty-req") (1 :: sshString (ascii "xterm") ++ be32 80 ++ be32 24 ++
    be32 0 ++ be32 0 ++ sshString [53, 0, 0, 0, 1, 0])

/-- A pty-req with the mode ECHO is served with it. -/
theorem ptyModes_served_echo :
    letI := Concrete.deps
    ∃ u, Serves Concrete.handler (Concrete.serverWithChannel 100) echoPtyRequest
      (.ptyRequest 7 (ascii "xterm") 80 24 0 0 (completeModes [53, 0, 0, 0, 1, 0])) u := by
  let _ := Concrete.deps
  have hpacket : PtyPacket echoPtyRequest 7 (ascii "xterm") 80 24 0 0 [53, 0, 0, 0, 1, 0] :=
    ⟨rfl, _, _, _, _, rfl, rfl, rfl, _, _, _, _, _, _, rfl, rfl, rfl, rfl, rfl, rfl, rfl⟩
  have hregular : Regular [53, 0, 0, 0, 1, 0] :=
    ⟨[(⟨53, by decide⟩, 1)], [0], rfl, by decide, by decide, .inr rfl⟩
  exact (ptyModes_served_iff Concrete.handler (Concrete.serverWithChannel 100) hpacket).mpr hregular

/-- A mode string that is cut inside a record makes the server panic. -/
theorem cutModes_panic :
    letI := Concrete.deps
    PtyPacket cutPtyRequest 7 (ascii "xterm") 80 24 0 0 [53] ∧
      (match serverReadAuthenticated Concrete.handler cutPtyRequest
          (Concrete.serverWithChannel 100) with
        | .ok .. => none
        | .error e _ => some e) = some Fault.panic := by
  let _ := Concrete.deps
  constructor
  · exact ⟨rfl, _, _, _, _, rfl, rfl, rfl, _, _, _, _, _, _, rfl, rfl, rfl, rfl, rfl, rfl, rfl⟩
  · decide +kernel

end Thrussh.Server
