import Thrussh.Queue

/-!
# What is done to the channels

Every change of the channel table and of the queue is one of a few steps: a
call of `data`, `extended_data`, `byte` or `flush_pending` on a channel, an
entry inserted or removed, a change that leaves the data pending on a channel,
a signed request, and a packet queued that neither carries data nor ends them.
The deeds that the session notes account for every packet of a channel, and
what has been noted once is never lost.
-/

namespace Thrussh

/-- Whether a message number is neither one of data on a channel nor one that
ends them or closes the channel. -/
abbrev Dataless (m : UInt8) : Prop :=
  m ≠ msg.CHANNEL_DATA ∧ m ≠ msg.CHANNEL_EXTENDED_DATA ∧ m ≠ msg.CHANNEL_EOF ∧
    m ≠ msg.CHANNEL_CLOSE

/-- Whether a packet carries data of a channel, ends them or closes the channel. -/
def Carried (body : Bytes) : Bool := body.head?.any fun m => ¬ Dataless m

/-- The packets that a deed queues. -/
def Deed.packets : Deed → List Bytes
  | .data _ packets => packets
  | .byte _ _ _ packet => [packet]
  | .flushPending _ packets => packets
  | .opened _ => []
  | .signed packet => [packet]

/-- The channel that a call of the application is about. -/
def Deed.channel : Deed → Option UInt32
  | .data id _ => some id
  | .byte id _ _ _ => some id
  | .flushPending id _ => some id
  | .opened _ => none
  | .signed _ => none

/-- The packets with data that a deed queues for a channel. -/
def Deed.sent (id : UInt32) : Deed → List Bytes
  | .data id' packets => if id' = id then packets else []
  | .flushPending id' packets => if id' = id then packets else []
  | _ => []

theorem not_carried {body : Bytes} (h : ∀ m ∈ body.head?, Dataless m) : Carried body = false := by
  unfold Carried
  cases hhead : body.head? with
  | none => rfl
  | some m =>
    have hdataless := h m (by rw [hhead]; rfl)
    simp only [Option.any_some, decide_not, Bool.not_eq_false', decide_eq_true_eq]
    exact hdataless

variable [Deps]

/-- The data pending on a channel, if there is one. -/
def Encrypted.pending (enc : Encrypted) (id : UInt32) : Pending :=
  (enc.channels id).elim [] (·.pendingData)

/-- One step makes one encrypted session of another. -/
inductive Does : Encrypted → Encrypted → Prop where
  /-- Neither the channels change nor the histories. -/
  | idle {enc enc' : Encrypted} (hchannels : enc'.channels = enc.channels)
    (hemitted : enc'.emitted = enc.emitted) (hdeeds : enc'.deeds = enc.deeds) : Does enc enc'
  /-- A packet is queued that neither carries data nor ends them. -/
  | push (enc : Encrypted) {body : Bytes} (h : ∀ m ∈ body.head?, Dataless m) :
    Does enc (enc.push body)
  /-- A signed request is queued. -/
  | signed (enc : Encrypted) (body : Bytes) : Does enc (enc.pushSigned body)
  /-- A channel changes, but not the data pending on it. -/
  | channel (enc : Encrypted) {id : UInt32} {ch ch' : Channel} (hch : enc.channels id = some ch)
    (h : ch'.pendingData = ch.pendingData) : Does enc (enc.setChannel id ch')
  /-- A channel is inserted. -/
  | opened (enc : Encrypted) (id : UInt32) {ch : Channel} (h : ch.pendingData = []) :
    Does enc (enc.insertChannel id ch)
  /-- A channel is removed. -/
  | removed (enc : Encrypted) (id : UInt32) : Does enc (enc.removeChannel id)
  /-- The application submits data. -/
  | data {enc enc' : Encrypted} {id : UInt32} {ext : Option UInt32}
    {packet : Channel → Bytes → Bytes} {buf0 : Bytes}
    (h : enc.submit id ext packet buf0 = .ok enc') : Does enc enc'
  /-- A channel's data are ended, or the channel is closed. -/
  | byte (enc : Encrypted) (id : UInt32) (m : UInt8) : Does enc (enc.byte id m)
  /-- The data pending on a channel is sent as far as the window allows. -/
  | flushPending {enc enc' : Encrypted} {id : UInt32} {total : Nat}
    (h : enc.flushPending id = .ok (enc', total)) : Does enc enc'

/-- Steps, one after the other. -/
abbrev Deeds : Encrypted → Encrypted → Prop := Relation.ReflTransGen Does

/-- What has been noted since an earlier state accounts for the packets of
channels that have been queued since. -/
structure Accounts (enc enc' : Encrypted) (since : List Deed) : Prop where
  /-- What has been noted. -/
  deeds : enc'.deeds = enc.deeds ++ since
  /-- The packets of channels that have been queued. -/
  emitted : ∃ packets, enc'.emitted = enc.emitted ++ packets ∧
    packets.filter Carried = (since.flatMap Deed.packets).filter Carried

theorem Accounts.of_same {enc enc' : Encrypted} (hdeeds : enc'.deeds = enc.deeds)
    (hemitted : enc'.emitted = enc.emitted) : Accounts enc enc' [] :=
  ⟨by rw [hdeeds, List.append_nil], [], by rw [hemitted, List.append_nil], rfl⟩

/-- A deed that notes what it queues. -/
theorem Accounts.of_deed {enc enc' : Encrypted} (d : Deed) (hdeeds : enc'.deeds = enc.deeds ++ [d])
    (hemitted : enc'.emitted = enc.emitted ++ d.packets) : Accounts enc enc' [d] :=
  ⟨hdeeds, d.packets, hemitted, by rw [List.flatMap_singleton]⟩

theorem Accounts.trans {enc enc' enc'' : Encrypted} {l m : List Deed} (h : Accounts enc enc' l)
    (h' : Accounts enc' enc'' m) : Accounts enc enc'' (l ++ m) := by
  obtain ⟨packets, hemitted, hcarried⟩ := h.emitted
  obtain ⟨packets', hemitted', hcarried'⟩ := h'.emitted
  refine ⟨by rw [h'.deeds, h.deeds, List.append_assoc], packets ++ packets', ?_, ?_⟩
  · rw [hemitted', hemitted, List.append_assoc]
  · rw [List.filter_append, List.flatMap_append, List.filter_append, hcarried, hcarried']

/-- What is transmitted is noted, if there is a channel. -/
theorem Transmits.accounts {packet : Channel → Bytes → Bytes} {deed : UInt32 → List Bytes → Deed}
    {id : UInt32} {enc enc' : Encrypted} (h : Transmits packet deed id enc enc')
    (hdeed : ∀ packets, (deed id packets).packets = packets ∧ (deed id packets).channel = some id) :
    ∃ since, Accounts enc enc' since ∧
      ∀ d ∈ since, ∀ id', d.channel = some id' → enc.channels id' ≠ none := by
  cases h with
  | unknown h => exact ⟨[], .of_same rfl rfl, by simp⟩
  | @known ch window pending l hch =>
    refine ⟨_, .of_deed (deed id (l.map (packet ch))) ?_ ?_, fun d hd id' hid => ?_⟩
    · rw [Encrypted.note, Encrypted.setChannel, pushAll_deeds]
    · rw [note_emitted, setChannel_emitted, pushAll_emitted, (hdeed _).1]
    · rw [List.mem_singleton.mp hd, (hdeed _).2, Option.some.injEq] at hid
      rw [← hid, hch]
      simp

/-- What is noted of a step accounts for what it queues, and is about a channel
only if there is an entry for it. -/
theorem Does.accounts {enc enc' : Encrypted} (h : Does enc enc') :
    ∃ since, Accounts enc enc' since ∧
      ∀ d ∈ since, ∀ id, d.channel = some id → enc.channels id ≠ none := by
  cases h with
  | idle _ hemitted hdeeds => exact ⟨[], .of_same hdeeds hemitted, by simp⟩
  | @push body h =>
    refine ⟨[], ⟨(List.append_nil _).symm, [body], rfl, ?_⟩, by simp⟩
    rw [List.filter_cons_of_neg (by rw [not_carried h]; exact Bool.false_ne_true)]
    rfl
  | signed body => exact ⟨_, .of_deed (.signed body) rfl rfl, by simp [Deed.channel]⟩
  | channel hch h => exact ⟨[], .of_same rfl rfl, by simp⟩
  | opened id h =>
    exact ⟨_, .of_deed (.opened id) rfl (List.append_nil _).symm, by simp [Deed.channel]⟩
  | removed id => exact ⟨[], .of_same rfl rfl, by simp⟩
  | data h => exact (submit_transmits h).accounts fun _ => ⟨rfl, rfl⟩
  | byte id m =>
    unfold Encrypted.byte
    cases hch : enc.channels id with
    | none => exact ⟨[], .of_same rfl rfl, by simp⟩
    | some ch =>
      refine ⟨_, .of_deed (.byte id m ch.pendingData _) rfl rfl, fun d hd id' hid => ?_⟩
      rw [List.mem_singleton.mp hd] at hid
      cases hid
      rw [hch]
      simp
  | flushPending h => exact (flushPending_transmits h).accounts fun _ => ⟨rfl, rfl⟩

/-- What has been noted in several steps accounts for what they have queued. -/
theorem Deeds.accounts {enc enc' : Encrypted} (h : Deeds enc enc') :
    ∃ since, Accounts enc enc' since := by
  induction h with
  | refl => exact ⟨[], .of_same rfl rfl⟩
  | tail _ hstep ih =>
    obtain ⟨since, hsince⟩ := ih
    obtain ⟨since', hsince', -⟩ := hstep.accounts
    exact ⟨since ++ since', hsince.trans hsince'⟩

end Thrussh
