import Thrussh.Closing
import Thrussh.Known
import Thrussh.Server.Course
import Thrussh.Lib.Costs

/-!
# Data and the window they are taken from

What the handler is given of a channel is taken off the window of its entry,
which starts with what the opening advertised and grows by what each
CHANNEL_WINDOW_ADJUST grants. Data that the entry has no room for are taken
off nothing, and are given to the handler all the same: the ledger holds in
the runs in which every data packet fits.
-/

namespace Thrussh

open Deps Lib

/-- Whether a packet opens a channel under a number, and the window it advertises. -/
inductive Advertises (id window : UInt32) : Bytes → Prop where
  /-- CHANNEL_OPEN. -/
  | opens (typ : Bytes) (maxPacket : UInt32) (rest : Bytes) :
    Advertises id window (channelOpenPacket typ id window maxPacket rest)
  /-- CHANNEL_OPEN_CONFIRMATION. -/
  | confirms (remote maxPacket : UInt32) :
    Advertises id window (confirmChannelOpenPacket remote id window maxPacket)

/-- The sum of the windows that packets advertise for a channel. -/
inductive Advertised (id : UInt32) : List Bytes → Nat → Prop where
  /-- No packets. -/
  | nil : Advertised id [] 0
  /-- A packet that does not open the channel. -/
  | other {body : Bytes} {bodies : List Bytes} {n : Nat}
    (h : ∀ window, ¬ Advertises id window body) (hrest : Advertised id bodies n) :
    Advertised id (body :: bodies) n
  /-- A packet that does. -/
  | opening {window : UInt32} {body : Bytes} {bodies : List Bytes} {n : Nat}
    (h : Advertises id window body) (hrest : Advertised id bodies n) :
    Advertised id (body :: bodies) (window.toNat + n)

/-- Every list of packets advertises something, or nothing. -/
theorem Advertised.total (id : UInt32) (bodies : List Bytes) : ∃ n, Advertised id bodies n := by
  induction bodies with
  | nil => exact ⟨0, .nil⟩
  | cons body bodies ih =>
    obtain ⟨n, hrest⟩ := ih
    by_cases h : ∃ window, Advertises id window body
    · obtain ⟨window, h⟩ := h
      exact ⟨_, .opening h hrest⟩
    · exact ⟨n, .other (fun window hw => h ⟨window, hw⟩) hrest⟩

theorem Advertised.append {id : UInt32} {bodies bodies' : List Bytes} {n n' : Nat}
    (h : Advertised id bodies n) (h' : Advertised id bodies' n') :
    Advertised id (bodies ++ bodies') (n + n') := by
  induction h with
  | nil => simpa using h'
  | other h _ ih => exact .other h ih
  | opening h _ ih =>
    rw [Nat.add_assoc]
    exact .opening h ih

/-- Only the two packets of an opening advertise. -/
theorem Advertises.head {id window : UInt32} {body : Bytes} (h : Advertises id window body) :
    body.head? = some msg.CHANNEL_OPEN ∨ body.head? = some msg.CHANNEL_OPEN_CONFIRMATION := by
  cases h with
  | opens typ maxPacket rest => exact .inl rfl
  | confirms remote maxPacket => exact .inr rfl

/-- A packet of another kind adds nothing. -/
theorem Advertised.of_other {id : UInt32} {body : Bytes} {bodies : List Bytes} {n : Nat}
    (h : Advertised id (body :: bodies) n)
    (hbody : ¬ (body.head? = some msg.CHANNEL_OPEN ∨
      body.head? = some msg.CHANNEL_OPEN_CONFIRMATION)) : Advertised id bodies n := by
  cases h with
  | other _ hrest => exact hrest
  | opening h _ => exact absurd h.head hbody

/-- A confirmation of the channel adds the window in it. -/
theorem Advertised.of_confirms {id remote window maxPacket : UInt32} {bodies : List Bytes}
    {n : Nat} (h : Advertised id (confirmChannelOpenPacket remote id window maxPacket :: bodies) n) :
    ∃ m, n = window.toNat + m ∧ Advertised id bodies m := by
  generalize hpacket : confirmChannelOpenPacket remote id window maxPacket = packet at h
  cases h with
  | other hnot _ =>
    rw [← hpacket] at hnot
    exact absurd (.confirms remote maxPacket) (hnot window)
  | @opening window' _ _ m h hrest =>
    cases h with
    | opens typ maxPacket' rest =>
      cases hpacket
    | confirms remote' maxPacket' =>
      simp only [confirmChannelOpenPacket, List.cons_append, List.append_assoc,
        List.cons.injEq, true_and] at hpacket
      obtain ⟨-, hrest'⟩ := List.append_inj hpacket rfl
      obtain ⟨-, hwindows⟩ := List.append_inj hrest' rfl
      have hwindow := congrArg headBe32 hwindows
      rw [headBe32_append, headBe32_append] at hwindow
      rw [Option.some.inj hwindow]
      exact ⟨m, rfl, hrest⟩

/-- Whether a packet carries data for a channel. -/
def CarriesFor (id : UInt32) (buf : Bytes) : Prop :=
  (buf.head? = some msg.CHANNEL_DATA ∨ buf.head? = some msg.CHANNEL_EXTENDED_DATA) ∧
    (reader buf 1).readU32.toOption.map Prod.fst = some id

instance (id : UInt32) (buf : Bytes) : Decidable (CarriesFor id buf) :=
  inferInstanceAs (Decidable (_ ∧ _))

theorem carriesFor_of_read {id : UInt32} {buf : Bytes} {r : Position}
    (hhead : buf.head? = some msg.CHANNEL_DATA ∨ buf.head? = some msg.CHANNEL_EXTENDED_DATA)
    (hid : (reader buf 1).readU32 = .ok (id, r)) : CarriesFor id buf := by
  refine ⟨hhead, ?_⟩
  rw [hid]
  rfl

/-- What a packet holds from which data for a channel can be read. -/
inductive HoldsData (id : UInt32) (buf : Bytes) (ext : Option UInt32) (data : Bytes) : Prop where
  /-- CHANNEL_DATA. -/
  | plain {r r1 : Position} (hhead : buf.head? = some msg.CHANNEL_DATA)
    (hid : (reader buf 1).readU32 = .ok (id, r)) (hext : ext = none)
    (hdata : r.readString = .ok (data, r1))
  /-- CHANNEL_EXTENDED_DATA. -/
  | extended {code : UInt32} {r r1 r2 : Position}
    (hhead : buf.head? = some msg.CHANNEL_EXTENDED_DATA)
    (hid : (reader buf 1).readU32 = .ok (id, r)) (hext : ext = some code)
    (hcode : r.readU32 = .ok (code, r1)) (hdata : r1.readString = .ok (data, r2))

theorem holdsData_of_readData {id : UInt32} {buf : Bytes} {ext : Option UInt32} {data : Bytes}
    (h : readData id buf = some (ext, data)) : HoldsData id buf ext data := by
  unfold readData at h
  split at h
  · rename_i m id' r hhead hid
    split at h
    · cases h
    · rename_i heq
      have heq := of_not_not heq
      subst heq
      split at h
      · rename_i hm
        split at h
        · rename_i hdata
          cases h
          exact .plain (hhead.trans (congrArg some hm)) hid rfl hdata
        · cases h
      · split at h
        · rename_i hm
          split at h
          · cases h
          · rename_i hcode
            split at h
            · rename_i hdata
              cases h
              exact .extended (hhead.trans (congrArg some hm)) hid rfl hcode hdata
            · cases h
        · cases h
  · cases h

theorem HoldsData.readData {id : UInt32} {buf : Bytes} {ext : Option UInt32} {data : Bytes}
    (h : HoldsData id buf ext data) : readData id buf = some (ext, data) := by
  have hne : ¬ msg.CHANNEL_EXTENDED_DATA = msg.CHANNEL_DATA := by decide
  cases h with
  | plain hhead hid hext hdata =>
    subst hext
    simp [Thrussh.readData, hhead, hid, hdata]
  | extended hhead hid hext hcode hdata =>
    subst hext
    simp [Thrussh.readData, hhead, hid, hcode, hdata, hne]

theorem HoldsData.carriesFor {id : UInt32} {buf : Bytes} {ext : Option UInt32} {data : Bytes}
    (h : HoldsData id buf ext data) : CarriesFor id buf := by
  cases h with
  | plain hhead hid _ _ => exact carriesFor_of_read (.inl hhead) hid
  | extended hhead hid _ _ _ => exact carriesFor_of_read (.inr hhead) hid

/-- What is left of a window is no more than it. -/
theorem windowLeft_le (window : UInt32) (d : Bytes) :
    (windowLeft window d).toNat ≤ window.toNat := by
  unfold windowLeft
  split
  · rename_i hle
    rw [UInt32.toNat_sub_of_le _ _ hle]
    omega
  · exact Nat.le_refl _

/-- Below half of the target there is something to grant. -/
theorem toNat_top {left target : UInt32} (h : left < target / 2) :
    (target - left).toNat = target.toNat - left.toNat ∧ left.toNat ≤ target.toNat := by
  have hhalf : left.toNat < (target / 2).toNat := UInt32.lt_iff_toNat_lt.mp h
  have htwo : (2 : UInt32).toNat = 2 := rfl
  rw [UInt32.toNat_div, htwo] at hhalf
  have hle : left.toNat ≤ target.toNat := by omega
  exact ⟨UInt32.toNat_sub_of_le _ _ (UInt32.le_iff_toNat_le.mpr hle), hle⟩

section
variable [Deps]

/-- What the entry of a channel still takes. -/
def Encrypted.room (enc : Encrypted) (id : UInt32) : Nat :=
  (enc.channels id).elim 0 (·.senderWindowSize.toNat)

/-- Two states of a session between which a channel gains no more room than
the openings queued meanwhile advertise, but for a gain. -/
def Widens (id : UInt32) (gain : Nat) (enc enc' : Encrypted) : Prop :=
  ∃ bodies n, enc'.emitted = enc.emitted ++ bodies ∧ Advertised id bodies n ∧
    enc'.room id ≤ enc.room id + n + gain

section
variable {enc enc' enc'' : Encrypted} {id : UInt32} {gain gain' : Nat}

/-- The room grows by no more than the gain. -/
theorem Widens.of_room {bodies : List Bytes} (hemitted : enc'.emitted = enc.emitted ++ bodies)
    (hroom : enc'.room id ≤ enc.room id + gain) : Widens id gain enc enc' := by
  obtain ⟨n, hn⟩ := Advertised.total id bodies
  exact ⟨bodies, n, hemitted, hn, by omega⟩

/-- The entry stays as it is. -/
theorem Widens.of_channels {bodies : List Bytes} (hchannels : enc'.channels id = enc.channels id)
    (hemitted : enc'.emitted = enc.emitted ++ bodies) : Widens id gain enc enc' := by
  have hroom : enc'.room id = enc.room id := by
    unfold Encrypted.room
    rw [hchannels]
  exact .of_room hemitted (by omega)

omit [Deps] in
/-- What holds of two values holds of them as options. -/
theorem rel_imp {α : Type} {R R' : α → α → Prop} {a b : Option α} (h : Option.Rel R a b)
    (himp : ∀ x y, R x y → R' x y) : Option.Rel R' a b := by
  cases h with
  | none => exact .none
  | some h => exact .some (himp _ _ h)

theorem Widens.refl (id : UInt32) (enc : Encrypted) : Widens id 0 enc enc :=
  .of_channels rfl (List.append_nil _).symm

theorem Widens.trans (h : Widens id gain enc enc') (h' : Widens id gain' enc' enc'') :
    Widens id (gain + gain') enc enc'' := by
  obtain ⟨bodies, n, hemitted, hn, hroom⟩ := h
  obtain ⟨bodies', n', hemitted', hn', hroom'⟩ := h'
  refine ⟨bodies ++ bodies', n + n', ?_, hn.append hn', by omega⟩
  rw [hemitted', hemitted, List.append_assoc]

/-- An entry is replaced by one with the same window. -/
theorem Widens.of_entry {id' : UInt32} {ch ch' : Channel} (bodies : List Bytes)
    (hch : enc.channels id' = some ch) (hwindow : ch'.senderWindowSize = ch.senderWindowSize) :
    Widens id gain enc ((enc.pushAll bodies).setChannel id' ch') := by
  have hemitted : ((enc.pushAll bodies).setChannel id' ch').emitted = enc.emitted ++ bodies := by
    simp only [Encrypted.setChannel, pushAll_emitted]
  refine .of_room hemitted ?_
  have hroom : ((enc.pushAll bodies).setChannel id' ch').room id = enc.room id := by
    unfold Encrypted.room
    by_cases hid : id = id'
    · subst hid
      rw [hch]
      simp only [Encrypted.setChannel, Function.update_self, Option.elim_some, hwindow]
    · rw [setChannel_other _ _ hid, pushAll_channels]
  omega

/-- A new entry has the window that its opening advertises. -/
theorem Widens.of_opening {id' window : UInt32} {ch : Channel} {body : Bytes}
    (hchannels : enc'.channels = Function.update enc.channels id' (some ch))
    (hwindow : ch.senderWindowSize = window) (hemitted : enc'.emitted = enc.emitted ++ [body])
    (hbody : Advertises id' window body) : Widens id 0 enc enc' := by
  by_cases hid : id = id'
  · subst hid
    have hroom : enc'.room id = window.toNat := by
      unfold Encrypted.room
      rw [hchannels, Function.update_self, Option.elim_some, hwindow]
    exact ⟨[body], window.toNat + 0, hemitted, .opening hbody .nil, by omega⟩
  · refine .of_channels ?_ hemitted
    rw [hchannels, Function.update_of_ne hid]

/-- What is transmitted leaves the window of the sender. -/
theorem Transmits.widens {id' : UInt32} {packet : Channel → Bytes → Bytes}
    {deed : UInt32 → List Bytes → Deed} (h : Transmits packet deed id' enc enc') : Widens id 0 enc enc' := by
  cases h with
  | unknown _ => exact .refl id enc
  | known hch => exact .of_entry _ hch rfl

theorem Accepts.widens {asked : Asked} {window maxPacket id' : UInt32}
    (h : Accepts asked window maxPacket enc id' enc') : Widens id 0 enc enc' := by
  obtain ⟨-, hchannels, hemitted⟩ := h.spec
  exact .of_opening hchannels rfl hemitted (.confirms _ _)

/-- An operation gives a channel no room but what is advertised. -/
theorem Operates.widens {replies : Prop} (h : Operates replies enc enc') :
    Widens id 0 enc enc' := by
  cases h with
  | idle hchannels hemitted =>
    exact .of_channels (congrFun hchannels id) (hemitted.trans (List.append_nil _).symm)
  | push _ hchannels hemitted => exact .of_channels (congrFun hchannels id) hemitted
  | confirms _ _ _ _ => exact .of_channels rfl rfl
  | data h => exact (submit_transmits h).widens
  | extendedData h => exact (submit_transmits h).widens
  | flushPending h => exact (flushPending_transmits h).widens
  | opened typ rest h =>
    obtain ⟨-, henc₁⟩ := newChannel_ok h
    subst henc₁
    exact .of_opening rfl rfl rfl (.opens _ _ _)
  | accepted h => exact h.widens
  | answered _ _ => exact .of_channels rfl rfl
  | @replied id' ch m _ hch _ _ =>
    have hset : Widens id 0 enc (((enc.pushAll [m :: be32 ch.recipientChannel])).setChannel id'
        { ch with wantsReply := false }) := .of_entry _ hch rfl
    exact hset

theorem Operations.widens {replies : Prop} (h : Operations replies enc enc') :
    Widens id 0 enc enc' := by
  induction h with
  | refl => exact .refl id enc
  | tail _ hstep ih => exact ih.trans hstep.widens

/-- Data that are received give the channel no room but what is granted. -/
theorem received_widens {id' target : UInt32} {d : Bytes} (h : Receives target id' d enc enc') :
    Widens id 0 enc enc' ∨ id' = id ∧ ∃ ch, enc.channels id = some ch ∧
      Widens id (granted ch.recipientChannel (enc'.emitted.drop enc.emitted.length)) enc enc' := by
  cases h with
  | unknown _ => exact .inl (.refl id enc)
  | @kept ch hch _ =>
    by_cases hid : id' = id
    · subst hid
      refine .inl (.of_room (List.append_nil _).symm ?_)
      have hle := windowLeft_le ch.senderWindowSize d
      simp only [Encrypted.room, Encrypted.setChannel, Function.update_self, Option.elim_some, hch]
      omega
    · exact .inl (.of_channels (setChannel_other _ _ (Ne.symm hid)) (List.append_nil _).symm)
  | @granted ch hch hsmall =>
    by_cases hid : id' = id
    · subst hid
      refine .inr ⟨rfl, ch, hch, ?_⟩
      set left := windowLeft ch.senderWindowSize d
      have hle : left.toNat ≤ ch.senderWindowSize.toNat := windowLeft_le _ d
      obtain ⟨hamount, hbelow⟩ := toNat_top hsmall
      have hemitted : ((enc.push (adjustPacket ch.recipientChannel (target - left))).setChannel id'
          { ch with senderWindowSize := target }).emitted = enc.emitted ++
            [adjustPacket ch.recipientChannel (target - left)] := rfl
      have hgranted : granted ch.recipientChannel
          [adjustPacket ch.recipientChannel (target - left)] = (target - left).toNat := by
        simp [granted, readAdjust_adjustPacket]
      refine .of_room hemitted ?_
      change Encrypted.room ((enc.push (adjustPacket ch.recipientChannel (target - left))).setChannel
        id' { ch with senderWindowSize := target }) id' ≤ _ + granted ch.recipientChannel (List.drop _
          (enc.emitted ++ [adjustPacket ch.recipientChannel (target - left)]))
      rw [List.drop_left, hgranted]
      simp only [Encrypted.room, Encrypted.setChannel, Function.update_self, Option.elim_some, hch]
      omega
    · exact .inl (.of_channels (setChannel_other _ _ (Ne.symm hid)) rfl)

/-- What the dispatcher does with a packet gives a channel no room but what is
advertised, or granted as data for it are received. -/
theorem Dispatches.widens {buf : Bytes} (h : Dispatches buf enc enc') :
    Widens id 0 enc enc' ∨ CarriesFor id buf ∧ ∃ ch, enc.channels id = some ch ∧
      Widens id (granted ch.recipientChannel (enc'.emitted.drop enc.emitted.length)) enc enc' := by
  cases h with
  | none => exact .inl (.refl id enc)
  | accepted _ _ _ _ _ haccepts => exact .inl haccepts.widens
  | confirmed _ _ _ _ _ hch => exact .inl (.of_entry [] hch rfl)
  | @removed id' r _ _ _ =>
    have hroom : (enc.removeChannel id').room id ≤ enc.room id + 0 := by
      unfold Encrypted.room Encrypted.removeChannel
      by_cases hid : id = id'
      · simp only [hid, Function.update_self, Option.elim_none, Nat.zero_le]
      · simp only [Function.update_of_ne hid, Nat.add_zero, Nat.le_refl]
    exact .inl (.of_room (List.append_nil _).symm hroom)
  | received _ hhead hid =>
    refine (received_widens (adjustWindowSize_receives enc _ _ _)).imp_right fun ⟨heq, hgains⟩ => ?_
    subst heq
    exact ⟨carriesFor_of_read hhead hid, hgains⟩
  | adjusted _ _ _ hadjust =>
    obtain ⟨ch, hch, -, rfl⟩ := adjustRecipientWindow_ok hadjust
    exact .inl (.of_entry [] hch rfl)
  | wanted _ _ _ _ hch => exact .inl (.of_entry [] hch rfl)

end

/-! ### The ledger of a run -/

/-- What the entry of a channel still takes. -/
def CommonSession.room {C : Type} (s : CommonSession C) (id : UInt32) : Nat :=
  (s.entry id).elim 0 (·.senderWindowSize.toNat)

/-- Whether the entry of a channel has room for data. -/
def CommonSession.HasRoom {C : Type} (s : CommonSession C) (id : UInt32) (data : Bytes) : Prop :=
  ∃ ch ∈ s.entry id, data.length ≤ ch.senderWindowSize.toNat

instance {C : Type} (s : CommonSession C) (id : UInt32) (data : Bytes) :
    Decidable (s.HasRoom id data) :=
  inferInstanceAs (Decidable (∃ ch ∈ s.entry id, data.length ≤ ch.senderWindowSize.toNat))

section
variable {C S M : Type} [SessionConfig C] (d : Driver C S M) (told : S → Nat) (id : UInt32)

/-- What is granted to the peer of a channel while data for it are served: what
the CHANNEL_WINDOW_ADJUSTs amount to that are queued then. -/
def Driver.grants : Act S M → Nat
  | .reply s buf =>
    if CarriesFor id buf then
      ((d.common s).entry id).elim 0 fun ch => granted ch.recipientChannel
        ((d.common (final (d.reply buf s))).emitted.drop (d.common s).emitted.length)
    else 0
  | .message _ _ => 0

/-- The ledger of a channel between two sessions: what the handler is told and
what the entry still takes grow by no more than the openings queued meanwhile
advertise, but for a gain. -/
def Driver.Ledger (gain : Nat) (s t : S) : Prop :=
  ∃ bodies n, (d.common t).emitted = (d.common s).emitted ++ bodies ∧ Advertised id bodies n ∧
    told t + (d.common t).room id ≤ told s + (d.common s).room id + n + gain

/-- What the programs of a role do to the ledger. -/
structure Driver.Meters (admits : Act S M → Prop) : Prop where
  /-- The handler is told nothing as the common session changes. -/
  told_set : ∀ c s, told (d.setCommon c s) = told s
  /-- The handler is told nothing as the session settles. -/
  settle : ∀ s, told (d.settle s) = told s ∧
    (d.common (d.settle s)).standing.map Prod.snd = (d.common s).standing.map Prod.snd
  /-- A local message is served. -/
  message : ∀ s m, d.Ledger told id 0 s (final (d.message m s))
  /-- A packet is served. -/
  reply : ∀ s buf, (d.common s).Sound → admits (.reply s buf) →
    d.Ledger told id (d.grants id (.reply s buf)) s (final (d.reply buf s))

variable {d told id} {s t u : S} {gain gain' : Nat}

omit [SessionConfig C] in
theorem Driver.Ledger.mono (h : d.Ledger told id gain s t) (hgain : gain ≤ gain') :
    d.Ledger told id gain' s t := by
  obtain ⟨bodies, n, hemitted, hn, hroom⟩ := h
  exact ⟨bodies, n, hemitted, hn, by omega⟩

omit [SessionConfig C] in
theorem Driver.Ledger.trans (h : d.Ledger told id gain s t) (h' : d.Ledger told id gain' t u) :
    d.Ledger told id (gain + gain') s u := by
  obtain ⟨bodies, n, hemitted, hn, hroom⟩ := h
  obtain ⟨bodies', n', hemitted', hn', hroom'⟩ := h'
  refine ⟨bodies ++ bodies', n + n', ?_, hn.append hn', by omega⟩
  rw [hemitted', hemitted, List.append_assoc]

omit [SessionConfig C] in
/-- Nothing is told, and neither the entry nor the queue's history changes. -/
theorem Driver.Ledger.of_same (htold : told t = told s)
    (hemitted : (d.common t).emitted = (d.common s).emitted)
    (hentry : (d.common t).entry id = (d.common s).entry id) : d.Ledger told id 0 s t := by
  have hroom : (d.common t).room id = (d.common s).room id := by
    unfold CommonSession.room
    rw [hentry]
  exact ⟨[], 0, by rw [hemitted, List.append_nil], .nil, by omega⟩

omit [SessionConfig C] in
/-- Nothing is told, and what the session stands at stays. -/
theorem Driver.Ledger.of_standing (htold : told t = told s)
    (hstanding : (d.common t).standing.map Prod.snd = (d.common s).standing.map Prod.snd) :
    d.Ledger told id 0 s t :=
  .of_same htold (emitted_of_standing hstanding) (entry_of_standing hstanding id)

omit [SessionConfig C] in
theorem Driver.Ledger.refl (s : S) : d.Ledger told id 0 s s := .of_same rfl rfl rfl

omit [SessionConfig C] in
/-- The first exchange is over, and the table is empty. -/
theorem Driver.Ledger.of_started {enc : Encrypted} (htold : told t = told s)
    (hs : (d.common s).encrypted = none) (ht : (d.common t).encrypted = some enc)
    (hchannels : enc.channels = fun _ => none) (hemitted : enc.emitted = []) :
    d.Ledger told id 0 s t := by
  refine .of_same htold ?_ ?_
  · rw [emitted_some ht, emitted_none hs, hemitted]
  · rw [entry_some ht, entry_none hs, hchannels]

omit [SessionConfig C] in
/-- The handler is told so much, and the table changes. -/
theorem Driver.Ledger.of_rel {n : Nat} (htold : told t ≤ told s + n)
    (hrel : Option.Rel (Widens id gain) (d.common s).encrypted (d.common t).encrypted) :
    d.Ledger told id (n + gain) s t := by
  cases hs : (d.common s).encrypted with
  | none =>
    rw [hs] at hrel
    cases ht : (d.common t).encrypted with
    | none =>
      refine ⟨[], 0, ?_, .nil, ?_⟩
      · rw [emitted_none hs, emitted_none ht]
        rfl
      · have hroom : (d.common t).room id = 0 := by
          unfold CommonSession.room
          rw [entry_none ht]
          rfl
        omega
    | some enc =>
      rw [ht] at hrel
      cases hrel
  | some enc =>
    rw [hs] at hrel
    cases ht : (d.common t).encrypted with
    | none =>
      rw [ht] at hrel
      cases hrel
    | some enc' =>
      rw [ht] at hrel
      cases hrel with
      | some hwidens =>
        obtain ⟨bodies, m, hemitted, hm, hroom⟩ := hwidens
        refine ⟨bodies, m, ?_, hm, ?_⟩
        · rw [emitted_some hs, emitted_some ht, hemitted]
        · have hbefore : (d.common s).room id = enc.room id := by
            unfold CommonSession.room Encrypted.room
            rw [entry_some hs]
          have hafter : (d.common t).room id = enc'.room id := by
            unfold CommonSession.room Encrypted.room
            rw [entry_some ht]
          omega

variable {admits : Act S M → Prop}

/-- What the acts so far granted is what the ledger of a run gains. -/
theorem Driver.Meters.follows {P : Bytes → Prop} (hd : d.Behaves P)
    (hm : d.Meters told id admits) (start : S) :
    d.Follows (fun acts act => acts ++ [act])
      (fun acts s => (d.common s).Sound ∧ ((∀ act ∈ acts, admits act) →
        d.Ledger told id ((acts.map (d.grants id)).sum) start s))
      fun acts s => (∀ act ∈ acts, admits act) →
        d.Ledger told id ((acts.map (d.grants id)).sum) start s := by
  have hsound := hd.keeps_sound
  have hsame : ∀ {acts : List (Act S M)} {s t : S}, d.Ledger told id 0 s t →
      ((∀ act ∈ acts, admits act) → d.Ledger told id ((acts.map (d.grants id)).sum) start s) →
      (∀ act ∈ acts, admits act) → d.Ledger told id ((acts.map (d.grants id)).sum) start t :=
    fun hstep hledger hadmits => (hledger hadmits).trans hstep
  have hact : ∀ {acts : List (Act S M)} {act : Act S M} {s t : S},
      ((∀ act ∈ acts, admits act) → d.Ledger told id ((acts.map (d.grants id)).sum) start s) →
      (admits act → d.Ledger told id (d.grants id act) s t) →
      (∀ act' ∈ acts ++ [act], admits act') →
      d.Ledger told id (((acts ++ [act]).map (d.grants id)).sum) start t := by
    intro acts act s t hledger hstep hadmits
    have hbefore := hledger fun act' hmem => hadmits act' (List.mem_append_left _ hmem)
    have hlast := hstep (hadmits act (List.mem_append_right _ List.mem_cons_self))
    rw [List.map_append, List.sum_append, List.map_singleton, List.sum_singleton]
    exact hbefore.trans hlast
  constructor
  · exact fun acts s hs => hs.2
  · intro acts s enc decompress henc hs
    refine ⟨hsound.inflate s enc decompress henc hs.1, hsame (.of_standing (hm.told_set _ _) ?_) hs.2⟩
    rw [hd.common_set]
    simp only [CommonSession.standing, henc, Option.map_some]
    rfl
  · intro acts s buf hs
    refine ((hsound.reply s buf hs.1).and (Ends.of_final ?_)).mono
      (fun _ t ht => ht) fun t ht => ht.2
    exact hact hs.2 fun hadmits => hm.reply s buf hs.1 hadmits
  · intro acts s m enc hs _ _
    refine ((hsound.message s m hs.1).and (Ends.of_final ?_)).mono
      (fun _ t ht => ht) fun t ht => ht.2
    exact hact hs.2 fun _ => hm.message s m
  · intro acts s hs
    have htold : Ends (zoom d.common d.setCommon flush) s
        (fun _ t => told (Loop.clearWrite d t) = told s) fun t => told t = told s := by
      unfold Ends zoom
      cases flush (d.common s) with
      | ok a c =>
        dsimp only
        unfold Loop.clearWrite
        rw [hm.told_set, hm.told_set]
      | error e c =>
        dsimp only
        rw [hm.told_set]
    refine ((hsound.flush s hs.1).and (htold.and (zoom_flush_standing hd s))).mono
      (fun _ t ht => ⟨ht.1, ?_⟩) fun t ht => ?_
    · exact hsame (.of_standing ht.2.1 (congrArg _ ht.2.2)) hs.2
    · exact hsame (.of_standing ht.2.1 (congrArg _ ht.2.2)) hs.2
  · intro acts s hs
    obtain ⟨htold, hstanding⟩ := hm.settle s
    exact ⟨hsound.settle s hs.1, hsame (.of_standing htold hstanding) hs.2⟩

/-- No more bytes of a channel have been handed over than were advertised for
it in all, and granted by the acts of a run. -/
def Driver.Covers (d : Driver C S M) (told : S → Nat) (id : UInt32) (acts : List (Act S M))
    (s : S) : Prop :=
  ∃ n, Advertised id (d.common s).emitted n ∧ told s ≤ n + (acts.map (d.grants id)).sum

/-- A run whose acts are all admitted keeps to what was advertised and granted. -/
theorem Loop.covers {P : Bytes → Prop} (hd : d.Behaves P) (hm : d.Meters told id admits) {s : S}
    (hs : (d.common s).Initial) (htold : told s = 0) (output : Bytes) (events : List (Event M))
    (hadmits : ∀ act ∈ Loop.acts d (Loop.start d s output) events, admits act) :
    d.Covers told id (Loop.acts d (Loop.start d s output) events)
      ((Loop.start d s output).run d events).session := by
  have hfollows := hm.follows hd s
  have hstart := Loop.start_follows hfollows (h := []) ⟨hs.sound, fun _ => .refl _⟩ output
  have hledger := (Loop.run_follows hfollows hstart events).ended hadmits
  obtain ⟨bodies, n, hemitted, hn, hroom⟩ := hledger
  have hnone : (d.common s).room id = 0 := by
    unfold CommonSession.room
    rw [entry_none hs.encrypted]
    rfl
  rw [emitted_none hs.encrypted, List.nil_append] at hemitted
  refine ⟨n, hemitted ▸ hn, ?_⟩
  unfold Loop.acts
  omega

section
variable {buf : Bytes} {enc start : Encrypted} {ch : Channel} {data : Bytes}

omit [SessionConfig C] in
/-- What an act grants is what the queue gains that its data grant. -/
theorem grants_carries (hcarries : CarriesFor id buf) (henc : (d.common s).encrypted = some enc)
    {enc' : Encrypted} (henc' : (d.common (final (d.reply buf s))).encrypted = some enc')
    {bodies : List Bytes} (hemitted : enc'.emitted = enc.emitted ++ bodies)
    (hch : enc.channels id = some ch) :
    d.grants id (.reply s buf) = granted ch.recipientChannel bodies := by
  simp only [Driver.grants, if_pos hcarries, entry_some henc, hch, Option.elim_some,
    emitted_some henc, emitted_some henc', hemitted, List.drop_left]

omit [SessionConfig C] in
/-- A packet is handled, and the handler is told nothing of the channel. -/
theorem Driver.Ledger.of_handles (htold : told (final (d.reply buf s)) = told s)
    (hrel : Option.Rel (Handles buf) (d.common s).encrypted
      (d.common (final (d.reply buf s))).encrypted) :
    d.Ledger told id (d.grants id (.reply s buf)) s (final (d.reply buf s)) := by
  have hle : told (final (d.reply buf s)) ≤ told s + 0 := by omega
  have hwiden : ∀ {gain}, Option.Rel (Widens id gain) (d.common s).encrypted
      (d.common (final (d.reply buf s))).encrypted → gain ≤ d.grants id (.reply s buf) →
      d.Ledger told id (d.grants id (.reply s buf)) s (final (d.reply buf s)) :=
    fun hrel hgain => (Driver.Ledger.of_rel hle hrel).mono (by omega)
  cases hs : (d.common s).encrypted with
  | none =>
    rw [hs] at hrel
    cases ht : (d.common (final (d.reply buf s))).encrypted with
    | none =>
      have hnone : Option.Rel (Widens id 0) (d.common s).encrypted
          (d.common (final (d.reply buf s))).encrypted := by
        rw [hs, ht]
        exact .none
      exact hwiden hnone (Nat.zero_le _)
    | some enc' =>
      rw [ht] at hrel
      cases hrel
  | some enc =>
    rw [hs] at hrel
    cases ht : (d.common (final (d.reply buf s))).encrypted with
    | none =>
      rw [ht] at hrel
      cases hrel
    | some enc' =>
      rw [ht] at hrel
      cases hrel with
      | some hhandles =>
        obtain ⟨start, mid, hchannels, hemitted, hdispatches, hoperations⟩ := hhandles.handles
        have hstart : Widens id 0 enc start :=
          .of_channels (congrFun hchannels id) (hemitted.trans (List.append_nil _).symm)
        have hend : Widens id 0 mid enc' := hoperations.widens
        have hdispatched : Widens id 0 start mid ∨ CarriesFor id buf ∧
            ∃ ch, start.channels id = some ch ∧ Widens id (granted ch.recipientChannel
              (mid.emitted.drop start.emitted.length)) start mid := hdispatches.widens
        rcases hdispatched with hwidens | ⟨hcarries, ch, hch, hwidens⟩
        · refine hwiden ?_ (Nat.zero_le _)
          rw [hs, ht]
          exact .some ((hstart.trans hwidens).trans hend)
        · have hqueues := hwidens
          obtain ⟨new, -, hnew, -⟩ := hqueues
          obtain ⟨bodies, -, hbodies, -⟩ := hend
          have hgrants : d.grants id (.reply s buf) =
              granted ch.recipientChannel (new ++ bodies) := by
            refine grants_carries hcarries hs ht ?_ ((congrFun hchannels id).symm.trans hch)
            rw [hbodies, hnew, hemitted, List.append_assoc]
          rw [hnew, List.drop_left] at hwidens
          have hrel : Option.Rel (Widens id (0 + granted ch.recipientChannel new + 0))
              (d.common s).encrypted (d.common (final (d.reply buf s))).encrypted := by
            rw [hs, ht]
            exact .some ((hstart.trans hwidens).trans hoperations.widens)
          refine hwiden hrel ?_
          rw [hgrants, granted_append]
          omega

omit [SessionConfig C] in
/-- Data that fit are taken off the window before the handler is told. -/
theorem Driver.Ledger.of_fits (hcarries : CarriesFor id buf)
    (henc : (d.common s).encrypted = some enc) (hchannels : start.channels = enc.channels)
    (hemitted : start.emitted = enc.emitted) (hch : enc.channels id = some ch)
    (hfits : data.length ≤ ch.senderWindowSize.toNat) (target : UInt32)
    (htold : told (final (d.reply buf s)) ≤ told s + data.length)
    (hrel : ∃ enc', (d.common (final (d.reply buf s))).encrypted = some enc' ∧
      Operations True (start.adjustWindowSize id data target).1 enc') :
    d.Ledger told id (d.grants id (.reply s buf)) s (final (d.reply buf s)) := by
  obtain ⟨enc', henc', hoperations⟩ := hrel
  have hstart : start.channels id = some ch := (congrFun hchannels id).trans hch
  obtain ⟨ch', new, hch', -, hnew, -, -, hsum⟩ := adjustWindowSize_takes data target hstart hfits
  have hwidens : Widens id 0 (start.adjustWindowSize id data target).1 enc' := hoperations.widens
  obtain ⟨bodies, n, hbodies, hn, hroom⟩ := hwidens
  obtain ⟨m, hm⟩ := Advertised.total id new
  have hqueue : enc'.emitted = enc.emitted ++ (new ++ bodies) := by
    rw [hbodies, hnew, hemitted, List.append_assoc]
  have hgrants : d.grants id (.reply s buf) = granted ch.recipientChannel (new ++ bodies) :=
    grants_carries hcarries henc henc' hqueue hch
  have hbefore : (d.common s).room id = ch.senderWindowSize.toNat := by
    unfold CommonSession.room
    rw [entry_some henc, hch, Option.elim_some]
  have hmid : (start.adjustWindowSize id data target).1.room id = ch'.senderWindowSize.toNat := by
    unfold Encrypted.room
    rw [hch', Option.elim_some]
  have hafter : (d.common (final (d.reply buf s))).room id = enc'.room id := by
    unfold CommonSession.room Encrypted.room
    rw [entry_some henc']
  refine ⟨new ++ bodies, m + n, ?_, hm.append hn, ?_⟩
  · rw [emitted_some henc, emitted_some henc', hqueue]
  · rw [hgrants, granted_append]
    omega

end

end

/-! ### The server -/

namespace Server

/-- The bytes of a channel that a question hands to the handler. -/
def Callback.bytesFor (id : UInt32) : Callback → Nat
  | .data id' d => if id' = id then d.length else 0
  | .extendedData id' _ d => if id' = id then d.length else 0
  | _ => 0

/-- The bytes of a channel that the handler has been handed. -/
def delivered (id : UInt32) (s : Session) : Nat :=
  (s.callbacks.map fun p => p.1.bytesFor id).sum

/-- Whether an act that serves data for a channel finds room for them. -/
def Fits (id : UInt32) : Act Session (UInt32 × ChannelMsg) → Prop
  | .reply s buf => s.Settled → ¬ s.common.InExchange buf →
    ∀ data ∈ readData id buf, s.common.HasRoom id data.2
  | .message _ _ => True

variable {handler : Handler} {id : UInt32} {s t : Session} {buf : Bytes}

omit [Deps] in
theorem bytesFor_dataCallback (id : UInt32) (ext : Option UInt32) (data : Bytes) :
    (dataCallback id ext data).bytesFor id = data.length := by
  cases ext with
  | none => exact if_pos rfl
  | some code => exact if_pos rfl

omit [Deps] in
/-- A question that is not about a channel hands over nothing of it. -/
theorem bytesFor_of_channel {callback : Callback} (h : callback.channel ≠ some id) :
    callback.bytesFor id = 0 := by
  unfold Callback.bytesFor
  split
  · exact if_neg fun heq => h (congrArg some heq)
  · exact if_neg fun heq => h (congrArg some heq)
  · rfl

/-- What is asked after a session adds to what it has handed over. -/
theorem delivered_append {asked : List (Callback × Answer)}
    (h : t.callbacks = s.callbacks ++ asked) :
    delivered id t = delivered id s + (asked.map fun p => p.1.bytesFor id).sum := by
  unfold delivered
  rw [h, List.map_append, List.sum_append]

/-- Questions that hand over nothing. -/
theorem delivered_of_asks {Q : Callback → Prop} (h : Asks Q s t)
    (hQ : ∀ callback, Q callback → callback.bytesFor id = 0) : delivered id t = delivered id s := by
  obtain ⟨asked, hasked, hkind⟩ := h
  have hzero : (asked.map fun p => p.1.bytesFor id).sum = 0 := by
    refine List.sum_eq_zero_iff_forall_eq_nat.mpr fun n hn => ?_
    obtain ⟨p, hp, rfl⟩ := List.mem_map.mp hn
    exact hQ _ (hkind p hp)
  have hsum : delivered id t = delivered id s + (asked.map fun p => p.1.bytesFor id).sum :=
    delivered_append hasked
  omega

theorem delivered_of_silent (h : Silent s t) : delivered id t = delivered id s := by
  unfold delivered
  rw [h]

omit [Deps] in
/-- The question for a channel request hands over nothing. -/
theorem channelRequestCallback_bytesFor {id' : UInt32} {reqType : Bytes} {r : Position}
    {callback : Callback} (h : channelRequestCallback id' reqType r = .ok (some callback)) :
    callback.bytesFor id = 0 := by
  unfold channelRequestCallback at h
  split_ifs at h
  all_goals
    repeat obtain ⟨_, -, h⟩ := ok_of_bind h
    cases h
    try rfl

omit [Deps] in
theorem holdsData_of_readExt {ext : Option UInt32} {d : Bytes} {r r1 r2 : Position}
    (hhead : buf.head? = some msg.CHANNEL_EXTENDED_DATA ∨ buf.head? = some msg.CHANNEL_DATA)
    (hid : (reader buf 1).readU32 = .ok (id, r)) (hext : readExt buf r = .ok (ext, r1))
    (hd : r1.readString = .ok (d, r2)) : HoldsData id buf ext d := by
  unfold readExt at hext
  by_cases hplain : buf.head? = some msg.CHANNEL_DATA
  · rw [if_pos hplain] at hext
    cases hext
    exact .plain hplain hid rfl hd
  · rw [if_neg hplain] at hext
    obtain ⟨⟨code, r'⟩, hcode, hok⟩ := ok_of_bind hext
    cases hok
    exact .extended (hhead.resolve_right hplain) hid rfl hcode hd

omit [Deps] in
/-- A question of a packet hands over data that can be read in it. -/
theorem InPacket.bytesFor {callback : Callback} (h : InPacket buf callback)
    (hnone : readData id buf = none) : callback.bytesFor id = 0 := by
  cases h with
  | @data id' ext d r r1 r2 hhead hread hext hd =>
    by_cases heq : id' = id
    · subst heq
      rw [(holdsData_of_readExt hhead hread hext hd).readData] at hnone
      cases hnone
    · refine bytesFor_of_channel fun hid => heq ?_
      cases ext with
      | none => exact Option.some.inj hid
      | some code => exact Option.some.inj hid
  | request hhead hread hreq hwants h => exact channelRequestCallback_bytesFor h
  | _ => rfl

theorem ask_costs (handler : Handler) (callback : Callback) :
    Costs (delivered id) (callback.bytesFor id) (ask handler callback) := by
  intro s
  have hsum : delivered id (final (ask handler callback s)) = delivered id s +
      (([(callback, handler s.common.tick callback s)] : List (Callback × Answer)).map
        fun p => p.1.bytesFor id).sum := delivered_append rfl
  simp only [List.map_singleton, List.sum_singleton] at hsum
  omega

theorem finish_costs (handler : Handler) (callback : Callback) :
    Costs (delivered id) (callback.bytesFor id) (finish handler callback) := by
  intro s
  have hsum : delivered id (final (finish handler callback s)) = delivered id s +
      (([(callback, handler s.common.tick callback s)] : List (Callback × Answer)).map
        fun p => p.1.bytesFor id).sum := delivered_append (finish_callbacks handler callback s)
  simp only [List.map_singleton, List.sum_singleton] at hsum
  omega

omit [Deps] in
theorem readExt_of_holdsData {ext : Option UInt32} {data : Bytes} (h : HoldsData id buf ext data) :
    ∃ r r1 r2, (reader buf 1).readU32 = .ok (id, r) ∧ readExt buf r = .ok (ext, r1) ∧
      r1.readString = .ok (data, r2) := by
  cases h with
  | plain hhead hid hext hdata =>
    refine ⟨_, _, _, hid, ?_, hdata⟩
    rw [hext]
    exact if_pos hhead
  | extended hhead hid hext hcode hdata =>
    refine ⟨_, _, _, hid, ?_, hdata⟩
    have hne : ¬ buf.head? = some msg.CHANNEL_DATA := by
      rw [hhead]
      decide
    unfold readExt
    rw [if_neg hne, hcode, hext]
    rfl

/-- What follows once data are taken off the window hands the data over, and no others. -/
theorem afterData_costs (handler : Handler) (callback : Callback) (channelNum target : UInt32)
    (adjusted : Bool) : Costs (delivered id) (callback.bytesFor id) (do
      if adjusted then do
        let answer ← ask handler (.adjustWindow channelNum target)
        if answer.window > 0 then modify fun s => { s with targetWindowSize := answer.window }
        else pure ()
      else pure ()
      onCommon flush
      finish handler callback) := by
  have hsilent : ∀ {α : Type} {x : M α}, Moves Silent x → Costs (delivered id) 0 x :=
    fun hx => .of_moves hx fun _ _ h => delivered_of_silent h
  have hrest : Costs (delivered id) (callback.bytesFor id)
      (do onCommon flush; finish handler callback) :=
    ((hsilent (onCommon_silent _)).bind fun _ => finish_costs handler callback).mono (by omega)
  cases adjusted with
  | false => exact hrest
  | true =>
    have hask : Costs (delivered id) 0 (ask handler (.adjustWindow channelNum target)) :=
      ask_costs handler _
    refine Costs.mono (n := 0 + callback.bytesFor id) ?_ (by omega)
    refine hask.bind fun answer => ?_
    by_cases hwindow : answer.window > 0
    · simp only [if_pos hwindow]
      have hset : Costs (delivered id) 0
          (modify fun s : Session => { s with targetWindowSize := answer.window }) :=
        hsilent (modify_silent fun _ => rfl)
      exact Costs.mono (n := 0 + callback.bytesFor id) (hset.bind fun _ => hrest) (by omega)
    · simp only [if_neg hwindow]
      exact hrest

/-- Data that are served are taken off the window, and handed over once. -/
theorem serverReadData_delivers (handler : Handler) {ext : Option UInt32} {data : Bytes}
    {enc : Encrypted} (h : HoldsData id buf ext data) (henc : s.common.encrypted = some enc) :
    delivered id (final (serverReadData handler buf s)) ≤ delivered id s + data.length ∧
      ∃ enc', (final (serverReadData handler buf s)).common.encrypted = some enc' ∧
        Operations True (enc.adjustWindowSize id data s.targetWindowSize).1 enc' := by
  obtain ⟨r, r1, r2, hid, hext, hdata⟩ := readExt_of_holdsData h
  have hadjusts := run_onCommon henc
    (f := fun enc => .ok (enc.adjustWindowSize id data s.targetWindowSize).swap) rfl
  have hafter : Costs (delivered id) ((dataCallback id ext data).bytesFor id) _ :=
    afterData_costs handler (dataCallback id ext data) id s.targetWindowSize
      (enc.adjustWindowSize id data s.targetWindowSize).2
  have hcosts := hafter (s.withEnc (enc.adjustWindowSize id data s.targetWindowSize).1)
  have hoperated := operations_of_operated (afterData_operated handler (dataCallback id ext data) id
    s.targetWindowSize (enc.adjustWindowSize id data s.targetWindowSize).2
    (s.withEnc (enc.adjustWindowSize id data s.targetWindowSize).1))
  rw [bytesFor_dataCallback] at hcosts
  unfold serverReadData
  rw [run_bind, run_lift hid]
  dsimp only
  rw [run_bind, run_lift hext]
  dsimp only
  rw [run_bind, run_lift hdata]
  dsimp only
  rw [run_bind, run_get]
  dsimp only
  rw [run_bind, hadjusts]
  have hstart : ∃ enc₁,
      (s.withEnc (enc.adjustWindowSize id data s.targetWindowSize).1).common.encrypted = some enc₁ ∧
        enc₁ = (enc.adjustWindowSize id data s.targetWindowSize).1 := ⟨_, rfl, rfl⟩
  exact ⟨hcosts, encrypted_of_rel hstart hoperated fun _ _ hsteps heq => heq ▸ hsteps⟩

/-- Packets with data are dispatched to one place. -/
theorem serverReadAuthenticated_data (handler : Handler)
    (hhead : buf.head? = some msg.CHANNEL_DATA ∨ buf.head? = some msg.CHANNEL_EXTENDED_DATA)
    (s : Session) :
    serverReadAuthenticated handler buf s = serverReadData handler buf s := by
  unfold serverReadAuthenticated
  rcases hhead with hhead | hhead
  · rw [hhead]
    rfl
  · rw [hhead]
    rfl

/-- A packet that does not serve data for a channel hands nothing of it over. -/
theorem reply_delivers_none (hsound : s.common.Sound)
    (h : ¬ (s.Settled ∧ ¬ s.common.InExchange buf ∧ (readData id buf).isSome = true)) :
    delivered id (final (reply handler buf s)) = delivered id s := by
  refine delivered_of_asks (reply_asks hsound) fun callback hkind => ?_
  rcases hkind with hnone | ⟨hsettled, hin, hpacket⟩
  · refine bytesFor_of_channel ?_
    rw [hnone]
    exact (Option.some_ne_none id).symm
  · refine hpacket.bytesFor ?_
    cases hread : readData id buf with
    | none => rfl
    | some data => exact absurd ⟨hsettled, hin, by rw [hread]; rfl⟩ h

/-- What an admitted packet does to the ledger of a channel. -/
theorem reply_ledger (hsound : s.common.Sound) (hfits : Fits id (.reply s buf)) :
    (driver handler).Ledger (delivered id) id ((driver handler).grants id (.reply s buf)) s
      (final ((driver handler).reply buf s)) := by
  by_cases hserves : s.Settled ∧ ¬ s.common.InExchange buf ∧ (readData id buf).isSome = true
  · obtain ⟨hsettled, hin, hsome⟩ := hserves
    obtain ⟨⟨ext, data⟩, hread⟩ := Option.isSome_iff_exists.mp hsome
    have hholds := holdsData_of_readData hread
    obtain ⟨ch, hch, hroom⟩ := hfits hsettled hin (ext, data) hread
    obtain ⟨u, hrun, hu, husettled⟩ := serverReadState_settled handler buf hsettled
    obtain ⟨enc, henc⟩ := encrypted_of_settled hsettled
    obtain ⟨start, hstart⟩ := encrypted_of_settled husettled
    have hstanding := hu.standing
    simp only [CommonSession.standing, henc, hstart, Option.map_some, Option.some.injEq] at hstanding
    have hreply : reply handler buf s = serverReadData handler buf u := by
      rw [reply_state handler hin, hrun]
      exact serverReadAuthenticated_data handler hholds.carriesFor.1 u
    obtain ⟨htold, hoperations⟩ := serverReadData_delivers handler hholds hstart
    rw [← hreply] at htold hoperations
    rw [delivered_of_silent hu.callbacks] at htold
    have hentry : enc.channels id = some ch := by
      rw [← entry_some henc]
      exact hch
    exact .of_fits hholds.carriesFor henc (congrArg (fun x => x.2.1) hstanding)
      (congrArg Prod.fst hstanding) hentry hroom u.targetWindowSize htold hoperations
  · have htold : delivered id (final (reply handler buf s)) = delivered id s :=
      reply_delivers_none hsound hserves
    by_cases hdispatched : s.Settled ∧ ¬ s.common.InExchange buf
    · exact .of_handles htold (reply_serving handler hdispatched.1 hdispatched.2).final
    · have hle : delivered id (final (reply handler buf s)) ≤ delivered id s + 0 :=
        Nat.le_of_eq htold
      cases (reply_undispatched handler hsound hdispatched).final with
      | operations h =>
        have hledger : (driver handler).Ledger (delivered id) id (0 + 0) s
            (final (reply handler buf s)) := .of_rel hle (rel_imp h fun _ _ h => h.widens)
        exact hledger.mono (Nat.zero_le _)
      | started hnone hstarted =>
        obtain ⟨enc, henc, hsame⟩ := Option.map_eq_some_iff.mp hstarted
        have hledger : (driver handler).Ledger (delivered id) id 0 s
            (final (reply handler buf s)) :=
          .of_started htold hnone henc (congrArg (fun x => x.2.2.1) hsame)
            (congrArg (fun x => x.2.1) hsame)
        exact hledger.mono (Nat.zero_le _)

/-- The server's programs keep the ledger while data fit. -/
theorem meters (handler : Handler) (id : UInt32) :
    (driver handler).Meters (delivered id) id (Fits id) where
  told_set _ _ := rfl
  settle _ := ⟨rfl, rfl⟩
  message s m := by
    have htold : delivered id (final (message m s)) ≤ delivered id s + 0 :=
      Costs.of_moves (message_silent m) (fun _ _ h => delivered_of_silent h) s
    have hoperations : Option.Rel (Operations True) s.common.encrypted
        (final (message m s)).common.encrypted := operations_of_operated (message_operated m s)
    have hledger : (driver handler).Ledger (delivered id) id (0 + 0) s (final (message m s)) :=
      .of_rel htold (rel_imp hoperations fun _ _ h => h.widens)
    exact hledger
  reply _ _ hsound hfits := reply_ledger hsound hfits

end Server

/-! ### The client -/

namespace Client

/-- The bytes of a channel that a question hands to the handler. -/
def Callback.bytesFor (id : UInt32) : Callback → Nat
  | .data id' d => if id' = id then d.length else 0
  | .extendedData id' _ d => if id' = id then d.length else 0
  | _ => 0

/-- The bytes of a channel that the handler has been handed. -/
def delivered (id : UInt32) (s : Session) : Nat :=
  (s.callbacks.map fun p => p.1.bytesFor id).sum

/-- Whether an act that serves data for a channel finds room for them. -/
def Fits (id : UInt32) : Act Session Msg → Prop
  | .reply s buf => s.Settled → ¬ s.common.InExchange buf →
    ∀ data ∈ readData id buf, s.common.HasRoom id data.2
  | .message _ _ => True

variable {app : Application} {id : UInt32} {s t : Session} {buf : Bytes}

omit [Deps] in
/-- A question that is not about a channel hands over nothing of it. -/
theorem bytesFor_of_channel {callback : Callback} (h : callback.channel ≠ some id) :
    callback.bytesFor id = 0 := by
  unfold Callback.bytesFor
  split
  · exact if_neg fun heq => h (congrArg some heq)
  · exact if_neg fun heq => h (congrArg some heq)
  · rfl

/-- What is asked after a session adds to what it has handed over. -/
theorem delivered_append {asked : List (Callback × Answer)}
    (h : t.callbacks = s.callbacks ++ asked) :
    delivered id t = delivered id s + (asked.map fun p => p.1.bytesFor id).sum := by
  unfold delivered
  rw [h, List.map_append, List.sum_append]

/-- Questions that hand over nothing. -/
theorem delivered_of_poses {Q : Callback → Prop} (h : Poses Q s t)
    (hQ : ∀ callback, Q callback → callback.bytesFor id = 0) : delivered id t = delivered id s := by
  obtain ⟨asked, hasked, hkind⟩ := h
  have hzero : (asked.map fun p => p.1.bytesFor id).sum = 0 := by
    refine List.sum_eq_zero_iff_forall_eq_nat.mpr fun n hn => ?_
    obtain ⟨p, hp, rfl⟩ := List.mem_map.mp hn
    exact hQ _ (hkind p hp)
  have hsum : delivered id t = delivered id s + (asked.map fun p => p.1.bytesFor id).sum :=
    delivered_append hasked
  omega

theorem delivered_of_silent (h : Silent s t) : delivered id t = delivered id s := by
  unfold delivered
  rw [h]

omit [Deps] in
/-- The question for a channel request hands over nothing. -/
theorem channelRequestCallback_bytesFor {id' : UInt32} {req : Bytes} {r : Position}
    {callback : Callback} (h : channelRequestCallback id' req r = .ok (some callback)) :
    callback.bytesFor id = 0 := by
  unfold channelRequestCallback at h
  split_ifs at h
  all_goals
    repeat obtain ⟨_, -, h⟩ := ok_of_bind h
    cases h
    try rfl

omit [Deps] in
/-- A question of a packet hands over data that can be read in it. -/
theorem InPacket.bytesFor {callback : Callback} (h : InPacket buf callback)
    (hnone : readData id buf = none) : callback.bytesFor id = 0 := by
  cases h with
  | @data id' d r r1 hhead hread hd =>
    by_cases heq : id' = id
    · subst heq
      have hholds : HoldsData id' buf none d := .plain hhead hread rfl hd
      rw [hholds.readData] at hnone
      cases hnone
    · exact bytesFor_of_channel fun hid => heq (Option.some.inj hid)
  | @extendedData id' code d r r1 r2 hhead hread hcode hd =>
    by_cases heq : id' = id
    · subst heq
      have hholds : HoldsData id' buf (some code) d := .extended hhead hread rfl hcode hd
      rw [hholds.readData] at hnone
      cases hnone
    · exact bytesFor_of_channel fun hid => heq (Option.some.inj hid)
  | request hhead hread hreq h => exact channelRequestCallback_bytesFor h
  | other h =>
    refine bytesFor_of_channel ?_
    rw [h]
    exact (Option.some_ne_none id).symm
  | _ => rfl

theorem ask_costs (app : Application) (callback : Callback) :
    Costs (delivered id) (callback.bytesFor id) (ask app callback) := by
  intro s
  have hsum : delivered id (final (ask app callback s)) = delivered id s +
      (([(callback, app.handler s.common.tick callback s)] : List (Callback × Answer)).map
        fun p => p.1.bytesFor id).sum := delivered_append rfl
  simp only [List.map_singleton, List.sum_singleton] at hsum
  omega

theorem finish_costs (app : Application) (callback : Callback) :
    Costs (delivered id) (callback.bytesFor id) (finish app callback) := by
  intro s
  have hsum : delivered id (final (finish app callback s)) = delivered id s +
      (([(callback, app.handler s.common.tick callback s)] : List (Callback × Answer)).map
        fun p => p.1.bytesFor id).sum := delivered_append (finish_callbacks app callback s)
  simp only [List.map_singleton, List.sum_singleton] at hsum
  omega

/-- What follows once data are taken off the window hands the data over, and no others. -/
theorem afterData_costs (app : Application) (callback : Callback) (channelNum target : UInt32)
    (adjusted : Bool) : Costs (delivered id) (callback.bytesFor id) (do
      if adjusted then do
        let answer ← ask app (.adjustWindow channelNum target)
        if answer.window > 0 then modify fun s => { s with targetWindowSize := answer.window }
        else pure ()
      else pure ()
      finish app callback) := by
  have hrest : Costs (delivered id) (callback.bytesFor id) (finish app callback) :=
    finish_costs app callback
  cases adjusted with
  | false => exact hrest
  | true =>
    have hask : Costs (delivered id) 0 (ask app (.adjustWindow channelNum target)) :=
      ask_costs app _
    refine Costs.mono (n := 0 + callback.bytesFor id) ?_ (by omega)
    refine hask.bind fun answer => ?_
    by_cases hwindow : answer.window > 0
    · simp only [if_pos hwindow]
      have hset : Costs (delivered id) 0
          (modify fun s : Session => { s with targetWindowSize := answer.window }) :=
        .of_moves (modify_silent fun _ => rfl) fun _ _ h => delivered_of_silent h
      exact Costs.mono (n := 0 + callback.bytesFor id) (hset.bind fun _ => hrest) (by omega)
    · simp only [if_neg hwindow]
      exact hrest

/-- Data that are received are taken off the window, and handed over once. -/
theorem clientReceiveData_delivers (app : Application) {data : Bytes} {callback : Callback}
    {enc : Encrypted} (henc : s.common.encrypted = some enc) :
    delivered id (final (clientReceiveData app id data callback s)) ≤
        delivered id s + callback.bytesFor id ∧
      ∃ enc', (final (clientReceiveData app id data callback s)).common.encrypted = some enc' ∧
        Operations True (enc.adjustWindowSize id data s.common.config.windowSize).1 enc' := by
  set adjusted := enc.adjustWindowSize id data s.common.config.windowSize with hadjusted
  have hadjusts := run_onCommon henc
    (f := fun enc => .ok (enc.adjustWindowSize id data s.common.config.windowSize).swap) rfl
  have hafter : Costs (delivered id) (callback.bytesFor id) _ :=
    afterData_costs app callback id s.targetWindowSize adjusted.2
  have hcosts := hafter (s.withEnc adjusted.1)
  have hoperated := operations_of_operated (afterData_operated app callback id
    s.targetWindowSize adjusted.2 (s.withEnc adjusted.1))
  unfold clientReceiveData
  rw [run_bind, run_get]
  dsimp only
  rw [run_bind, hadjusts]
  have hstart : ∃ enc₁, (s.withEnc adjusted.1).common.encrypted = some enc₁ ∧ enc₁ = adjusted.1 :=
    ⟨_, rfl, rfl⟩
  exact ⟨hcosts, encrypted_of_rel hstart hoperated fun _ _ hsteps heq => heq ▸ hsteps⟩

/-- A packet with data is dispatched to the place where they are received. -/
theorem clientReadAuthenticated_data (app : Application) {ext : Option UInt32} {data : Bytes}
    (h : HoldsData id buf ext data) (s : Session) :
    ∃ callback : Callback, callback.bytesFor id = data.length ∧
      clientReadAuthenticated app buf s = clientReceiveData app id data callback s := by
  unfold clientReadAuthenticated
  cases h with
  | plain hhead hid _ hdata =>
    refine ⟨.data id data, if_pos rfl, ?_⟩
    rw [hhead]
    change clientReadData app buf s = _
    unfold clientReadData
    rw [run_bind, run_lift hid]
    dsimp only
    rw [run_bind, run_lift hdata]
  | @extended code _ _ _ hhead hid _ hcode hdata =>
    refine ⟨.extendedData id code data, if_pos rfl, ?_⟩
    rw [hhead]
    change clientReadExtendedData app buf s = _
    unfold clientReadExtendedData
    rw [run_bind, run_lift hid]
    dsimp only
    rw [run_bind, run_lift hcode]
    dsimp only
    rw [run_bind, run_lift hdata]

/-- A packet that does not serve data for a channel hands nothing of it over. -/
theorem reply_delivers_none (hsound : s.common.Sound)
    (h : ¬ (s.Settled ∧ ¬ s.common.InExchange buf ∧ (readData id buf).isSome = true)) :
    delivered id (final (reply app buf s)) = delivered id s := by
  refine delivered_of_poses (reply_poses app hsound) fun callback hkind => ?_
  rcases hkind with hnone | ⟨hsettled, hin, hpacket⟩
  · refine bytesFor_of_channel ?_
    rw [hnone]
    exact (Option.some_ne_none id).symm
  · refine hpacket.bytesFor ?_
    cases hread : readData id buf with
    | none => rfl
    | some data => exact absurd ⟨hsettled, hin, by rw [hread]; rfl⟩ h

theorem Works.widens {enc enc' : Encrypted} (h : Works enc enc') : Widens id 0 enc enc' := by
  cases h with
  | operates h => exact h.widens
  | queues hchannels hemitted =>
    obtain ⟨bodies, hbodies⟩ := hemitted
    exact .of_channels (congrFun hchannels id) hbodies.symm

theorem widens_of_works {enc enc' : Encrypted} (h : Relation.ReflTransGen Works enc enc') :
    Widens id 0 enc enc' := by
  induction h with
  | refl => exact .refl id enc
  | tail _ hstep ih => exact ih.trans hstep.widens

/-- What an admitted packet does to the ledger of a channel. -/
theorem reply_ledger (hsound : s.common.Sound) (hfits : Fits id (.reply s buf)) :
    (driver app).Ledger (delivered id) id ((driver app).grants id (.reply s buf)) s
      (final ((driver app).reply buf s)) := by
  by_cases hserves : s.Settled ∧ ¬ s.common.InExchange buf ∧ (readData id buf).isSome = true
  · obtain ⟨hsettled, hin, hsome⟩ := hserves
    obtain ⟨⟨ext, data⟩, hread⟩ := Option.isSome_iff_exists.mp hsome
    have hholds := holdsData_of_readData hread
    obtain ⟨ch, hch, hroom⟩ := hfits hsettled hin (ext, data) hread
    have hsame := hsettled
    obtain ⟨enc, henc, -⟩ := hsame
    obtain ⟨callback, hbytes, hserved⟩ := clientReadAuthenticated_data app hholds s
    have hreply : reply app buf s = clientReceiveData app id data callback s := by
      rw [reply_state app hsound hin, clientReadState_settled app hsettled, hserved]
    obtain ⟨htold, hoperations⟩ := clientReceiveData_delivers app henc
    rw [← hreply, hbytes] at htold
    rw [← hreply] at hoperations
    have hentry : enc.channels id = some ch := by
      rw [← entry_some henc]
      exact hch
    exact .of_fits hholds.carriesFor henc rfl rfl hentry hroom s.common.config.windowSize htold
      hoperations
  · have htold : delivered id (final (reply app buf s)) = delivered id s :=
      reply_delivers_none hsound hserves
    by_cases hdispatched : s.Settled ∧ ¬ s.common.InExchange buf
    · exact .of_handles htold (reply_serving app hsound hdispatched.1 hdispatched.2).final
    · have hle : delivered id (final (reply app buf s)) ≤ delivered id s + 0 :=
        Nat.le_of_eq htold
      cases (reply_undispatched app hsound hdispatched).final with
      | works h =>
        have hworks : Option.Rel (Relation.ReflTransGen Works) s.common.encrypted
            (final (reply app buf s)).common.encrypted :=
          rel_of_steps (fun u : Session => u.common.encrypted) h
        have hledger : (driver app).Ledger (delivered id) id (0 + 0) s (final (reply app buf s)) :=
          .of_rel hle (rel_imp hworks fun _ _ => widens_of_works)
        exact hledger.mono (Nat.zero_le _)
      | started hnone enc henc hchannels hemitted =>
        have hledger : (driver app).Ledger (delivered id) id 0 s (final (reply app buf s)) :=
          .of_started htold hnone henc hchannels hemitted
        exact hledger.mono (Nat.zero_le _)

theorem requestService_silent : Moves Silent requestService := by
  refine Moves.get.bind fun s => ?_
  cases s.common.encrypted with
  | none => exact .pure _
  | some enc =>
    cases hstate : enc.state with
    | waitingServiceRequest sent accepted =>
      simp only [hstate]
      cases sent with
      | false => exact (sealPacket_silent _ _).bind fun _ => modifyEnc_silent _
      | true => exact .pure _
    | _ =>
      simp only [hstate]
      exact .pure _

theorem writeAuthRequestIfNeeded_silent (user : Bytes) (meth : Method) :
    Moves Silent (writeAuthRequestIfNeeded user meth) := by
  have hlast : Moves Silent (modify fun s : Session => { s with
      common := { s.common with authUser := user, authMethod := some meth } } : M Unit) :=
    modify_silent fun _ => rfl
  refine requestService_silent.bind fun _ => Moves.get.bind fun s => ?_
  cases s.common.encrypted with
  | none => exact hlast
  | some enc =>
    dsimp only
    split
    · exact (push_silent _).bind fun _ => hlast
    · exact hlast

/-- A message of the handle asks nothing. -/
theorem serveMessage_silent (m : Msg) : Moves Silent (serveMessage m) := by
  have hopens : ∀ (x : M (Except Error UInt32)) (sender : Nat), Moves Silent x →
      Moves Silent (do insertChannel (← x) sender) := by
    intro x sender hx
    refine hx.bind fun id => ?_
    cases id with
    | ok id => exact modify_silent fun _ => rfl
    | error e => exact .throw _
  cases m with
  | authenticate user method => exact writeAuthRequestIfNeeded_silent user method
  | signed data => exact .pure _
  | channelOpenSession sender => exact hopens _ sender (openChannel_silent _ _)
  | channelOpenX11 originatorAddress originatorPort sender =>
    exact hopens _ sender (openChannel_silent _ _)
  | channelOpenDirectTcpip hostToConnect portToConnect originatorAddress originatorPort sender =>
    exact hopens _ sender (openChannel_silent _ _)
  | tcpipForward wantReply address port => exact push_silent _
  | cancelTcpipForward wantReply address port => exact push_silent _
  | disconnect reason description languageTag =>
    exact onCommon_silent (modify (·.disconnect reason description languageTag))
  | data id d => exact assertEncrypted_moves.bind fun _ => onCommon_silent _
  | extendedData id d ext => exact assertEncrypted_moves.bind fun _ => onCommon_silent _
  | eof id => exact assertEncrypted_moves.bind fun _ => modifyEnc_silent _
  | _ => exact request_silent _ _ _

/-- The client's programs keep the ledger while data fit. -/
theorem meters (app : Application) (id : UInt32) :
    (driver app).Meters (delivered id) id (Fits id) where
  told_set _ _ := rfl
  settle s := by
    refine ⟨rfl, ?_⟩
    change (settle s).common.standing.map Prod.snd = s.common.standing.map Prod.snd
    cases henc : s.common.encrypted with
    | none => simp only [settle, CommonSession.standing, CommonSession.modifyEnc, henc]; rfl
    | some enc =>
      simp only [settle, CommonSession.standing, CommonSession.modifyEnc, henc, Option.map_some]
      split <;> rfl
  message s m := by
    have hsilent : Moves Silent (message m) := by
      cases m with
      | none => exact .bind (modify_silent fun _ => rfl) fun _ => .pure _
      | some m => exact (serveMessage_silent m).bind fun _ => .pure _
    have htold : delivered id (final (message m s)) ≤ delivered id s + 0 :=
      Costs.of_moves hsilent (fun _ _ h => delivered_of_silent h) s
    have hoperations : Option.Rel (Operations True) s.common.encrypted
        (final (message m s)).common.encrypted := operations_of_operated (message_operated m s)
    have hledger : (driver app).Ledger (delivered id) id (0 + 0) s (final (message m s)) :=
      .of_rel htold (rel_imp hoperations fun _ _ h => h.widens)
    exact hledger
  reply _ _ hsound hfits := reply_ledger hsound hfits

end Client

/-! ### Runs -/

/-- The server begins with nothing handed over. -/
theorem Server.runStream_delivered {config : Server.Config} {handler : Server.Handler}
    {sshid : Bytes} {world : World} {l : Loop Server.Session}
    (h : Server.runStream config handler sshid world = .ok l) (id : UInt32) :
    ∃ s output, s.common.Initial ∧ Server.delivered id s = 0 ∧
      l = Loop.start (Server.driver handler) s output := by
  obtain ⟨s, output, hid, hl⟩ := Server.runStream_readSshId h
  refine ⟨s, output, Server.readSshId_initial hid, ?_, hl⟩
  unfold Server.delivered
  rw [Server.readSshId_callbacks hid]
  rfl

/-- No question has been put to the client's handler before its first turn. -/
theorem Client.readSshId_callbacks {config : Client.Config} {sshid : Bytes} {world : World}
    {s : Client.Session} (h : Client.readSshId config sshid world = .ok s) : s.callbacks = [] := by
  simp only [Client.readSshId, ownWrite_ok] at h
  cases h
  rfl

/-- The client begins with nothing handed over. -/
theorem Client.connectStream_delivered {config : Client.Config} {app : Client.Application}
    {sshid : Bytes} {world : World} {l : Loop Client.Session}
    (h : Client.connectStream config app sshid world = .ok l) (id : UInt32) :
    ∃ s output, s.common.Initial ∧ Client.delivered id s = 0 ∧
      l = Loop.start (Client.driver app) s output := by
  obtain ⟨s, t, output, hid, hfinish, hl⟩ := Client.connectStream_finish h
  refine ⟨t, output, Client.finish_initial (Client.readSshId_initial hid) hfinish, ?_, hl⟩
  have hturn : Costs (Client.delivered id) 0 (Client.finish app .onSessionConnected) :=
    Client.finish_costs app .onSessionConnected
  have hcosts := hturn s
  have hnone : Client.delivered id s = 0 := by
    unfold Client.delivered
    rw [Client.readSshId_callbacks hid]
    rfl
  rw [hfinish, final_ok, hnone] at hcosts
  exact Nat.le_zero.mp hcosts

/-- In every run of either role in which all data that are served fit the window
of their channel, no more bytes of a channel have been handed to the handler
than its openings advertised and the CHANNEL_WINDOW_ADJUSTs for it granted. -/
theorem delivered_covered :
    (∀ config handler sshid world l, Server.runStream config handler sshid world = .ok l →
      ∀ events id, (∀ act ∈ Loop.acts (Server.driver handler) l events, Server.Fits id act) →
        (Server.driver handler).Covers (Server.delivered id) id
          (Loop.acts (Server.driver handler) l events)
          (l.run (Server.driver handler) events).session) ∧
    (∀ config app sshid world l, Client.connectStream config app sshid world = .ok l →
      ∀ events id, (∀ act ∈ Loop.acts (Client.driver app) l events, Client.Fits id act) →
        (Client.driver app).Covers (Client.delivered id) id (Loop.acts (Client.driver app) l events)
          (l.run (Client.driver app) events).session) := by
  constructor
  · intro config handler sshid world l hl events id hfits
    have hbehaves := Server.driver_behaves (P := fun _ => True) (fun _ _ => trivial) handler
    obtain ⟨s, output, hs, hnone, rfl⟩ := Server.runStream_delivered hl id
    exact Loop.covers hbehaves (Server.meters handler id) hs hnone output events hfits
  · intro config app sshid world l hl events id hfits
    have hbehaves := Client.driver_behaves (P := fun _ => True) (fun _ _ => trivial) app
      fun _ _ _ _ => trivial
    obtain ⟨s, output, hs, hnone, rfl⟩ := Client.connectStream_delivered hl id
    exact Loop.covers hbehaves (Client.meters app id) hs hnone output events hfits

end

/-- A server whose channels begin with a window of two bytes. -/
def Concrete.narrowConfig : Server.Config := { serverConfig with windowSize := 2 }

/-- Its loop before its first turn. -/
def Concrete.narrowServer : @Loop (@Server.Session deps) :=
  letI := deps
  returned (Server.runStream narrowConfig handler clientConfig.clientId world) (by decide +kernel)

theorem Concrete.narrowServer_eq :
    letI := deps
    Server.runStream narrowConfig handler clientConfig.clientId world = .ok narrowServer :=
  returned_spec _ _

/-- Whether an act of the server can be seen to find room for its data. -/
def Server.fitting [Deps] (id : UInt32) : Act Server.Session (UInt32 × ChannelMsg) → Bool
  | .reply s buf => (readData id buf).all fun data => decide (s.common.HasRoom id data.2)
  | .message _ _ => true

/-- Whether an act of the client can be seen to find room for its data. -/
def Client.fitting [Deps] (id : UInt32) : Act Client.Session Client.Msg → Bool
  | .reply s buf => (readData id buf).all fun data => decide (s.common.HasRoom id data.2)
  | .message _ _ => true

theorem Server.fits_of_fitting [Deps] {id : UInt32} {act : Act Server.Session (UInt32 × ChannelMsg)}
    (h : Server.fitting id act = true) : Server.Fits id act := by
  cases act with
  | message _ _ => exact trivial
  | reply s buf =>
    intro _ _ data hdata
    have hroom := (Option.all_eq_true _ _).mp h data hdata
    exact of_decide_eq_true hroom

theorem Client.fits_of_fitting [Deps] {id : UInt32} {act : Act Client.Session Client.Msg}
    (h : Client.fitting id act = true) : Client.Fits id act := by
  cases act with
  | message _ _ => exact trivial
  | reply s buf =>
    intro _ _ data hdata
    have hroom := (Option.all_eq_true _ _).mp h data hdata
    exact of_decide_eq_true hroom

/-- Three bytes of data on the first channel. -/
def Concrete.threeBytes {M : Type} : List (Event M) :=
  [.arrive (sealed (dataFor 2)), .read]

/-- A server's first channel, and data on it. -/
def Server.servedData : List (Event (UInt32 × ChannelMsg)) :=
  Concrete.authenticated ++ [.arrive (Concrete.sealed Concrete.sessionOpen), .read] ++
    Concrete.threeBytes

/-- Data on the first channel of both roles. -/
theorem delivered_covered_both :
    letI := Concrete.deps
    (Server.driver Concrete.handler).Covers (Server.delivered 2) 2
      (Loop.acts (Server.driver Concrete.handler) Concrete.server Server.servedData)
      (Concrete.server.run (Server.driver Concrete.handler) Server.servedData).session ∧
    (Client.driver Concrete.application).Covers (Client.delivered 2) 2
      (Loop.acts (Client.driver Concrete.application) Concrete.client
        (Client.opened ++ Concrete.threeBytes))
      (Concrete.client.run (Client.driver Concrete.application)
        (Client.opened ++ Concrete.threeBytes)).session := by
  let _ := Concrete.deps
  have hserver : (Loop.acts (Server.driver Concrete.handler) Concrete.server
      Server.servedData).all (Server.fitting 2) = true := by
    decide +kernel
  have hclient : (Loop.acts (Client.driver Concrete.application) Concrete.client
      (Client.opened ++ Concrete.threeBytes)).all (Client.fitting 2) = true := by
    decide +kernel
  have hcovered := delivered_covered
  constructor
  · refine hcovered.1 _ _ _ _ _ (Concrete.runStream_eq Concrete.handler) _ 2 fun act hact => ?_
    exact Server.fits_of_fitting (List.all_eq_true.mp hserver act hact)
  · refine hcovered.2 _ _ _ _ _ Concrete.connectStream_eq _ 2 fun act hact => ?_
    exact Client.fits_of_fitting (List.all_eq_true.mp hclient act hact)

/-- Three bytes are handed over of a channel with a window of two. -/
theorem delivered_beyond :
    letI := Concrete.deps
    Server.runStream Concrete.narrowConfig Concrete.handler Concrete.clientConfig.clientId
      Concrete.world = .ok Concrete.narrowServer ∧
    ¬ (Server.driver Concrete.handler).Covers (Server.delivered 2) 2
      (Loop.acts (Server.driver Concrete.handler) Concrete.narrowServer Server.servedData)
      (Concrete.narrowServer.run (Server.driver Concrete.handler) Server.servedData).session := by
  refine ⟨Concrete.narrowServer_eq, ?_⟩
  rintro ⟨n, hn, hle⟩
  have htold : letI := Concrete.deps
      Server.delivered 2 (Concrete.narrowServer.run (Server.driver Concrete.handler)
        Server.servedData).session = 3 := by
    decide +kernel
  have hgrants : letI := Concrete.deps
      ((Loop.acts (Server.driver Concrete.handler) Concrete.narrowServer
        Server.servedData).map ((Server.driver Concrete.handler).grants 2)).sum = 0 := by
    decide +kernel
  have hemitted : letI := Concrete.deps
      ((Server.driver Concrete.handler).common (Concrete.narrowServer.run
        (Server.driver Concrete.handler) Server.servedData).session).emitted =
          [msg.SERVICE_ACCEPT :: sshString Server.sshUserauth, [msg.USERAUTH_SUCCESS],
            confirmChannelOpenPacket 5 2 2 32768] := by
    decide +kernel
  rw [htold, hgrants] at hle
  rw [hemitted] at hn
  obtain ⟨m, hm, hrest⟩ := ((hn.of_other (by decide)).of_other (by decide)).of_confirms
  cases hrest
  have htwo : (2 : UInt32).toNat = 2 := rfl
  omega

end Thrussh
