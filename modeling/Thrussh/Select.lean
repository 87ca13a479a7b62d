import Thrussh.Concrete

/-!
# Both sides choose alike

`select` chooses, for either role, the first name of the client's list that
the server's list has; its flag says whether the two lists begin with the
same name. A KEXINIT built by `write_kex` is read back field by field, so the
two ends of a connection find the same `Names`, or both find none.
-/

namespace Thrussh

/-- The comma-joined names of a list. -/
def joined (names : List Bytes) : Bytes := List.intercalate [44] names

/-- Names as they can stand in a name list: not empty, without a comma. -/
def Proper (names : List Bytes) : Prop := ∀ n ∈ names, n ≠ [] ∧ 44 ∉ n

/-- A `Preferred` of proper names. -/
def Preferred.Proper (p : Preferred) : Prop :=
  ∀ names ∈ [p.kex, p.key, p.cipher, p.mac, p.compression], Thrussh.Proper names

/-- The algorithm both sides use: the first name of the client's list that the server's has. -/
def chosen (client server : List Bytes) : Option Bytes := client.find? fun x => x ∈ server

/-- The inner loop looks for a name, and its flag survives only at the first candidate. -/
theorem selectInner_eq (x : Bytes) (other : List Bytes) (first : Bool) :
    selectInner x other first =
      if x ∈ other then (some (first && decide (other.head? = some x)),
        (selectInner x other first).2)
      else (none, first && decide (other = [])) := by
  induction other generalizing first with
  | nil => simp [selectInner]
  | cons y other ih =>
    by_cases hxy : x = y
    · subst hxy
      simp [selectInner]
    · have hyx : ¬ y = x := fun h => hxy h.symm
      simp only [selectInner, List.mem_cons, hxy, false_or, List.head?_cons,
        Option.some.injEq, hyx, decide_false, Bool.and_false, reduceCtorEq]
      have hrest := ih false
      by_cases hmem : x ∈ other
      · rw [if_pos hmem] at hrest ⊢
        rw [hrest]
        simp
      · rw [if_neg hmem] at hrest ⊢
        rw [hrest]
        simp

/-- The outer loop finds the first name the other list has. -/
theorem selectOuter_eq (other names : List Bytes) (first : Bool) :
    selectOuter other names first =
      (chosen names other).map fun x =>
        (first && decide (names.head? = other.head?), x) := by
  induction names generalizing first with
  | nil => rfl
  | cons x names ih =>
    have hinner := selectInner_eq x other first
    unfold chosen at ih ⊢
    by_cases hmem : x ∈ other
    · rw [if_pos hmem] at hinner
      rw [selectOuter, hinner, List.find?_cons_of_pos (by simpa using hmem)]
      simp [eq_comm]
    · rw [if_neg hmem] at hinner
      rw [selectOuter, hinner, List.find?_cons_of_neg (by simpa using hmem)]
      dsimp only
      rw [ih]
      cases hfound : names.find? fun x => decide (x ∈ other) with
      | none => rfl
      | some y =>
        -- the other list is not empty and does not begin with the name passed over
        have hy : y ∈ other := by simpa using List.find?_some hfound
        have hne : other ≠ [] := List.ne_nil_of_mem hy
        have hhead : other.head? ≠ some x := by
          intro h
          exact hmem (List.mem_of_mem_head? h)
        simp only [Option.map_some, hne, decide_false, Bool.and_false, Bool.false_and,
          List.head?_cons, Option.some.injEq, Prod.mk.injEq, and_true]
        exact (Bool.and_eq_false_imp.mpr fun _ => decide_eq_false fun h => hhead h.symm).symm

/-- Splitting a joined list gives its names back; the empty list becomes one empty name. -/
theorem splitOn_joined {names : List Bytes} (h : Proper names) :
    (joined names).splitOn 44 = if names = [] then [[]] else names := by
  by_cases hnil : names = []
  · rw [if_pos hnil, hnil]
    rfl
  · rw [if_neg hnil]
    exact List.splitOn_intercalate 44 (fun n hn => (h n hn).2) hnil

/-- Both roles choose the same name, with the same flag. -/
theorem select_eq {client server : List Bytes} (hclient : Proper client) (hserver : Proper server) :
    select .client client (joined server) =
        (chosen client server).map (fun x => (decide (client.head? = server.head?), x)) ∧
      select .server server (joined client) =
        (chosen client server).map (fun x => (decide (client.head? = server.head?), x)) := by
  simp only [select, splitOn_joined hclient, splitOn_joined hserver, selectOuter_eq, Bool.true_and]
  have hempty : ([] : Bytes) ∉ client ∧ ([] : Bytes) ∉ server :=
    ⟨fun h => (hclient [] h).1 rfl, fun h => (hserver [] h).1 rfl⟩
  constructor
  · by_cases hnil : server = []
    · have hnone : ∀ l, (l = [[]] ∨ l = []) → chosen client l = none := by
        intro l hl
        refine List.find?_eq_none.mpr fun x hx => ?_
        rcases hl with rfl | rfl
        · intro h
          have hx' : x = [] := by simpa using h
          exact hempty.1 (hx' ▸ hx)
        · simp
      rw [if_pos hnil, hnil, hnone _ (.inl rfl), hnone _ (.inr rfl)]
      rfl
    · rw [if_neg hnil]
  · by_cases hnil : client = []
    · have hmem : decide (([] : Bytes) ∈ server) = false := decide_eq_false hempty.2
      rw [if_pos hnil, hnil]
      simp [chosen, hmem]
    · rw [if_neg hnil]

/-- What a reader has in front of it. -/
def Position.Ahead (r : Position) (rest : Bytes) : Prop :=
  ∃ pre, r = ⟨pre ++ rest, pre.length⟩

/-- Reading the string ahead. -/
theorem readString_ahead {r : Position} {x rest : Bytes} (hx : x.length < 2 ^ 32)
    (h : r.Ahead (sshString x ++ rest)) : ∃ r', r.readString = .ok (x, r') ∧ r'.Ahead rest := by
  obtain ⟨pre, rfl⟩ := h
  refine ⟨_, readString_append pre rest hx, pre ++ sshString x, ?_⟩
  simp only [List.append_assoc, List.length_append, length_sshString]

/-- Reading the byte ahead. -/
theorem readByte_ahead {r : Position} {b : UInt8} {rest : Bytes} (h : r.Ahead (b :: rest)) :
    ∃ r', r.readByte = .ok (b, r') := by
  obtain ⟨pre, rfl⟩ := h
  exact ⟨_, readByte_append pre rest b⟩

/-- What `read_kex` finds in a KEXINIT that `write_kex` has built. -/
theorem readKex_writeKex (role : Role) (pref prefs : Preferred) (cookie : Vector UInt8 16) :
    readKex role (writeKex prefs cookie) pref = (do
      let (_, kex) ← selectOr .noCommonKexAlgo role pref.kex (joined prefs.kex)
      let (_, key) ← selectOr .noCommonKeyAlgo role pref.key (joined prefs.key)
      let (_, cipher) ← selectOr .noCommonCipher role pref.cipher (joined prefs.cipher)
      let mac := (select role pref.mac (joined prefs.mac)).map Prod.snd
      let (_, compression) ←
        selectOr .noCommonCompression role pref.compression (joined prefs.compression)
      .ok {
        kex, key, cipher, mac
        clientCompression := Compression.fromString compression
        serverCompression := Compression.fromString compression
        ignoreGuessed := false }) := by
  have hshort := prefs.short
  have hstart : (reader (writeKex prefs cookie) 17).Ahead (sshString (joined prefs.kex) ++
      (sshString (joined prefs.key) ++ (sshString (joined prefs.cipher) ++
      (sshString (joined prefs.cipher) ++ (sshString (joined prefs.mac) ++
      (sshString (joined prefs.mac) ++ (sshString (joined prefs.compression) ++
      (sshString (joined prefs.compression) ++ (sshString [] ++ (sshString [] ++
      (0 :: [0, 0, 0, 0]))))))))))) := by
    refine ⟨msg.KEXINIT :: cookie.toList, ?_⟩
    simp [reader, writeKex, nameList, joined]
  change 62 + (joined prefs.kex).length + (joined prefs.key).length +
    2 * (joined prefs.cipher).length + 2 * (joined prefs.mac).length +
    2 * (joined prefs.compression).length < 2 ^ 32 - 17 at hshort
  obtain ⟨r1, h1, hr1⟩ := readString_ahead (by omega) hstart
  obtain ⟨r2, h2, hr2⟩ := readString_ahead (by omega) hr1
  obtain ⟨r3, h3, hr3⟩ := readString_ahead (by omega) hr2
  obtain ⟨r4, h4, hr4⟩ := readString_ahead (by omega) hr3
  obtain ⟨r5, h5, hr5⟩ := readString_ahead (by omega) hr4
  obtain ⟨r6, h6, hr6⟩ := readString_ahead (by omega) hr5
  obtain ⟨r7, h7, hr7⟩ := readString_ahead (by omega) hr6
  obtain ⟨r8, h8, hr8⟩ := readString_ahead (by omega) hr7
  obtain ⟨r9, h9, hr9⟩ := readString_ahead (by simp) hr8
  obtain ⟨r10, h10, hr10⟩ := readString_ahead (by simp) hr9
  obtain ⟨r11, h11⟩ := readByte_ahead hr10
  simp only [readKex, bind, Except.bind, h1, h2, h3, h4, h5, h6, h7, h8, h9, h10, h11]
  cases selectOr .noCommonKexAlgo role pref.kex (joined prefs.kex) with
  | error e => rfl
  | ok kex =>
    cases selectOr .noCommonKeyAlgo role pref.key (joined prefs.key) with
    | error e => rfl
    | ok key =>
      cases selectOr .noCommonCipher role pref.cipher (joined prefs.cipher) with
      | error e => rfl
      | ok cipher =>
        cases selectOr .noCommonCompression role pref.compression (joined prefs.compression) with
        | error e => rfl
        | ok compression => simp

/-- A choice that must succeed is the same on both sides. -/
theorem selectOr_eq (e : Error) {client server : List Bytes} (hclient : Proper client)
    (hserver : Proper server) :
    selectOr e .server server (joined client) = selectOr e .client client (joined server) := by
  have hselect := select_eq hclient hserver
  simp only [selectOr, hselect.1, hselect.2]

/-- A choice that succeeds is the chosen name. -/
theorem selectOr_ok {e : Error} {client server : List Bytes} (hclient : Proper client)
    (hserver : Proper server) {flag : Bool} {x : Bytes}
    (h : selectOr e .client client (joined server) = .ok (flag, x)) :
    chosen client server = some x := by
  simp only [selectOr, (select_eq hclient hserver).1] at h
  cases hchosen : chosen client server with
  | none =>
    rw [hchosen] at h
    cases h
  | some y =>
    rw [hchosen] at h
    cases h
    rfl

/-- The names that both sides of a negotiation find, in terms of the two lists. -/
structure Names.Agreed (n : Names) (client server : Preferred) : Prop where
  /-- The key exchange algorithm. -/
  kex : chosen client.kex server.kex = some n.kex
  /-- The host key algorithm. -/
  key : chosen client.key server.key = some n.key
  /-- The cipher. -/
  cipher : chosen client.cipher server.cipher = some n.cipher
  /-- The MAC, if there is one. -/
  mac : n.mac = chosen client.mac server.mac
  /-- The compression, in both directions. -/
  compression : ∃ name, chosen client.compression server.compression = some name ∧
    n.clientCompression = Compression.fromString name ∧
    n.serverCompression = Compression.fromString name

/-- What the server and the client read: the same names, or no names on either side. -/
inductive BothAgree (client server : Preferred) : Except Fault Names → Except Fault Names → Prop
    where
  /-- Both find names. -/
  | names {ns nc : Names} (kex : ns.kex = nc.kex) (key : ns.key = nc.key)
    (cipher : ns.cipher = nc.cipher) (mac : ns.mac = nc.mac)
    (clientCompression : ns.clientCompression = nc.clientCompression)
    (serverCompression : ns.serverCompression = nc.serverCompression)
    (agreed : nc.Agreed client server) : BothAgree client server (.ok ns) (.ok nc)
  /-- Neither does. -/
  | errors (e e' : Fault) : BothAgree client server (.error e) (.error e')

/-- The two ends of a connection find the same names, each the first of the
client's list that the server's list has, or neither finds any; and the two
selections agree on every pair of lists, with a flag that says whether the lists begin alike. -/
theorem negotiation_agrees (client server : Preferred) (hclient : client.Proper)
    (hserver : server.Proper) (clientCookie serverCookie : Vector UInt8 16) :
    BothAgree client server (readKex .server (writeKex client clientCookie) server)
      (readKex .client (writeKex server serverCookie) client) ∧
    ∀ clientList serverList : List Bytes, Proper clientList → Proper serverList →
      select .server serverList (joined clientList) =
          select .client clientList (joined serverList) ∧
        ∀ flag x, select .client clientList (joined serverList) = some (flag, x) →
          (flag = true ↔ clientList.head? = serverList.head?) := by
  refine ⟨?_, fun clientList serverList hc hs => ⟨?_, fun flag x h => ?_⟩⟩
  · have hc : ∀ names ∈ [client.kex, client.key, client.cipher, client.mac, client.compression],
        Thrussh.Proper names := hclient
    have hs : ∀ names ∈ [server.kex, server.key, server.cipher, server.mac, server.compression],
        Thrussh.Proper names := hserver
    simp only [List.mem_cons, List.not_mem_nil, or_false, forall_eq_or_imp, forall_eq] at hc hs
    obtain ⟨hkex, hkey, hcipher, hmac, hcompression⟩ := hc
    obtain ⟨hkex', hkey', hcipher', hmac', hcompression'⟩ := hs
    have hmacs := select_eq hmac hmac'
    rw [readKex_writeKex, readKex_writeKex, selectOr_eq _ hkex hkex', selectOr_eq _ hkey hkey',
      selectOr_eq _ hcipher hcipher', selectOr_eq _ hcompression hcompression', hmacs.1, hmacs.2]
    simp only [bind, Except.bind]
    cases h1 : selectOr .noCommonKexAlgo .client client.kex (joined server.kex) with
    | error e => exact .errors e e
    | ok kex =>
      cases h2 : selectOr .noCommonKeyAlgo .client client.key (joined server.key) with
      | error e => exact .errors e e
      | ok key =>
        cases h3 : selectOr .noCommonCipher .client client.cipher (joined server.cipher) with
        | error e => exact .errors e e
        | ok cipher =>
          cases h4 : selectOr .noCommonCompression .client client.compression
              (joined server.compression) with
          | error e => exact .errors e e
          | ok compression =>
            refine .names rfl rfl rfl rfl rfl rfl ⟨selectOr_ok hkex hkex' h1,
              selectOr_ok hkey hkey' h2, selectOr_ok hcipher hcipher' h3, ?_, compression.2,
              selectOr_ok hcompression hcompression' h4, rfl, rfl⟩
            simp only [Option.map_map]
            exact Option.map_id'
  · rw [(select_eq hc hs).1, (select_eq hc hs).2]
  · rw [(select_eq hc hs).1] at h
    cases hchosen : chosen clientList serverList with
    | none =>
      rw [hchosen] at h
      cases h
    | some y =>
      rw [hchosen] at h
      cases h
      exact decide_eq_true_iff

/-- A client that prefers compression and a server that prefers none. -/
theorem negotiation_agrees_compressed :
    BothAgree .compressed .default
      (readKex .server (writeKex .compressed (Vector.replicate 16 0)) .default)
      (readKex .client (writeKex .default (Vector.replicate 16 1)) .compressed) ∧
    select .server [ascii "b", ascii "a"] (joined [ascii "a", ascii "b"]) =
      some (false, ascii "a") := by
  have hcompressed : Preferred.compressed.Proper := by
    unfold Preferred.Proper Proper
    decide
  have hdefault : Preferred.default.Proper := by
    unfold Preferred.Proper Proper
    decide
  have hlists : ∀ names ∈ [[ascii "a", ascii "b"], [ascii "b", ascii "a"]], Proper names := by
    unfold Proper
    decide
  have hagrees := negotiation_agrees .compressed .default hcompressed hdefault
    (Vector.replicate 16 0) (Vector.replicate 16 1)
  refine ⟨hagrees.1, ?_⟩
  rw [(hagrees.2 [ascii "a", ascii "b"] [ascii "b", ascii "a"] (hlists _ (by simp))
    (hlists _ (by simp))).1]
  decide

end Thrussh
