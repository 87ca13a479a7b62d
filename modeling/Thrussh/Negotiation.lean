import Thrussh.Compression
import Thrussh.Msg

/-!
# Algorithm negotiation

`Preferred`, `Names`, the two selection loops, and the KEXINIT packet that
`write_kex` builds and `read_kex` reads. Algorithm names are their bytes.
The tables of a `Preferred` are constants of the program; that they fit a
packet is part of the structure.
-/

namespace Thrussh

/-- `Preferred`: the preferred algorithms of each kind, best first. -/
structure Preferred where
  /-- Key exchange algorithms. -/
  kex : List Bytes
  /-- Host key algorithms. -/
  key : List Bytes
  /-- Ciphers. -/
  cipher : List Bytes
  /-- MACs. -/
  mac : List Bytes
  /-- Compression algorithms. -/
  compression : List Bytes
  /-- The KEXINIT with all the tables fits one packet. -/
  short : 62 + (List.intercalate [44] kex).length + (List.intercalate [44] key).length +
    2 * (List.intercalate [44] cipher).length + 2 * (List.intercalate [44] mac).length +
    2 * (List.intercalate [44] compression).length < 2 ^ 32 - 17

/-- `kex::CURVE25519`. -/
def curve25519 : Bytes := ascii "curve25519-sha256@libssh.org"

/-- `cipher::chacha20poly1305::NAME`. -/
def chacha20poly1305 : Bytes := ascii "chacha20-poly1305@openssh.com"

/-- `key::ED25519`. -/
def ed25519Name : Bytes := ascii "ssh-ed25519"

/-- `key::SSH_RSA`. -/
def sshRsaName : Bytes := ascii "ssh-rsa"

/-- The name of an RSA signature algorithm. -/
def SignatureHash.name : SignatureHash → Bytes
  | .sha2_256 => ascii "rsa-sha2-256"
  | .sha2_512 => ascii "rsa-sha2-512"
  | .sha1 => ascii "ssh-rsa"

/-- `Preferred::DEFAULT`. -/
def Preferred.default : Preferred where
  kex := [curve25519]
  key := [ed25519Name, SignatureHash.name .sha2_256, SignatureHash.name .sha2_512]
  cipher := [chacha20poly1305]
  mac := [ascii "none"]
  compression := [ascii "none", ascii "zlib", ascii "zlib@openssh.com"]
  short := by decide

/-- `Preferred::COMPRESSED`. -/
def Preferred.compressed : Preferred where
  kex := [curve25519]
  key := [ed25519Name, SignatureHash.name .sha2_256, SignatureHash.name .sha2_512]
  cipher := [chacha20poly1305]
  mac := [ascii "none"]
  compression := [ascii "zlib", ascii "zlib@openssh.com", ascii "none"]
  short := by decide

/-- `Named for PublicKey`. -/
def PublicKey.name : PublicKey → Bytes
  | .ed25519 _ => ed25519Name
  | .rsa _ _ _ => sshRsaName

/-- `PublicKey::name` of `thrussh_keys`, which a call finds before that of `Named`:
for an RSA key the signature algorithm. -/
def PublicKey.algorithm : PublicKey → Bytes
  | .ed25519 _ => ed25519Name
  | .rsa _ _ hash => hash.name

/-- `Named for KeyPair`. -/
def KeyPair.name : KeyPair → Bytes
  | .ed25519 _ _ => ed25519Name
  | .rsa _ _ _ hash => hash.name

/-- `Names`, the outcome of a negotiation. -/
structure Names where
  /-- Key exchange algorithm. -/
  kex : Bytes
  /-- Host key algorithm. -/
  key : Bytes
  /-- Cipher. -/
  cipher : Bytes
  /-- MAC, if there is a common one. -/
  mac : Option Bytes
  /-- Compression from server to client. -/
  serverCompression : Compression
  /-- Compression from client to server. -/
  clientCompression : Compression
  /-- Whether the next packet is a wrong guess. -/
  ignoreGuessed : Bool
  deriving DecidableEq, Repr

/-- The two ends of a connection. -/
inductive Role where
  | client | server
  deriving DecidableEq, Repr

/-- The inner loop of `select`: look for `x`, with a flag that is cleared at
every candidate passed over. -/
def selectInner (x : Bytes) : List Bytes → Bool → Option Bool × Bool
  | [], first => (none, first)
  | y :: ys, first => if x = y then (some first, first) else selectInner x ys false

/-- The outer loop of `select`: the first name of `preferring` that `other` has. -/
def selectOuter (other : List Bytes) : List Bytes → Bool → Option (Bool × Bytes)
  | [], _ => none
  | x :: xs, first =>
    match selectInner x other first with
    | (some found, _) => some (found, x)
    | (none, first) => selectOuter other xs first

/-- `Select::select`. The client's order decides: the server runs the outer
loop over the received list, the client over its own. -/
def select : Role → List Bytes → Bytes → Option (Bool × Bytes)
  | .server, serverList, clientList => selectOuter serverList (clientList.splitOn 44) true
  | .client, clientList, serverList => selectOuter (serverList.splitOn 44) clientList true

/-- A choice that must succeed. -/
def selectOr (e : Error) (role : Role) (ours : List Bytes) (theirs : Bytes) :
    Except Fault (Bool × Bytes) :=
  match select role ours theirs with
  | some x => .ok x
  | none => .error (.error e)

/-- `Select::read_kex`. -/
def readKex (role : Role) (buffer : Bytes) (pref : Preferred) : Except Fault Names := do
  let r := reader buffer 17
  let (kexString, r) ← r.readString
  let (kexBothFirst, kex) ← selectOr .noCommonKexAlgo role pref.kex kexString
  let (keyString, r) ← r.readString
  let (keyBothFirst, key) ← selectOr .noCommonKeyAlgo role pref.key keyString
  let (cipherString, r) ← r.readString
  let (_, cipher) ← selectOr .noCommonCipher role pref.cipher cipherString
  let (_, r) ← r.readString -- cipher server-to-client
  let (macString, r) ← r.readString
  let mac := (select role pref.mac macString).map Prod.snd
  let (_, r) ← r.readString -- mac server-to-client
  let (clientString, r) ← r.readString
  let (_, clientCompression) ← selectOr .noCommonCompression role pref.compression clientString
  let (serverString, r) ← r.readString
  let (_, serverCompression) ← selectOr .noCommonCompression role pref.compression serverString
  let (_, r) ← r.readString -- languages client-to-server
  let (_, r) ← r.readString -- languages server-to-client
  let (follows, _) ← r.readByte
  .ok {
    kex, key, cipher, mac
    clientCompression := Compression.fromString clientCompression
    serverCompression := Compression.fromString serverCompression
    ignoreGuessed := follows ≠ 0 && !(kexBothFirst && keyBothFirst) }

/-- `write_kex`, with the random cookie. -/
def writeKex (prefs : Preferred) (cookie : Vector UInt8 16) : Bytes :=
  msg.KEXINIT :: cookie.toList ++ nameList prefs.kex ++ nameList prefs.key ++
    nameList prefs.cipher ++ nameList prefs.cipher ++ nameList prefs.mac ++ nameList prefs.mac ++
    nameList prefs.compression ++ nameList prefs.compression ++
    nameList [] ++ nameList [] ++ [0] ++ [0, 0, 0, 0]

end Thrussh
