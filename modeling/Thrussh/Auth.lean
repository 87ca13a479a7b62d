import Thrussh.Deps

/-!
# Authentication data

The method set, the state of an authentication dialogue and the answers of
a handler, from `auth.rs` and `server/mod.rs`.
-/

namespace Thrussh

/-- `MethodSet`, one flag for each method. -/
structure MethodSet where
  /-- `NONE`. -/
  none : Bool
  /-- `PASSWORD`. -/
  password : Bool
  /-- `PUBLICKEY`. -/
  publickey : Bool
  /-- `HOSTBASED`. -/
  hostbased : Bool
  /-- `KEYBOARD_INTERACTIVE`. -/
  keyboardInteractive : Bool
  deriving DecidableEq, Repr

/-- `MethodSet::all`. -/
def MethodSet.all : MethodSet := ⟨true, true, true, true, true⟩

/-- `MethodSet::empty`. -/
def MethodSet.empty : MethodSet := ⟨false, false, false, false, false⟩

/-- The names of the methods in a set, in the order of its iterator. -/
def MethodSet.names (m : MethodSet) : List Bytes :=
  (if m.none then [ascii "none"] else []) ++
    (if m.password then [ascii "password"] else []) ++
    (if m.publickey then [ascii "publickey"] else []) ++
    (if m.hostbased then [ascii "hostbased"] else []) ++
    (if m.keyboardInteractive then [ascii "keyboard-interactive"] else [])

/-- Adding `MethodSet::from_bytes` of a name, if it is one. -/
def MethodSet.insertName (m : MethodSet) (b : Bytes) : MethodSet :=
  if b = ascii "none" then { m with none := true }
  else if b = ascii "password" then { m with password := true }
  else if b = ascii "publickey" then { m with publickey := true }
  else if b = ascii "hostbased" then { m with hostbased := true }
  else if b = ascii "keyboard-interactive" then { m with keyboardInteractive := true }
  else m

/-- `CurrentRequest`. -/
inductive CurrentRequest where
  | publicKey (key algo : Bytes) (sentPkOk : Bool)
  | keyboardInteractive (submethods : Bytes)
  deriving DecidableEq, Repr

/-- `AuthRequest`. -/
structure AuthRequest where
  /-- The methods that can continue. -/
  methods : MethodSet
  /-- Whether the last request was a partial success. -/
  partialSuccess : Bool
  /-- The dialogue in progress. -/
  current : Option CurrentRequest
  /-- How many requests were rejected. -/
  rejectionCount : Nat
  deriving DecidableEq, Repr

/-- `server::Auth`. -/
inductive Auth where
  | reject
  | accept
  | unsupportedMethod
  /-- `Partial`: the name, the instructions and the prompts with their echo flags. -/
  | partialAccept (name instructions : Bytes) (prompts : List (Bytes × Bool))
  deriving DecidableEq, Repr

/-- `auth::Method`, the client's way to authenticate. -/
inductive Method where
  | password (password : Bytes)
  | publicKey (key : KeyPair)
  | futurePublicKey (key : PublicKey)
  deriving DecidableEq

end Thrussh
