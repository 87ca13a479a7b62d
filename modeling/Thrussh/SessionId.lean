import Thrussh.Client.Hashing
import Thrussh.Concrete
import Thrussh.Server.Hashing

/-!
# The session id

In every run of either role the session id is the hash of the first exchange,
all keys and all signatures of the authentication are made with it, and a
re-exchange hashes nothing but what it has gathered itself.
-/

namespace Thrussh

/-- Along every run the session id stays the first exchange hash that was
computed. Every packet that leads to keys derives them with that hash, every
signature of the authentication is made or verified over it, and the hash of a
re-exchange is computed over KEXINITs and ephemeral keys of that re-exchange. -/
theorem session_id_kept [Deps] :
    (∀ config app sshid world l, Client.connectStream config app sshid world = .ok l → ∀ events,
      (∀ enc, (l.run (Client.driver app) events).session.common.encrypted = some enc →
        firstHash Client.hashing (l.acts (Client.driver app) events) = some enc.sessionId) ∧
      ∀ e s buf, (s, buf) ∈ Loop.given (Client.driver app) (l.run (Client.driver app) events) e →
        Client.UsesFirst app (firstHash Client.hashing (l.acts (Client.driver app) events))
          ((Client.driver app).during (l.acts (Client.driver app) events)) s buf) ∧
    ∀ config handler sshid world l, Server.runStream config handler sshid world = .ok l →
      ∀ events,
      (∀ enc, (l.run (Server.driver handler) events).session.common.encrypted = some enc →
        firstHash Server.hashing (l.acts (Server.driver handler) events) = some enc.sessionId) ∧
      ∀ e s buf, (s, buf) ∈ Loop.given (Server.driver handler)
          (l.run (Server.driver handler) events) e →
        Server.UsesFirst handler
          (firstHash Server.hashing (l.acts (Server.driver handler) events))
          ((Server.driver handler).during (l.acts (Server.driver handler) events)) s buf :=
  ⟨fun _ _ _ _ _ hl events => Client.usesFirst_of_run hl events,
    fun _ _ _ _ _ hl events => Server.usesFirst_of_run hl events⟩

/-- A client that starts a re-exchange once the session is encrypted. -/
def Concrete.rekeying {M : Type} : List (Event M) :=
  handshake ++ [.arrive (sealed kexinit), .read,
    .arrive (sealed (msg.KEX_ECDH_INIT :: sshString (zeros 32))), .read,
    .arrive (sealed [msg.NEWKEYS]), .read]

/-- A client behind its first exchange, and a server behind a re-exchange. -/
theorem session_id_kept_rekeying :
    letI := Concrete.deps
    let l := Concrete.client.run (Client.driver Concrete.application) Concrete.answers
    let l' := Concrete.server.run (Server.driver Concrete.handler) Concrete.rekeying
    (∀ enc, l.session.common.encrypted = some enc →
      firstHash Client.hashing
        (Concrete.client.acts (Client.driver Concrete.application) Concrete.answers) =
          some enc.sessionId) ∧
    l'.session.common.cipher.epoch = 2 ∧
    ∀ enc, l'.session.common.encrypted = some enc →
      firstHash Server.hashing
        (Concrete.server.acts (Server.driver Concrete.handler) Concrete.rekeying) =
          some enc.sessionId := by
  have hkept := @session_id_kept Concrete.deps
  have hclient := hkept.1 Concrete.clientConfig Concrete.application
    Concrete.serverConfig.serverId Concrete.world Concrete.client Concrete.connectStream_eq
    Concrete.answers
  have hserver := hkept.2 Concrete.serverConfig Concrete.handler Concrete.clientConfig.clientId
    Concrete.world Concrete.server (Concrete.runStream_eq _) Concrete.rekeying
  refine ⟨hclient.1, ?_, hserver.1⟩
  decide +kernel

end Thrussh
