import LanguageClient.Connection

/-!
# Scripted servers

The server of a rehearsal keeps what it receives and answers each request at once: not at all if the
script says so, else with an error of the script, else with a result of the script. Without any of
these it answers a greeting with its capabilities and everything else with `null`.
-/

namespace LanguageClient

namespace Rehearsal

/-- How a server answers. -/
structure Script where
  capabilities : Json
  responses : List (String × Json)
  errors : List (String × ResponseError)
  stalled : List String

def Script.empty : Script := ⟨.null, [], [], []⟩

/-- The answer to a request, if there is one. -/
def Script.answer? (script : Script) (request : Request) : Option Response :=
  if request.method ∈ script.stalled then none
  else
    match script.errors.lookup request.method, script.responses.lookup request.method with
    | some error, _ => some (.failure request.id error)
    | none, some result => some (.success request.id result)
    | none, none =>
      let result := if request.method = "initialize"
        then .obj [("capabilities", script.capabilities)] else .null
      some (.success request.id result)

/-- A scripted server. -/
structure Peer where
  script : Script
  /-- What came since the last report. -/
  received : List Message
  /-- Whether the client can still send, as far as the server knows. -/
  seesOpen : Bool
  /-- The runs of the hook and the openness at the last report. -/
  reported : Nat × Bool

namespace Peer

def new (script : Script) : Peer := ⟨script, [], true, (0, true)⟩

variable {η : Type}

/-- The server answers a message. -/
def answer (peer : Peer) (connection : Connection η) : Message → Connection η
  | .request request =>
    match peer.script.answer? request with
    | some response => connection.arrive (.response response)
    | none => connection
  | _ => connection

/-- The server takes what was sent to it and answers. -/
def poll (peer : Peer) (connection : Connection η) : Peer × Connection η :=
  if connection.outgoing.hasReader then
    let (messages, connection) := connection.delivered
    ({ peer with
       received := peer.received ++ messages
       seesOpen := connection.outgoing.hasWriter },
     messages.foldl peer.answer connection)
  else (peer, connection)

/-- What is told of a server. -/
structure Report where
  received : List Message
  hookRuns : Nat
  isOpen : Bool

/-- What is new about the server, if anything is. -/
def report (peer : Peer) (connection : Connection η) : Option Report × Peer :=
  let now := (connection.hookRuns, peer.seesOpen)
  if peer.received.isEmpty ∧ peer.reported = now then (none, peer)
  else
    (some ⟨peer.received, connection.hookRuns, peer.seesOpen⟩,
     { peer with received := [], reported := now })

end Peer

end Rehearsal

end LanguageClient
