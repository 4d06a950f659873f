import LanguageClient.Client.Step
import LanguageClient.Rehearsal.Peer
import LanguageClient.Rehearsal.Schedule

/-!
# Rehearsing a client

A script plays the host, the servers and the users of a client. Each connection that the client makes
leads to a new scripted server. After a step of the script everything runs, first come first served,
until nothing can; what nobody holds any more is released after every run of a task.
-/

namespace LanguageClient

namespace Rehearsal

/-- A client, the servers that it has reached, and the scripts of those to come. -/
structure Engagement where
  world : World
  peers : List Peer
  /-- The scripts of the next servers. -/
  scripts : List Script
  /-- The script of the servers after them. -/
  script : Script
  ready : List Wake

namespace Engagement

def start (options : ClientOptions) (scripts : List Script) (script : Script) : Engagement :=
  ⟨.start options, [], scripts, script, []⟩

/-- The servers of connections that were made just now begin to play. -/
def seatOne (e : Engagement) : Engagement :=
  if e.peers.length < e.world.sessions.length then
    match e.scripts with
    | script :: rest => { e with peers := e.peers ++ [.new script], scripts := rest }
    | [] => { e with peers := e.peers ++ [.new e.script] }
  else e

/-- All servers begin to play that do not yet. -/
def seat (e : Engagement) : Engagement :=
  (List.range (e.world.sessions.length - e.peers.length)).foldl (fun e _ => e.seatOne) e

/-- Takes those who are to look again. -/
def notice (e : Engagement) : Engagement × List Wake :=
  let woken := e.world.woken
  ({ e with world := { e.world with woken := [] } }.seat, woken)

/-- The server of a session looks at what was sent to it. -/
def pollServer (e : Engagement) (number : Nat) : Engagement :=
  match e.peers[number]?, e.world.sessions[number]? with
  | some peer, some session =>
    let (peer, connection) := peer.poll session.connection
    { e with
      peers := e.peers.set number peer
      world := e.world.put number { session with connection } }
  | _, _ => e

/-- One who was woken looks again. -/
def run (wake : Wake) (e : Engagement) : Engagement × List Wake :=
  match wake with
  | .task task => { e with world := (e.world.poll task).sweep }.notice
  | .server number => (e.pollServer number).notice

/-- The world is now this; those who were woken wait for their turn. -/
def upon (e : Engagement) (world : World) : Engagement :=
  let (e, woken) := { e with world }.notice
  { e with ready := wakeAll e.ready woken }

def settle (e : Engagement) : Engagement :=
  Rehearsal.settle run patience e.ready { e with ready := [] }

/-- What is new about the servers. -/
def reportServers (e : Engagement) : List (Nat × Peer.Report) × Engagement :=
  let reports := (e.peers.zip e.world.sessions).map fun entry =>
    entry.1.report entry.2.connection
  ((reports.zipIdx.filterMap fun entry => entry.1.1.map fun report => (entry.2, report)),
   { e with peers := reports.map Prod.snd })

/-- The world after its news were told. -/
def withoutNews (e : Engagement) : Engagement :=
  { e with world := { e.world with
    finished := [], log := [], host := { e.world.host with trace := [] } } }

end Engagement

end Rehearsal

end LanguageClient
