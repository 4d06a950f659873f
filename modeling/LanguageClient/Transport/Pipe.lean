import LanguageClient.Error

/-!
# Pipes

A pipe takes messages one way, in order, without bound. Each end can be dropped: without a reader
nothing more can be sent and what waits is lost; without a writer the reader still gets what waits.

A channel is two pipes, one each way.
-/

namespace LanguageClient

/-- A pipe: the messages that wait, and which ends are there. -/
structure Pipe where
  waiting : List Message
  hasWriter : Bool
  hasReader : Bool
  deriving DecidableEq, Repr

/-- What a reader finds. -/
inductive Receipt where
  | message (message : Message)
  | pending
  | ended
  deriving DecidableEq, Repr

/-- The name by which a failure to send tells of a message. -/
def Message.label (message : Message) : String := message.method?.getD "response"

namespace Pipe

def new : Pipe := ⟨[], true, true⟩

/-- Sends a message. -/
def send (pipe : Pipe) (message : Message) : Except TransportError Pipe :=
  if pipe.hasReader then .ok { pipe with waiting := pipe.waiting ++ [message] }
  else .error (.send message.label)

/-- Takes the next message, if one waits. -/
def receive (pipe : Pipe) : Receipt × Pipe :=
  match pipe.waiting with
  | message :: rest => (.message message, { pipe with waiting := rest })
  | [] => (if pipe.hasWriter then .pending else .ended, pipe)

def dropWriter (pipe : Pipe) : Pipe := { pipe with hasWriter := false }

/-- Drops the end of the reader, and with it all that waits. -/
def dropReader (pipe : Pipe) : Pipe := { pipe with hasReader := false, waiting := [] }

end Pipe

/-- An end of a channel. -/
inductive ChannelEnd where
  | left
  | right
  deriving DecidableEq, Repr

/-- Two pipes; each end writes to one and reads from the other. -/
structure Channel where
  toLeft : Pipe
  toRight : Pipe
  dropped : List ChannelEnd
  deriving DecidableEq, Repr

namespace Channel

def new : Channel := ⟨.new, .new, []⟩

/-- Whether the end was dropped. -/
def isDropped (channel : Channel) (at_ : ChannelEnd) : Bool := channel.dropped.contains at_

def send (channel : Channel) (source : ChannelEnd) (message : Message) :
    Except TransportError Channel :=
  match source with
  | .left => (channel.toRight.send message).map fun pipe => { channel with toRight := pipe }
  | .right => (channel.toLeft.send message).map fun pipe => { channel with toLeft := pipe }

def receive (channel : Channel) (target : ChannelEnd) : Receipt × Channel :=
  match target with
  | .left =>
    let (receipt, pipe) := channel.toLeft.receive
    (receipt, { channel with toLeft := pipe })
  | .right =>
    let (receipt, pipe) := channel.toRight.receive
    (receipt, { channel with toRight := pipe })

def drop (channel : Channel) (at_ : ChannelEnd) : Channel :=
  let dropped := at_ :: channel.dropped
  match at_ with
  | .left => ⟨channel.toLeft.dropReader, channel.toRight.dropWriter, dropped⟩
  | .right => ⟨channel.toLeft.dropWriter, channel.toRight.dropReader, dropped⟩

end Channel

end LanguageClient
