import LanguageClient.Progress
import LanguageClient.Protocol.Diagnostic
import LanguageClient.Protocol.Document
import LanguageClient.Provider

/-!
# The host

What the client sees of the editor that it works for: roots, documents and views, and the things it
puts there: providers, decorations and progress reporters. A provider is active until it is
withdrawn; providers and reporters are numbered from one in the order in which they come. What
happened to decorations and reporters is kept as a trace, the oldest first.

The host may be slow or unable to make reporters, which is its stance. It may also end the client
from inside one of its own callbacks; an armed callback does so the next time it is called.
-/

namespace LanguageClient

/-- A visible view of a document. -/
structure View where
  id : Nat
  document : Url
  deriving DecidableEq, Repr

/-- What a view shows of a diagnostic. -/
structure Decoration where
  range : Range
  severity : Option Int32
  message : String
  deriving DecidableEq, Repr

/-- The decoration of a diagnostic, whose source stands in front of its message. -/
def Diagnostic.decoration (diagnostic : Diagnostic) : Decoration :=
  let message := match diagnostic.source with
    | some source => s!"{source}: " ++ diagnostic.message
    | none => diagnostic.message
  ⟨diagnostic.range, diagnostic.severity, message⟩

/-- A provider that the host may ask. -/
structure Provider where
  number : Nat
  kind : ProviderKind
  selector : DocumentSelector
  /-- The feature that it serves, and the session it belongs to. -/
  feature : Feature
  session : Nat
  deriving DecidableEq, Repr

/-- Something that the client did to the host. -/
inductive HostEvent where
  /-- All decorations of a kind in a view were replaced. -/
  | decorated (kind view : Nat) (items : List Decoration)
  | reporterCreated (reporter : Nat) (title : Option String)
  | reporterRefused (title : Option String)
  | reporter (event : ReporterEvent)
  deriving DecidableEq, Repr

/-- A callback of the host. -/
inductive HostCall where
  | registerProvider
  | createReporter
  | setDecorations
  deriving DecidableEq, Repr

/-- What the host does when it is asked for something that takes time. -/
structure Stance where
  /-- Whether those who ask have to wait. -/
  isHeld : Bool
  /-- How many of those who ask next are refused. -/
  refusals : Nat
  deriving DecidableEq, Repr

/-- Nobody waits and nobody is refused. -/
def Stance.willing : Stance := ⟨false, 0⟩

structure Host where
  roots : List Url
  documents : List TextDocument
  views : List View
  lastView : Nat
  /-- Every provider that there ever was. -/
  provided : List Provider
  /-- The providers that were withdrawn, each as often as that was done. -/
  withdrawn : List Nat
  lastDecorationKind : Nat
  /-- The session that each reporter was made for. -/
  reporterSessions : List Nat
  reporters : Stance
  /-- The sessions that wait for a reporter, in the order in which they came. -/
  waiting : List Nat
  armed : List HostCall
  trace : List HostEvent

namespace Host

def new : Host where
  roots := []
  documents := []
  views := []
  lastView := 0
  provided := []
  withdrawn := []
  lastDecorationKind := 0
  reporterSessions := []
  reporters := .willing
  waiting := []
  armed := []
  trace := []

def record (host : Host) (events : List HostEvent) : Host :=
  { host with trace := host.trace ++ events }

def addView (host : Host) (document : Url) : Nat × Host :=
  let id := host.lastView + 1
  (id, { host with views := host.views ++ [⟨id, document⟩], lastView := id })

def removeView (host : Host) (view : Nat) : Host :=
  { host with views := host.views.filter fun found => found.id ≠ view }

def newDecorationKind (host : Host) : Nat × Host :=
  (host.lastDecorationKind + 1,
   { host with lastDecorationKind := host.lastDecorationKind + 1 })

/-- The active providers. -/
def providers (host : Host) : List Provider :=
  host.provided.filter fun found => found.number ∉ host.withdrawn

def provide (host : Host) (kind : ProviderKind) (selector : DocumentSelector) (feature : Feature)
    (session : Nat) : Nat × Host :=
  let number := host.provided.length + 1
  (number,
   { host with provided := host.provided ++ [⟨number, kind, selector, feature, session⟩] })

def withdraw (host : Host) (numbers : List Nat) : Host :=
  { host with withdrawn := host.withdrawn ++ numbers }

/-- Replaces the decorations of a kind in a view. -/
def decorate (host : Host) (kind : Nat) (view : View) (items : List Decoration) : Host :=
  host.record [.decorated kind view.id items]

/-- What comes of asking for a reporter. -/
inductive ReporterAnswer where
  | later
  | refused (failure : HostError)
  | created (reporter : Nat)

/-- What a host says that makes no reporters. -/
def unavailable : HostError := ⟨"progress is unavailable", none⟩

/-- A session waits for a reporter, once. -/
def await (host : Host) (session : Nat) : Host :=
  if session ∈ host.waiting then host else { host with waiting := host.waiting ++ [session] }

/-- A session asks for a reporter. -/
def createReporter (host : Host) (session : Nat) (title : Option String) : ReporterAnswer × Host :=
  if host.reporters.isHeld then (.later, host.await session)
  else
    match host.reporters.refusals with
    | left + 1 =>
      (.refused unavailable,
       { host with reporters := { host.reporters with refusals := left } }.record
         [.reporterRefused title])
    | 0 =>
      let number := host.reporterSessions.length + 1
      (.created number,
       { host with reporterSessions := host.reporterSessions ++ [session] }.record
         [.reporterCreated number title])

/-- Calls back: whether the host ends the client now. -/
def ring (host : Host) (call : HostCall) : Bool × Host :=
  if call ∈ host.armed then (true, { host with armed := host.armed.erase call })
  else (false, host)

end Host

end LanguageClient
