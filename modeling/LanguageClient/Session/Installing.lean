import LanguageClient.Session

/-!
# Registering providers

What a server registers becomes a provider of the host, scoped to the root of the session. Of a list
of registrations every one is attempted, and the first failure is told. A method that is no feature
is passed over. An id that is registered again first loses the provider it had, also when the new
registration fails.
-/

namespace LanguageClient

namespace Hosted

/-- Takes a registration back; nothing happens if there is none. -/
def uninstall (h : Hosted) (id : RegistrationId) : Hosted :=
  match h.session.registrations.find? id with
  | none => h
  | some active =>
    { h with
      session := { h.session with registrations := h.session.registrations.erase id }
      host := h.host.withdraw [active.provider] }

/-- The options and the selector of a provider that a server asks for. -/
def plan (h : Hosted) (registration : Registration) :
    Except ClientError DocumentSelector := do
  let options ← RegisterOptions.ofRegistration registration.registerOptions registration.method
  match DocumentSelector.scope options.documentSelector h.session.root with
  | .ok selector => pure selector
  | .error failure => throw (.conversion failure)

/-- Adds a provider for an id, in place of one that the id may have got meanwhile. -/
def addProvider (h : Hosted) (feature : Feature) (id : RegistrationId)
    (selector : DocumentSelector) : Hosted :=
  let (provider, host) := h.host.provide feature.kind selector feature h.number
  let h := ({ h with host }.callback .registerProvider).uninstall id
  { h with session := { h.session with
    registrations := h.session.registrations.insert id ⟨feature.method, provider⟩ } }

/-- Carries a registration out. -/
def install (h : Hosted) (registration : Registration) : Option ClientError × Hosted :=
  let h := h.uninstall registration.id
  match Feature.ofMethod? registration.method with
  | none => (none, h)
  | some feature =>
    match h.plan registration with
    | .error failure => (some failure, h)
    | .ok selector => (none, h.addProvider feature registration.id selector)

/-- Carries a registration out and tells the log of a failure. -/
def installNoted (h : Hosted) (registration : Registration) : Option ClientError × Hosted :=
  match h.install registration with
  | (none, h) => (none, h)
  | (some failure, h) =>
    (some failure,
     h.note .session .warn "failed to install registration"
      [("error", failure.message), ("id", registration.id.display),
       ("method", registration.method)])

/-- Carries registrations out in their order; the first failure is kept. -/
def installEach (h : Hosted) : List Registration → Option ClientError × Hosted
  | [] => (none, h)
  | registration :: rest =>
    let (failure, h) := h.installNoted registration
    let (later, h) := h.installEach rest
    (failure.or later, h)

/-- Carries registrations out. A disposed session has none; one that is disposed meanwhile keeps
none. -/
def installAll (h : Hosted) (registrations : List Registration) : Option ClientError × Hosted :=
  if h.session.isDisposed then (none, h)
  else
    let (failure, h) := h.installEach registrations
    (failure, if h.session.isDisposed then h.clearRegistrations else h)

/-- What a server is told of a request that has no result. -/
def acknowledgement : Option ClientError → Outcome
  | none => .ok .null
  | some failure => .error failure

/-- Carries a request of the server out. -/
def serve (h : Hosted) (handler : SessionHandler) (method : String) (params : Json) :
    Outcome × Hosted :=
  match handler with
  | .register =>
    match Registration.ofParams? params with
    | none => (.error (.undecodable method), h)
    | some registrations =>
      let (failure, h) := h.installAll registrations
      (acknowledgement failure, h)
  | .unregister =>
    match Unregistration.ofParams? params with
    | none => (.error (.undecodable method), h)
    | some unregistrations =>
      (.ok .null, (unregistrations.map Unregistration.id).foldl uninstall h)

/-- What the params of a request have to be. -/
def accepts (handler : SessionHandler) (params : Json) : Bool :=
  match handler with
  | .register => (Registration.ofParams? params).isSome
  | .unregister => (Unregistration.ofParams? params).isSome

/-- A job runs. A session that nobody holds serves none. -/
def runJob (h : Hosted) (isHeld : Bool) (number : Nat) : Hosted :=
  match h.session.connection.job? number with
  | none => h
  | some job =>
    let params := job.params.getD .null
    let (outcome, h) :=
      if accepts job.handler params ∧ !isHeld then (.error .connectionClosed, h)
      else h.serve job.handler job.method params
    h.withConnection (h.session.connection.finish number outcome)

end Hosted

end LanguageClient
