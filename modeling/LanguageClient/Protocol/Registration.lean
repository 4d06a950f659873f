import LanguageClient.Json.Decoder

/-!
# Registrations on the wire

How a server asks the client to serve a method, and to serve it no more. A registration is known by
an id. The client names registrations of its own by fresh ids, which no text that a server sends
equals.
-/

namespace LanguageClient

/-- The id of a registration. -/
inductive RegistrationId where
  /-- An id of the client's own, by its number. -/
  | minted (number : Nat)
  /-- An id that a server chose. -/
  | named (text : String)
  deriving DecidableEq, Repr

/-- The id as it is shown; all ids of the client's own look alike. -/
def RegistrationId.display : RegistrationId → String
  | .minted _ => "<uuid>"
  | .named text => text

/-- A wish that a method be served. -/
structure Registration where
  id : RegistrationId
  method : String
  registerOptions : Option Json
  deriving DecidableEq, Repr

/-- A wish that a method be served no more. -/
structure Unregistration where
  id : RegistrationId
  method : String
  deriving DecidableEq, Repr

/-- The method by which a server asks for registrations. -/
def registerMethod : String := "client/registerCapability"

/-- The method by which a server takes registrations back. -/
def unregisterMethod : String := "client/unregisterCapability"

def RegistrationId.ofJson? (value : Json) : Option RegistrationId := value.string?.map .named

def Registration.ofJson? (value : Json) : Option Registration := do
  match ← value.slots? ["id", "method", "registerOptions"] with
  | [id, method, options] =>
    some {
      id := ← id.required RegistrationId.ofJson?
      method := ← method.required Json.string?
      registerOptions := ← options.optional Json.any? }
  | _ => none

/-- The registrations of a request. -/
def Registration.ofParams? (value : Json) : Option (List Registration) := do
  match ← value.slots? ["registrations"] with
  | [registrations] => registrations.required (Json.list? Registration.ofJson?)
  | _ => none

def Unregistration.ofJson? (value : Json) : Option Unregistration := do
  match ← value.slots? ["id", "method"] with
  | [id, method] =>
    some { id := ← id.required RegistrationId.ofJson?, method := ← method.required Json.string? }
  | _ => none

/-- The unregistrations of a request. -/
def Unregistration.ofParams? (value : Json) : Option (List Unregistration) := do
  match ← value.slots? ["unregisterations"] with
  | [unregistrations] => unregistrations.required (Json.list? Unregistration.ofJson?)
  | _ => none

end LanguageClient
