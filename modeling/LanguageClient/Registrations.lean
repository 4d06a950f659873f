import LanguageClient.Protocol.Registration

/-!
# Active registrations

What one server is registered for: each id stands for at most one method and the provider that
serves it. An id that is registered again first loses the provider it had.
-/

namespace LanguageClient

/-- What an id stands for: a method and the number of its provider. -/
structure ActiveRegistration where
  method : String
  provider : Nat
  deriving DecidableEq, Repr

/-- The active registrations by id, the oldest first. -/
structure Registrations where
  entries : List (RegistrationId × ActiveRegistration)
  deriving DecidableEq, Repr

namespace Registrations

def empty : Registrations := ⟨[]⟩

def find? (table : Registrations) (id : RegistrationId) : Option ActiveRegistration :=
  table.entries.lookup id

def erase (table : Registrations) (id : RegistrationId) : Registrations :=
  ⟨table.entries.filter fun entry => entry.1 ≠ id⟩

def insert (table : Registrations) (id : RegistrationId) (active : ActiveRegistration) :
    Registrations :=
  ⟨(table.erase id).entries ++ [(id, active)]⟩

/-- The providers of all ids. -/
def providers (table : Registrations) : List Nat := table.entries.map fun entry => entry.2.provider

def size (table : Registrations) : Nat := table.entries.length

end Registrations

end LanguageClient
