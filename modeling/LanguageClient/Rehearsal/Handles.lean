import LanguageClient.Subscription

/-!
# Rehearsing subscriptions

A script makes handles, wraps them and releases them, and watches how often something was undone. A
handle stands in a slot; a slot whose handle was taken is empty for good.
-/

namespace LanguageClient

namespace Rehearsal

/-- A step of the script. -/
inductive HandleStep where
  /-- A handle that counts one. -/
  | new
  /-- A handle that counts nothing. -/
  | empty
  /-- A handle on a task, which counts a hundred when it is dropped. -/
  | task
  /-- A handle that counts one and then releases the one it takes. -/
  | nested (slot : Nat)
  | release (slot : Nat)
  deriving DecidableEq, Repr

/-- The slots and the count so far. -/
structure Handles where
  slots : List (Option (Subscription Nat))
  total : Nat
  deriving DecidableEq, Repr

namespace Handles

def start : Handles := ⟨[], 0⟩

def add (handles : Handles) (handle : Subscription Nat) : Handles :=
  { handles with slots := handles.slots ++ [some handle] }

def take (handles : Handles) (slot : Nat) : Subscription Nat × Handles :=
  ((handles.slots[slot]?.join).getD .empty, { handles with slots := handles.slots.set slot none })

def step (handles : Handles) : HandleStep → Handles
  | .new => handles.add (.make [1])
  | .empty => handles.add .empty
  | .task => handles.add (.make [100])
  | .nested slot =>
    let (inner, handles) := handles.take slot
    handles.add (.around [1] inner)
  | .release slot =>
    let (handle, handles) := handles.take slot
    { handles with total := handle.release.1.foldl (· + ·) handles.total }

/-- Whether each handle is closed; nothing for an empty slot. -/
def closed (handles : Handles) : List (Option Bool) :=
  handles.slots.map fun slot => slot.map Subscription.isClosed

end Handles

end Rehearsal

end LanguageClient
