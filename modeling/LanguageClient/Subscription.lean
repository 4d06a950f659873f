/-!
# Subscriptions

A handle on something that has to be undone once. Undoing it has effects; they happen when the
handle is released, and a handle that was released has none left.
-/

namespace LanguageClient

/-- A handle, with what happens when it is released; nothing is left once that was done. -/
structure Subscription (ε : Type) where
  teardown : Option (List ε)
  deriving DecidableEq, Repr

namespace Subscription

variable {ε : Type}

/-- A handle whose release has the given effects. -/
def make (effects : List ε) : Subscription ε := ⟨some effects⟩

/-- A handle whose release has none. -/
def empty : Subscription ε := ⟨none⟩

/-- Whether nothing is left to be undone. -/
def isClosed (handle : Subscription ε) : Bool := handle.teardown.isNone

/-- The effects of releasing the handle, and the handle afterwards. -/
def release (handle : Subscription ε) : List ε × Subscription ε :=
  (handle.teardown.getD [], empty)

/-- A handle that has effects of its own and then releases another. -/
def around (effects : List ε) (inner : Subscription ε) : Subscription ε :=
  make (effects ++ inner.release.1)

end Subscription

end LanguageClient
