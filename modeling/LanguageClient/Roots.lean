import LanguageClient.Protocol.Workspace
import LanguageClient.Rewriter

/-!
# Roots

The directories that a host has open. `RootDiff.between` tells which roots have come and gone from
one list to another, whatever their order and however often each is listed. A document belongs to a
root if it is the root or lies under it as under a directory.
-/

namespace LanguageClient

/-- Whether the URL is the root or its text goes on from that of the root as a directory. -/
def Url.isUnder (document root : Url) : Bool :=
  document = root || (stripFront? root.asDirectory.text.toList document.text.toList).isSome

/-- The roots that have come and gone, each once and in the order of the lists they are from. -/
structure RootDiff where
  added : List Url
  removed : List Url
  deriving DecidableEq, Repr

namespace RootDiff

/-- The roots of a list that another list has not, each at its first place; those found so far are
left out as well. -/
def missingFrom (other found : List Url) : List Url → List Url
  | [] => []
  | root :: rest =>
    if root ∈ other ∨ root ∈ found then missingFrom other found rest
    else root :: missingFrom other (root :: found) rest

/-- What has changed from one list to the next. -/
def between (before after : List Url) : RootDiff :=
  ⟨missingFrom before [] after, missingFrom after [] before⟩

def isEmpty (diff : RootDiff) : Bool := diff.added.isEmpty && diff.removed.isEmpty

/-- The change without some of its roots. -/
def without (diff : RootDiff) (held : Url → Bool) : RootDiff :=
  ⟨diff.added.filter fun root => !held root, diff.removed.filter fun root => !held root⟩

end RootDiff

/-- The segments of a path, which starts with a slash. -/
def Url.segments (path : List Char) : List (List Char) := (path.drop 1).splitOn '/'

/-- The name of a root: its last segment that is not empty, or all of it. -/
def Url.folderName (root : Url) : String :=
  if root.cannotBeABase then root.text
  else
    match (Url.segments root.path).reverse.find? fun segment => !segment.isEmpty with
    | some segment => String.ofList segment
    | none => root.text

/-- A root as the server is told of it. -/
def Rewriter.folder (rewriter : Rewriter) (root : Url) : Except ConversionError WorkspaceFolder :=
  (rewriter.toReference root).map fun uri => ⟨uri, root.folderName⟩

/-- A change as the server is told of it; one root without a name there fails it. -/
def Rewriter.folderChange (rewriter : Rewriter) (diff : RootDiff) :
    Except ConversionError FolderChange := do
  let added ← diff.added.mapM rewriter.folder
  let removed ← diff.removed.mapM rewriter.folder
  pure ⟨added, removed⟩

end LanguageClient
