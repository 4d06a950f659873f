import LanguageClient.Connection
import LanguageClient.Roots

/-!
# Folders that a server knows of

A server of several roots is told which roots there are. `Folders` is what the client has told it:
the roots of the host as it last announced them, and the roots that it announced for those who
borrow a connection, each with the number of borrowers. A root that is lent is withdrawn when its
last borrower is done, unless the host has it by then; while it is lent, the comings and goings of
the host do not touch it.

A change that cannot be told is noted in the log and counts as announced all the same.
-/

namespace LanguageClient

/-- The roots that the server has been told of. -/
structure Folders where
  /-- The roots of the host, as last announced. -/
  announced : List Url
  /-- The roots that are lent, with the number of borrowers. -/
  lent : List (Url × Nat)
  deriving DecidableEq

/-- A root that was announced for a borrower, and the folder by which to withdraw it. -/
structure Loan where
  root : Url
  folder : WorkspaceFolder
  deriving DecidableEq

namespace Folders

variable {η : Type}

def empty : Folders := ⟨[], []⟩

def borrowers (folders : Folders) (root : Url) : Nat := (folders.lent.lookup root).getD 0

def isLent (folders : Folders) (root : Url) : Bool := (folders.lent.lookup root).isSome

def setBorrowers (folders : Folders) (root : Url) (count : Nat) : Folders :=
  let others := folders.lent.filter fun entry => entry.1 ≠ root
  { folders with lent := if count = 0 then others else others ++ [(root, count)] }

def tell (connection : Connection η) (change : FolderChange) :
    Except ClientError (Connection η) :=
  connection.notify FolderChange.method change.toJson

/-- Lends a root: announces it, unless the host has it or it is lent already. -/
def lend (folders : Folders) (rewriter : Rewriter) (connection : Connection η) (root : Url) :
    Except ClientError (Option Loan × Folders × Connection η) :=
  if root ∈ folders.announced then .ok (none, folders, connection)
  else
    match rewriter.folder root with
    | .error failure => .error (.conversion failure)
    | .ok folder =>
      let lent := folders.setBorrowers root (folders.borrowers root + 1)
      if folders.isLent root then .ok (some ⟨root, folder⟩, lent, connection)
      else
        match tell connection ⟨[folder], []⟩ with
        | .error failure => .error failure
        | .ok connection => .ok (some ⟨root, folder⟩, lent, connection)

/-- Ends a loan: withdraws the root if it was the last one and the host has not got the root. -/
def giveBack (folders : Folders) (connection : Connection η) (loan : Loan) :
    Folders × Connection η :=
  let left := folders.borrowers loan.root - 1
  let after := folders.setBorrowers loan.root left
  if !folders.isLent loan.root ∨ left ≠ 0 ∨ loan.root ∈ folders.announced then (after, connection)
  else
    match tell connection ⟨[], [loan.folder]⟩ with
    | .ok connection => (after, connection)
    | .error failure =>
      (after,
       connection.record (LogPart.client.event .warn
        "failed to withdraw temporary workspace folder"
        [("error", failure.message), ("root", loan.root.text)]))

def publish (rewriter : Rewriter) (connection : Connection η) (diff : RootDiff) :
    Except ClientError (Connection η) :=
  match rewriter.folderChange diff with
  | .error failure => .error (.conversion failure)
  | .ok change => tell connection change

/-- Announces what has changed from one list of roots to the next, except for what is lent. -/
def reconcile (folders : Folders) (rewriter : Rewriter) (connection : Connection η)
    (before after : List Url) : Folders × Connection η :=
  let diff := (RootDiff.between before after).without folders.isLent
  let folders := { folders with announced := after }
  if diff.isEmpty then (folders, connection)
  else
    match publish rewriter connection diff with
    | .ok connection => (folders, connection)
    | .error failure =>
      (folders,
       connection.record (LogPart.client.event .warn
        "failed to announce workspace folder changes" [("error", failure.message)]))

end Folders

end LanguageClient
