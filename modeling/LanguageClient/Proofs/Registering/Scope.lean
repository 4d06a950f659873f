import LanguageClient.Proofs.Registering.Announcing
import LanguageClient.Proofs.Rewriting.Prefixes
import LanguageClient.Proofs.Scoping.Names

/-!
# The documents of a root

Two places decide which documents belong to a root. A provider that is registered without a selector gets
one pattern, `**` read relative to the root's directory. A session announces the open documents that are
the root or whose addresses go on from the text of the root's directory.

Both add the slash that the root may lack, so both agree on every root that ends with its path. But the
pattern is read without the query and the fragment of the root, and the text of the directory has them. So a
root that has one of them gets a provider for the documents in its directory and announces none of them
(`Hosted.announces_scope_iff`, `DocumentSelector.scope_unannounced`).
-/

namespace LanguageClient

namespace Url

variable {document root : Url}

/-- The text with which the addresses of a root's directory start. -/
def front (root : Url) : List Char := root.asDirectory.parts.front

/-- The query and the fragment of a root. -/
def tail (root : Url) : List Char := tailText root.parts.query root.parts.fragment

/-- A root has no tail just if it has neither a query nor a fragment. An empty query is one, as it is shown
by its mark. -/
theorem tail_eq_nil_iff : root.tail = [] ↔ root.parts.query = none ∧ root.parts.fragment = none := by
  unfold tail tailText
  cases root.parts.query <;> cases root.parts.fragment <;> simp

/-- A document is under a root if it is the root, or goes on from the text of the root's directory. -/
theorem isUnder_iff : document.isUnder root = true ↔
    document = root ∨ root.asDirectory.text.toList <+: document.text.toList := by
  rw [isUnder, Bool.or_eq_true, decide_eq_true_eq, Option.isSome_iff_exists]
  refine or_congr_right (exists_congr fun rest => ?_)
  rw [stripFront?_eq_some_iff]
  exact eq_comm

/-- A document is under a root if it goes on from the front and the tail of the root. -/
theorem isUnder_iff_start (directory : root.asDirectory.IsDirectoryWith root.parts.query
    root.parts.fragment) :
    document.isUnder root = true ↔ document = root ∨ root.front ++ root.tail <+: document.text.toList := by
  rw [isUnder_iff, directory.text_eq]
  rfl

/-- A plain name in the directory of a root with a tail is not under the root. -/
theorem join_notUnder (directory : root.asDirectory.IsDirectoryWith root.parts.query
    root.parts.fragment) (tailed : root.tail ≠ []) {name : String} (isName : Path.IsName name.toList) :
    ∃ document, root.asDirectory.join name = .ok document ∧ root.front <+: document.text.toList ∧
      document ≠ root ∧ document.isUnder root = false := by
  let document : Url := ⟨String.ofList (root.front ++ name.toList)⟩
  have shown : document.text.toList = root.front ++ name.toList := String.toList_ofList
  have other : document ≠ root := by
    intro same
    have bare : document.parts.query = none ∧ document.parts.fragment = none :=
      tail_of_name directory isName
    rw [same] at bare
    exact tailed (tail_eq_nil_iff.mpr bare)
  refine ⟨document, join_name directory isName, shown ▸ List.prefix_append root.front name.toList, other, ?_⟩
  rw [Bool.eq_false_iff, Ne, isUnder_iff_start directory, shown]
  rintro (same | start)
  · exact other same
  · exact not_start_of_tail isName tailed (fun _ => head_tailText) start

end Url

namespace DocumentSelector

/-- The pattern for everything is a plain name, so it is joined to a directory by being put behind it. -/
theorem isName_everything : Path.IsName everything.toList := by
  have stars : everything.toList = List.replicate 2 '*' := by rfl
  have star (c : Char) (member : c ∈ everything.toList) : c = '*' := List.eq_of_mem_replicate (stars ▸ member)
  refine ⟨by decide, fun c member => ?_, fun c member => ?_, by decide⟩
  · rw [star c member]
    rfl
  · rw [star c member]
    decide

/-- The one pattern of a provider without a selector. -/
theorem scope_none {root : Url} (directory : root.asDirectory.IsDirectoryWith root.parts.query
    root.parts.fragment) : scope none (some root) =
      .ok [.filter ⟨none, none, some (String.ofList (root.front ++ everything.toList))⟩] := by
  have read := Url.join_name directory isName_everything
  have entry : scopeEntry root.asDirectory (.filter ⟨none, none, some everything⟩) =
      .ok (.filter ⟨none, none, some (String.ofList (root.front ++ everything.toList))⟩) := by
    simp only [scopeEntry, SelectorEntry.toFilter, Option.getD_some, read]
    rfl
  simp only [scope, orAll, all, List.mapM_cons, List.mapM_nil, entry]
  rfl

end DocumentSelector

namespace Hosted

variable {h : Hosted}

/-- The open documents that are the root or go on from a text. -/
def documentsFrom (h : Hosted) (root : Url) (front : List Char) : List TextDocument :=
  h.host.documents.filter fun document =>
    document.uri = root ∨ front <+: document.uri.text.toList

/-- The documents that a session announces, by the text that they go on from. -/
theorem covered_eq {root : Url} (rooted : h.session.root = some root)
    (directory : root.asDirectory.IsDirectoryWith root.parts.query root.parts.fragment) :
    h.covered = h.documentsFrom root (root.front ++ root.tail) := by
  refine List.filter_congr fun document _ => ?_
  rw [Bool.eq_iff_iff, decide_eq_true_eq, Session.covers, rooted]
  exact Url.isUnder_iff_start directory

/-- For a root that can be a base, a provider without a selector serves what goes on from the front of the
root, and a session announces, up to the first document without a name, what is the root or goes on from
its front and its tail. That is the same just if the root has no tail; a root that has one announces
nothing that is named in its directory. -/
theorem announces_scope_iff {text : String} {root : Url} (named : Url.parse text = .ok root)
    (base : root.cannotBeABase = false) :
    DocumentSelector.scope none (some root) =
      .ok [.filter ⟨none, none, some (String.ofList (root.front ++ "**".toList))⟩] ∧
    (∀ document : Url, document.isUnder root = true ↔
      document = root ∨ root.front ++ root.tail <+: document.text.toList) ∧
    (∀ (options : ClientOptions) (h : Hosted) (answer : Json), h.session.root = some root →
      h.session.connection.isOpen = true →
      (h.welcome options (.ok answer)).2.session.said = h.session.said ++ readiness ::
        ((h.documentsFrom root (root.front ++ root.tail)).takeWhile fun document =>
          (options.rewriter.announcement? document).isSome).filterMap
            options.rewriter.announcement?) ∧
    ((∀ document : Url, document.isUnder root = true ↔
      document = root ∨ root.front <+: document.text.toList) ↔
        root.parts.query = none ∧ root.parts.fragment = none) ∧
    (root.tail ≠ [] → ∀ name : String, Path.IsName name.toList →
      ∃ document, root.asDirectory.join name = .ok document ∧
        root.front <+: document.text.toList ∧ document ≠ root ∧ document.isUnder root = false) := by
  have directory := Url.isDirectoryWith_asDirectory base (Url.hasSinglePath_of_parse named)
  refine ⟨DocumentSelector.scope_none directory, fun document => Url.isUnder_iff_start directory,
    ?_, ?_, fun tailed name isName => Url.join_notUnder directory tailed isName⟩
  · intro options h answer rooted opened
    rw [said_welcome options answer opened, covered_eq rooted directory]
  · rw [← Url.tail_eq_nil_iff]
    constructor
    · intro agrees
      by_contra tailed
      obtain ⟨document, -, start, -, outside⟩ :=
        Url.join_notUnder directory tailed DocumentSelector.isName_everything
      rw [(agrees document).mpr (.inr start)] at outside
      cases outside
    · intro bare document
      rw [Url.isUnder_iff_start directory, bare, List.append_nil]

/-- Under a plain root, what is served is announced. -/
theorem announces_scope_iff_plain :
    Url.parse "file:///ws" = .ok ⟨"file:///ws"⟩ ∧ Url.cannotBeABase ⟨"file:///ws"⟩ = false ∧
    DocumentSelector.scope none (some ⟨"file:///ws"⟩) =
      .ok [.filter ⟨none, none, some "file:///ws/**"⟩] ∧
    ∀ document : Url, document.isUnder ⟨"file:///ws"⟩ = true ↔
      document = ⟨"file:///ws"⟩ ∨ "file:///ws/".toList <+: document.text.toList := by
  have named : Url.parse "file:///ws" = .ok ⟨"file:///ws"⟩ := by rfl
  have base : Url.cannotBeABase ⟨"file:///ws"⟩ = false := by decide
  obtain ⟨served, -, -, agrees, -⟩ := announces_scope_iff named base
  exact ⟨named, base, served, agrees.mpr ⟨by rfl, by rfl⟩⟩

end Hosted

namespace DocumentSelector

/-- Under a root with a query, a document is served that is not announced. -/
theorem scope_unannounced : Url.parse "file:///ws?q" = .ok ⟨"file:///ws?q"⟩ ∧
    Url.cannotBeABase ⟨"file:///ws?q"⟩ = false ∧
    scope none (some ⟨"file:///ws?q"⟩) = .ok [.filter ⟨none, none, some "file:///ws/**"⟩] ∧
    Url.parse "file:///ws/a.ts" = .ok ⟨"file:///ws/a.ts"⟩ ∧
    "file:///ws/".toList <+: "file:///ws/a.ts".toList ∧
    Url.isUnder ⟨"file:///ws/a.ts"⟩ ⟨"file:///ws?q"⟩ = false := by
  exact ⟨by rfl, by decide, by rfl, by rfl, by decide, by decide⟩

end DocumentSelector

end LanguageClient
