import LanguageClient.Proofs.Session.Acts
import Mathlib.Logic.Function.Basic

/-!
# What a session offers

What the registrations of a session come to, seen as a map: each id stands for a feature and the
documents that it is offered for, or for nothing. Each entry of a request of the server, and each
feature that the server advertises, assigns something to its id; `Catalogue.assign` does that to a
map, entry after entry.

The table of a session goes along: `Session.Offers` says what an id stands for in its table and with
the host, and every registration that is carried out or taken back does to both what it does to the map
(`installEach_offers`, `serve_offers`), and answers what the map says of it.

The ids of what a server advertises are the client's own, and those of its requests are not, so the two
do not meet.
-/

namespace LanguageClient

/-- What a provider is for: the kind of question that it answers, the feature of the server behind it,
and the documents that it is offered for. -/
structure Offer where
  kind : ProviderKind
  feature : Feature
  selector : DocumentSelector
  deriving DecidableEq, Repr

/-- What a feature is offered for by a registration. -/
def Feature.offer (feature : Feature) (selector : DocumentSelector) : Offer :=
  ⟨feature.kind, feature, selector⟩

/-- What each id stands for. -/
abbrev Catalogue : Type := RegistrationId → Option Offer

namespace Registration

/-- What a registration asks for in a session of a root: nothing, if its method is no feature. -/
def wish (registration : Registration) (root : Option Url) : Except ClientError (Option Offer) :=
  match Feature.ofMethod? registration.method with
  | none => .ok none
  | some feature =>
    match RegisterOptions.ofRegistration registration.registerOptions registration.method with
    | .error failure => .error failure
    | .ok options =>
      match DocumentSelector.scope options.documentSelector root with
      | .error failure => .error (.conversion failure)
      | .ok selector => .ok (some (feature.offer selector))

/-- Why a registration cannot be carried out. -/
def failure? (registration : Registration) (root : Option Url) : Option ClientError :=
  match registration.wish root with
  | .error failure => some failure
  | .ok _ => none

/-- What a registration assigns to its id: what it asks for, if that can be had, and else nothing. -/
def entry (registration : Registration) (root : Option Url) : RegistrationId × Option Offer :=
  match registration.wish root with
  | .error _ => (registration.id, none)
  | .ok offer => (registration.id, offer)

/-- An entry is about the id of its registration, whatever the registration comes to. -/
theorem entry_fst (registration : Registration) (root : Option Url) :
    (registration.entry root).1 = registration.id := by
  unfold entry
  split <;> rfl

end Registration

/-- Each entry in turn assigns something to its id, or clears it. -/
def Catalogue.assign (catalogue : Catalogue) (entries : List (RegistrationId × Option Offer)) :
    Catalogue :=
  entries.foldl (fun catalogue entry => Function.update catalogue entry.1 entry.2) catalogue

/-- Nothing is offered. -/
def Catalogue.empty : Catalogue := fun _ => none

namespace Job

/-- What a request of the server assigns to ids; one that cannot be read assigns nothing. -/
def entries (job : Job SessionHandler) (root : Option Url) : List (RegistrationId × Option Offer) :=
  match job.handler with
  | .register =>
    ((Registration.ofParams? (job.params.getD .null)).getD []).map fun registration =>
      registration.entry root
  | .unregister =>
    ((Unregistration.ofParams? (job.params.getD .null)).getD []).map fun gone => (gone.id, none)

/-- What the server is told of its request. -/
def verdict (job : Job SessionHandler) (root : Option Url) : Outcome :=
  match job.handler with
  | .register =>
    match Registration.ofParams? (job.params.getD .null) with
    | none => .error (.undecodable job.method)
    | some registrations => Hosted.acknowledgement (registrations.findSome? (·.failure? root))
  | .unregister =>
    match Unregistration.ofParams? (job.params.getD .null) with
    | none => .error (.undecodable job.method)
    | some _ => .ok .null

end Job

/-! ## The map by itself -/

namespace Catalogue

variable {catalogue other : Catalogue} {id : RegistrationId}
  {entries more : List (RegistrationId × Option Offer)}

theorem assign_cons (entry : RegistrationId × Option Offer) : catalogue.assign (entry :: entries) =
    assign (Function.update catalogue entry.1 entry.2) entries := rfl

/-- Entries after others assign to the map that the others have left. -/
theorem assign_append :
    catalogue.assign (entries ++ more) = (catalogue.assign entries).assign more :=
  List.foldl_append

/-- What no entry is about stands for what it stood for. -/
theorem assign_of_not_mem (absent : ∀ entry ∈ entries, entry.1 ≠ id) :
    catalogue.assign entries id = catalogue id := by
  induction entries generalizing catalogue with
  | nil => rfl
  | cons entry entries ih =>
    rw [assign_cons, ih fun later member => absent later (List.mem_cons_of_mem _ member)]
    exact Function.update_of_ne (absent entry List.mem_cons_self).symm ..

/-- Where two maps agree on an id, they agree on it after the same entries. Entries are about single ids, so
the maps may differ elsewhere. -/
theorem assign_congr (same : catalogue id = other id) :
    catalogue.assign entries id = other.assign entries id := by
  induction entries generalizing catalogue other with
  | nil => exact same
  | cons entry entries ih =>
    rw [assign_cons, assign_cons]
    refine ih ?_
    by_cases here : id = entry.1
    · subst here
      rw [Function.update_self, Function.update_self]
    · rw [Function.update_of_ne here, Function.update_of_ne here]
      exact same

/-- What entries leave of one of their ids does not depend on what it stood for. The last entry about it
decides. -/
theorem assign_of_mem (present : ∃ entry ∈ entries, entry.1 = id) :
    catalogue.assign entries id = other.assign entries id := by
  induction entries generalizing catalogue other with
  | nil =>
    obtain ⟨_, member, -⟩ := present
    cases member
  | cons entry entries ih =>
    rw [assign_cons, assign_cons]
    by_cases here : entry.1 = id
    · subst here
      refine assign_congr ?_
      rw [Function.update_self, Function.update_self]
    · refine ih ?_
      obtain ⟨found, member, same⟩ := present
      rcases List.mem_cons.mp member with rfl | member
      · exact absurd same here
      · exact ⟨found, member, same⟩

/-- The same entries once more change nothing. So it does no harm to register what is advertised where it is
registered already. -/
theorem assign_again (catalogue : Catalogue) (entries : List (RegistrationId × Option Offer)) :
    (catalogue.assign entries).assign entries id = catalogue.assign entries id := by
  by_cases present : ∃ entry ∈ entries, entry.1 = id
  · exact assign_of_mem present
  · refine assign_of_not_mem ?_
    intro entry member same
    exact present ⟨entry, member, same⟩

end Catalogue

/-! ## Whose ids these are -/

/-- The provider of a number. -/
def Host.provider? (host : Host) : Nat → Option Provider
  | 0 => none
  | place + 1 => host.provided[place]?

/-- What a provider is for. -/
def Provider.offer (provider : Provider) : Offer :=
  ⟨provider.kind, provider.feature, provider.selector⟩

/-- What the provider of a number is for. -/
def Host.offer? (host : Host) (number : Nat) : Option Offer :=
  (host.provider? number).map Provider.offer

/-- What an id stands for, in the table of a session and with the host. -/
def Session.Offers (s : Session) (host : Host) (id : RegistrationId) : Option Offer → Prop
  | none => s.registrations.find? id = none
  | some offer => ∃ active, s.registrations.find? id = some active ∧
      host.offer? active.provider = some offer

/-- Providers that come make no difference to what those that were there are for. -/
theorem Host.offer?_append {host host' : Host} {more : List Provider}
    (provided : host'.provided = host.provided ++ more) {number : Nat} {offer : Offer}
    (known : host.offer? number = some offer) : host'.offer? number = some offer := by
  obtain ⟨provider, found, same⟩ := Option.map_eq_some_iff.mp known
  refine Option.map_eq_some_iff.mpr ⟨provider, ?_, same⟩
  cases number with
  | zero => cases found
  | succ place =>
    have inside := (List.getElem?_eq_some_iff.mp found).1
    simp only [provider?] at found ⊢
    rw [provided, List.getElem?_append_left inside]
    exact found

/-- What an id stands for is the same if its place in the table is, and the host has only got more
providers. -/
theorem Session.Offers.of_eq {s t : Session} {host host' : Host} {id : RegistrationId}
    {offer : Option Offer} (offers : s.Offers host id offer)
    (table : t.registrations.find? id = s.registrations.find? id) {more : List Provider}
    (provided : host'.provided = host.provided ++ more) : t.Offers host' id offer := by
  cases offer with
  | none => exact table.trans offers
  | some offer =>
    obtain ⟨active, found, known⟩ := offers
    exact ⟨active, table.trans found, Host.offer?_append provided known⟩

namespace Hosted

variable {h k : Hosted} {id : RegistrationId} {c : Catalogue}

/-- What an id stands for in the table of the session and with the host. -/
abbrev Offers (h : Hosted) (id : RegistrationId) (offer : Option Offer) : Prop :=
  h.session.Offers h.host id offer

/-- A word in the log changes nothing of what an id stands for. -/
theorem note_offers {offer : Option Offer} (offers : h.Offers id offer) (part : LogPart)
    (level : LogLevel) (message : String) (fields : List (String × String)) :
    (h.note part level message fields).Offers id offer :=
  offers.of_eq rfl (List.append_nil _).symm

/-- What is taken back clears its id, and no other. If the id has no provider, there is nothing to be
cleared. -/
theorem uninstall_offers (offers : h.Offers id (c id)) (gone : RegistrationId) :
    (h.uninstall gone).Offers id (Function.update c gone none id) := by
  by_cases here : id = gone
  · subst here
    rw [Function.update_self]
    exact h.find?_uninstall id
  · rw [Function.update_of_ne here]
    unfold uninstall
    split
    · exact offers
    · refine offers.of_eq ?_ (List.append_nil _).symm
      exact (Registrations.find?_erase ..).trans (if_neg here)

/-- A provider that is handed out is what its id stands for, and the other ids stand for what they did. -/
theorem grant_offers (offers : h.Offers id (c id)) (feature : Feature)
    (key : RegistrationId) (selector : DocumentSelector) :
    (h.grant feature key selector).Offers id
      (Function.update c key (some (feature.offer selector)) id) := by
  have table : (h.grant feature key selector).session.registrations.find? id = _ :=
    Registrations.find?_insert ..
  by_cases here : id = key
  · subst here
    rw [Function.update_self]
    refine ⟨_, table.trans (if_pos rfl), ?_⟩
    simp [Host.offer?, Host.provider?, Provider.offer, Feature.offer, grant, Host.provide]
  · rw [Function.update_of_ne here]
    have provided : (h.grant feature key selector).host.provided = h.host.provided ++
        [⟨h.host.provided.length + 1, feature.kind, selector, feature, h.number⟩] := rfl
    exact offers.of_eq (table.trans (if_neg here)) provided

/-- What is no feature is not asked for, and that is no failure either. -/
theorem wish_of_none {registration : Registration}
    (unknown : Feature.ofMethod? registration.method = none) (root : Option Url) :
    registration.wish root = .ok none := by
  unfold Registration.wish
  rw [unknown]

/-- What is planned for a registration is what it asks for. The plan is how the program computes it, and the
wish is how it is stated here. -/
theorem plan_eq (h : Hosted) {registration : Registration} {feature : Feature}
    (known : Feature.ofMethod? registration.method = some feature) :
    registration.wish h.session.root =
      (h.plan registration).map fun selector => some (feature.offer selector) := by
  unfold Registration.wish plan
  rw [known]
  dsimp only [bind, Except.bind]
  cases RegisterOptions.ofRegistration registration.registerOptions registration.method with
  | error failure => rfl
  | ok options =>
    dsimp only
    cases DocumentSelector.scope options.documentSelector h.session.root <;> rfl

/-- Carrying a registration out does what it does to the map, and fails as the map says. One that fails has
cleared its id all the same. -/
theorem install_offers (quiet : h.host.armed = []) (offers : h.Offers id (c id))
    (registration : Registration) :
    (h.install registration).2.Offers id
        (c.assign [registration.entry h.session.root] id) ∧
      (h.install registration).1 = registration.failure? h.session.root := by
  have cleared := uninstall_offers offers registration.id
  have root : (h.uninstall registration.id).session.root = h.session.root :=
    (h.uninstall_beside registration.id).session.root
  have free := h.find?_uninstall registration.id
  have calm := (h.uninstall_spares registration.id).1.armed.trans quiet
  unfold install Registration.entry Registration.failure? Catalogue.assign
  generalize h.uninstall registration.id = k at cleared root free calm
  dsimp only
  rw [← root]
  cases known : Feature.ofMethod? registration.method with
  | none =>
    rw [wish_of_none known]
    exact ⟨cleared, rfl⟩
  | some feature =>
    rw [k.plan_eq known]
    dsimp only
    cases k.plan registration with
    | error failure => exact ⟨cleared, rfl⟩
    | ok selector =>
      refine ⟨?_, rfl⟩
      dsimp only
      rw [addProvider_eq calm free]
      have granted := grant_offers cleared feature registration.id selector
      rw [Function.update_idem] at granted
      exact granted

/-- Carrying registrations out does what they do to the map; the first failure is kept, and those behind it
are carried out as well. -/
theorem installEach_offers (quiet : h.host.armed = []) (offers : h.Offers id (c id))
    (registrations : List Registration) :
    (h.installEach registrations).2.Offers id
        (c.assign (registrations.map (·.entry h.session.root)) id) ∧
      (h.installEach registrations).1 = registrations.findSome? (·.failure? h.session.root) := by
  induction registrations generalizing h c with
  | nil => exact ⟨offers, rfl⟩
  | cons registration registrations ih =>
    have noted : (h.installNoted registration).2.Offers id
          (c.assign [registration.entry h.session.root] id) ∧
        (h.installNoted registration).1 = registration.failure? h.session.root := by
      have installed := install_offers quiet offers registration
      unfold installNoted
      split
      next eq => rw [eq] at installed; exact installed
      next eq => rw [eq] at installed; exact ⟨note_offers installed.1 .., installed.2⟩
    have calm : (h.installNoted registration).2.host.armed = [] := by
      have spares := (installEach_spares quiet [registration]).1
      exact spares.armed.trans quiet
    have root : (h.installNoted registration).2.session.root = h.session.root :=
      (h.installNoted_beside registration).session.root
    have rest := ih calm noted.1
    rw [root, ← Catalogue.assign_append] at rest
    refine ⟨rest.1, ?_⟩
    change ((h.installNoted registration).1.or
      ((h.installNoted registration).2.installEach registrations).1) = _
    rw [noted.2, rest.2, List.findSome?_cons]
    cases registration.failure? h.session.root <;> rfl

/-- Registrations leave other ids alone. -/
theorem installEach_keeps (quiet : h.host.armed = []) {offer : Option Offer}
    (offers : h.Offers id offer) {registrations : List Registration}
    (absent : ∀ registration ∈ registrations, registration.id ≠ id) :
    (h.installEach registrations).2.Offers id offer := by
  have installed := (installEach_offers (c := fun _ => offer) quiet offers registrations).1
  rw [Catalogue.assign_of_not_mem] at installed
  · exact installed
  · intro entry member
    obtain ⟨registration, inside, rfl⟩ := List.mem_map.mp member
    rw [registration.entry_fst]
    exact absent registration inside

variable {options : ClientOptions} {turn : Turn}

/-- Asking the host for a reporter touches no registration and gives no provider. -/
theorem makeReporter_table (quiet : h.host.armed = []) (call : Nat) :
    (h.makeReporter call).session.registrations = h.session.registrations ∧
      (h.makeReporter call).host.provided = h.host.provided := by
  unfold makeReporter
  split
  · exact ⟨rfl, rfl⟩
  next title _ =>
    have asked : (h.host.createReporter h.number title).2.provided = h.host.provided := by
      unfold Host.createReporter Host.await
      split
      · split <;> rfl
      · split <;> rfl
    have armed := (createReporter_host h.host h.number title).2
    split
    next eq => rw [eq] at asked; exact ⟨rfl, asked⟩
    next eq => rw [eq] at asked; exact ⟨rfl, asked⟩
    next host eq =>
      rw [eq] at asked armed
      rw [callback_eq (h := { h with host := host }) (armed.trans quiet)]
      exact ⟨rfl, asked⟩

/-- Handling progress touches no registration. The host's reporters and providers are numbered apart. -/
theorem handleProgress_table (quiet : h.host.armed = []) (call : Nat) :
    (h.handleProgress call).session.registrations = h.session.registrations ∧
      (h.handleProgress call).host.provided = h.host.provided := by
  have made := makeReporter_table (h := h.withBoard (h.session.progress.advance call)) quiet call
  unfold handleProgress
  generalize (h.withBoard (h.session.progress.advance call)).makeReporter call = k at made
  dsimp only
  split
  · exact made
  · split <;> exact made

/-- The host keeps every provider that there ever was; those that were withdrawn are only marked. -/
theorem Act.provided (quiet : h.host.armed = []) (act : Act options turn h k) :
    ∃ more, k.host.provided = h.host.provided ++ more := by
  have same {k : Hosted} (provided : k.host.provided = h.host.provided) :
      ∃ more, k.host.provided = h.host.provided ++ more := ⟨[], by rw [provided, List.append_nil]⟩
  cases act with
  | connection | heed | publish | draw | release => exact same rfl
  | register registrations =>
    refine (installEach_induction (fun k => k.host.armed = [] ∧
      ∃ more, k.host.provided = h.host.provided ++ more) And.left ?_ ?_ ?_ registrations
        ⟨quiet, same rfl⟩).2
    · rintro k ⟨quiet, more, provided⟩ id
      refine ⟨(k.uninstall_spares id).1.armed.trans quiet, more, ?_⟩
      unfold uninstall
      split <;> exact provided
    · rintro k ⟨quiet, more, provided⟩ feature id selector _
      refine ⟨quiet, more ++ [⟨k.host.provided.length + 1, feature.kind, selector, feature, k.number⟩],
        ?_⟩
      rw [← List.append_assoc, ← provided]
      rfl
    · rintro k ⟨quiet, provided⟩ part level message fields
      exact ⟨quiet, provided⟩
  | unregister id =>
    refine same ?_
    unfold uninstall
    split <;> rfl
  | proceed call => exact same (handleProgress_table quiet call).2
  | takeUp params =>
    let k : Hosted := { h with
      session := { h.session with progress := (h.session.progress.begin params).2 } }
    have calm : k.host.armed = [] := quiet
    exact same (handleProgress_table calm (h.session.progress.begin params).1).2
  | dispose live =>
    obtain ⟨connection, -, -, disposed⟩ := dispose_eq quiet live
    rw [disposed]
    exact same rfl

/-- What an act leaves of the ids of a session that goes on: all is as it was, what the server advertises
was registered, or a request of the server dealt with ids that the server chose. It is the inversion on
which the lemmas below rest, so none of them looks at the acts again. -/
theorem Act.offers_or (quiet : h.host.armed = []) (act : Act options turn h k)
    (active : k.session.isActive = true) :
    h.session.isActive = true ∧ k.session.root = h.session.root ∧
      ((∀ {id offer}, h.Offers id offer → k.Offers id offer) ∨
        (∃ answer, h.session.connection.outcome? 0 = some (.ok answer) ∧
          k = (h.installEach (options.advertised answer)).2) ∨
        turn = .job h.number ∧ ∀ {number offer}, h.Offers (.minted number) offer →
          k.Offers (.minted number) offer) := by
  have still {k : Hosted} (table : k.session.registrations = h.session.registrations)
      (provided : k.host.provided = h.host.provided) {id : RegistrationId} {offer : Option Offer}
      (offers : h.Offers id offer) : k.Offers id offer := by
    have grown : k.host.provided = h.host.provided ++ [] := by rw [provided, List.append_nil]
    exact offers.of_eq (by rw [table]) grown
  have kept {k : Hosted} (beside : Beside h k) (disposed : k.session.isDisposed =
      h.session.isDisposed) (active : k.session.isActive = true) :
      h.session.isActive = true ∧ k.session.root = h.session.root := by
    unfold Session.isActive at active ⊢
    rw [← disposed, ← beside.session.released]
    exact ⟨active, beside.session.root⟩
  cases act with
  | connection | heed | publish | draw => exact ⟨active, rfl, .inl (still rfl rfl)⟩
  | register registrations live asked =>
    obtain ⟨active, root⟩ := kept (h.installEach_beside registrations)
      (installEach_spares quiet registrations).1.disposed active
    refine ⟨active, root, .inr ?_⟩
    -- what is registered was asked for in a job of this session, or the server's answer advertises
    -- it
    rcases asked with ⟨mine, named⟩ | ⟨answer, answered, rfl⟩
    · refine .inr ⟨mine, fun offers => installEach_keeps quiet offers ?_⟩
      intro registration member same
      obtain ⟨name, known⟩ := named registration member
      cases known.symm.trans same
    · exact .inl ⟨answer, answered, rfl⟩
  | unregister id mine named =>
    obtain ⟨active, root⟩ := kept (h.uninstall_beside id) (h.uninstall_spares id).1.disposed active
    refine ⟨active, root, .inr (.inr ⟨mine, ?_⟩)⟩
    -- an entry that the server names is none of those that the client has minted
    intro number offer offers
    obtain ⟨name, rfl⟩ := named
    have cleared := uninstall_offers (c := fun _ => offer) offers (.named name)
    rw [Function.update_of_ne (by rintro ⟨⟩)] at cleared
    exact cleared
  | proceed call =>
    obtain ⟨active, root⟩ := kept (h.handleProgress_beside call)
      (handleProgress_spares quiet call).disposed active
    obtain ⟨table, provided⟩ := handleProgress_table quiet call
    exact ⟨active, root, .inl (still table provided)⟩
  | takeUp params =>
    let k : Hosted := { h with
      session := { h.session with progress := (h.session.progress.begin params).2 } }
    have calm : k.host.armed = [] := quiet
    have begun : Beside h k := progress_beside h _
    obtain ⟨active, root⟩ := kept (begun.trans (k.handleProgress_beside _))
      (handleProgress_spares calm _).disposed active
    obtain ⟨table, provided⟩ := handleProgress_table calm (h.session.progress.begin params).1
    exact ⟨active, root, .inl (still table provided)⟩
  | release =>
    simp [Session.isActive, Hosted.release] at active
  | dispose =>
    unfold Session.isActive at active
    rw [isDisposed_dispose] at active
    cases active

end Hosted

/-- What the server advertised in its answer to the greeting is what the client's own ids stand for. -/
def Session.Advertises (options : ClientOptions) (s : Session) (host : Host) : Prop :=
  ∃ answer, s.connection.outcome? 0 = some (.ok answer) ∧ ∀ number, s.Offers host (.minted number)
    (Catalogue.empty.assign ((options.advertised answer).map (·.entry s.root)) (.minted number))

/-- As long as a session follows its server, the client's own ids stand for nothing, or for what the
server advertised. -/
def Session.IsTidy (options : ClientOptions) (s : Session) (host : Host) : Prop :=
  s.isActive = true → (∀ number, s.Offers host (.minted number) none) ∨ s.Advertises options host

namespace Hosted

variable {options : ClientOptions} {turn : Turn} {h k : Hosted}

/-- Registering what the server advertises gives its own ids to it. Once is as good as twice here, so it
does not matter whether it was registered before. -/
theorem installEach_advertises (quiet : h.host.armed = []) {answer : Json}
    (answered : h.session.connection.outcome? 0 = some (.ok answer))
    (tidy : (∀ number, h.Offers (.minted number) none) ∨ h.session.Advertises options h.host) :
    (h.installEach (options.advertised answer)).2.session.Advertises options
      (h.installEach (options.advertised answer)).2.host := by
  have spares := (installEach_spares quiet (options.advertised answer)).1
  have root : (h.installEach (options.advertised answer)).2.session.root = h.session.root :=
    (h.installEach_beside _).session.root
  refine ⟨answer, spares.connection.final answered, ?_⟩
  intro number
  rw [root]
  rcases tidy with nothing | ⟨same, before, offers⟩
  · exact (installEach_offers (c := .empty) quiet (nothing number) _).1
  · cases Option.some.inj (answered.symm.trans before)
    have again := (installEach_offers quiet (offers number) (options.advertised answer)).1
    rw [Catalogue.assign_again] at again
    exact again

/-- What the server advertised stays registered as long as the session goes on. Requests of the server
cannot name these ids. -/
theorem Act.advertises (quiet : h.host.armed = []) (act : Act options turn h k)
    (active : k.session.isActive = true) (advertises : h.session.Advertises options h.host) :
    k.session.Advertises options k.host := by
  obtain ⟨-, root, all | ⟨answer, answered, rfl⟩ | ⟨-, minted⟩⟩ := act.offers_or quiet active
  · obtain ⟨answer, answered, offers⟩ := advertises
    exact ⟨answer, (act.allows quiet).goes.final answered, fun number => root ▸ all (offers number)⟩
  · exact installEach_advertises quiet answered (.inr advertises)
  · obtain ⟨answer, answered, offers⟩ := advertises
    exact ⟨answer, (act.allows quiet).goes.final answered, fun number => root ▸ minted (offers number)⟩

/-- An act leaves the client's own ids tidy: they stand for nothing, or for what was advertised. -/
theorem Act.isTidy (quiet : h.host.armed = []) (act : Act options turn h k)
    (tidy : h.session.IsTidy options h.host) : k.session.IsTidy options k.host := by
  intro active
  obtain ⟨before, -, kept⟩ := act.offers_or quiet active
  rcases tidy before with nothing | advertises
  · rcases kept with all | ⟨answer, answered, rfl⟩ | ⟨-, minted⟩
    · exact .inl fun number => all (nothing number)
    · exact .inr (installEach_advertises quiet answered (.inl nothing))
    · exact .inl fun number => minted (nothing number)
  · exact .inr (act.advertises quiet active advertises)

/-- An act outside the jobs of the server leaves the ids alone that the server chose. -/
theorem Act.offers_named (quiet : h.host.armed = []) (act : Act options turn h k)
    (other : turn ≠ .job h.number) (active : k.session.isActive = true) {name : String}
    {offer : Option Offer} (offers : h.Offers (.named name) offer) :
    k.Offers (.named name) offer := by
  obtain ⟨-, -, all | ⟨answer, answered, rfl⟩ | ⟨mine, -⟩⟩ := act.offers_or quiet active
  · exact all offers
  · refine installEach_keeps quiet offers ?_
    intro registration member same
    obtain ⟨number, known⟩ := options.advertised_minted answer member
    cases known.symm.trans same
  · exact absurd mine other

/-- To register what is advertised is to carry it all out, and to tell the log of a failure. -/
theorem installStatic_eq (h : Hosted) (options : ClientOptions) (answer : Json) :
    h.installStatic options answer =
      match h.installAll (options.advertised answer) with
      | (none, h) => h
      | (some failure, h) => h.note .session .warn "failed to install static registrations"
          [("error", failure.message)] := rfl

/-- In a session that goes on, what the server advertises stands under the client's own ids once it is
registered, also where some of it failed. -/
theorem installStatic_advertises (quiet : h.host.armed = []) {answer : Json}
    (answered : h.session.connection.outcome? 0 = some (.ok answer))
    (active : (h.installStatic options answer).session.isActive = true)
    (tidy : h.session.IsTidy options h.host) :
    (h.installStatic options answer).session.Advertises options
      (h.installStatic options answer).host := by
  cases live : h.session.isDisposed with
  | true =>
    have same : h.installStatic options answer = h := by
      rw [installStatic_eq]
      unfold installAll
      rw [if_pos live]
    rw [same] at active
    unfold Session.isActive at active
    rw [live] at active
    cases active
  | false =>
    have before : h.session.isActive = true := by
      have released := (h.installStatic_beside options answer).session.released
      unfold Session.isActive at active ⊢
      rw [released, Bool.and_eq_true] at active
      rw [live, active.2]
      rfl
    have advertises := installEach_advertises quiet answered (tidy before)
    rw [installStatic_eq, installAll_eq quiet live]
    generalize h.installEach (options.advertised answer) = installed at advertises ⊢
    obtain ⟨failure, k⟩ := installed
    cases failure with
    | none => exact advertises
    | some failure =>
      obtain ⟨found, known, offers⟩ := advertises
      exact ⟨found, known, offers⟩

/-- When the greeting comes to a good end, what the server advertises is registered. A session that was
disposed on the way is left out by the hypothesis. -/
theorem welcome_advertises (quiet : h.host.armed = []) {outcome : Outcome}
    (answered : h.session.connection.outcome? 0 = some outcome)
    (welcomed : (h.welcome options outcome).1 = none)
    (active : (h.welcome options outcome).2.session.isActive = true)
    (tidy : h.session.IsTidy options h.host) :
    (h.welcome options outcome).2.session.Advertises options (h.welcome options outcome).2.host := by
  unfold welcome at welcomed active ⊢
  cases outcome with
  | error failure => cases welcomed
  | ok answer =>
    dsimp only at welcomed active ⊢
    unfold proceed announceAll at welcomed active ⊢
    cases sent : h.notify initializedMethod (.obj []) with
    | error failure => rw [sent] at welcomed; cases welcomed
    | ok k =>
      rw [sent] at welcomed active
      obtain ⟨said, host, -, outcome⟩ : Acts options .other h k ∧ _ := notify_acts sent
      obtain ⟨announced, host', -, outcome'⟩ : Acts options .other k _ ∧ _ :=
        announceEach_acts options.rewriter
          (k.host.documents.filter fun document => k.session.covers document.uri) k
      dsimp only at welcomed active ⊢
      generalize k.announceEach options.rewriter
        (k.host.documents.filter fun document => k.session.covers document.uri) = pair
        at announced host' outcome' welcomed active ⊢
      obtain ⟨failure, l⟩ := pair
      cases failure with
      | some failure => cases welcomed
      | none =>
        obtain ⟨-, calm, tidy⟩ := Acts.induction (fun k => k.session.IsTidy options k.host)
          (fun quiet act tidy => act.isTidy quiet tidy) quiet (said.trans announced) tidy
        have known : l.session.connection.outcome? 0 = some (.ok answer) := by
          rw [outcome', outcome]
          exact answered
        exact installStatic_advertises calm known active tidy

end Hosted

end LanguageClient
