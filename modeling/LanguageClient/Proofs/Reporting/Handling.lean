import LanguageClient.Proofs.Reporting.Sessions

/-!
# Handling notifications of progress

A notification is an errand to the desk of its session from the moment at which it was handled; until
then the session has not heard it (`Hosted.Handles`). The host may let it wait, refuse a reporter, make
one, or make one and tear the session down meanwhile. A session that follows its notifications handles all
that wait, unless the host lets one wait.
-/

namespace LanguageClient

namespace Hosted

variable {suffix : String} {options : ClientOptions} {h k : Hosted} {desk : Desk} {call : Nat}
  {params : ProgressParams} {errands : List Errand} {waiting : List Json}

/-- What becomes of a notification that went as far as the host lets it. -/
def settled (h : Hosted) (call : Nat) : Hosted :=
  match h.session.progress.ending? call with
  | none => { h with session := { h.session with handling := some call } }
  | some refusal =>
    let h := { h with session := { h.session with handling := none } }
    match refusal with
    | none => h
    | some failure =>
      h.note .progress .error "failed to create progress reporter"
        [("error", failure.message), ("id", h.tokenOf call)]

/-- Handling a notification is to advance its call, to ask the host if it wants a reporter, and to settle
what has become of it. The lemmas below are about the last two, whatever the call came from. -/
theorem handleProgress_eq (h : Hosted) (call : Nat) : h.handleProgress call =
    ((h.withBoard (h.session.progress.advance call)).makeReporter call).settled call := rfl

/-- A session with another board, of which the host hears nothing. -/
def onBoard (h : Hosted) (progress : ProgressBoard) : Hosted :=
  { h with session := { h.session with progress } }

/-- Changing the board without an event tells the host nothing. -/
theorem withBoard_nil (h : Hosted) (progress : ProgressBoard) :
    h.withBoard (progress, []) = h.onBoard progress := by
  unfold withBoard onBoard report Host.record
  simp only [List.map_nil, List.append_nil]

/-- The host sees the events that come with the new board, and makes no reporter by it. -/
theorem sees_withBoard (h : Hosted) (found : ProgressBoard × List ReporterEvent) :
    h.host.Sees (h.withBoard found).host (found.2.map .reporter) :=
  Host.sees_report h.host found.2

/-- A call that is not finished is the one that the session is handling from now on. -/
theorem settled_of_none (unended : h.session.progress.ending? call = none) :
    h.settled call = { h with session := { h.session with handling := some call } } := by
  unfold settled
  rw [unended]

/-- A call that is finished leaves the session free. If the host has refused, that is noted in the log,
which is nothing to the board. -/
theorem settled_of_some {refusal : Option HostError}
    (ended : h.session.progress.ending? call = some refusal) :
    Idles { h with session := { h.session with handling := none } } (h.settled call) := by
  unfold settled
  rw [ended]
  cases refusal with
  | none => exact .refl _
  | some failure => exact (note_stays ..).idles

/-- A notification is handled, or waits for the host. -/
structure Handles (suffix : String) (h k : Hosted) (desk : Desk) (params : ProgressParams)
    (errands : List Errand) : Prop where
  keeps : k.session.Keeps suffix (desk.play suffix errands).1
  heard : [params] = errands.filterMap Errand.params? ++ k.session.waitingForHost
  waiting : k.session.connection.waiting Session.progressFeed =
    h.session.connection.waiting Session.progressFeed
  host : h.host.Sees k.host (desk.play suffix errands).2
  held : k.host.reporters.isHeld = h.host.reporters.isHeld
  /-- It waits only if the host lets it wait, and not in a session that is torn down. -/
  free : k.session.handling = none ∨
    h.host.reporters.isHeld = true ∧ k.session.isDisposed = false

/-- A notification that was handled to the end. It is one errand, known to the desk by what the host said of
it, and the cases below only have to name that errand and the board that is left. -/
theorem Handles.ended {refusal : Option HostError} {answer : Option Nat} {isTorn : Bool}
    {after : Desk} {events : List HostEvent}
    (played : desk.play suffix [.notice params answer isTorn] = (after, events))
    (ended : k.session.progress.ending? call = some refusal)
    (before : h.session.Listens waiting) (still : k.session.Listens waiting)
    (torn : k.session.isDisposed = after.isClosed)
    (gone : after.isClosed = true → k.session.progress.isClosed = true ∧ after.live = [])
    (rests : after.isClosed = false → k.session.progress.Stands suffix after)
    (host : h.host.Sees k.host events)
    (held : k.host.reporters.isHeld = h.host.reporters.isHeld) :
    Handles suffix h (k.settled call) desk params [.notice params answer isTorn] := by
  have idles := settled_of_some ended
  have free : (k.settled call).session.handling = none := idles.handling
  have tunes := idles.tunes still
  refine ⟨?_, ?_, ?_, ?_, idles.held.trans held, .inl free⟩
  · rw [played]
    refine ⟨⟨waiting, tunes⟩, idles.disposed.trans torn, ?_, ?_, ?_⟩
    · rw [idles.progress]
      exact gone
    · intro unclosed _
      rw [idles.progress]
      exact rests unclosed
    · intro _ _ busy
      cases free.symm.trans busy
  · rw [Session.waitingForHost_of_free free]
    rfl
  · rw [tunes.waiting_eq, before.waiting_eq]
  · rw [played]
    exact host.trans_nil idles.host

/-! ## Asking the host -/

/-- The host lets a notification wait. No errand has come to the desk yet, and the session goes on handling
the call. -/
theorem makeReporter_held (asks : h.session.progress.Asks suffix desk call params)
    (live : h.session.isDisposed = false) (tunes : h.session.Listens waiting)
    (held : h.host.reporters.isHeld = true) :
    Handles suffix h ((h.makeReporter call).settled call) desk params [] := by
  obtain ⟨found, -, unended, wanted⟩ := asks.asked
  have made : h.makeReporter call = { h with host := h.host.await h.number } := by
    unfold makeReporter Host.createReporter
    rw [wanted]
    dsimp only
    rw [if_pos held]
  have awaited : (h.host.await h.number).reports = h.host.reports ∧
      (h.host.await h.number).reporterSessions = h.host.reporterSessions ∧
      (h.host.await h.number).reporters = h.host.reporters := by
    unfold Host.await
    split <;> exact ⟨rfl, rfl, rfl⟩
  rw [made, settled_of_none (h := { h with host := h.host.await h.number }) unended]
  refine ⟨⟨⟨waiting, tunes⟩, live.trans asks.unclosed.2.symm, ?_, ?_, ?_⟩, ?_, rfl, ?_, ?_, ?_⟩
  · exact fun closed => absurd (asks.unclosed.2.symm.trans closed) Bool.noConfusion
  · rintro - ⟨⟩
  · rintro _ - ⟨⟩
    exact ⟨params, asks⟩
  · unfold Session.waitingForHost
    rw [Option.bind_some, found]
    rfl
  · exact .of_eq awaited.1 awaited.2.1
  · exact congrArg Stance.isHeld awaited.2.2
  · exact .inr ⟨held, live⟩

/-- The host refuses a reporter, which is an errand without an answer, and the token is absent as it was. -/
theorem makeReporter_refused (asks : h.session.progress.Asks suffix desk call params)
    (live : h.session.isDisposed = false) (tunes : h.session.Listens waiting)
    (unheld : h.host.reporters.isHeld = false) {left : Nat}
    (refusals : h.host.reporters.refusals = left + 1) :
    Handles suffix h ((h.makeReporter call).settled call) desk params
      [.notice params none false] := by
  obtain ⟨-, -, -, wanted⟩ := asks.asked
  obtain ⟨stands, ended⟩ := asks.refused Host.unavailable
  let host := { h.host with reporters := { h.host.reporters with refusals := left } }.record
    [.reporterRefused (Desk.title suffix params)]
  have made : h.makeReporter call = { h with host }.withBoard
      (h.session.progress.refused call Host.unavailable, []) := by
    unfold makeReporter Host.createReporter
    rw [wanted]
    dsimp only
    rw [if_neg (by rw [unheld]; exact Bool.false_ne_true), refusals]
  have refused : h.host.Sees host [.reporterRefused (Desk.title suffix params)] :=
    ⟨List.filter_append .., rfl, rfl⟩
  rw [made]
  refine Handles.ended (Desk.play_refused asks.unclosed.2 asks.absent) ended tunes tunes
    (live.trans asks.unclosed.2.symm) ?_ (fun _ => stands) ?_ rfl
  · exact fun closed => absurd (asks.unclosed.2.symm.trans closed) Bool.noConfusion
  · exact refused.trans_nil (sees_withBoard { h with host } (_, []))

/-- A session in the moment in which the host has made a reporter for it. -/
def granted (h : Hosted) (title : Option String) : Hosted :=
  let reporter := h.host.reporterSessions.length + 1
  let host := { h.host with reporterSessions := h.host.reporterSessions ++ [h.number] }.record
    [.reporterCreated reporter title]
  { h with host }

/-- The host has seen that it made a reporter, with the number that comes next. -/
theorem sees_granted (h : Hosted) (title : Option String) : h.host.Sees (h.granted title).host
    [.reporterCreated (h.host.reporterSessions.length + 1) title] :=
  ⟨List.filter_append .., rfl, List.length_append⟩

/-- What asking comes to when the host makes a reporter: it is called back with the reporter counted
already, and the board hears of it as the session is after that. -/
theorem makeReporter_willing (asks : h.session.progress.Asks suffix desk call params)
    (unheld : h.host.reporters.isHeld = false) (willing : h.host.reporters.refusals = 0) :
    h.makeReporter call =
      ((h.granted (Desk.title suffix params)).callback .createReporter).withBoard
        (((h.granted (Desk.title suffix params)).callback .createReporter).session.progress.created
          call (h.host.reporterSessions.length + 1)) := by
  obtain ⟨-, -, -, wanted⟩ := asks.asked
  unfold makeReporter Host.createReporter
  rw [wanted]
  dsimp only
  rw [if_neg (by rw [unheld]; exact Bool.false_ne_true), willing]
  rfl

section Made

variable (asks : h.session.progress.Asks suffix desk call params)
  (live : h.session.isDisposed = false) (tunes : h.session.Listens waiting)
  (stays : Stays (h.granted (Desk.title suffix params)) k)

include asks live tunes stays

/-- The reporter hears of the notification. Between its creation and this the session has only stayed, so
the board still asks. -/
theorem makeReporter_calm (reporter : Nat) (numbered : reporter = h.host.reporterSessions.length + 1) :
    Handles suffix h ((k.withBoard (k.session.progress.created call reporter)).settled call) desk
      params [.notice params (some reporter) false] := by
  have idles := stays.idles
  have progress : k.session.progress = h.session.progress := idles.progress
  obtain ⟨stands, told, ended⟩ := asks.created reporter
  have created := (sees_granted h (Desk.title suffix params)).trans_nil idles.host
  have untorn := stands.unclosed.2
  rw [← numbered] at created
  rw [progress]
  refine Handles.ended (Desk.play_made asks.unclosed.2 asks.absent reporter) ended tunes
    (idles.tunes tunes) ((idles.disposed.trans live).trans untorn.symm) ?_ (fun _ => stands) ?_
    idles.held
  · exact fun closed => absurd (untorn.symm.trans closed) Bool.noConfusion
  · rw [← told]
    exact created.trans (sees_withBoard ..)

/-- The host tears the session down, and then the reporter is completed at once. The errand is one that says
so, and the desk is closed after it. -/
theorem makeReporter_torn (reporter : Nat) (numbered : reporter = h.host.reporterSessions.length + 1) :
    Handles suffix h
      ((k.dispose.withBoard (k.dispose.session.progress.created call reporter)).settled call) desk
      params [.notice params (some reporter) true] := by
  have idles := stays.idles
  have progress : k.session.progress = h.session.progress := idles.progress
  obtain ⟨-, told, -, belated⟩ := asks.completeAll
  obtain ⟨closed, completed, ended⟩ := belated reporter
  have ends := dispose_ends (idles.disposed.trans live)
  have emptied : k.dispose.session.progress = h.session.progress.completeAll.1 := by
    rw [ends.progress, progress]
  have all : h.host.Sees k.dispose.host (.reporterCreated reporter (Desk.title suffix params) ::
      desk.tearDown.2) := by
    have seen := ((sees_granted h (Desk.title suffix params)).trans_nil idles.host).trans ends.host
    rw [progress, told, ← numbered] at seen
    exact seen
  have last := sees_withBoard k.dispose (h.session.progress.completeAll.1.created call reporter)
  rw [completed] at last
  rw [emptied]
  exact Handles.ended (Desk.play_torn asks.unclosed.2 asks.absent reporter) ended tunes
    (ends.tunes (idles.tunes tunes)) ends.disposed (fun _ => ⟨closed, rfl⟩) (by rintro ⟨⟩)
    (all.trans last) (ends.held.trans idles.held)

end Made

/-- A notification that asks the host for a reporter is handled, or waits for the host. The four cases are
what the host may do, and the errands are none or one. -/
theorem makeReporter_handles (asks : h.session.progress.Asks suffix desk call params)
    (live : h.session.isDisposed = false) (tunes : h.session.Listens waiting) :
    ∃ errands, Handles suffix h ((h.makeReporter call).settled call) desk params errands := by
  cases held : h.host.reporters.isHeld with
  | true => exact ⟨[], makeReporter_held asks live tunes held⟩
  | false =>
    cases refusals : h.host.reporters.refusals with
    | succ left => exact ⟨_, makeReporter_refused asks live tunes held refusals⟩
    | zero =>
      obtain ⟨k, stays, called⟩ :=
        callback_cases (h.granted (Desk.title suffix params)) .createReporter
      rw [makeReporter_willing asks held refusals]
      rcases called with called | called
      · rw [called]
        exact ⟨_, makeReporter_calm asks live tunes stays _ rfl⟩
      · rw [called]
        exact ⟨_, makeReporter_torn asks live tunes stays _ rfl⟩

/-- Who is handled to the end asks the host for nothing. -/
theorem makeReporter_of_ended {refusal : Option HostError}
    (ended : h.session.progress.ending? call = some refusal) : h.makeReporter call = h := by
  have unwanted : h.session.progress.wanted? call = none := by
    unfold ProgressBoard.ending? at ended
    unfold ProgressBoard.wanted?
    split at ended
    next found => rw [found]
    next => cases ended
  unfold makeReporter
  rw [unwanted]

/-! ## One notification -/

/-- A notification that waited for the host goes on: it asks again, and the host may let it wait once more.
-/
theorem handleProgress_again (keeps : h.session.Keeps suffix desk)
    (live : h.session.isDisposed = false) (busy : h.session.handling = some call) :
    ∃ params errands, h.session.waitingForHost = [params] ∧
      Handles suffix h (h.handleProgress call) desk params errands := by
  obtain ⟨params, asks⟩ := keeps.asks (keeps.torn.symm.trans live) busy
  obtain ⟨found, unmoved, -, -⟩ := asks.asked
  obtain ⟨waiting, tunes⟩ := keeps.tunes
  obtain ⟨errands, handles⟩ := makeReporter_handles asks live tunes
  refine ⟨params, errands, ?_, ?_⟩
  · unfold Session.waitingForHost
    rw [busy, Option.bind_some, found]
    rfl
  · rw [handleProgress_eq, unmoved, withBoard_nil]
    exact handles

section Beginning

variable {progress : ProgressBoard} (keeps : h.session.Keeps suffix desk)
  (begins : h.session.progress.begin params = (call, progress))

include keeps begins

/-- A notification of a session that was torn down comes to nothing. It is an errand all the same, of which
a closed desk takes no notice. -/
theorem handleProgress_closed (closed : desk.isClosed = true) :
    Handles suffix h ((h.onBoard progress).handleProgress call) desk params
      [.notice params none false] := by
  obtain ⟨waiting, tunes⟩ := keeps.tunes
  obtain ⟨shut, live⟩ := keeps.gone closed
  obtain ⟨still, unmoved, ended⟩ := ProgressBoard.begin_of_closed shut begins
  have kept : (h.onBoard progress).withBoard (progress.advance call) = h.onBoard progress := by
    rw [unmoved]
    exact withBoard_nil ..
  have handled : (h.onBoard progress).handleProgress call = (h.onBoard progress).settled call := by
    refine (congrArg (fun k => (makeReporter k call).settled call) kept).trans ?_
    exact congrArg (settled · call) (makeReporter_of_ended (h := h.onBoard progress) ended)
  rw [handled]
  exact Handles.ended (Desk.play_closed closed none false) ended tunes tunes keeps.torn
    (fun _ => ⟨still, live⟩) (fun unclosed => absurd (closed.symm.trans unclosed) Bool.noConfusion)
    (.refl _) rfl

variable (unclosed : desk.isClosed = false) (free : h.session.handling = none)

include unclosed free

/-- A notification of a live token goes to its reporter and is handled to the end, without the host. -/
theorem handleProgress_live {reporter : Nat} (known : desk.reporter? params.id = some reporter) :
    Handles suffix h ((h.onBoard progress).handleProgress call) desk params
      [.notice params none false] := by
  obtain ⟨waiting, tunes⟩ := keeps.tunes
  have stands := keeps.rests unclosed free
  obtain ⟨stands', told, ended⟩ := stands.begin_live known begins
  have untorn := stands'.unclosed.2
  let answered := (h.onBoard progress).withBoard (progress.advance call)
  have handled : (h.onBoard progress).handleProgress call = answered.settled call :=
    congrArg (settled · call) (makeReporter_of_ended (h := answered) ended)
  have seen : h.host.Sees answered.host (desk.tell params).2 := by
    rw [← told]
    exact sees_withBoard (h.onBoard progress) _
  rw [handled]
  exact Handles.ended (Desk.play_live unclosed known) ended tunes tunes
    ((keeps.torn.trans unclosed).trans untorn.symm)
    (fun closed => absurd (untorn.symm.trans closed) Bool.noConfusion) (fun _ => stands') seen rfl

/-- A notification of an absent token goes to the host, and what follows is up to it. -/
theorem handleProgress_absent (known : desk.reporter? params.id = none) :
    ∃ errands,
      Handles suffix h ((h.onBoard progress).handleProgress call) desk params errands := by
  obtain ⟨waiting, tunes⟩ := keeps.tunes
  obtain ⟨asks, silent⟩ := (keeps.rests unclosed free).begin_absent known begins
  have moved : (h.onBoard progress).withBoard (progress.advance call) =
      h.onBoard (progress.advance call).1 := by
    have quiet : progress.advance call = ((progress.advance call).1, []) := by rw [← silent]
    rw [quiet]
    exact withBoard_nil ..
  have handled : (h.onBoard progress).handleProgress call =
      ((h.onBoard (progress.advance call).1).makeReporter call).settled call :=
    congrArg (fun k => (makeReporter k call).settled call) moved
  rw [handled]
  obtain ⟨errands, handles⟩ := makeReporter_handles (h := h.onBoard (progress.advance call).1) asks
    (keeps.torn.trans unclosed) tunes
  exact ⟨errands, handles.keeps, handles.heard, handles.waiting, handles.host, handles.held,
    handles.free⟩

end Beginning

/-- The next notification is taken up by a session that is free. Either its desk is closed, or its token is
live, or the token is absent. -/
theorem handleProgress_begin (keeps : h.session.Keeps suffix desk)
    (free : h.session.handling = none) {progress : ProgressBoard}
    (begins : h.session.progress.begin params = (call, progress)) :
    ∃ errands, Handles suffix h ((h.onBoard progress).handleProgress call) desk params errands := by
  cases closed : desk.isClosed with
  | true => exact ⟨_, handleProgress_closed keeps begins closed⟩
  | false =>
    cases known : desk.reporter? params.id with
    | some reporter => exact ⟨_, handleProgress_live keeps begins closed free known⟩
    | none => exact handleProgress_absent keeps begins closed free known

/-! ## All that wait -/

/-- A session handles some notifications, and these are left. -/
structure Advances (suffix : String) (h k : Hosted) (desk : Desk) (left : List Json) : Prop where
  plays : ∃ errands, Plays suffix h k desk errands
  left : k.session.connection.waiting Session.progressFeed = left
  held : k.host.reporters.isHeld = h.host.reporters.isHeld
  free : k.session.handling = none ∨
    h.host.reporters.isHeld = true ∧ k.session.isDisposed = false

/-- Nothing waits for the host in a session that is torn down, so it is free to take up the next
notification. -/
theorem Advances.ready {left : List Json} (advances : Advances suffix h k desk left) :
    k.session.isDisposed = true → k.session.handling = none := by
  intro disposed
  rcases advances.free with free | ⟨-, live⟩
  · exact free
  · cases live.symm.trans disposed

/-- Nothing waits if the host lets nothing wait. -/
theorem Advances.unheld {left : List Json} (advances : Advances suffix h k desk left)
    (unheld : h.host.reporters.isHeld = false) : k.session.handling = none := by
  rcases advances.free with free | ⟨held, -⟩
  · exact free
  · cases unheld.symm.trans held

/-- Going on with the notification that waited takes none from the feed. -/
theorem advances_again (keeps : h.session.Keeps suffix desk)
    (live : h.session.isDisposed = false) (busy : h.session.handling = some call) :
    Advances suffix h (h.handleProgress call) desk
      (h.session.connection.waiting Session.progressFeed) := by
  obtain ⟨params, errands, waited, handles⟩ := handleProgress_again keeps live busy
  refine ⟨⟨errands, handles.keeps, ?_, handles.host⟩, handles.waiting, handles.held, handles.free⟩
  unfold Session.unheard
  rw [waited, handles.heard, handles.waiting, List.append_assoc]

/-- A session whose connection has lost the first notification that waited. -/
def skipped (h : Hosted) : Hosted :=
  h.withConnection { h.session.connection with
    feeds := h.session.connection.feeds.modify Session.progressFeed Feed.tail }

/-- What does not decode is dropped, and nobody hears of it but the log. -/
theorem nextProgress_malformed {said : Json} {rest : List Json}
    (waits : h.session.connection.waiting Session.progressFeed = said :: rest)
    (malformed : ProgressParams.ofJson? said = none) : Stays h.skipped h.nextProgress := by
  unfold nextProgress Connection.next Connection.decoded
  rw [waits]
  dsimp only [List.head?_cons]
  rw [malformed]
  exact ⟨rfl, rfl, List.Subset.refl _, rfl, ⟨rfl, rfl⟩⟩

/-- What decodes is taken from the feed, begun on the board, and handled as far as it goes. -/
theorem nextProgress_taken {said : Json} {rest : List Json}
    (waits : h.session.connection.waiting Session.progressFeed = said :: rest)
    (decoded : ProgressParams.ofJson? said = some params) {progress : ProgressBoard}
    (begins : h.session.progress.begin params = (call, progress)) :
    h.nextProgress = (h.skipped.onBoard progress).handleProgress call := by
  have begins' : h.skipped.session.progress.begin params = (call, progress) := begins
  unfold skipped at begins'
  unfold nextProgress Connection.next Connection.decoded
  rw [waits]
  dsimp only [List.head?_cons]
  rw [decoded]
  dsimp only
  rw [begins']
  rfl

/-- Who has lost the first notification that waited still keeps its desk, and the rest waits as before. -/
theorem skipped_keeps (keeps : h.session.Keeps suffix desk) {said : Json} {rest : List Json}
    (waits : h.session.connection.waiting Session.progressFeed = said :: rest) :
    h.skipped.session.Keeps suffix desk ∧
      h.skipped.session.connection.waiting Session.progressFeed = rest := by
  obtain ⟨waiting, tunes⟩ := keeps.tunes
  cases tunes.waiting_eq.symm.trans waits
  have left : h.skipped.session.Listens rest := tunes.self Feed.tail rfl
  exact ⟨⟨⟨rest, left⟩, keeps.torn, keeps.gone, keeps.rests, keeps.asks⟩, left.waiting_eq⟩

/-- Dropping what does not decode brings no errand, since it was nothing that the session could have heard.
-/
theorem advances_malformed (keeps : h.session.Keeps suffix desk) (free : h.session.handling = none)
    {said : Json} {rest : List Json}
    (waits : h.session.connection.waiting Session.progressFeed = said :: rest)
    (malformed : ProgressParams.ofJson? said = none) :
    Advances suffix h h.nextProgress desk rest := by
  obtain ⟨keeps', left⟩ := skipped_keeps keeps waits
  have idles := (nextProgress_malformed waits malformed).idles
  obtain ⟨waiting, tunes⟩ := keeps'.tunes
  have still : h.nextProgress.session.connection.waiting Session.progressFeed = rest := by
    rw [(idles.tunes tunes).waiting_eq, ← tunes.waiting_eq, left]
  obtain ⟨errands, played⟩ := idles.follows desk keeps'
  have heard : h.session.unheard = h.skipped.session.unheard := by
    have skips : (said :: rest).filterMap ProgressParams.ofJson? =
        rest.filterMap ProgressParams.ofJson? := List.filterMap_cons_none malformed
    unfold Session.unheard
    rw [waits, left, skips]
    rfl
  exact ⟨⟨errands, played.keeps, heard.trans played.heard, played.host⟩, still, idles.held,
    .inl (idles.handling.trans free)⟩

/-- Taking up a notification brings the errands of handling it. Until it is handled it counts as unheard,
wherever it is. -/
theorem advances_taken (keeps : h.session.Keeps suffix desk) (free : h.session.handling = none)
    {said : Json} {rest : List Json}
    (waits : h.session.connection.waiting Session.progressFeed = said :: rest)
    (decoded : ProgressParams.ofJson? said = some params) :
    Advances suffix h h.nextProgress desk rest := by
  obtain ⟨keeps', left⟩ := skipped_keeps keeps waits
  cases begins : h.session.progress.begin params with | mk call progress =>
  obtain ⟨errands, handles⟩ := handleProgress_begin keeps' free begins
  have still := handles.waiting.trans left
  have heard : (said :: rest).filterMap ProgressParams.ofJson? =
      params :: rest.filterMap ProgressParams.ofJson? := List.filterMap_cons_some decoded
  rw [nextProgress_taken waits decoded begins]
  refine ⟨⟨errands, handles.keeps, ?_, handles.host⟩, still, handles.held, handles.free⟩
  unfold Session.unheard
  rw [Session.waitingForHost_of_free free, waits, heard, still, List.nil_append, ← List.append_assoc, ← handles.heard]
  rfl

/-- A session that is free goes on with what waits first, if anything does. There is nothing to take,
something malformed, or a notification. -/
theorem advances_next (keeps : h.session.Keeps suffix desk) (free : h.session.handling = none) :
    Advances suffix h h.nextProgress desk
      ((h.session.connection.waiting Session.progressFeed).drop 1) := by
  cases waits : h.session.connection.waiting Session.progressFeed with
  | nil =>
    have idle : h.nextProgress = h := by
      unfold nextProgress Connection.next
      rw [waits]
      rfl
    rw [idle]
    exact ⟨⟨[], keeps, rfl, .refl _⟩, waits, rfl, .inl free⟩
  | cons said rest =>
    rw [List.drop_one, List.tail_cons]
    cases decoded : ProgressParams.ofJson? said with
    | none => exact advances_malformed keeps free waits decoded
    | some params => exact advances_taken keeps free waits decoded

/-- Notifications are handled one after the other; none is left if the host lets none wait and there are
enough steps. By induction on the steps, each of which goes on with the notification that waited or takes up
the next one. -/
theorem progressSteps_plays (steps : Nat) (keeps : h.session.Keeps suffix desk)
    (ready : h.session.isDisposed = true → h.session.handling = none) :
    ∃ errands, Plays suffix h (progressSteps steps h) desk errands ∧
      (h.host.reporters.isHeld = false →
        (h.session.connection.waiting Session.progressFeed).length +
          h.session.handling.toList.length ≤ steps →
        (progressSteps steps h).session.unheard = []) := by
  -- on the number of steps; what waits and what is being handled is a measure that each step lowers
  induction steps generalizing h desk with
  | zero =>
    refine ⟨[], ⟨keeps, rfl, .refl _⟩, fun _ none => ?_⟩
    obtain ⟨unsaid, free⟩ := Nat.add_eq_zero_iff.mp (Nat.le_zero.mp none)
    unfold progressSteps Session.unheard Session.waitingForHost
    rw [List.eq_nil_of_length_eq_zero unsaid,
      Option.toList_eq_nil_iff.mp (List.eq_nil_of_length_eq_zero free)]
    rfl
  | succ steps ih =>
    have onward {k : Hosted} {left : List Json} (advances : Advances suffix h k desk left)
        (fewer : left.length + 1 ≤ (h.session.connection.waiting Session.progressFeed).length +
            h.session.handling.toList.length ∨ left = []) :
        ∃ errands, Plays suffix h (progressSteps steps k) desk errands ∧
          (h.host.reporters.isHeld = false →
            (h.session.connection.waiting Session.progressFeed).length +
              h.session.handling.toList.length ≤ steps + 1 →
            (progressSteps steps k).session.unheard = []) := by
      obtain ⟨errands, played⟩ := advances.plays
      obtain ⟨more, played', all⟩ := ih played.keeps advances.ready
      refine ⟨errands ++ more, played.trans played', fun unheld enough => ?_⟩
      refine all (advances.held.trans unheld) ?_
      rw [advances.unheld unheld, advances.left, Option.toList_none, List.length_nil, Nat.add_zero]
      rcases fewer with fewer | rfl
      · exact Nat.le_of_succ_le_succ (Nat.le_trans fewer enough)
      · exact Nat.zero_le _
    cases busy : h.session.handling with
    | none =>
      rw [busy] at onward
      simp only [progressSteps, busy]
      refine onward (advances_next keeps busy) ?_
      cases h.session.connection.waiting Session.progressFeed with
      | nil => exact .inr rfl
      | cons said rest => exact .inl (Nat.le_refl _)
    | some call =>
      have live : h.session.isDisposed = false := by
        cases disposed : h.session.isDisposed with
        | false => rfl
        | true => cases busy.symm.trans (ready disposed)
      have advances := advances_again keeps live busy
      rw [busy] at onward
      simp only [progressSteps, busy]
      split
      -- the call still waits for the host, which can only be if the host holds reporters back
      next waits =>
        obtain ⟨errands, played⟩ := advances.plays
        refine ⟨errands, played, fun unheld => ?_⟩
        rw [advances.unheld unheld] at waits
        cases waits
      next => exact onward advances (.inl (Nat.le_refl _))

/-- A session that is active hears of all that waits, unless the host lets something wait. One step for each
notification in the feed, and one more for the one that waited, are enough. -/
theorem followProgress_plays (keeps : h.session.Keeps suffix desk)
    (active : h.session.isActive = true) :
    ∃ errands, Plays suffix h h.followProgress desk errands ∧
      (h.host.reporters.isHeld = false → h.followProgress.session.unheard = []) := by
  have live : h.session.isDisposed = false := by
    unfold Session.isActive at active
    exact Bool.not_eq_true' _ ▸ (Bool.and_eq_true_iff.mp active).1
  obtain ⟨errands, played, all⟩ := progressSteps_plays
    ((h.session.connection.waiting Session.progressFeed).length + 1) keeps
    fun disposed => absurd (live.symm.trans disposed) Bool.noConfusion
  refine ⟨errands, played, fun unheld => all unheld (Nat.add_le_add_left ?_ _)⟩
  cases h.session.handling <;> simp

/-! ## Deeds -/

/-- Whatever a session does goes along with errands to its desk. This is the step lemma for single sessions,
by cases on the deed. -/
theorem Deed.follows (deed : Deed options h k) : Follows suffix h k := by
  cases deed with
  | stay stays => exact stays.idles.follows
  | dispose => exact dispose_follows h
  | forwardLog => exact forwardLog_follows h
  | followDiagnostics active => exact followDiagnostics_follows h _
  | followProgress active =>
    intro desk keeps
    obtain ⟨errands, played, -⟩ := followProgress_plays keeps active
    exact ⟨errands, played⟩
  | leave => exact Idles.follows ⟨rfl, rfl, rfl, id, .refl _, rfl⟩
  | cut => exact Idles.follows ⟨rfl, rfl, rfl, fun tunes => tunes.release, .refl _, rfl⟩

end Hosted

end LanguageClient
