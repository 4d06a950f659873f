import LanguageClient.Proofs.Folders.Phases

/-!
# What never turns back

What every move of a client of several roots goes along with: the options stay, the host has the roots
that it was last given, the following of the roots never turns back, and only registering brings a
session.
-/

namespace LanguageClient

/-- The order in which the following of the roots goes through its states. -/
def Following.rank : Following → Nat
  | .absent => 0
  | .fresh => 1
  | .ongoing => 2
  | .over => 3

/-- No state of the following comes after its end. -/
theorem Following.rank_le_over (following : Following) : following.rank ≤ Following.over.rank := by
  cases following <;> decide

namespace World

variable {w v : World}

/-- The roots of the host after a move. -/
def Move.rootsAfter (w : World) : Move → List Url
  | .roots urls => urls
  | _ => w.host.roots

/-- What every move goes along with: it keeps the options, the host has the roots that it was last
given, and the following of the roots does not turn back. -/
structure Steady (w : World) (urls : List Url) (v : World) : Prop where
  options : v.options = w.options
  roots : v.host.roots = urls
  following : w.following.rank ≤ v.following.rank

/-- What every move but registering goes along with: no session comes to be shared. -/
structure Uninvited (w : World) (urls : List Url) (v : World) : Prop extends Steady w urls v where
  alone : w.shared = none → v.shared = none

namespace Uninvited

/-- What changes nothing goes along with it. -/
theorem refl (w : World) : Uninvited w w.host.roots w := ⟨⟨rfl, rfl, Nat.le_refl _⟩, id⟩

/-- Two steps that bring no session bring none together, and the ranks of the following go up through both.
-/
theorem trans {u : World} (first : Uninvited w w.host.roots v)
    (second : Uninvited v v.host.roots u) : Uninvited w w.host.roots u where
  options := second.options.trans first.options
  roots := second.roots.trans first.roots
  following := Nat.le_trans first.following second.following
  alone := second.alone ∘ first.alone

end Uninvited

/-- What lets the sessions go on shares none anew, and leaves the options, the roots and the following
alone. -/
theorem Growth.uninvited {R : Session → Session → Prop} (growth : Growth R w v) :
    Uninvited w w.host.roots v where
  options := growth.options
  roots := growth.roots
  following := growth.following ▸ Nat.le_refl _
  alone alone := growth.shared.trans alone

/-! ## Following the roots -/

/-- A look at the roots tells the shared session something, and shares no other. The roots are followed
afterwards, so that the rank goes up or stays. -/
theorem looked_uninvited (sharing : w.Sharing)
    (following : w.following = .fresh ∨ w.following = .ongoing) (changes : Changes) :
    Uninvited w w.host.roots (w.looked changes) := by
  obtain ⟨n, s, shares⟩ := sharing.following_shares following
  unfold looked
  rw [reconcile_of_shares sharing.multi shares]
  have early : w.following.rank ≤ Following.ongoing.rank := by
    rcases following with same | same
    all_goals rw [same]
    decide
  exact ⟨⟨rfl, rfl, early⟩, id⟩

/-- Any looks at the roots bring no session, and neither does the end of the following, which comes last. -/
theorem Looking.uninvited (looking : Looking w v) (sharing : w.Sharing) :
    Uninvited w w.host.roots v := by
  induction looking with
  | done => exact .refl _
  | look changes following _ ih =>
    exact (looked_uninvited sharing following changes).trans (ih (sharing.looked following changes))
  | stop => exact ⟨⟨rfl, rfl, Following.rank_le_over _⟩, id⟩

/-- Who follows the roots brings no session in its step, whatever it looks at. -/
theorem pollReconciler_uninvited (sharing : w.Sharing) :
    Uninvited w w.host.roots w.pollReconciler := by
  obtain ⟨-, same | ⟨following, ended, same⟩⟩ | ⟨-, following, changes, looking⟩ :=
    pollReconciler_cases sharing
  · rw [same]
    exact .refl w
  · rw [same]
    exact (Looking.stop following ended).uninvited sharing
  · exact (looked_uninvited sharing following changes).trans
      (looking.uninvited (sharing.looked following changes))

/-! ## Visits -/

/-- A visit that ends brings no session. If it gives back a loan, the shared session is told of it. -/
theorem dropVisit_uninvited (w : World) (number : Nat) (visit : Visit) :
    Uninvited w w.host.roots (w.dropVisit number visit) := by
  unfold dropVisit
  cases visit.stage with
  | running n loan =>
    cases loan with
    | none => exact ⟨⟨rfl, rfl, Nat.le_refl _⟩, id⟩
    | some loan =>
      dsimp only [giveBack]
      cases w.sessions[n]? <;> exact ⟨⟨rfl, rfl, Nat.le_refl _⟩, id⟩
  | _ => exact ⟨⟨rfl, rfl, Nat.le_refl _⟩, id⟩

/-- A step of a visit to the shared session brings none: a visit that finds no session ends. -/
theorem Visiting.uninvited {number : Nat} (visiting : Visiting number w v) :
    Uninvited w w.host.roots v := by
  induction visiting with
  | waits _ course => exact course.uninvited
  | begins _ _ _ _ _ _ ih => exact ⟨⟨ih.options, ih.roots, ih.following⟩, ih.alone⟩
  | ends _ _ course =>
    exact (dropVisit_uninvited ..).trans course.uninvited

/-! ## Registering -/

/-- Waiting for the answer to the greeting keeps options and roots. If the client comes to be there, the
following starts, which is asked to be absent before. -/
theorem awaitSharedGreeting_steady (unarmed : w.host.armed = []) (absent : w.following = .absent)
    (n call : Nat) : Steady w w.host.roots (w.awaitSharedGreeting n call) := by
  have early (u : World) : w.following.rank ≤ u.following.rank := by
    rw [absent]
    exact Nat.zero_le _
  obtain same | ⟨u, course, same | ⟨failure, same⟩⟩ := awaitSharedGreeting_cases unarmed n call
  · rw [same]
    exact ⟨rfl, rfl, early _⟩
  · rw [same]
    exact ⟨course.options, course.roots, early _⟩
  · rw [same]
    exact ⟨course.options, course.roots, early _⟩

/-- Registering keeps options and roots, and at most starts the following of them. That it may bring a
session is why it is set apart from the other moves. -/
theorem Registering.steady (registering : Registering w v) (sharing : w.Sharing) :
    Steady w w.host.roots v := by
  cases registering with
  | rests _ _ _ apart => exact ⟨apart.options, apart.roots, apart.following ▸ Nat.le_refl _⟩
  | stays => exact ⟨rfl, rfl, Nat.le_refl _⟩
  | ends => exact ⟨rfl, rfl, Nat.le_refl _⟩
  | @greets u v g folders call early before phase apart attached _ greeted =>
    have growth := attached.growth (R := Session.Later)
    have course := greet_course (w := { v with shared := some u.sessions.length })
      (growth.calm before.unarmed) u.sessions.length (some folders)
    rw [greeted] at course
    have absent : w.following = .absent := sharing.unready
      (by rcases early with early | early <;> rw [early] <;> exact Phase.noConfusion)
      (by rcases early with early | early <;> rw [early] <;> exact Phase.noConfusion)
    have same : g.following = w.following :=
      course.following.trans (growth.following.trans apart.following)
    have last := awaitSharedGreeting_steady (course.calm (growth.calm before.unarmed))
      (same.trans absent) u.sessions.length call
    exact ⟨last.options.trans (course.options.trans (growth.options.trans apart.options)),
      last.roots.trans (course.roots.trans (growth.roots.trans apart.roots)),
      same ▸ last.following⟩
  | awaits phase =>
    exact awaitSharedGreeting_steady sharing.unarmed (sharing.unready
      (by rw [phase]; exact Phase.noConfusion) (by rw [phase]; exact Phase.noConfusion)) ..

/-! ## Moves -/

/-- A sweep only releases sessions, and touches neither the roots nor who follows them. -/
theorem sweep_uninvited (w : World) : Uninvited w w.host.roots w.sweep := by
  have swept := w.sweep_swept.toGrowth
  have released : w.releaseEntries.host.roots = w.host.roots ∧
      w.releaseEntries.options = w.options ∧ w.releaseEntries.following = w.following ∧
      w.releaseEntries.shared = w.shared := by
    unfold releaseEntries
    split <;> exact ⟨rfl, rfl, rfl, rfl⟩
  obtain ⟨roots, options, following, shared⟩ := released
  exact ⟨⟨swept.options.trans options, swept.roots.trans roots,
    (swept.following.trans following) ▸ Nat.le_refl _⟩, fun alone =>
      (swept.shared.trans shared).trans alone⟩

/-- A user who drops calls brings no session: a visit, a request and the registration are at most marked. -/
theorem drop_uninvited (w : World) (label : String) : Uninvited w w.host.roots (w.drop label) := by
  have visited : Uninvited w w.host.roots (w.dropLastVisit label) := by
    unfold dropLastVisit
    split <;> exact ⟨⟨rfl, rfl, Nat.le_refl _⟩, id⟩
  have requested := (dropLastRequest_course (R := Session.Later) (w.dropLastVisit label)
    label).uninvited
  have registering (u : World) : Uninvited u u.host.roots (u.dropRegistering label) := by
    unfold dropRegistering
    repeat' split
    all_goals exact ⟨⟨rfl, rfl, Nat.le_refl _⟩, id⟩
  rw [drop_eq]
  exact (visited.trans requested).trans (registering _)

/-- The end of the client takes the shared session away, and the following of the roots is over after it. -/
theorem shutdown_uninvited (sharing : w.Sharing) :
    Uninvited w w.host.roots w.shutdownIfPossible := by
  obtain same | ⟨-, -, same⟩ := w.shutdownIfPossible_cases
  · rw [same]
    exact .refl w
  · have course := sharing.endClient_course
    rw [same]
    exact ⟨⟨course.options, course.roots, course.following ▸ Following.rank_le_over _⟩,
      fun _ => course.shared⟩

/-- Only registering brings a session. All other tactful moves keep the options and the roots that the host
was last given, and turn nothing back. -/
theorem uninvited_after (sharing : w.Sharing) {move : Move} (tactful : move.isTactful = true)
    (other : move ≠ .poll .register) : Uninvited w (move.rootsAfter w) (w.after move) := by
  -- of the minor moves none gives the host new roots
  cases minor : move.isMinor with
  | true =>
    have course := (after_course sharing.unarmed w.asks_later minor).uninvited
    cases move with
    | roots => cases minor
    | _ => exact course
  | false =>
    cases move with
    | poll task =>
      cases task with
      | opening number =>
        have same : w.after (.poll (.opening number)) = w := sharing.pollOpening ..
        rw [same]
        exact .refl w
      | reconciler => exact pollReconciler_uninvited sharing
      | register => exact absurd rfl other
      | visit number => exact (pollVisit_visiting sharing number).uninvited
      | _ => cases minor
    | sweep => exact w.sweep_uninvited
    | roots => exact ⟨⟨rfl, rfl, Nat.le_refl _⟩, id⟩
    | endStreams => exact ⟨⟨rfl, rfl, Nat.le_refl _⟩, id⟩
    | register label =>
      change Uninvited w w.host.roots (w.registerOnce label)
      unfold World.registerOnce
      split <;> exact ⟨⟨rfl, rfl, Nat.le_refl _⟩, id⟩
    | shutdown => exact shutdown_uninvited sharing
    | visit label root =>
      change Uninvited w w.host.roots ((w.visit label root).getD w)
      unfold World.visit
      split <;> exact ⟨⟨rfl, rfl, Nat.le_refl _⟩, id⟩
    | verdict number outcome =>
      change Uninvited w w.host.roots (w.judge number outcome)
      unfold World.judge
      split <;> exact ⟨⟨rfl, rfl, Nat.le_refl _⟩, id⟩
    | request => exact ⟨⟨rfl, rfl, Nat.le_refl _⟩, id⟩
    | notify n method params =>
      exact (notifyIfPossible_course (R := Session.Later)
        (fun sent => .of_connection (Connection.send_later sent)) w n params).uninvited
    | drop label => exact w.drop_uninvited label
    | stopReading n => exact (stopReading_course w n).uninvited
    | arm => cases tactful
    | _ => cases minor

/-- The options stay, the roots are the last that the host was given, and the following of them does not
turn back. -/
theorem steady_after (sharing : w.Sharing) {move : Move} (tactful : move.isTactful = true) :
    Steady w (move.rootsAfter w) (w.after move) := by
  by_cases register : move = .poll .register
  · rw [register]
    exact (pollRegister_registering sharing).steady sharing
  · exact (uninvited_after sharing tactful register).toSteady

/-! ## Runs -/

/-- The roots were looked at. -/
def HasLooked (w : World) : Prop := Following.ongoing.rank ≤ w.following.rank

/-- The roots were looked at just if the client is followed up to now or was until it ended, for the first
look makes the following an ongoing one. -/
theorem hasLooked_iff : w.HasLooked ↔ w.following = .ongoing ∨ w.following = .over := by
  unfold HasLooked
  cases w.following <;> decide

/-- Once the roots were looked at, they were looked at, in any run of tactful moves that comes after. -/
theorem hasLooked_run {moves : List Move} (tactful : ∀ move ∈ moves, move.isTactful = true)
    (sharing : w.Sharing) (looked : w.HasLooked) : (w.run moves).HasLooked :=
  (run_induction (fun w => w.Sharing ∧ w.HasLooked)
    (fun _ _ tactful ⟨sharing, looked⟩ =>
      ⟨sharing.after tactful, Nat.le_trans looked (steady_after sharing tactful).following⟩)
    tactful ⟨sharing, looked⟩).2

end World

end LanguageClient
