import LanguageClient.Proofs.World.Accounts

/-!
# What the disposing of a session does

A session that is disposed by a move of the world empties what it has drawn in every visible view of a
document that it has diagnostics of, and fails every call that is waited for (`World.after_partsWith`).
Whatever else happens in that move, before or after, no view comes or goes, the session forgets no
document before it is disposed, and the server answers nothing.
-/

namespace LanguageClient

variable {options : ClientOptions} {turn : Turn} {past : List HostEvent} {n : Nat}

namespace Scene

variable {c d e : Scene} {s t : Session}

/-- What becomes of a session while views stay as they are: it has forgotten no document, or it was
disposed, and what it had drawn was emptied. Unless something was read, no call was answered. -/
structure Fares (turn : Turn) (n : Nat) (s : Session) (c d : Scene) : Prop where
  views : d.host.views = c.host.views
  becomes : ∃ t news, d.sessions[n]? = some t ∧ d.host.trace = c.host.trace ++ news ∧
    (turn ≠ .reader → turn ≠ .sweep → ∀ number, s.connection.Unanswered number →
      t.connection.Unanswered number) ∧
    ((t.isDisposed = s.isDisposed ∧ ∀ document ∈ s.diagnostics.map Prod.fst,
        document ∈ t.diagnostics.map Prod.fst) ∨
      (t.isDisposed = true ∧ turn ≠ .reader ∧ turn ≠ .sweep) ∧
        ∀ view ∈ c.host.views, view.document ∈ s.diagnostics.map Prod.fst →
          .decorated (n + 1) view.id [] ∈ news)

/-- Views stay as they are, and what happens is added to what has happened. To show or to hide a view is a
matter of the host alone, and no act of a client. -/
theorem Act.grows (balances : c.Balances past) (act : Act options turn c d) :
    d.host.views = c.host.views ∧ ∃ news, d.host.trace = c.host.trace ++ news := by
  cases act with
  | hosted found host act =>
    have serves := (act.settles (balances.accounted found host)).serves
    obtain ⟨news, trace, -⟩ := serves.trace
    exact ⟨serves.views.trans (host ▸ rfl), news, trace.trans (host ▸ rfl)⟩
  | attach | hear => exact ⟨rfl, [], (List.append_nil _).symm⟩
  | host host same =>
    rw [same]
    exact ⟨rfl, [], (List.append_nil _).symm⟩

/-- What one act makes of a session: it goes on and forgets no document, or it is disposed and empties what
it has drawn. The cases are those of the acts. -/
theorem Act.fares (balances : c.Balances past) (act : Act options turn c d)
    (found : c.sessions[n]? = some s) : Fares turn n s c d := by
  have inside := (List.getElem?_eq_some_iff.mp found).1
  have there := List.getElem?_eq_getElem (Nat.lt_of_lt_of_le inside act.length_le)
  obtain ⟨views, news, trace⟩ := act.grows balances
  refine ⟨views, _, news, there, trace, ?_⟩
  rcases act.session_cases balances.quiet there with ⟨h, k, act, rfl, before, host, same, host'⟩ |
    ⟨s', opened, ended, more, before, same, -⟩ | ⟨rfl, -⟩
  · cases found.symm.trans before
    rw [← same]
    have accounts := balances.accounts found
    have quiet : h.host.armed = [] := host ▸ balances.quiet
    refine ⟨fun read swept number =>
      ((act.allows quiet).unread read swept).unanswered accounts.neat, ?_⟩
    rcases act.keeps_or_disposes quiet with kept | ⟨⟨live, read, swept⟩, rfl⟩
    · exact .inl kept
    · obtain ⟨connection, -, -, disposed⟩ := Hosted.dispose_eq quiet live
      refine .inr ⟨⟨by rw [disposed], read, swept⟩, ?_⟩
      intro view visible document
      have all : news = h.emptied ++ h.session.progress.completeAll.2.map .reporter := by
        rw [← host', ← host, disposed] at trace
        exact (List.append_cancel_left trace).symm
      rw [all, ← accounts.kind]
      refine List.mem_append_left _ (List.mem_map.mpr ⟨view, ?_, rfl⟩)
      rw [host]
      exact List.mem_filter.mpr ⟨visible, decide_eq_true document⟩
  · cases found.symm.trans before
    rw [same]
    exact ⟨fun _ _ _ => id, .inl ⟨rfl, fun _ => id⟩⟩
  · exact absurd inside (Nat.lt_irrefl _)

/-- Where nothing is done, a session is as it was, and no document is forgotten. -/
theorem Fares.refl (found : c.sessions[n]? = some s) : Fares turn n s c c :=
  ⟨rfl, s, [], found, (List.append_nil _).symm, fun _ _ _ => id, .inl ⟨rfl, fun _ => id⟩⟩

/-- What was disposed stays disposed, and what was emptied then is among the events still. So one more act
may follow in either case. -/
theorem Fares.tail (fares : Fares turn n s c d) (balances : d.Balances past)
    (act : Act options turn d e) : Fares turn n s c e := by
  obtain ⟨t, news, at_t, trace, unanswered, becomes⟩ := fares.becomes
  obtain ⟨views, u, more, at_u, trace', unanswered', becomes'⟩ := act.fares balances at_t
  refine ⟨views.trans fares.views, u, news ++ more, at_u, ?_, ?_, ?_⟩
  · rw [trace', trace, List.append_assoc]
  · exact fun read swept number waits =>
      unanswered' read swept number (unanswered read swept number waits)
  · rcases becomes with ⟨same, kept⟩ | ⟨⟨disposed, read, swept⟩, emptied⟩
    · rcases becomes' with ⟨same', kept'⟩ | ⟨ended, emptied'⟩
      · exact .inl ⟨same'.trans same, fun document member => kept' document (kept document member)⟩
      · refine .inr ⟨ended, fun view visible document => ?_⟩
        rw [fares.views] at emptied'
        exact List.mem_append_right _ (emptied' view visible (kept _ document))
    · refine .inr ⟨⟨?_, read, swept⟩, fun view visible document =>
        List.mem_append_left _ (emptied view visible document)⟩
      rcases becomes' with ⟨same, -⟩ | ⟨⟨ended, -⟩, -⟩
      · exact same.trans disposed
      · exact ended

/-- What several acts make of a session, by induction on the acts, along which the books have to balance. -/
theorem Acts.fares (balances : c.Balances past) (acts : Acts options turn c d)
    (found : c.sessions[n]? = some s) : Fares turn n s c d := by
  have both := acts.induction (fun d => d.Balances past ∧ Fares turn n s c d)
    (fun _ act kept => ⟨act.balances kept.1, kept.2.tail kept.1 act⟩) balances.quiet
    ⟨balances, .refl found⟩
  exact both.2.2

end Scene

namespace World

variable {w : World} {s t : Session} {move : Move}

/-- What a move does that disposes a session: what it had drawn is emptied, and every call that is
waited for fails, unless nobody waits for its outcome any more. -/
structure PartsWith (w : World) (move : Move) (n : Nat) (s t : Session) : Prop where
  emptied : ∀ view ∈ w.host.views, view.document ∈ s.diagnostics.map Prod.fst →
    .decorated (n + 1) view.id [] ∈ (w.after move).host.trace.drop w.host.trace.length
  failed : ∀ id number call, (id, number) ∈ s.connection.pending →
    s.connection.calls[number]? = some call → call.outcome = none →
    ∃ after, t.connection.calls[number]? = some after ∧
      (after.isAbandoned = true ∨ after.outcome = some (.error .connectionClosed))

/-- A move that disposes a session parts with it. Moves that only show, hide or tell something dispose none,
and all others are turns of acts. In a turn that disposes nothing is read, so that a call which was waited
for is unanswered until then and has failed afterwards. -/
theorem after_partsWith (lawful : w.IsLawful) (balances : w.scene.Balances past)
    (unarmed : move.isUnarmed = true) (found : w.sessions[n]? = some s)
    (live : s.isDisposed = false) (found' : (w.after move).sessions[n]? = some t)
    (disposed : t.isDisposed = true) : w.PartsWith move n s t := by
  have act : move.isAct = true := by
    -- what only shows, hides or tells something disposes nothing
    have stays (same : (w.after move).sessions = w.sessions) : move.isAct = true := by
      rw [same, found] at found'
      cases found'
      exact absurd (live.symm.trans disposed) Bool.false_ne_true
    cases move with
    | arm => cases unarmed
    | showView | hideView | report => exact stays rfl
    | _ => rfl
  have acts := (after_steps lawful act).acts
  obtain ⟨-, u, news, at_u, trace, unanswered, becomes⟩ := acts.fares balances found
  cases found'.symm.trans at_u
  rcases becomes with ⟨same, -⟩ | ⟨⟨-, read, swept⟩, emptied⟩
  · exact absurd (live.symm.trans (same.symm.trans disposed)) Bool.false_ne_true
  · have accounts := (after_balances lawful unarmed balances).accounts found'
    refine ⟨?_, ?_⟩
    · intro view visible document
      have drawn : (w.after move).host.trace = w.host.trace ++ news := trace
      rw [drawn, List.drop_left]
      exact emptied view visible document
    · intro id number call pending at_number undecided
      have waits := unanswered read swept number
        ⟨call, at_number, .inr (.inr ⟨undecided, id, pending⟩)⟩
      exact accounts.neat.failed (accounts.gone disposed).2.2 waits

end World

end LanguageClient
