import LanguageClient.Proofs.Run
import LanguageClient.Proofs.World.Deeds

/-!
# Moves by deeds

Following the roots, registering, visiting, asking and most other moves are sequences of deeds, whatever
the host does from inside its callbacks (`World.after_deeds`). The rest are no deeds: a session reads what
its server has sent, the host tells the sessions of documents, changes its views or arms a callback, and
those who watch are told what has happened.
-/

namespace LanguageClient

namespace World

variable {w v : World}

/-! ## All moves -/

/-- A move by which no server says anything new, and the host neither tells the sessions of documents
nor changes its views, arms a callback or tells anybody what has happened. -/
def Move.isDeed : Move → Bool
  | .poll (.reader _) | .openDocument _ | .endStreams | .showView _ | .hideView _ | .arm _
  | .report => false
  | _ => true

/-- A notification that a user sends is told to the server by a deed that stays, or is not sent. -/
theorem notifyIfPossible_deeds (w : World) (n : Nat) (method : String) (params : Json) :
    Deeds w (w.notifyIfPossible n method params) := by
  rcases w.notifyIfPossible_cases n method params with same | ⟨s, connection, found, told, sent⟩
  · rw [same]
    exact .refl w
  · rw [sent]
    exact put_deeds found (Connection.send_mute told)

/-- A change of the host that is nothing to the sessions: of its roots, its documents, or how it answers
those who ask for reporters. -/
theorem Deeds.of_host (options : v.options = w.options) (sessions : v.sessions = w.sessions)
    (host : v.host = { w.host with
      roots := v.host.roots, documents := v.host.documents, reporters := v.host.reporters,
      waiting := v.host.waiting }) : Deeds w v := by
  have changed : Scene.Deed w.options w.scene ⟨w.scene.sessions, v.host⟩ := .host v.host host
  refine ⟨options, .single ?_⟩
  rw [show v.scene = ⟨w.scene.sessions, v.host⟩ from congrArg (Scene.mk · v.host) sessions]
  exact changed

/-- Every such move is a sequence of deeds. Moves of the client's own come from `World.after_leads`, and the
others are changes of the host, of a pipe, or of no session at all. -/
theorem after_deeds (w : World) {move : Move} (deed : move.isDeed = true) :
    Deeds w (w.after move) := by
  cases own : move.isOwn with
  | true => exact (after_leads deeds_conduct w own).deeds
  | false =>
    cases move with
    | poll task =>
      cases task with
      | reader => cases deed
      | _ => cases own
    | roots | addDocument | holdReporters | releaseReporters | refuseReporters =>
      exact .of_host rfl rfl rfl
    | notify n method params => exact notifyIfPossible_deeds w n method params
    | send n messages =>
      have arrive : ∀ (messages : List Message) (c : Connection SessionHandler),
          c.Mute (messages.foldl Connection.arrive c) := by
        intro messages
        induction messages with
        | nil => exact fun c => .refl c
        | cons message messages ih => exact fun c => (Connection.arrive_mute message).trans (ih _)
      exact onConnection_deeds (arrive messages) w n
    | hangUp n => exact onConnection_deeds (fun _ => Connection.hangUp_mute) w n
    | stopReading n =>
      have stops (c : Connection SessionHandler) : c.Mute c.stopReading := ⟨rfl, rfl⟩
      exact onConnection_deeds stops w n
    | openDocument | endStreams | showView | hideView | arm | report => cases deed
    | _ => cases own

end World

end LanguageClient
