import LanguageClient.Client.Visiting

/-!
# Requests in the background

A visitor sends a request on its connection, or the host asks a provider. A question is put to the
server under the names that it knows, and its result is read under the names of the host.
-/

namespace LanguageClient

namespace World

def setRequest (w : World) (number : Nat) (stage : RequestStage) : World :=
  { w with requests := w.requests.modify number fun r => { r with stage } }

def endRequest (w : World) (number : Nat) (request : PendingRequest) (finding : Finding) : World :=
  (w.setRequest number .over).conclude request.label finding

/-- What the outcome of a request means to the one who made it. -/
def finding (w : World) (purpose : Purpose) (outcome : Outcome) : Finding :=
  match purpose with
  | .plain _ _ =>
    match outcome with
    | .ok value => .result value
    | .error failure => .failure failure
  | .question feature _ =>
    match feature.answer w.options.rewriter outcome with
    | .ok answer => .answer answer
    | .error failure => .failure failure

def awaitResponse (w : World) (number : Nat) (request : PendingRequest) (call : Nat) : World :=
  match w.outcome? request.session call with
  | none => w.setRequest number (.waiting call)
  | some outcome => w.endRequest number request (w.finding request.purpose outcome)

/-- The method and the params of a request, or the failure to name what it is about. -/
def wording (w : World) : Purpose → Except ClientError (String × Json)
  | .plain method params => .ok (method, params)
  | .question feature question =>
    (feature.ask w.options.rewriter question).map fun params => (feature.method, params)

def sendRequest (w : World) (number : Nat) (request : PendingRequest) : World :=
  match w.wording request.purpose, w.sessions[request.session]? with
  | .error failure, _ => w.endRequest number request (.failure failure)
  | .ok _, none => w.endRequest number request (.failure .connectionClosed)
  | .ok (method, params), some session =>
    let (call, connection) := session.connection.request method params
    (w.put request.session { session with connection }).awaitResponse number request call

def dropRequest (w : World) (number : Nat) (request : PendingRequest) : World :=
  let w := match request.stage with
    | .waiting call => w.onConnection request.session (·.abandon call)
    | _ => w
  w.setRequest number .over

def pollRequest (w : World) (number : Nat) : World :=
  match w.requests[number]? with
  | none => w
  | some request =>
    if request.isDropped then w.dropRequest number request
    else
      match request.stage with
      | .unstarted => w.sendRequest number request
      | .waiting call => w.awaitResponse number request call
      | .over => w

end World

end LanguageClient
