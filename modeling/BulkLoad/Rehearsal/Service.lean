import BulkLoad.Api.Request

/-!
# Scripted services

A service that answers by a script, for rehearsing an import without a network. A script is a list
of routes; the first one that fits a request answers it, with its replies in order, the last of
which is given ever after. What the service received is kept in order.
-/

namespace BulkLoad.Rehearsal

/-- One reply of a script. -/
structure Reaction where
  status : Nat := 200
  body : List UInt8 := []
  /-- The connection breaks instead. -/
  drops : Bool := false
  /-- The client is cancelled before the reply. -/
  cancels : Bool := false
deriving DecidableEq, Repr

/-- The replies to the requests that fit a pattern. -/
structure Route where
  /-- Method and target with a blank between them; a star at the end stands for any rest. -/
  pattern : String
  reactions : List Reaction
deriving DecidableEq, Repr

/-- A request as the service sees it. -/
structure Received where
  method : Api.Method
  target : String
  contentType : Option String
  /-- The length of the body, where it is told. -/
  contentLength : Option Nat
  body : List UInt8
deriving DecidableEq, Repr

/-- Method and target. -/
def Received.key (received : Received) : String :=
  received.method.name ++ " " ++ received.target

/-- Whether a pattern fits a request. -/
def fits (pattern key : List Char) : Bool :=
  match pattern.getLast? with
  | some '*' => pattern.dropLast.isPrefixOf key
  | _ => pattern = key

/-- The reply of the first route that fits, and the routes after it. -/
def react (key : List Char) : List Route → Reaction × List Route
  | [] => ({ status := 404, body := "no route".toUTF8.toList }, [])
  | route :: rest =>
    if fits route.pattern.toList key then
      match route.reactions with
      | [] => ({}, route :: rest)
      | [reaction] => (reaction, route :: rest)
      | reaction :: later => (reaction, { route with reactions := later } :: rest)
    else
      let (reaction, rest) := react key rest
      (reaction, route :: rest)

/-- The request as the service sees it. -/
def Received.ofRequest (request : Api.Request) (content : List UInt8) : Received :=
  let body := request.body.bytes content
  { method := request.method
    target := request.endpoint.target
    contentType := request.body.contentType?
    contentLength := if request.method = .get then none else some body.length
    body }

/-- A service that answers by a script. -/
structure Service where
  routes : List Route
  /-- What it received, the last request first. -/
  received : List Received := []
deriving Repr

/-- Answers a request. -/
def Service.answer (service : Service) (received : Received) : Reaction × Service :=
  let (reaction, routes) := react received.key.toList service.routes
  (reaction, ⟨routes, received :: service.received⟩)

end BulkLoad.Rehearsal
