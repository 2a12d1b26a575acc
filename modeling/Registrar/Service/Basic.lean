import Registrar.Json.Reader.Basic
import Registrar.Registry.Basic
import Registrar.Service.Fault
import Registrar.Service.Origins
import Registrar.Service.Route
import Registrar.Text.Percent

namespace Registrar

open Log (Entry)

structure Request where
  method : String
  target : String
  headers : List (String × String)
  body : ByteArray

structure Response where
  status : Nat
  body : String
  deriving DecidableEq, Repr

structure Moment where
  now : String
  queryId : String
  deriving DecidableEq, Repr

namespace Request

def header? (r : Request) (name : String) : Option String :=
  (r.headers.find? fun h => h.1.toLower = name).map Prod.snd

def json? (r : Request) : Except ServiceFault Json :=
  match (String.fromUTF8? r.body).bind Json.read? with
  | some value => .ok value
  | none => .error (.invalidJson Json.unreadable)

end Request

namespace Response

def empty (status : Nat) : Response := ⟨status, ""⟩

def ofResult (text : String) : Response := ⟨200, Json.objectText [("result", text)]⟩

def ofFault (f : ServiceFault) : Response := ⟨f.status, f.wire⟩

def ofExcept : Except ServiceFault String → Response
  | .ok text => .ofResult text
  | .error fault => .ofFault fault

def invalidParameter (name : String) : Response :=
  ⟨400, s!"Invalid URL: Invalid UTF-8 in `{name}`"⟩

def bodyTooLong : Response :=
  ⟨413, "Failed to buffer the request body: length limit exceeded"⟩

end Response

namespace Service

def version : String := "0.1.0"

def bodyLimit : Nat := 2 * 1024 * 1024

def summaryText (s : Dataset.Summary) : String :=
  Json.objectText
    [("id", Json.quoted s.id), ("kind", Json.quoted s.kind.name),
      ("numRows", Json.intText s.rows), ("addedAt", Json.quoted s.addedAt)]

def stringsText (texts : List String) : String := Json.listText (texts.map Json.quoted)

def addDataset (r : Registry) (now id kind : String) (request : Request) : Outcome Response :=
  match Kind.ofName? kind with
  | none => ⟨r, .ofFault (.unknownKind kind), []⟩
  | some kind =>
      match request.json? with
      | .error fault => ⟨r, .ofFault fault, []⟩
      | .ok payload =>
          let o := r.addJson now id kind payload
          ⟨o.registry, .ofExcept ((o.result.mapError .dataset).map stringsText), o.log⟩

def removeDataset (r : Registry) (id : String) : Outcome Response :=
  let o := r.remove id
  ⟨o.registry, .ofExcept ((o.result.mapError .dataset).map Json.quoted), o.log⟩

def performQuery (r : Registry) (queryId : String) (request : Request) : Outcome Response :=
  match request.json? with
  | .error fault => ⟨r, .ofFault fault, []⟩
  | .ok q =>
      let o := r.query queryId q
      let text := (o.result.mapError .query).map fun rows => Json.listText (rows.map Row.wire)
      ⟨o.registry, .ofExcept text, o.log⟩

def dispatch (r : Registry) (moment : Moment) (route : Route) (request : Request) :
    Outcome Response :=
  match route with
  | .dataset id kind =>
      match Text.percentDecode? id, Text.percentDecode? kind with
      | none, _ => ⟨r, .invalidParameter "id", []⟩
      | some _, none => ⟨r, .invalidParameter "kind", []⟩
      | some id, some kind =>
          if bodyLimit < request.body.size then ⟨r, .bodyTooLong, []⟩
          else addDataset r moment.now id kind request
  | .removal id =>
      match Text.percentDecode? id with
      | none => ⟨r, .invalidParameter "id", []⟩
      | some id => removeDataset r id
  | .query =>
      if bodyLimit < request.body.size then ⟨r, .bodyTooLong, []⟩
      else performQuery r moment.queryId request
  | .datasets => ⟨r, .ofResult (Json.listText (r.summaries.map summaryText)), []⟩
  | .health =>
      ⟨r, ⟨200, Json.objectText [("status", Json.quoted "ok"), ("version", Json.quoted version)]⟩,
        []⟩
  | .metrics => ⟨r, ⟨200, r.counters.wire⟩, []⟩

def respond (r : Registry) (moment : Moment) (request : Request) : Outcome Response :=
  if request.method = "OPTIONS" then ⟨r, .empty 200, []⟩
  else match Route.ofTarget? request.target with
    | none => ⟨r, .empty 404, []⟩
    | some route =>
        if route.accepts request.method then
          let o := dispatch r moment route request
          if request.method = "HEAD" then ⟨o.registry, .empty o.result.status, o.log⟩ else o
        else ⟨r, .empty 405, []⟩

def allowedOrigin? (policy : Origins) (request : Request) : Option String :=
  policy.allowed? (request.header? "origin")

end Service

end Registrar
