import Registrar.Proofs.Registry.Interleaving
import Registrar.Proofs.Registry.Replies
import Registrar.Proofs.Service.Texts

namespace Registrar

namespace Request

def content? (request : Request) : Option Json :=
  if request.body.size ≤ Service.bodyLimit then
    (String.fromUTF8? request.body).bind Json.read?
  else none

def call? (moment : Moment) (request : Request) : Option Call :=
  match Route.ofTarget? request.target with
  | some (.dataset id kind) =>
      if request.method = "PUT" then do
        let id ← Text.percentDecode? id
        let kind ← (Text.percentDecode? kind).bind Kind.ofName?
        request.content?.map (.addJson moment.now id kind)
      else none
  | some (.removal id) =>
      if request.method = "DELETE" then (Text.percentDecode? id).map .remove else none
  | some .query =>
      if request.method = "POST" then request.content?.map (.query moment.queryId) else none
  | _ => none

structure NamesUnknownKind (request : Request) (kind : String) : Prop where
  method : request.method = "PUT"
  target : ∃ rawId rawKind, Route.ofTarget? request.target = some (.dataset rawId rawKind) ∧
    (Text.percentDecode? rawId).isSome ∧ Text.percentDecode? rawKind = some kind
  unknown : Kind.ofName? kind = none
  size : request.body.size ≤ Service.bodyLimit

end Request

namespace Reply

def value? : Reply → Option Json
  | .added (.ok ids) => some (.ofStrings ids)
  | .removed (.ok id) => some (.str id)
  | .answered (.ok rows) => some (.arr (rows.map Row.toJson))
  | _ => none

def fault? : Reply → Option (String × String)
  | .added (.error fault) => some (fault.message, fault.code)
  | .removed (.error fault) => some (fault.message, fault.code)
  | .answered (.error fault) => some (fault.message, fault.code)
  | _ => none

def isNotFound : Reply → Bool
  | .added (.error fault) => fault.isNotFound
  | .removed (.error fault) => fault.isNotFound
  | _ => false

end Reply

structure Response.Conveys (response : Response) (reply : Reply) : Prop where
  ok : response.status = 200 ↔ ∃ v, reply.value? = some v
  notFound : response.status = 404 ↔ reply.isNotFound = true
  refused : response.status = 400 ↔ (∃ fault, reply.fault? = some fault) ∧ reply.isNotFound = false
  value : ∀ v, reply.value? = some v → response.Carries (.ofMembers [("result", v)])
  fault : ∀ message code, reply.fault? = some (message, code) →
    response.Carries (.ofMembers [("error", .str message), ("code", .str code)])

namespace Response

theorem conveys_value {reply : Reply} {v : Json} {response : Response}
    (hvalue : reply.value? = some v) (hfault : reply.fault? = none)
    (hfound : reply.isNotFound = false) (hstatus : response.status = 200)
    (h : response.Carries (.ofMembers [("result", v)])) : response.Conveys reply := by
  constructor
  case ok => exact iff_of_true hstatus ⟨v, hvalue⟩
  case notFound => rw [hstatus, hfound]; decide
  case refused => rw [hstatus, hfault]; simp
  case value =>
    intro w hw
    cases hvalue.symm.trans hw
    exact h
  case fault => rw [hfault]; exact nofun

theorem conveys_fault {reply : Reply} (fault : ServiceFault) (hvalue : reply.value? = none)
    (hfault : reply.fault? = some (fault.message, fault.code))
    (hstatus : fault.status = if reply.isNotFound then 404 else 400) :
    (ofFault fault).Conveys reply := by
  have hresponse : (ofFault fault).status = if reply.isNotFound then 404 else 400 := hstatus
  constructor
  case ok => rw [hresponse, hvalue]; split <;> simp
  case notFound => rw [hresponse]; cases reply.isNotFound <;> decide
  case refused => rw [hresponse, hfault]; cases reply.isNotFound <;> simp
  case value => rw [hvalue]; exact nofun
  case fault =>
    intro message code h
    cases hfault.symm.trans h
    exact carries_ofFault fault

theorem conveys_added (result : Except DatasetFault (List String)) :
    (ofExcept ((result.mapError .dataset).map Service.stringsText)).Conveys (.added result) := by
  cases result with
  | ok ids => exact conveys_value rfl rfl rfl rfl (carries_ids ids)
  | error fault => exact conveys_fault (.dataset fault) rfl rfl rfl

theorem conveys_removed (result : Except DatasetFault String) :
    (ofExcept ((result.mapError .dataset).map Json.quoted)).Conveys (.removed result) := by
  cases result with
  | ok id => exact conveys_value rfl rfl rfl rfl (carries_id id)
  | error fault => exact conveys_fault (.dataset fault) rfl rfl rfl

theorem conveys_answered (result : Except QueryFault (List Row)) :
    (ofExcept ((result.mapError .query).map fun rows =>
      Json.listText (rows.map Row.wire))).Conveys (.answered result) := by
  cases result with
  | ok rows => exact conveys_value rfl rfl rfl rfl (carries_rows_nearest rows)
  | error fault => exact conveys_fault (.query fault) rfl rfl rfl

end Response

namespace Service

def Serves (o : Outcome Response) (r : Registry) : Option Call → Prop
  | none => o.registry = r ∧ o.log = []
  | some c =>
      o.registry = r.next c ∧ o.log = (r.perform c).log ∧ o.result.Conveys (r.perform c).result

variable {r : Registry} {moment : Moment} {request : Request}

theorem json?_of_content? {v : Json} (h : request.content? = some v) :
    request.body.size ≤ bodyLimit ∧ request.json? = .ok v := by
  rw [Request.content?] at h
  split at h
  · next hsize =>
    refine ⟨hsize, ?_⟩
    rw [Request.json?, h]
  · cases h

theorem json?_of_content?_none (hsize : request.body.size ≤ bodyLimit)
    (h : request.content? = none) : request.json? = .error (.invalidJson Json.unreadable) := by
  rw [Request.content?, if_pos hsize] at h
  rw [Request.json?, h]

theorem serves_nothing {response : Response} : Serves ⟨r, response, []⟩ r none := ⟨rfl, rfl⟩

theorem serves_addDataset (hsize : request.body.size ≤ bodyLimit) (now id kind : String) :
    Serves (addDataset r now id kind request) r
      ((Kind.ofName? kind).bind fun kind => request.content?.map (.addJson now id kind)) := by
  rw [addDataset]
  cases Kind.ofName? kind with
  | none => exact serves_nothing
  | some kind =>
      cases hcontent : request.content? with
      | none =>
          rw [json?_of_content?_none hsize hcontent]
          exact serves_nothing
      | some payload =>
          rw [(json?_of_content? hcontent).2]
          exact ⟨rfl, rfl, Response.conveys_added _⟩

theorem serves_removeDataset (id : String) : Serves (removeDataset r id) r (some (.remove id)) :=
  ⟨rfl, rfl, Response.conveys_removed _⟩

theorem serves_performQuery (hsize : request.body.size ≤ bodyLimit) (queryId : String) :
    Serves (performQuery r queryId request) r (request.content?.map (.query queryId)) := by
  rw [performQuery]
  cases hcontent : request.content? with
  | none =>
      rw [json?_of_content?_none hsize hcontent]
      exact serves_nothing
  | some q =>
      rw [(json?_of_content? hcontent).2]
      exact ⟨rfl, rfl, Response.conveys_answered _⟩

theorem content?_of_long (h : bodyLimit < request.body.size) : request.content? = none :=
  if_neg (Nat.not_le.mpr h)

theorem serves_dispatch_dataset (id kind : String) :
    Serves (dispatch r moment (.dataset id kind) request) r (do
      let id ← Text.percentDecode? id
      let kind ← (Text.percentDecode? kind).bind Kind.ofName?
      request.content?.map (.addJson moment.now id kind)) := by
  rw [dispatch]
  cases Text.percentDecode? id with
  | none => exact serves_nothing
  | some id =>
      cases Text.percentDecode? kind with
      | none => exact serves_nothing
      | some kind =>
          dsimp only
          split
          · next hlong =>
            rw [content?_of_long hlong]
            cases hkind : Kind.ofName? kind <;> simp [hkind, Serves]
          · next hshort => exact serves_addDataset (Nat.not_lt.mp hshort) _ _ _

theorem serves_dispatch_removal (id : String) :
    Serves (dispatch r moment (.removal id) request) r
      ((Text.percentDecode? id).map .remove) := by
  rw [dispatch]
  cases Text.percentDecode? id with
  | none => exact serves_nothing
  | some id => exact serves_removeDataset id

theorem serves_dispatch_query :
    Serves (dispatch r moment .query request) r (request.content?.map (.query moment.queryId)) := by
  rw [dispatch]
  split
  · next hlong =>
    rw [content?_of_long hlong]
    exact serves_nothing
  · next hshort => exact serves_performQuery (Nat.not_lt.mp hshort) _

theorem serves_dispatch {route : Route} (hroute : Route.ofTarget? request.target = some route)
    (hmethod : request.method = route.method) :
    Serves (dispatch r moment route request) r (request.call? moment) := by
  rw [Request.call?, hroute]
  cases route with
  | dataset id kind =>
      have hput : request.method = "PUT" := hmethod
      dsimp only
      rw [if_pos hput]
      exact serves_dispatch_dataset id kind
  | removal id =>
      have hdelete : request.method = "DELETE" := hmethod
      dsimp only
      rw [if_pos hdelete]
      exact serves_dispatch_removal id
  | query =>
      have hpost : request.method = "POST" := hmethod
      dsimp only
      rw [if_pos hpost]
      exact serves_dispatch_query
  | datasets => exact serves_nothing
  | health => exact serves_nothing
  | metrics => exact serves_nothing

theorem call?_of_ne {route : Route} (hroute : Route.ofTarget? request.target = some route)
    (hmethod : request.method ≠ route.method) : request.call? moment = none := by
  rw [Request.call?, hroute]
  cases route with
  | dataset => exact if_neg hmethod
  | removal => exact if_neg hmethod
  | query => exact if_neg hmethod
  | _ => rfl

theorem method_ne (route : Route) : route.method ≠ "OPTIONS" ∧ route.method ≠ "HEAD" := by
  cases route <;> simp [Route.method]

theorem dispatch_of_get {route : Route} (h : route.method = "GET") :
    (dispatch r moment route request).registry = r ∧ (dispatch r moment route request).log = [] := by
  cases route with
  | dataset => simp [Route.method] at h
  | removal => simp [Route.method] at h
  | query => simp [Route.method] at h
  | _ => exact ⟨rfl, rfl⟩

theorem respond_of_method {route : Route} (hroute : Route.ofTarget? request.target = some route)
    (hmethod : request.method = route.method) (r : Registry) (moment : Moment) :
    respond r moment request = dispatch r moment route request := by
  obtain ⟨hoptions, hhead⟩ := method_ne route
  have haccepts : route.accepts request.method = true := by simp [Route.accepts, hmethod]
  rw [respond, if_neg (hmethod ▸ hoptions), hroute]
  dsimp only
  rw [if_pos haccepts, if_neg (hmethod ▸ hhead)]

theorem serves_respond (r : Registry) (moment : Moment) (request : Request) :
    Serves (respond r moment request) r (request.call? moment) := by
  cases hroute : Route.ofTarget? request.target with
  | none =>
      have hnone : request.call? moment = none := by rw [Request.call?, hroute]
      rw [hnone, respond, hroute]
      split <;> exact serves_nothing
  | some route =>
      by_cases hmethod : request.method = route.method
      · rw [respond_of_method hroute hmethod]
        exact serves_dispatch hroute hmethod
      · rw [call?_of_ne hroute hmethod, respond, hroute]
        dsimp only
        split
        · exact serves_nothing
        · split
          · next haccepts =>
            simp only [Route.accepts, hmethod, Bool.or_eq_true, Bool.and_eq_true,
              decide_eq_true_iff, false_or] at haccepts
            rw [if_pos haccepts.1]
            exact dispatch_of_get haccepts.2
          · exact serves_nothing

theorem respond_of_unknownKind {kind : String} (h : request.NamesUnknownKind kind) (r : Registry)
    (moment : Moment) :
    respond r moment request = ⟨r, .ofFault (.unknownKind kind), []⟩ := by
  obtain ⟨hmethod, ⟨rawId, rawKind, hroute, hid, hkind⟩, hunknown, hsize⟩ := h
  obtain ⟨id, hid⟩ := Option.isSome_iff_exists.mp hid
  simp [respond, hmethod, hroute, Route.accepts, Route.method, dispatch, hid, hkind, hsize,
    addDataset, hunknown]

def next (r : Registry) (exchange : Moment × Request) : Registry :=
  (respond r exchange.1 exchange.2).registry

def after (r : Registry) (exchanges : List (Moment × Request)) : Registry := exchanges.foldl next r

def log (r : Registry) : List (Moment × Request) → List Log.Entry
  | [] => []
  | exchange :: rest => (respond r exchange.1 exchange.2).log ++ log (next r exchange) rest

def calls (exchanges : List (Moment × Request)) : List Call :=
  exchanges.filterMap fun exchange => exchange.2.call? exchange.1

theorem after_eq (r : Registry) (exchanges : List (Moment × Request)) :
    after r exchanges = r.after (calls exchanges) ∧ log r exchanges = r.log (calls exchanges) := by
  induction exchanges generalizing r with
  | nil => exact ⟨rfl, rfl⟩
  | cons exchange rest ih =>
      obtain ⟨hafter, hlog⟩ := ih (next r exchange)
      have hserves := serves_respond r exchange.1 exchange.2
      cases hcall : exchange.2.call? exchange.1 with
      | none =>
          -- the service takes a step that the registry does not
          rw [hcall] at hserves
          obtain ⟨hregistry, hsilent⟩ := hserves
          have hnext : next r exchange = r := hregistry
          have hcalls : calls (exchange :: rest) = calls rest := List.filterMap_cons_none hcall
          rw [hnext] at hafter hlog
          rw [hcalls, log, hsilent, hnext]
          refine ⟨?_, hlog⟩
          rw [after, List.foldl_cons, hnext]
          exact hafter
      | some c =>
          rw [hcall] at hserves
          obtain ⟨hregistry, hentries, _⟩ := hserves
          have hnext : next r exchange = r.next c := hregistry
          have hcalls : calls (exchange :: rest) = c :: calls rest := List.filterMap_cons_some hcall
          rw [hnext] at hafter hlog
          rw [hcalls, log, hentries, hnext, hlog]
          refine ⟨?_, rfl⟩
          rw [after, List.foldl_cons, hnext]
          exact hafter

theorem refines_registry (r : Registry) (exchanges : List (Moment × Request)) :
    (after r exchanges = r.after (calls exchanges) ∧
      log r exchanges = r.log (calls exchanges)) ∧
    ∀ (s : Registry) (moment : Moment) (request : Request),
      (∀ c, request.call? moment = some c →
        (respond s moment request).result.Conveys (s.perform c).result) ∧
      (request.call? moment = none →
        (respond s moment request).registry = s ∧ (respond s moment request).log = []) ∧
      (∀ kind, request.NamesUnknownKind kind →
        (respond s moment request).result.status = 400 ∧
        (respond s moment request).result.Carries
          (.ofMembers [("error", .str s!"Unknown dataset kind '{kind}'"),
            ("code", .str "DATASET_INVALID_KIND")])) := by
  refine ⟨after_eq r exchanges, fun s moment request => ⟨?_, ?_, ?_⟩⟩
  · intro c hc
    have hserves := serves_respond s moment request
    rw [hc] at hserves
    exact hserves.2.2
  · intro hnone
    have hserves := serves_respond s moment request
    rwa [hnone] at hserves
  · intro kind hkind
    rw [respond_of_unknownKind hkind]
    exact ⟨rfl, Response.carries_ofFault (.unknownKind kind)⟩

end Service

namespace Sample

def moment : Moment := ⟨"", ""⟩

def mistake : Request := ⟨"PUT", "/dataset/marks/rows", [], ByteArray.empty⟩

def removal : Request := ⟨"DELETE", "/dataset/marks", [], ByteArray.empty⟩

theorem mistake_unknown : mistake.NamesUnknownKind "rows" := by
  constructor
  case method => rfl
  case target => exact ⟨"marks", "rows", rfl, by decide +kernel, by decide +kernel⟩
  case unknown => rfl
  case size => decide

theorem call?_mistake : mistake.call? moment = none := by
  have hroute : Route.ofTarget? mistake.target = some (.dataset "marks" "rows") := rfl
  have hid : Text.percentDecode? "marks" = some "marks" := by decide +kernel
  have hkind : (Text.percentDecode? "rows").bind Kind.ofName? = none := by decide +kernel
  simp [Request.call?, hroute, hid, hkind]

theorem call?_removal : removal.call? moment = some (.remove "marks") := by
  have hroute : Route.ofTarget? removal.target = some (.removal "marks") := rfl
  have hmethod : removal.method = "DELETE" := rfl
  have hid : Text.percentDecode? "marks" = some "marks" := by decide +kernel
  simp [Request.call?, hroute, hmethod, hid]

end Sample

open Sample in
theorem refines_registry_loaded :
    Service.after loaded [(moment, mistake), (moment, removal)] =
        loaded.after (Service.calls [(moment, mistake), (moment, removal)]) ∧
      Service.log loaded [(moment, mistake), (moment, removal)] =
        loaded.log (Service.calls [(moment, mistake), (moment, removal)]) ∧
      (Service.respond loaded moment removal).result.Conveys
        (loaded.perform (.remove "marks")).result ∧
      (Service.respond loaded moment mistake).registry = loaded ∧
      (Service.respond loaded moment mistake).result.status = 400 := by
  obtain ⟨⟨hafter, hlog⟩, hrequests⟩ :=
    Service.refines_registry loaded [(moment, mistake), (moment, removal)]
  exact ⟨hafter, hlog, (hrequests loaded moment removal).1 _ call?_removal,
    ((hrequests loaded moment mistake).2.1 call?_mistake).1,
    ((hrequests loaded moment mistake).2.2 "rows" mistake_unknown).1⟩

end Registrar
