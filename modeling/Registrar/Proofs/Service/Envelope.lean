import Registrar.Proofs.Registry.Lifecycle
import Registrar.Proofs.Service.Agreement

namespace Registrar

namespace ServiceFault

def codes : List String :=
  ["DATASET_INVALID_KIND", "REQUEST_INVALID_JSON", "REQUEST_INTERNAL", "DATASET_INVALID_ID",
    "DATASET_DUPLICATE", "DATASET_EMPTY", "DATASET_INVALID_PAYLOAD", "DATASET_INVALID_RECORD",
    "DATASET_NOT_FOUND", "QUERY_MALFORMED", "QUERY_INVALID_KEY", "QUERY_TYPE_MISMATCH",
    "QUERY_INVALID_WILDCARD", "QUERY_DUPLICATE_APPLY_KEY", "QUERY_DATASET_BINDING",
    "QUERY_UNKNOWN_DATASET", "QUERY_RESULT_TOO_LARGE"]

theorem text_mem_codes (c : RejectionCode) : c.text ∈ codes := by
  cases c <;> decide

theorem code_mem_codes (fault : ServiceFault) : fault.code ∈ codes := by
  cases fault with
  | dataset cause => cases cause <;> simp [code, DatasetFault.code, codes]
  | query cause =>
      cases cause with
      | rejected cause => exact text_mem_codes cause.code
      | unknownDataset => simp [code, QueryFault.code, codes]
      | tooLarge => simp [code, QueryFault.code, TooLarge.code, codes]
  | _ => simp [code, codes]

theorem status_bounds (fault : ServiceFault) : 400 ≤ fault.status ∧ fault.status < 600 := by
  unfold status
  split
  · split <;> decide
  · decide
  · decide

end ServiceFault

structure Response.TellsFault (response : Response) : Prop where
  status : 400 ≤ response.status ∧ response.status < 600
  body : ∃ message, ∃ code ∈ ServiceFault.codes,
    response.Carries (.ofMembers [("error", .str message), ("code", .str code)])

theorem Response.tellsFault_ofFault (fault : ServiceFault) : (ofFault fault).TellsFault :=
  ⟨fault.status_bounds, fault.message, fault.code, fault.code_mem_codes, carries_ofFault fault⟩

namespace Dataset.Summary

def written (s : Summary) : Json.Written :=
  -- not as a value: a list of rows may be longer than the whole numbers that readers keep
  .object
    [(some "id", .string (some s.id)), (some "kind", .string (some s.kind.name)),
      (some "numRows", .number (.ofInt s.rows)),
      (some "addedAt", .string (some s.addedAt))]

theorem reads_summaryText (s : Summary) :
    Json.Reads (Service.summaryText s).toList s.written := by
  have hmembers := @Json.reads_objectText (String × String × Json.Written) (fun m => m.2.1)
    Prod.fst
    [("id", Json.quoted s.id, .string (some s.id)),
      ("kind", Json.quoted s.kind.name, .string (some s.kind.name)),
      ("numRows", Json.intText s.rows, .number (.ofInt s.rows)),
      ("addedAt", Json.quoted s.addedAt, .string (some s.addedAt))] fun m => m.2.2
  simp only [List.forall_mem_cons, List.not_mem_nil, false_imp_iff, implies_true, and_true,
    List.map_cons, List.map_nil] at hmembers
  exact hmembers ⟨Json.reads_quoted _, Json.reads_quoted _, Json.reads_int _, Json.reads_quoted _⟩

end Dataset.Summary

namespace Route

@[simp] def parameters : Route → List (String × String)
  | .dataset id kind => [("id", id), ("kind", kind)]
  | .removal id => [("id", id)]
  | _ => []

@[simp] def readsBody : Route → Bool
  | .dataset .. | .query => true
  | _ => false

def refusal? (route : Route) (request : Request) : Option Response :=
  match route.parameters.find? fun p => (Text.percentDecode? p.2).isNone with
  | some p => some (.invalidParameter p.1)
  | none =>
      if route.readsBody && Service.bodyLimit < request.body.size then some .bodyTooLong else none

def Tells (o : Outcome Response) : Route → Prop
  | .dataset _ _ => o.result.Carries (.ofMembers [("result", .ofStrings o.registry.ids)])
  | .removal id => ∃ text, Text.percentDecode? id = some text ∧
      o.result.Carries (.ofMembers [("result", .str text)])
  | .query => ∃ rows : List Row,
      o.result.Carries (.ofMembers [("result", .arr (rows.map Row.toJson))])
  | .datasets => Json.Written.read? o.result.body =
      some (.object [(some "result", .array (o.registry.summaries.map Dataset.Summary.written))])
  | .health => o.result.Carries
      (.ofMembers [("status", .str "ok"), ("version", .str Service.version)])
  | .metrics => o.result.Carries
      (.ofMembers (o.registry.counters.entries.map fun e => (e.1, .int e.2.toNat)))

def Documented (route : Route) (o : Outcome Response) : Prop :=
  o.result.status = 200 ∧ route.Tells o ∨ o.result.TellsFault

inductive Answers (route : Route) (r : Registry) (request : Request) (o : Outcome Response) : Prop
  | refused (refused : Response) (h : route.refusal? request = some refused)
      (ho : o = ⟨r, refused, []⟩) : Answers route r request o
  | seen (h : route.refusal? request = none) (ho : route.Documented o) : Answers route r request o

theorem documented_ofFault (route : Route) (r : Registry) (fault : ServiceFault)
    (log : List Log.Entry) : route.Documented ⟨r, .ofFault fault, log⟩ :=
  .inr (Response.tellsFault_ofFault fault)

end Route

namespace Json

theorem size_intercalate_replicate (text : String) (n : Nat) :
    (",".intercalate (List.replicate (n + 1) text)).utf8ByteSize =
      (n + 1) * text.utf8ByteSize + n := by
  induction n with
  | zero => simp
  | succ n ih =>
      have hcomma : ",".utf8ByteSize = 1 := rfl
      rw [List.replicate_succ, List.replicate_succ, String.intercalate_cons_cons,
        ← List.replicate_succ, String.utf8ByteSize_append, String.utf8ByteSize_append, ih, hcomma]
      ring

theorem Written.read?_eq_none {text : String} {c : Char} (htext : text.toList.head? = some c)
    (hc : Reader.step Reader.start c = none) : Written.read? text = none := by
  obtain ⟨cs, hcs⟩ := List.head?_eq_some_iff.mp htext
  rw [Written.read?_eq, hcs, List.foldlM_cons, hc]
  rfl

theorem readAs?_of_unreadable {double? : Numeral → Option Binary64} {text : String}
    (h : Written.read? text = none) : readAs? double? text = none := by
  rw [readAs?, h, Option.bind_none]

end Json

theorem Response.read?_invalidParameter (name : String) :
    Json.Written.read? (invalidParameter name).body = none := by
  have hbody : (invalidParameter name).body = "Invalid URL: Invalid UTF-8 in `" ++ name ++ "`" :=
    rfl
  refine @Json.Written.read?_eq_none _ 'I' ?_ rfl
  rw [hbody, String.toList_append, String.toList_append]
  rfl

theorem Response.read?_bodyTooLong : Json.Written.read? bodyTooLong.body = none :=
  @Json.Written.read?_eq_none _ 'F' rfl rfl

theorem Route.plain_of_refusal? {route : Route} {request : Request} {refused : Response}
    (h : route.refusal? request = some refused) :
    refused.status ≠ 200 ∧ Json.Written.read? refused.body = none := by
  unfold refusal? at h
  split at h
  · cases h
    exact ⟨by simp [Response.invalidParameter], Response.read?_invalidParameter _⟩
  · split at h
    · cases h
      exact ⟨by decide, Response.read?_bodyTooLong⟩
    · cases h

theorem Route.not_documented_of_plain {route : Route} {o : Outcome Response}
    (hstatus : o.result.status ≠ 200) (hplain : Json.Written.read? o.result.body = none) :
    ¬route.Documented o := by
  rintro (⟨hok, _⟩ | ⟨_, message, code, _, hcarries⟩)
  · exact hstatus hok
  · cases (Json.readAs?_of_unreadable hplain).symm.trans hcarries

namespace Service

variable {r : Registry} {moment : Moment} {request : Request}

theorem tells_datasets (r : Registry) (log : List Log.Entry) :
    Route.datasets.Tells ⟨r, .ofResult (Json.listText (r.summaries.map summaryText)), log⟩ := by
  have hlist := Json.reads_listText r.summaries fun s _ => s.reads_summaryText
  exact (Json.reads_objectText (fun _ : Unit => "result") [()] fun _ _ => hlist).read?

theorem carries_counters (c : Counters) :
    (Response.mk 200 c.wire).Carries
      (.ofMembers (c.entries.map fun e => (e.1, .int e.2.toNat))) :=
  Response.carries_members 200 Prod.fst c.entries fun e _ =>
    Json.spells_int (Json.isWellFormed_int_iff.mpr ⟨by omega, Int.ofNat_lt.mpr e.2.toNat_lt⟩)

theorem documented_addDataset (now rawId rawKind id kind : String) :
    (Route.dataset rawId rawKind).Documented (addDataset r now id kind request) := by
  rw [addDataset]
  cases Kind.ofName? kind with
  | none => exact Route.documented_ofFault _ _ _ _
  | some kind =>
      cases request.json? with
      | error fault => exact Route.documented_ofFault _ _ _ _
      | ok payload =>
          have hlawful := r.addJson_lawful now id kind payload
          dsimp only
          cases hresult : (r.addJson now id kind payload).result with
          | error fault => exact Route.documented_ofFault _ _ _ _
          | ok ids =>
              obtain ⟨rfl, _⟩ := hlawful.changes ids hresult
              exact .inl ⟨rfl, Response.carries_ids _⟩

theorem documented_removeDataset {rawId id : String} (h : Text.percentDecode? rawId = some id) :
    (Route.removal rawId).Documented (removeDataset r id) := by
  rw [removeDataset]
  have hlawful := r.remove_lawful id
  cases hresult : (r.remove id).result with
  | error fault => exact Route.documented_ofFault _ _ _ _
  | ok removed =>
      obtain ⟨rfl, _⟩ := hlawful.changes removed hresult
      exact .inl ⟨rfl, _, h, Response.carries_id _⟩

theorem documented_performQuery (queryId : String) :
    Route.query.Documented (performQuery r queryId request) := by
  rw [performQuery]
  cases request.json? with
  | error fault => exact Route.documented_ofFault _ _ _ _
  | ok q =>
      dsimp only
      cases (r.query queryId q).result with
      | error fault => exact Route.documented_ofFault _ _ _ _
      | ok rows => exact .inl ⟨rfl, rows, Response.carries_rows_nearest rows⟩

theorem answers_dispatch (r : Registry) (moment : Moment) (request : Request) (route : Route) :
    route.Answers r request (dispatch r moment route request) := by
  cases route with
  | dataset id kind =>
      cases hid : Text.percentDecode? id with
      | none =>
          refine .refused (.invalidParameter "id") ?_ ?_
          · simp [Route.refusal?, hid]
          · rw [dispatch, hid]
      | some text =>
          cases hkind : Text.percentDecode? kind with
          | none =>
              refine .refused (.invalidParameter "kind") ?_ ?_
              · simp [Route.refusal?, hid, hkind]
              · rw [dispatch, hid, hkind]
          | some name =>
              by_cases hlong : bodyLimit < request.body.size
              · refine .refused .bodyTooLong ?_ ?_
                · simp [Route.refusal?, hid, hkind, hlong]
                · rw [dispatch, hid, hkind]
                  exact if_pos hlong
              · refine .seen ?_ ?_
                · simp [Route.refusal?, hid, hkind, hlong]
                · rw [dispatch, hid, hkind]
                  dsimp only
                  rw [if_neg hlong]
                  exact documented_addDataset ..
  | removal id =>
      cases hid : Text.percentDecode? id with
      | none =>
          refine .refused (.invalidParameter "id") ?_ ?_
          · simp [Route.refusal?, hid]
          · rw [dispatch, hid]
      | some text =>
          refine .seen ?_ ?_
          · simp [Route.refusal?, hid]
          · rw [dispatch, hid]
            exact documented_removeDataset hid
  | query =>
      by_cases hlong : bodyLimit < request.body.size
      · refine .refused .bodyTooLong ?_ ?_
        · simp [Route.refusal?, hlong]
        · exact if_pos hlong
      · refine .seen ?_ ?_
        · simp [Route.refusal?, hlong]
        · rw [dispatch, if_neg hlong]
          exact documented_performQuery _
  | datasets => exact .seen rfl (.inl ⟨rfl, tells_datasets r []⟩)
  | health =>
      have hbody := @Response.carries_texts Json.Numeral.nearest? 200
        [("status", "ok"), ("version", version)]
      exact .seen rfl (.inl ⟨rfl, hbody⟩)
  | metrics => exact .seen rfl (.inl ⟨rfl, carries_counters r.counters⟩)

theorem respond_of_refusal {route : Route} {refused : Response}
    (hroute : Route.ofTarget? request.target = some route) (hmethod : request.method = route.method)
    (hrefused : route.refusal? request = some refused) (r : Registry) (moment : Moment) :
    respond r moment request = ⟨r, refused, []⟩ := by
  rw [respond_of_method hroute hmethod]
  cases answers_dispatch r moment request route with
  | refused _ h ho =>
      cases hrefused.symm.trans h
      exact ho
  | seen h => cases hrefused.symm.trans h

theorem not_documented_of_refusal {route : Route} {refused : Response}
    (hroute : Route.ofTarget? request.target = some route) (hmethod : request.method = route.method)
    (hrefused : route.refusal? request = some refused) (r : Registry) (moment : Moment) :
    ¬route.Documented (respond r moment request) := by
  obtain ⟨hstatus, hplain⟩ := Route.plain_of_refusal? hrefused
  rw [respond_of_refusal hroute hmethod hrefused]
  exact Route.not_documented_of_plain hstatus hplain

theorem documented_iff_seen {route : Route}
    (hroute : Route.ofTarget? request.target = some route) (hmethod : request.method = route.method)
    (r : Registry) (moment : Moment) :
    (route.Documented (respond r moment request) ↔ route.refusal? request = none) ∧
    ∀ refused, route.refusal? request = some refused →
      respond r moment request = ⟨r, refused, []⟩ ∧ Json.read? refused.body = none := by
  constructor
  · constructor
    · intro hdocumented
      by_contra hsome
      obtain ⟨refused, hrefused⟩ := Option.ne_none_iff_exists'.mp hsome
      exact not_documented_of_refusal hroute hmethod hrefused r moment hdocumented
    · intro hseen
      rw [respond_of_method hroute hmethod]
      cases answers_dispatch r moment request route with
      | refused _ h => cases hseen.symm.trans h
      | seen _ ho => exact ho
  · intro refused hrefused
    exact ⟨respond_of_refusal hroute hmethod hrefused r moment,
      Json.readAs?_of_unreadable (Route.plain_of_refusal? hrefused).2⟩

end Service

namespace Sample

def undecodable : Request := ⟨"DELETE", "/dataset/%ff", [], ByteArray.empty⟩

theorem route_undecodable : Route.ofTarget? undecodable.target = some (.removal "%ff") := rfl

theorem refusal?_undecodable :
    (Route.removal "%ff").refusal? undecodable = some (.invalidParameter "id") := by
  have hid : Text.percentDecode? "%ff" = none := by decide +kernel
  simp [Route.refusal?, hid]

def empties (n : Nat) : Json := .arr (List.replicate n (.obj []))

theorem size_empties (n : Nat) : (empties (n + 1)).text.utf8ByteSize = 3 * n + 4 := by
  have hempty : (Json.obj []).text.utf8ByteSize = 2 := rfl
  rw [empties, Json.text, Json.texts_eq, List.map_replicate, Json.size_listText,
    Json.size_intercalate_replicate, hempty]
  omega

theorem long_empties : Service.bodyLimit < (ask (empties 700000)).body.size := by
  change Service.bodyLimit < (empties 700000).text.utf8ByteSize
  rw [size_empties 699999]
  decide

theorem refusal?_empties :
    Route.query.refusal? (ask (empties 700000)) = some .bodyTooLong := by
  simp [Route.refusal?, long_empties]

end Sample

open Sample in
theorem documented_removal :
    (Route.removal "marks").Documented (Service.respond loaded moment removal) ∧
      Service.respond loaded moment undecodable = ⟨loaded, .invalidParameter "id", []⟩ ∧
      Service.respond loaded moment (ask (empties 700000)) = ⟨loaded, .bodyTooLong, []⟩ := by
  have hroute : Route.ofTarget? removal.target = some (.removal "marks") := rfl
  have hid : Text.percentDecode? "marks" = some "marks" := by decide +kernel
  have hseen : (Route.removal "marks").refusal? removal = none := by
    simp [Route.refusal?, hid]
  obtain ⟨hremoval, _⟩ := Service.documented_iff_seen hroute rfl loaded moment
  obtain ⟨_, hundecodable⟩ := Service.documented_iff_seen route_undecodable rfl loaded moment
  have hquery := (ask_asks (empties 700000)).route
  obtain ⟨_, hempties⟩ := Service.documented_iff_seen hquery rfl loaded moment
  exact ⟨hremoval.mpr hseen, (hundecodable _ refusal?_undecodable).1,
    (hempties _ refusal?_empties).1⟩

open Sample in
theorem undocumented_refusals :
    (Route.ofTarget? undecodable.target = some (.removal "%ff") ∧
      undecodable.method = (Route.removal "%ff").method ∧
      ¬(Route.removal "%ff").Documented (Service.respond (.fresh 5000) moment undecodable)) ∧
    (Route.ofTarget? (ask (empties 700000)).target = some .query ∧
      (ask (empties 700000)).method = Route.query.method ∧
      ¬Route.query.Documented (Service.respond (.fresh 5000) moment (ask (empties 700000)))) := by
  have hquery := (ask_asks (empties 700000)).route
  refine ⟨⟨route_undecodable, rfl, ?_⟩, hquery, rfl, ?_⟩
  · exact Service.not_documented_of_refusal route_undecodable rfl refusal?_undecodable _ moment
  · exact Service.not_documented_of_refusal hquery rfl refusal?_empties _ moment

end Registrar
