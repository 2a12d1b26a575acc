import Registrar.Proofs.Answer.Row
import Registrar.Proofs.Service.Refinement

namespace Registrar

structure Request.Asks (request : Request) (q : Json) : Prop where
  method : request.method = "POST"
  route : Route.ofTarget? request.target = some .query
  body : request.body = q.text.toUTF8

structure Agrees (double? : Json.Numeral → Option Binary64) (response : Response) (answer : Json) :
    Prop where
  ok : ∀ v, response.status = 200 ∧ response.CarriesAs double? (.ofMembers [("result", v)]) ↔
    answer = .ofMembers [("status", .str "ok"), ("data", v)]
  error : ∀ message code,
    response.status = 400 ∧
        response.CarriesAs double? (.ofMembers [("error", .str message), ("code", .str code)]) ↔
      answer = .ofMembers
        [("status", .str "error"), ("code", .str code), ("message", .str message)]

structure Row.Gathers (row : Row) (cells : List (String × Cell)) : Prop where
  names : row.names = (cells.map Prod.fst).eraseDups
  distinct : row.names.Nodup
  last : ∀ name, row.get? name = cells.reverse.lookup name

structure Row.ReadsBack (row : Row) : Prop where
  encoded : row.encode .json = row.toJson
  exact : Json.readAs? Json.Numeral.nearest? row.wire = some row.toJson
  read : Json.read? row.wire = some row.toJson ↔
    ∀ entry ∈ row.cells, entry.2.Returns Json.Numeral.scaled?
  members : ∃ members, row.toJson = .obj members ∧
    ∀ name, Keyed.find? members name = (row.get? name).map Cell.toJson

namespace Row

theorem gathers_ofList (cells : List (String × Cell)) : (ofList cells).Gathers cells :=
  ⟨names_ofList cells, nodup_names_ofList cells, get?_ofList_eq_lookup cells⟩

theorem readsBack_of_nodup {row : Row} (h : row.names.Nodup) : row.ReadsBack := by
  constructor
  case encoded => exact row.encode_json
  case exact => exact row.returns_nearest.readAs?_wire
  case read => exact ⟨returns_of_readAs? h, Returns.readAs?_wire⟩
  case members =>
    refine ⟨_, rfl, fun name => ?_⟩
    have hnames : ((row.cells.map fun c => (c.1, c.2.toJson)).map Prod.fst).Nodup := by
      rwa [List.map_map]
    rw [Keyed.find?_ofList, Keyed.lookup_reverse_of_nodup hnames]
    exact Keyed.find?_map Cell.toJson row.cells name

end Row

namespace Json

theorem lookup_of_ofMembers_eq {members others : List (String × Json)}
    (h : ofMembers members = ofMembers others) (name : String) :
    members.reverse.lookup name = others.reverse.lookup name := by
  rw [← Keyed.find?_ofList, ← Keyed.find?_ofList, obj.inj h]

theorem text_eq_of_ofMembers_eq {members others : List (String × Json)} {s t : String}
    (h : ofMembers members = ofMembers others) (name : String)
    (hs : members.reverse.lookup name = some (.str s))
    (ht : others.reverse.lookup name = some (.str t)) : s = t := by
  have hsame := lookup_of_ofMembers_eq h name
  rw [hs, ht] at hsame
  exact str.inj (Option.some.inj hsame)

theorem quoted_of_plain {text : String} (h : text.toList.flatMap escape = text.toList) :
    quoted text = "\"" ++ text ++ "\"" := by
  rw [← String.toList_inj, toList_quoted, h, String.toList_append, String.toList_append]
  rfl

theorem size_listText (texts : List String) :
    (listText texts).utf8ByteSize = (",".intercalate texts).utf8ByteSize + 2 := by
  have hopen : "[".utf8ByteSize = 1 := rfl
  have hclose : "]".utf8ByteSize = 1 := rfl
  rw [listText, String.utf8ByteSize_append, String.utf8ByteSize_append, hopen, hclose]
  omega

end Json

theorem Response.CarriesAs.unique {double? : Json.Numeral → Option Binary64} {response : Response}
    {v w : Json} (hv : response.CarriesAs double? v) (hw : response.CarriesAs double? w) : v = w :=
  Option.some.inj (hv.symm.trans hw)

theorem envelope_ok (rows : List Row) :
    envelope (.ok rows) =
      .ofMembers [("status", .str "ok"), ("data", .arr (rows.map Row.toJson))] := by
  have hrows : rows.map (Row.encode .json) = rows.map Row.toJson :=
    List.map_congr_left fun row _ => row.encode_json
  rw [envelope, hrows]

namespace Agrees

variable {double? : Json.Numeral → Option Binary64}

theorem ofRows {rows : List Row} (h : ∀ row ∈ rows, row.Returns double?) :
    Agrees double? (.ofResult (Json.listText (rows.map Row.wire))) (envelope (.ok rows)) := by
  have hrows := Response.carries_rows h
  rw [envelope_ok]
  constructor
  case ok =>
    intro v
    constructor
    · rintro ⟨_, hcarries⟩
      cases Option.some.inj (Json.lookup_of_ofMembers_eq (hcarries.unique hrows) "result")
      rfl
    · intro hanswer
      cases Option.some.inj (Json.lookup_of_ofMembers_eq hanswer "data")
      exact ⟨rfl, hrows⟩
  case error =>
    intro message code
    refine iff_of_false (fun h => nomatch h.1) fun hanswer => ?_
    exact absurd (Json.text_eq_of_ofMembers_eq hanswer "status" rfl rfl) (by decide)

theorem ofFault (fault : QueryFault) :
    Agrees double? (.ofFault (.query fault)) (envelope (.error fault)) := by
  constructor
  case ok =>
    intro v
    refine iff_of_false (fun h => nomatch h.1) fun hanswer => ?_
    exact absurd (Json.text_eq_of_ofMembers_eq hanswer "status" rfl rfl) (by decide)
  case error =>
    intro message code
    constructor
    · rintro ⟨_, hcarries⟩
      have hfault := hcarries.unique (Response.carries_ofFault (.query fault))
      cases Json.text_eq_of_ofMembers_eq hfault "error" rfl rfl
      cases Json.text_eq_of_ofMembers_eq hfault "code" rfl rfl
      rfl
    · intro hanswer
      cases Json.text_eq_of_ofMembers_eq hanswer "message" rfl rfl
      cases Json.text_eq_of_ofMembers_eq hanswer "code" rfl rfl
      exact ⟨rfl, Response.carries_ofFault (.query fault)⟩

end Agrees

structure Response.Renders (response : Response) (result : Except QueryFault (List Row)) :
    Prop where
  agrees : Agrees Json.Numeral.nearest? response (envelope result)
  rows : ∀ rows, result = .ok rows →
    response.Carries (.ofMembers [("result", .arr (rows.map Row.toJson))]) ∧
      envelope result = .ofMembers [("status", .str "ok"), ("data", .arr (rows.map Row.toJson))]
  read : (∀ rows, result = .ok rows → ∀ row ∈ rows, row.Returns Json.Numeral.scaled?) →
    Agrees Json.Numeral.scaled? response (envelope result)

namespace Response

theorem renders_rows (rows : List Row) :
    (ofResult (Json.listText (rows.map Row.wire))).Renders (.ok rows) := by
  constructor
  case agrees => exact .ofRows fun row _ => row.returns_nearest
  case rows =>
    rintro _ ⟨⟩
    exact ⟨carries_rows_nearest rows, envelope_ok rows⟩
  case read => exact fun h => .ofRows (h rows rfl)

theorem renders_ofFault (fault : QueryFault) :
    (ofFault (.query fault)).Renders (.error fault) := by
  constructor
  case agrees => exact .ofFault fault
  case rows => exact nofun
  case read => exact fun _ => .ofFault fault

end Response

namespace Service

variable {request : Request} {q : Json}

theorem respond_of_asks (h : request.Asks q) (hshort : request.body.size ≤ bodyLimit) (r : Registry)
    (moment : Moment) : respond r moment request = performQuery r moment.queryId request := by
  rw [respond_of_method h.route h.method, dispatch, if_neg (Nat.not_lt.mpr hshort)]

theorem json?_of_asks (h : request.Asks q) {v : Json} (hread : Json.read? q.text = some v) :
    request.json? = .ok v := by
  rw [Request.json?, h.body, fromUTF8?_toUTF8, Option.bind_some, hread]

theorem json?_of_unreadable (h : request.Asks q) (hread : Json.read? q.text = none) :
    request.json? = .error (.invalidJson Json.unreadable) := by
  rw [Request.json?, h.body, fromUTF8?_toUTF8, Option.bind_some, hread]

theorem renders_performQuery (hjson : request.json? = .ok q) (r : Registry) (queryId id : String) :
    (performQuery r queryId request).result.Renders (r.query id q).result := by
  have hresult : (r.query queryId q).result = (r.query id q).result := by
    rw [Registry.query_result, Registry.query_result]
  rw [performQuery, hjson]
  dsimp only
  rw [hresult]
  cases (r.query id q).result with
  | ok rows => exact Response.renders_rows rows
  | error fault => exact Response.renders_ofFault fault

theorem read?_of_deep (hq : q.isWellFormed) (hdeep : Json.standardDepth < q.depth) :
    Json.read? q.text = none := by
  obtain ⟨w, hreads, hvalue⟩ := Json.spells_text q hq (q.returns_nearest hq)
  have hread : w.value? Json.Numeral.nearest? q.depth = some q :=
    (hvalue q.depth).trans (if_pos (Nat.le_refl _))
  have hnone : w.value? Json.Numeral.nearest? Json.standardDepth = none :=
    (hvalue Json.standardDepth).trans (if_neg (Nat.not_le.mpr hdeep))
  rw [Json.read?_eq_readAs?, hreads.readAs?]
  exact w.value?_eq_none hread hnone

theorem respond_of_deep (hq : q.isWellFormed) (h : request.Asks q)
    (hshort : request.body.size ≤ bodyLimit) (hdeep : Json.standardDepth < q.depth) (r : Registry)
    (moment : Moment) :
    (respond r moment request).result = .ofFault (.invalidJson Json.unreadable) := by
  have hjson := json?_of_unreadable h (read?_of_deep hq hdeep)
  rw [respond_of_asks h hshort, performQuery, hjson]

theorem renders_respond (h : request.Asks q) (hshort : request.body.size ≤ bodyLimit) {v : Json}
    (hread : Json.read? q.text = some v) (r : Registry) (moment : Moment) (id : String) :
    (respond r moment request).result.Renders (r.query id v).result := by
  rw [respond_of_asks h hshort]
  exact renders_performQuery (json?_of_asks h hread) r moment.queryId id

theorem read?_of_shallow (hq : q.isWellFormed) (hreturns : q.Returns Json.Numeral.scaled?)
    (hshallow : q.depth ≤ Json.standardDepth) : Json.read? q.text = some q :=
  (Json.spells_text q hq hreturns).readAs?_of_le hshallow

theorem answers_agree {request : Request} {q : Json} (hq : q.isWellFormed) (h : request.Asks q)
    (r : Registry) (moment : Moment) (id : String) :
    (request.body.size ≤ bodyLimit →
      (q.depth ≤ Json.standardDepth → q.Returns Json.Numeral.scaled? →
        (respond r moment request).result.Renders (r.query id q).result) ∧
      (∀ v, Json.read? q.text = some v →
        (respond r moment request).result.Renders (r.query id v).result) ∧
      (Json.standardDepth < q.depth →
        (respond r moment request).result = .ofFault (.invalidJson Json.unreadable))) ∧
    (∀ cells, (Row.ofList cells).Gathers cells ∧ (Row.ofList cells).ReadsBack) ∧
    ∀ cell : Cell, cell.Short → cell.Returns Json.Numeral.scaled? := by
  refine ⟨fun hshort => ⟨fun hshallow hreturns => ?_, fun v hread => ?_, fun hdeep => ?_⟩,
    fun cells => ?_, fun cell => Cell.Short.returns⟩
  · exact renders_respond h hshort (read?_of_shallow hq hreturns hshallow) r moment id
  · exact renders_respond h hshort hread r moment id
  · exact respond_of_deep hq h hshort hdeep r moment
  · exact ⟨Row.gathers_ofList cells, Row.readsBack_of_nodup (Row.nodup_names_ofList cells)⟩

end Service

namespace Sample

def ask (q : Json) : Request := ⟨"POST", "/query", [], q.text.toUTF8⟩

def nest : Nat → Json
  | 0 => .arr []
  | n + 1 => .arr [nest n]

theorem ask_asks (q : Json) : (ask q).Asks q := by
  have hroute : Route.ofTarget? "/query" = some .query := rfl
  exact ⟨rfl, hroute, rfl⟩

theorem isWellFormed_nest (n : Nat) : (nest n).isWellFormed := by
  induction n with
  | zero => rfl
  | succ n ih => exact Json.isWellFormed_arr_iff.mpr (List.forall_mem_singleton.mpr ih)

theorem depth_nest (n : Nat) : (nest n).depth = n + 1 := by
  induction n with
  | zero => rfl
  | succ n ih =>
      rw [nest, Json.depth, Json.depths, Json.depths, ih]
      rfl

theorem size_nest (n : Nat) : (nest n).text.utf8ByteSize = 2 * n + 2 := by
  induction n with
  | zero => rfl
  | succ n ih =>
      rw [nest, Json.text, Json.texts, Json.texts, Json.size_listText,
        String.intercalate_singleton, ih]
      ring

theorem short_nest : (ask (nest 127)).body.size ≤ Service.bodyLimit := by
  change (nest 127).text.utf8ByteSize ≤ Service.bodyLimit
  rw [size_nest]
  decide

theorem deep_nest : Json.standardDepth < (nest 127).depth := by
  rw [depth_nest]
  decide

theorem text_averages :
    averages.text =
      "\x7b\"OPTIONS\":\x7b\"COLUMNS\":[\"marks_avg\"]\x7d,\"WHERE\":\x7b\x7d\x7d" := by
  have hoptions := @Json.quoted_of_plain "OPTIONS" rfl
  have hcolumns := @Json.quoted_of_plain "COLUMNS" rfl
  have hname := @Json.quoted_of_plain "marks_avg" rfl
  have hwhere := @Json.quoted_of_plain "WHERE" rfl
  simp only [averages, Json.text, Json.texts, Json.memberTexts, Json.listText, Json.objectText,
    List.map_cons, List.map_nil, hoptions, hcolumns, hname, hwhere, String.intercalate_singleton,
    String.intercalate_cons_cons]
  rfl

theorem read?_quarter :
    Json.Written.read? (Json.realText (.ofNat 197 / .ofNat 4)) =
      some (.number ⟨false, [4, 9], [2, 5], none⟩) := by
  have htext : Json.realText (.ofNat 197 / .ofNat 4) = "49.25" := by decide +kernel
  rw [htext]
  exact (Json.Written.read?_eq _).trans rfl

def astray : Binary64 := .finite false ⟨0x433FF973CAFA8001, by decide⟩

def strayed : Binary64 := .finite false ⟨0x433FF973CAFA8002, by decide⟩

def astrayNumeral : Json.Numeral :=
  ⟨false, [9, 0, 0, 0, 0, 0, 0, 0, 0, 0, 0, 0, 0, 0, 0, 1], [0], none⟩

def astrayRow : Row := .ofList [("a", .number astray)]

def astrayMarks : Registry :=
  (Registry.fresh 5000).next (.add ⟨"marks", .courses, [course "cpsc" 9000000000000001], ""⟩)

def equalTo (x : Binary64) : Json :=
  .obj
    [("OPTIONS", .obj [("COLUMNS", .arr [.str "marks_dept"])]),
      ("WHERE", .obj [("EQ", .obj [("marks_avg", .real x)])])]

theorem realText_astray : Json.realText astray = "9000000000000001.0" := by decide +kernel

theorem read?_astray :
    Json.Written.read? (Json.realText astray) = some (.number astrayNumeral) := by
  rw [realText_astray]
  exact (Json.Written.read?_eq _).trans rfl

theorem scaled?_astray : astrayNumeral.scaled? = some strayed := by decide +kernel

theorem not_returns_astray : ¬astray.Returns Json.Numeral.scaled? := by
  have hfinite : astray.isFinite := rfl
  have hstrayed : strayed ≠ astray := by decide
  rw [Binary64.returns_iff_of_read? hfinite read?_astray, scaled?_astray, Option.some.injEq]
  exact hstrayed

theorem text_equalTo_astray :
    (equalTo astray).text =
      "\x7b\"OPTIONS\":\x7b\"COLUMNS\":[\"marks_dept\"]\x7d," ++
        "\"WHERE\":\x7b\"EQ\":\x7b\"marks_avg\":9000000000000001.0\x7d\x7d\x7d" := by
  have hoptions := @Json.quoted_of_plain "OPTIONS" rfl
  have hcolumns := @Json.quoted_of_plain "COLUMNS" rfl
  have hdept := @Json.quoted_of_plain "marks_dept" rfl
  have hwhere := @Json.quoted_of_plain "WHERE" rfl
  have hequal := @Json.quoted_of_plain "EQ" rfl
  have hname := @Json.quoted_of_plain "marks_avg" rfl
  simp only [equalTo, Json.text, Json.texts, Json.memberTexts, Json.listText, Json.objectText,
    List.map_cons, List.map_nil, hoptions, hcolumns, hdept, hwhere, hequal, hname,
    realText_astray, String.intercalate_singleton, String.intercalate_cons_cons]
  rfl

theorem written_equalTo_astray :
    Json.Written.read? (equalTo astray).text =
      some
        (.object
          [(some "OPTIONS",
              .object [(some "COLUMNS", .array [.string (some "marks_dept")])]),
            (some "WHERE",
              .object [(some "EQ", .object [(some "marks_avg", .number astrayNumeral)])])]) := by
  rw [text_equalTo_astray]
  exact (Json.Written.read?_eq _).trans rfl

theorem read?_equalTo_astray : Json.read? (equalTo astray).text = some (equalTo strayed) := by
  have hnumber : astrayNumeral.value? Json.Numeral.scaled? = some (.real strayed) := by
    rw [Json.Numeral.value?_of_broken rfl, scaled?_astray, Option.map_some]
  have hless : "OPTIONS" < "WHERE" := by decide
  have hascending (v w : Json) : Keyed.Ascending [("OPTIONS", v), ("WHERE", w)] :=
    List.pairwise_pair.mpr hless
  rw [Json.read?, Json.readWithin?, written_equalTo_astray, Option.bind_some]
  simp only [Json.standardDepth, Json.Written.value?, Json.Written.values?,
    Json.Written.members?, hnumber, Option.bind_eq_bind, Option.bind_some, Option.map_some,
    Option.pure_def]
  rw [Json.ofMembers, Keyed.ofList_eq_self (hascending _ _)]
  rfl

theorem short_equalTo_astray : (ask (equalTo astray)).body.size ≤ Service.bodyLimit := by
  change (equalTo astray).text.utf8ByteSize ≤ Service.bodyLimit
  rw [text_equalTo_astray]
  decide

theorem not_agrees_astray :
    ¬Agrees Json.Numeral.nearest?
      (Service.respond astrayMarks moment (ask (equalTo astray))).result
      (envelope (astrayMarks.query "" (equalTo astray)).result) := by
  have hfound : (astrayMarks.query "" (equalTo astray)).result =
      .ok [⟨[("marks_dept", .text "cpsc")]⟩] := by decide +kernel
  have hmissed : (astrayMarks.query "" (equalTo strayed)).result = .ok [] := by decide +kernel
  obtain ⟨_, hrows, _⟩ := Service.renders_respond (ask_asks _) short_equalTo_astray
    read?_equalTo_astray astrayMarks moment ""
  intro hagrees
  rw [hfound] at hagrees
  obtain ⟨_, hcarries⟩ := (hagrees.ok _).mpr (envelope_ok _)
  have hresult := hcarries.unique (hrows [] hmissed).1
  cases Option.some.inj (Json.lookup_of_ofMembers_eq hresult "result")

theorem not_agrees_nest :
    ¬Agrees Json.Numeral.nearest? (Service.respond (.fresh 5000) moment (ask (nest 127))).result
      (envelope ((Registry.fresh 5000).query "" (nest 127)).result) := by
  rw [Service.respond_of_deep (isWellFormed_nest 127) (ask_asks _) short_nest deep_nest]
  intro hagrees
  obtain ⟨_, hcarries⟩ :=
    (hagrees.error "[REJECT] QUERY_MALFORMED: Query must be an object" "QUERY_MALFORMED").mpr rfl
  have hfault := hcarries.unique (Response.carries_ofFault _)
  exact absurd (Json.text_eq_of_ofMembers_eq hfault "code" rfl rfl) (by decide)

end Sample

open Sample in
theorem answers_agree_averages :
    (Service.respond loaded moment (ask averages)).result.status = 200 ∧
      (Service.respond loaded moment (ask averages)).result.Carries
        (.ofMembers [("result", .arr [.ofMembers [("marks_avg", .int 90)]])]) ∧
      envelope (loaded.query "" averages).result =
        .ofMembers
          [("status", .str "ok"), ("data", .arr [.ofMembers [("marks_avg", .int 90)]])] ∧
      (Service.respond loaded moment (ask (nest 127))).result =
        .ofFault (.invalidJson Json.unreadable) ∧
      (Service.respond astrayMarks moment (ask (equalTo astray))).result.Renders
        (astrayMarks.query "" (equalTo strayed)).result ∧
      (Row.ofList [("a", .number .zero), ("b", .text ""), ("a", .text "x")]).ReadsBack ∧
      (Cell.number (.ofNat 197 / .ofNat 4)).Returns Json.Numeral.scaled? := by
  have hwell : averages.isWellFormed := rfl
  have hshort : (ask averages).body.size ≤ Service.bodyLimit := by
    change averages.text.utf8ByteSize ≤ Service.bodyLimit
    rw [text_averages]
    decide
  have hshallow : averages.depth ≤ Json.standardDepth := by decide
  have hreturns : averages.Returns Json.Numeral.scaled? := Json.returns_nil rfl
  have hrows : (loaded.query "" averages).result =
      .ok [⟨[("marks_avg", .number (.ofNat 90))]⟩] := rfl
  have hninety : (Binary64.ofNat 90).shortInt? = some 90 := by decide +kernel
  have hquarter : (Cell.number (.ofNat 197 / .ofNat 4)).Short :=
    .decimal read?_quarter (by decide +kernel) (by decide)
  obtain ⟨hanswers, hcells, hnumbers⟩ :=
    Service.answers_agree hwell (ask_asks averages) loaded moment ""
  obtain ⟨hnest, _, _⟩ :=
    Service.answers_agree (isWellFormed_nest 127) (ask_asks _) loaded moment ""
  obtain ⟨hmisread, _, _⟩ :=
    @Service.answers_agree _ (equalTo astray) rfl (ask_asks _) astrayMarks moment ""
  obtain ⟨hrenders, _, _⟩ := hanswers hshort
  obtain ⟨_, hrereads, _⟩ := hmisread short_equalTo_astray
  obtain ⟨_, _, hdeep⟩ := hnest short_nest
  obtain ⟨hagrees, hdata, _⟩ := hrenders hshallow hreturns
  obtain ⟨hcarries, hanswer⟩ := hdata _ hrows
  simp only [List.map_cons, List.map_nil, Row.toJson, Cell.toJson, Json.ofBinary64, hninety]
    at hcarries hanswer
  exact ⟨((hagrees.ok _).mpr hanswer).1, hcarries, hanswer, hdeep deep_nest,
    hrereads _ read?_equalTo_astray, (hcells _).2, hnumbers _ hquarter⟩

open Sample in
theorem answers_differ :
    ((nest 127).isWellFormed ∧ (ask (nest 127)).Asks (nest 127) ∧
      ¬Agrees Json.Numeral.nearest?
        (Service.respond (.fresh 5000) moment (ask (nest 127))).result
        (envelope ((Registry.fresh 5000).query "" (nest 127)).result)) ∧
    ((equalTo astray).isWellFormed ∧ (ask (equalTo astray)).Asks (equalTo astray) ∧
      ¬Agrees Json.Numeral.nearest?
        (Service.respond astrayMarks moment (ask (equalTo astray))).result
        (envelope (astrayMarks.query "" (equalTo astray)).result)) ∧
    Json.read? astrayRow.wire ≠ some astrayRow.toJson := by
  refine ⟨⟨isWellFormed_nest 127, ask_asks _, not_agrees_nest⟩,
    ⟨rfl, ask_asks _, not_agrees_astray⟩, fun hread => ?_⟩
  have hfinite : astray.isFinite := rfl
  have hlong : astray.shortInt? = none := rfl
  have hreturns := Row.returns_of_readAs? (Row.nodup_names_ofList _) hread
  have hcell := hreturns _ (List.mem_singleton.mpr rfl)
  exact not_returns_astray ((Cell.returns_real_iff hfinite hlong).mp hcell)

end Registrar
