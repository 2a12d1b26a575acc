import Registrar.Proofs.Boot.Start
import Registrar.Proofs.Service.Texts

namespace Registrar

open Json (Written Reads)

namespace Origins

variable {isHeader : String → Bool} {origins : List String}

theorem isHeaderText_wildcard : isHeaderText "*" = true := rfl

theorem ofListWith?_of_ne_nil (hwildcard : isHeader "*" = true) (h : origins ≠ []) :
    ofListWith? isHeader origins =
      if "*" ∈ origins then none else some (.listed (origins.filter isHeader)) := by
  have husable : "*" ∈ origins.filter isHeader ↔ "*" ∈ origins := by
    rw [List.mem_filter]
    exact and_iff_left hwildcard
  rw [ofListWith?, if_neg h]
  simp only [List.contains_iff_mem, husable]

theorem ofListWith?_succeeds_iff (hwildcard : isHeader "*" = true) :
    (∃ policy, ofListWith? isHeader origins = some policy) ↔ "*" ∉ origins := by
  by_cases hnil : origins = []
  · subst hnil
    exact iff_of_true ⟨.anyone, rfl⟩ List.not_mem_nil
  · rw [ofListWith?_of_ne_nil hwildcard hnil]
    split
    · next h => exact iff_of_false nofun (not_not_intro h)
    · next h => exact iff_of_true ⟨_, rfl⟩ h

structure Upholds (isHeader : String → Bool) (origins : List String) (policy : Origins) : Prop where
  anyone : origins = [] → ∀ request, Service.allowedOrigin? policy request = some "*"
  listed : origins ≠ [] → ∀ request o, Service.allowedOrigin? policy request = some o ↔
    request.header? "origin" = some o ∧ o ∈ origins ∧ isHeader o

theorem allowed?_listed_eq_some_iff {usable : List String} {origin : Option String} {o : String} :
    allowed? (.listed usable) origin = some o ↔ origin = some o ∧ o ∈ usable := by
  cases origin with
  | none => exact iff_of_false nofun fun h => nomatch h.1
  | some asked =>
      simp only [allowed?, List.contains_iff_mem, Option.ite_none_right_eq_some, Option.some.injEq]
      constructor
      · rintro ⟨hlisted, rfl⟩
        exact ⟨rfl, hlisted⟩
      · rintro ⟨rfl, hlisted⟩
        exact ⟨hlisted, rfl⟩

theorem upholds_of_ofListWith? (hwildcard : isHeader "*" = true) {policy : Origins}
    (h : ofListWith? isHeader origins = some policy) : Upholds isHeader origins policy := by
  constructor
  case anyone =>
    rintro rfl request
    cases h
    rfl
  case listed =>
    intro hne request o
    rw [ofListWith?_of_ne_nil hwildcard hne] at h
    split at h
    · cases h
    · cases h
      rw [Service.allowedOrigin?, allowed?_listed_eq_some_iff, List.mem_filter]

theorem ofListWith?_drop (hwildcard : isHeader "*" = true) {before after : List String}
    {bad : String} (hbad : ¬isHeader bad) (hne : before ++ after ≠ []) :
    ofListWith? isHeader (before ++ bad :: after) = ofListWith? isHeader (before ++ after) := by
  have hstar : bad ≠ "*" := by
    rintro rfl
    exact hbad hwildcard
  have hmore : before ++ bad :: after ≠ [] :=
    List.append_ne_nil_of_right_ne_nil _ (List.cons_ne_nil _ _)
  rw [ofListWith?_of_ne_nil hwildcard hne, ofListWith?_of_ne_nil hwildcard hmore,
    List.filter_append, List.filter_cons_of_neg hbad, ← List.filter_append]
  simp only [List.mem_append, List.mem_cons, hstar.symm, false_or]

end Origins

namespace Config

def originsText (origins : List String) : String :=
  Json.objectText [("cors_origins", Json.listText (origins.map Json.quoted))]

def ofOrigins (path : String) (origins : List String) : Config where
  service := { ServiceConfig.standard with origins }
  logFilter := standardLogFilter
  sources := []
  directory := Path.parent path

example : originsText ["*"] = "\x7b\"cors_origins\":[\"*\"]\x7d" := by cbv

theorem read?_originsText (origins : List String) :
    Written.read? (originsText origins) =
      some (.object [(some "cors_origins", .array (origins.map fun o => .string (some o)))]) := by
  have hlist (texts : List String) : Reads (Json.listText (texts.map Json.quoted)).toList
      (.array (texts.map fun o => .string (some o))) :=
    Json.reads_listText texts fun o _ => Json.reads_quoted o
  have hobject := Json.reads_objectText (fun _ => "cors_origins") [origins] fun texts _ => hlist texts
  exact hobject.read?

theorem readOrigins?_strings (origins : List String) :
    ServiceConfig.readOrigins? (.array (origins.map fun o => .string (some o))) = some origins := by
  rw [ServiceConfig.readOrigins?, Written.listOf?, List.mapM_map]
  have hpure : origins.mapM (fun o => (pure (id o) : Option String)) = pure (origins.map id) :=
    List.mapM_pure
  rw [List.map_id] at hpure
  exact hpure

theorem load_originsText {files : Files} {path : String} {origins : List String}
    (h : files path = .ok (originsText origins).toUTF8) :
    load files path = .ok (ofOrigins path origins) := by
  have hport : 0 < ServiceConfig.standardPort := by decide
  refine load_eq_ok_iff.mpr ⟨⟨originsText origins, ?_, ?_⟩, hport, List.nodup_nil⟩
  · refine Except.bind_eq_ok_iff.mpr ⟨_, h, ?_⟩
    rw [fromUTF8?_toUTF8]
    rfl
  · rw [read?_originsText, Option.bind_some, ofWritten?]
    have hfields : Written.fields? ["host", "port", "cors_origins", "log_filter", "datasets"]
        (.object [(some "cors_origins", .array (origins.map fun o => .string (some o)))]) =
        some [none, none, some (.array (origins.map fun o => .string (some o))), none, none] := by
      generalize Written.array _ = w
      rfl
    rw [hfields]
    simp only [Option.bind_eq_bind, Option.bind_some, Written.orElse?, readOrigins?_strings,
      Option.pure_def]
    rfl

theorem policy_of_load {isHeader : String → Bool} (hwildcard : isHeader "*" = true)
    (origins : List String) :
    (∃ files path c, load files path = .ok c ∧ c.service.origins = origins) ∧
    ∀ files path c, load files path = .ok c → c.service.origins = origins →
      ((∃ policy, Origins.ofListWith? isHeader c.service.origins = some policy) ↔
        "*" ∉ origins) ∧
      (∀ policy, Origins.ofListWith? isHeader c.service.origins = some policy →
        policy.Upholds isHeader origins) ∧
      ∀ before bad after, origins = before ++ bad :: after → ¬isHeader bad →
        before ++ after ≠ [] →
        Origins.ofListWith? isHeader c.service.origins =
          Origins.ofListWith? isHeader (before ++ after) := by
  constructor
  · exact ⟨fun _ => .ok (originsText origins).toUTF8, "", _, load_originsText rfl, rfl⟩
  · rintro files path c _ rfl
    refine ⟨Origins.ofListWith?_succeeds_iff hwildcard,
      fun policy => Origins.upholds_of_ofListWith? hwildcard, ?_⟩
    intro before bad after heq hbad hne
    rw [heq]
    exact Origins.ofListWith?_drop hwildcard hbad hne

theorem policy_of_load_lineBreak :
    Origins.isHeaderText "*" = true ∧
    (∃ files path c, load files path = .ok c ∧
      c.service.origins = ["http://a.example", "\n"]) ∧
    (Origins.listed ["http://a.example"]).Upholds Origins.isHeaderText
      ["http://a.example", "\n"] ∧
    Origins.ofList? ["http://a.example", "\n"] = Origins.ofList? ["http://a.example"] := by
  obtain ⟨⟨files, path, c, hload, horigins⟩, hpolicy⟩ :=
    policy_of_load Origins.isHeaderText_wildcard ["http://a.example", "\n"]
  obtain ⟨_, hupholds, hdrop⟩ := hpolicy files path c hload horigins
  rw [horigins] at hupholds hdrop
  refine ⟨Origins.isHeaderText_wildcard, ⟨files, path, c, hload, horigins⟩,
    hupholds _ rfl, ?_⟩
  exact hdrop ["http://a.example"] "\n" [] rfl (by decide) (List.cons_ne_nil _ _)

theorem start_without_policy :
    ∃ files now path s, (start files now path).1 = .ok s ∧
      s.config.service.origins = ["*"] ∧ Origins.ofList? s.config.service.origins = none := by
  let files : Files := fun _ => .ok (originsText ["*"]).toUTF8
  have hload : load files "" = .ok (ofOrigins "" ["*"]) := load_originsText rfl
  have hnone : Origins.ofList? ["*"] = none := rfl
  refine ⟨files, "", "", ⟨ofOrigins "" ["*"], .fresh Answer.standardLimit⟩, ?_, rfl, hnone⟩
  rw [start, hload]
  rfl

end Config

end Registrar
