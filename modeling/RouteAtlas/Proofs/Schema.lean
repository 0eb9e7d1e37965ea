/-
  RouteAtlas: schemas of types that nothing is known of.

  Two settings have a text for such types: those that a project is scanned with, which give routes the
  text, and those that the program starts with, which say which text is not converted.

  * `isConvertible_iff` and `schemaOf_eq`: what is converted, and what a converter is given;
  * `returnType_unknown`: where the response of a handler is not known, its route has the text of the scan;
  * `unknown_converted_iff`: this text is converted exactly if the program starts with another one.
-/
import RouteAtlas.Proofs.Route.Depth
import RouteAtlas.Proofs.Route.Methods
import RouteAtlas.Schema

namespace RouteAtlas

/-! ## Converted types -/

namespace Schema

variable {type : String} {start : Settings}

theorem isConvertible_iff : isConvertible (some type) start = true ↔ type ≠ "" ∧ type ≠ start.unknownType := by
  simp [isConvertible]

/-- A converter is asked for the declaration of a type that is converted, and for nothing else. -/
theorem schemaOf_eq {m : Type → Type} [Monad m] {α : Type} (convert : Converter m α) (name : String) :
    schemaOf convert (some type) name start =
      if type = "" ∨ type = start.unknownType then pure none
      else some <$> convert (declarationOf type name) := by
  show (if isConvertible (some type) start then _ else _) = _
  by_cases h : isConvertible (some type) start = true
  · obtain ⟨hempty, hunknown⟩ := isConvertible_iff.1 h
    rw [if_pos h, if_neg (not_or.2 ⟨hempty, hunknown⟩)]
  · rw [if_neg h, if_pos (by rwa [isConvertible_iff, ← not_or, not_not] at h)]

end Schema

/-! ## Types that nothing is known of -/

namespace Analysis

open RouteAtlas.Code RouteAtlas.Handler RouteAtlas.Recording RouteAtlas.Schema

/-- Where the response of a handler is not known, its route has the text that the scan is set to. -/
theorem returnType_unknown {settings : Settings} {limit : Nat} {root : Node} {table : MethodTable}
    (h : HandlersHave settings limit root table) {entry : Method × Route} (hentry : entry ∈ table)
    (hunknown : (tooDeep settings limit root entry.1.word || hasNoResponse settings root entry.1.word) = true) :
    entry.2.returnType = settings.unknownType := by
  obtain ⟨d, path, hd, hroute⟩ := h entry hentry
  rw [← shownTypes_response_isNone hd, Option.isNone_iff_eq_none] at hunknown
  rw [hroute]
  show (shownTypes settings limit root d).response.getD _ = _
  rw [hunknown, Option.getD_none]

/-- **A type that nothing is known of is converted exactly if the program starts with another text for
    it.**  A file is scanned with any settings.  Where the response of a handler is not known, because
    there is none or because types nest too deep, the route has the text of these settings.  This text is
    convertible if it is not empty and not the text of the settings that the program starts with, and then
    a converter of any sort is asked for a schema of it; otherwise there is no schema, and the converter is
    not asked.  So it is never converted where both settings have the same text. -/
theorem unknown_converted_iff (t : FileTree) (settings start : Settings) (file : String) (limit : Nat)
    {table : MethodTable} (hok : outcome (analyze t settings file limit) = .ok table) :
    ∃ root, outcome (readFile t file) = .ok root ∧
      ∀ entry ∈ table,
        (tooDeep settings limit root entry.1.word || hasNoResponse settings root entry.1.word) = true →
          entry.2.returnType = settings.unknownType ∧
          (isConvertible (some entry.2.returnType) start = true ↔
            settings.unknownType ≠ "" ∧ settings.unknownType ≠ start.unknownType) ∧
          ∀ {m : Type → Type} [Monad m] {α : Type} (convert : Converter m α) (name : String),
            schemaOf convert (some entry.2.returnType) name start =
              if settings.unknownType = "" ∨ settings.unknownType = start.unknownType then pure none
              else some <$> convert (declarationOf settings.unknownType name) := by
  rw [outcome_analyze] at hok
  cases hroot : outcome (readFile t file) with
  | error e =>
    rw [hroot] at hok
    cases hok
  | ok root =>
    rw [hroot] at hok
    refine ⟨root, rfl, fun entry hentry hunknown => ?_⟩
    have htype := returnType_unknown (handler_of_mem hok) hentry hunknown
    rw [htype]
    exact ⟨rfl, isConvertible_iff, fun convert name => schemaOf_eq convert name⟩

/-- A converter that notes what it is asked. -/
def noting : Converter (StateM (List String)) Unit :=
  fun declaration => modify (· ++ [declaration])

/-- The usual settings with another text for types that nothing is known of. -/
def otherUnknown : Settings :=
  { unknownType := "unknown" }

/-- The route of a handler without a response is converted, although nothing is known of its response. -/
theorem unknown_converted_iff_nested :
    ∃ table, outcome (analyze nestedProject otherUnknown "/src/routes/+server.ts") = .ok table ∧
      ∃ root, outcome (readFile nestedProject "/src/routes/+server.ts") = .ok root ∧
        ∃ entry ∈ table,
          (tooDeep otherUnknown Typing.depthLimit root entry.1.word ||
            hasNoResponse otherUnknown root entry.1.word) = true ∧
          entry.2.returnType = "unknown" ∧ isConvertible (some entry.2.returnType) = true ∧
          (schemaOf noting (some entry.2.returnType)).run [] =
            (some (), ["export type Response = unknown"]) := by
  have hdecoded : Text.decoded nestedSource.toUTF8 = some nestedSource := by decide +kernel
  have hread : nestedProject.read (.ofText "/src/routes/+server.ts") = .ok nestedSource.toUTF8 := by cbv
  obtain ⟨code, hcode, table, htable, entry, hentry, hmute⟩ :
      ∃ code ∈ (readModule (Dialect.ofFile "/src/routes/+server.ts") nestedSource).toOption,
        ∃ table ∈ (outcome (tableOf otherUnknown Typing.depthLimit "/src/routes/+server.ts" code)).toOption,
          ∃ entry ∈ table, (tooDeep otherUnknown Typing.depthLimit code entry.1.word ||
            hasNoResponse otherUnknown code entry.1.word) = true := by
    decide +kernel
  have hroot := outcome_readFile_of_module ⟨_, hread, hdecoded⟩ hcode
  have hok : outcome (analyze nestedProject otherUnknown "/src/routes/+server.ts") = .ok table := by
    rw [outcome_analyze_module hroot]
    cases htable' : outcome (tableOf otherUnknown Typing.depthLimit "/src/routes/+server.ts" code) with
    | error e => rw [htable'] at htable; cases htable
    | ok other => rw [htable'] at htable; cases htable; rfl
  obtain ⟨root, hroot', hentries⟩ := unknown_converted_iff nestedProject otherUnknown {} _ _ hok
  obtain rfl : code = root := Except.ok.inj (hroot.symm.trans hroot')
  obtain ⟨htype, hconvertible, hschema⟩ := hentries entry hentry hmute
  refine ⟨table, hok, code, hroot, entry, hentry, hmute, htype, hconvertible.2 (by decide), ?_⟩
  rw [hschema noting "Response"]
  rfl

end Analysis

end RouteAtlas
