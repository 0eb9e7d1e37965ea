/-
  RouteAtlas: clauses that export declarations of their own module.

  A clause exports a name of the module under another one.  It stands for all declarations of the name at
  the top level, but for those in default exports.

  * `introduced s` are the names that a statement introduces, however it exports them, and
    `topLevelDeclarations root n` all declarations of a name at the top level;
  * `clauseSources root m` are the names that clauses export as `m`;
  * `localDeclarations_eq`: a clause finds the declarations that are in no default export;
  * `localDeclarations_eq_iff`: these are all of them exactly if no default export introduces the name;
  * `exported_implements_iff`: where the functions with a body that a name is exported with come from;
  * `clause_declarations` is what clauses export, and which routes come from them.
-/
import RouteAtlas.Proofs.Route.Order
import RouteAtlas.Proofs.Route.Table

namespace RouteAtlas.Handler

open RouteAtlas.Code RouteAtlas.Typing

/-! ## Lists that leave something out -/

/-- Lists that leave something out are put together to the same list only if they leave out nothing. -/
theorem flatMap_eq_iff_of_sublist {α β : Type} {f g : α → List β} (h : ∀ a, (f a).Sublist (g a)) :
    ∀ as : List α, as.flatMap f = as.flatMap g ↔ ∀ a ∈ as, f a = g a
  | [] => by simp
  | a :: as => by
    rw [List.flatMap_cons, List.flatMap_cons, List.forall_mem_cons, ← flatMap_eq_iff_of_sublist h as]
    constructor
    · intro heq
      have hfirst := (h a).length_le
      have hrest := (List.Sublist.flatMap_right as fun b _ => h b).length_le
      have hlength := congrArg List.length heq
      rw [List.length_append, List.length_append] at hlength
      exact List.append_inj heq (by omega)
    · rintro ⟨ha, has⟩
      rw [ha, has]

theorem flatMap_eq_flatMap_filter {α β : Type} {f g : α → List β} {p : α → Bool}
    (h : ∀ a, f a = if p a then g a else []) (as : List α) :
    as.flatMap f = (as.filter p).flatMap g := by
  induction as with
  | nil => rfl
  | cons a as ih =>
    rw [List.flatMap_cons, ih, h, List.filter_cons]
    cases p a <;> simp

/-! ## Names that statements introduce -/

/-- The declaration in a statement of a module, in a default export too. -/
def declarationOf? (s : Node) : Option Node :=
  if s.kind == .exportStatement then s.field? .declaration else some s

/-- The names that a statement of a module introduces, however it exports them. -/
def introduced (s : Node) : List (String × Declaration) :=
  match declarationOf? s with
  | some d => declared d s
  | none => []

/-- All declarations of a name at the top level of a module, in the order of the statements. -/
def topLevelDeclarations (root : Node) (name : String) : List Declaration :=
  declarationsOf name (root.named.flatMap introduced)

/-- The names of the module that clauses export under a name, in the order of the clauses. -/
def clauseSources (root : Node) (name : String) : List String :=
  (((root.named.flatMap localClauses).flatMap clauseNames).filter fun e => e.2 == name).map Prod.fst

/-- What a statement declares locally is what it introduces, unless it is a default export. -/
theorem declaredLocally_eq (s : Node) :
    declaredLocally s = if !isDefaultExport s then introduced s else [] := by
  unfold declaredLocally exportedWithDeclaration introduced declarationOf?
  by_cases hk : s.kind = .exportStatement
  · cases isDefaultExport s <;> cases s.field? .declaration <;> simp [hk]
  · simp [hk, isDefaultExport]

theorem exportedWithDeclaration_eq (s : Node) :
    exportedWithDeclaration s =
      if s.kind == .exportStatement && !isDefaultExport s then introduced s else [] := by
  unfold exportedWithDeclaration introduced declarationOf?
  by_cases hk : s.kind = .exportStatement
  · cases isDefaultExport s <;> cases s.field? .declaration <;> simp [hk]
  · simp [hk]

/-- Some statements introduce a name as a function with a body exactly if one of them declares it so. -/
theorem introduced_implements_iff (ss : List Node) (name : String) :
    (∃ x ∈ declarationsOf name (ss.flatMap introduced), x.Implements) ↔
      ∃ s ∈ ss, ∃ d, declarationOf? s = some d ∧ DeclaresFunction d name := by
  have hstatement : ∀ s, (∃ x, (name, x) ∈ introduced s ∧ x.Implements) ↔
      ∃ d, declarationOf? s = some d ∧ DeclaresFunction d name := by
    intro s
    unfold introduced
    cases declarationOf? s with
    | none => simp
    | some d => simpa using declared_implements_iff d s name
  simp only [← hstatement, mem_declarationsOf, List.mem_flatMap]
  constructor
  · rintro ⟨x, ⟨s, hs, hx⟩, himpl⟩
    exact ⟨s, hs, x, hx, himpl⟩
  · rintro ⟨s, hs, x, hx, himpl⟩
    exact ⟨x, ⟨s, hs, hx⟩, himpl⟩

/-! ## What clauses find -/

/-- **A clause finds the declarations that are in no default export.** -/
theorem localDeclarations_eq (root : Node) (name : String) :
    localDeclarations root name =
      declarationsOf name ((root.named.filter fun s => !isDefaultExport s).flatMap introduced) := by
  rw [localDeclarations, flatMap_eq_flatMap_filter declaredLocally_eq]

theorem declarationsOf_eq_nil_iff {name : String} {entries : List (String × Declaration)} :
    declarationsOf name entries = [] ↔ name ∉ entries.map Prod.fst := by
  rw [declarationsOf, List.map_eq_nil_iff, List.filter_eq_nil_iff, List.mem_map]
  constructor
  · rintro h ⟨e, he, rfl⟩
    exact h e he (beq_self_eq_true _)
  · intro h e he hname
    exact h ⟨e, he, beq_iff_eq.1 hname⟩

theorem localDeclarations_sublist (root : Node) (name : String) :
    (localDeclarations root name).Sublist (topLevelDeclarations root name) := by
  rw [localDeclarations_eq]
  exact ((List.filter_sublist.flatMap introduced).filter _).map _

/-- A clause finds all declarations of a name exactly if no default export introduces the name. -/
theorem localDeclarations_eq_iff (root : Node) (name : String) :
    localDeclarations root name = topLevelDeclarations root name ↔
      ∀ s ∈ root.named, isDefaultExport s = true → name ∉ (introduced s).map Prod.fst := by
  have hsublist : ∀ s, (declarationsOf name (declaredLocally s)).Sublist
      (declarationsOf name (introduced s)) := by
    intro s
    rw [declaredLocally_eq]
    split
    · exact List.Sublist.refl _
    · exact List.nil_sublist _
  rw [localDeclarations, topLevelDeclarations, Analysis.declarationsOf_flatMap,
    Analysis.declarationsOf_flatMap, flatMap_eq_iff_of_sublist hsublist]
  refine forall₂_congr fun s _ => ?_
  rw [declaredLocally_eq, ← declarationsOf_eq_nil_iff]
  cases isDefaultExport s
  · simp
  · exact ⟨fun h _ => h.symm, fun h => (h rfl).symm⟩

/-- A name is exported with the declarations that export it themselves, and with those that clauses find
    for their names. -/
theorem exports_of_clauses (root : Node) (name : String) :
    (exports root).of name =
      directExports root name ++ (clauseSources root name).flatMap (localDeclarations root) := by
  rw [exports_of, exportList, clauseExports, clauseSources, List.flatMap_map]

/-- **A name is exported with a function with a body exactly if an export statement declares one under this
    name**, other than as the default, **or a statement that is no default export declares one under a name
    that a clause exports so.** -/
theorem exported_implements_iff (root : Node) (name : String) :
    (∃ x ∈ (exports root).of name, x.Implements) ↔
      (∃ s ∈ root.named, s.kind = .exportStatement ∧ isDefaultExport s = false ∧
        ∃ d, declarationOf? s = some d ∧ DeclaresFunction d name) ∨
      ∃ n ∈ clauseSources root name, ∃ s ∈ root.named, isDefaultExport s = false ∧
        ∃ d, declarationOf? s = some d ∧ DeclaresFunction d n := by
  have hdirect : (∃ x ∈ directExports root name, x.Implements) ↔
      ∃ s ∈ root.named, s.kind = .exportStatement ∧ isDefaultExport s = false ∧
        ∃ d, declarationOf? s = some d ∧ DeclaresFunction d name := by
    rw [directExports, flatMap_eq_flatMap_filter exportedWithDeclaration_eq, introduced_implements_iff]
    simp only [List.mem_filter, Bool.and_eq_true, beq_iff_eq, Bool.not_eq_true', and_assoc]
  have hclause : ∀ n, (∃ x ∈ localDeclarations root n, x.Implements) ↔
      ∃ s ∈ root.named, isDefaultExport s = false ∧
        ∃ d, declarationOf? s = some d ∧ DeclaresFunction d n := by
    intro n
    rw [localDeclarations_eq, introduced_implements_iff]
    simp only [List.mem_filter, Bool.not_eq_true', and_assoc]
  simp only [exports_of_clauses, List.mem_append, List.mem_flatMap, or_and_right, exists_or, hdirect,
    ← hclause]
  refine or_congr_right ?_
  constructor
  · rintro ⟨x, ⟨n, hn, hx⟩, himpl⟩
    exact ⟨n, hn, x, hx, himpl⟩
  · rintro ⟨n, hn, x, hx, himpl⟩
    exact ⟨x, ⟨n, hn, hx⟩, himpl⟩

end RouteAtlas.Handler

namespace RouteAtlas.Analysis

open RouteAtlas.Code RouteAtlas.Handler RouteAtlas.Recording RouteAtlas.Typing

/-! ## Exports and routes -/

/-- **What clauses export.**  A name is exported with the declarations that export it themselves and then,
    clause by clause, with the declarations of the names that clauses export so, in the order of the
    statements, but for those in default exports.  So clauses stand for all declarations of their names
    exactly if no default export introduces one of these names.  Where the place of the file is known, a
    configured method has a route exactly if it is exported directly with a function with a body, or a
    clause names one that stands in no default export. -/
theorem clause_declarations (root : Node) :
    (∀ name, (exports root).of name = directExports root name ++
        (clauseSources root name).flatMap fun n =>
          declarationsOf n ((root.named.filter fun s => !isDefaultExport s).flatMap introduced)) ∧
      (∀ name, (exports root).of name =
          directExports root name ++ (clauseSources root name).flatMap (topLevelDeclarations root) ↔
        ∀ n ∈ clauseSources root name, ∀ s ∈ root.named, isDefaultExport s = true →
          n ∉ (introduced s).map Prod.fst) ∧
      ∀ (settings : Settings) (limit : Nat) (file path : String),
        (∀ word ∈ settings.methods, (Method.ofWord? word).isSome) →
        placeOf settings file = .ok path →
        ∃ table, (∀ j, result (tableOf settings limit file root) j = .ok table) ∧
          ∀ method, method.word ∈ settings.methods →
            ((∃ route, table.lookup method = some route) ↔
              (∃ s ∈ root.named, s.kind = .exportStatement ∧ isDefaultExport s = false ∧
                ∃ d, declarationOf? s = some d ∧ DeclaresFunction d method.word) ∨
              ∃ n ∈ clauseSources root method.word, ∃ s ∈ root.named, isDefaultExport s = false ∧
                ∃ d, declarationOf? s = some d ∧ DeclaresFunction d n) := by
  refine ⟨fun name => ?_, fun name => ?_, fun settings limit file path hm hp =>
    ⟨tableFrom settings limit root path, fun j => ?_, fun method hmem => ?_⟩⟩
  · simp only [← localDeclarations_eq]
    exact exports_of_clauses root name
  · rw [exports_of_clauses, List.append_cancel_left_eq,
      flatMap_eq_iff_of_sublist (localDeclarations_sublist root)]
    exact forall₂_congr fun n _ => localDeclarations_eq_iff root n
  · rw [(steady_tableOf settings limit file root).result_eq j]
    exact outcome_tableOf limit root hm hp
  · rw [← exported_implements_iff, exports_of, ← implementation?_isSome_iff, lookup_tableFrom,
      if_pos hmem]
    cases implementation? (exportList root method.word) <;> simp

/-- A module that exports a function as the default and, as another one, by a clause. -/
def twiceExportedSource : String :=
  "export default function n()\x7b\x7d\nexport\x7bn as GET\x7d"

/-- The clause does not find the function, and there is no route of it. -/
theorem clause_declarations_default :
    (∀ word ∈ ({} : Settings).methods, (Method.ofWord? word).isSome) ∧
    placeOf {} "/src/routes/a/+server.ts" = .ok "/a" ∧
    ∃ root ∈ (readModule .plain twiceExportedSource).toOption,
      clauseSources root "GET" = ["n"] ∧ (topLevelDeclarations root "n").length = 1 ∧
      (exports root).of "GET" ≠ topLevelDeclarations root "n" ∧
      ∃ table, (∀ j, result (tableOf {} 0 "/src/routes/a/+server.ts" root) j = .ok table) ∧
        ¬ ∃ route, table.lookup .get = some route := by
  have hm : ∀ word ∈ ({} : Settings).methods, (Method.ofWord? word).isSome := by decide
  have hp : placeOf {} "/src/routes/a/+server.ts" = .ok "/a" := by cbv
  obtain ⟨root, hroot, hdirect, hsources, hlength, ⟨s, hs, hdefault, hn⟩, hrest⟩ :
      ∃ root ∈ (readModule .plain twiceExportedSource).toOption,
        (directExports root "GET").length = 0 ∧ clauseSources root "GET" = ["n"] ∧
        (topLevelDeclarations root "n").length = 1 ∧
        (∃ s ∈ root.named, isDefaultExport s = true ∧ "n" ∈ (introduced s).map Prod.fst) ∧
        ∀ s ∈ root.named, isDefaultExport s = false → (declarationOf? s).isNone = true := by
    decide +kernel
  obtain ⟨-, hall, hroutes⟩ := clause_declarations root
  obtain ⟨table, htable, hiff⟩ := hroutes {} 0 "/src/routes/a/+server.ts" "/a" hm hp
  have hget := hall "GET"
  rw [List.length_eq_zero_iff.1 hdirect, hsources, List.flatMap_singleton] at hget
  have hnone : ∀ s ∈ root.named, isDefaultExport s = false → ∀ d, declarationOf? s ≠ some d :=
    fun s hs hdef d hd => by simpa [hd] using hrest s hs hdef
  refine ⟨hm, hp, root, hroot, hsources, hlength, fun heq => ?_, table, htable, fun hroute => ?_⟩
  · exact hget.1 heq "n" (List.mem_singleton_self _) s hs hdefault hn
  · rcases (hiff .get (by decide)).1 hroute with ⟨s, hs, -, hdef, d, hd, -⟩ | ⟨-, -, s, hs, hdef, d, hd, -⟩
    · exact hnone s hs hdef d hd
    · exact hnone s hs hdef d hd

end RouteAtlas.Analysis
