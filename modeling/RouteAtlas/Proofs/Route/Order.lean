/-
  RouteAtlas: the order of the statements of a module.

  What a module exports and what its names stand for is found by search, the first find counts.  Where no
  two statements introduce the same name or export the same one, there is only one find.

  * `introducedNames` and `exportedNames` are the names that a statement introduces and exports,
    overloads aside; `Distinct root` says that no two statements of a module share any of them;
  * `findSome?_perm`: a search that finds at one place at most does not depend on the order;
  * `handler?_perm` and `agree_perm`: the handlers and the scopes of modules with the same statements are
    the same;
  * `statement_order`: the order of the statements leaves all signatures as they are.
-/
import RouteAtlas.Proofs.Route.Signature
import RouteAtlas.Proofs.Typing.Shadowing

namespace RouteAtlas.Analysis

open RouteAtlas.Code RouteAtlas.Handler RouteAtlas.Recording RouteAtlas.Typing

/-! ## Searches -/

/-- **A search that finds at one place at most does not depend on the order.** -/
theorem findSome?_perm {α β : Type} {g : α → Option β} {as bs : List α} (h : as.Perm bs) :
    as.Pairwise (fun a b => ¬ ((g a).isSome ∧ (g b).isSome)) → as.findSome? g = bs.findSome? g := by
  induction h with
  | nil => exact fun _ => rfl
  | cons a _ ih => exact fun hp => by rw [List.findSome?_cons, List.findSome?_cons, ih hp.tail]
  | swap a b as =>
    intro hp
    have hone : ¬ ((g b).isSome ∧ (g a).isSome) := List.rel_of_pairwise_cons hp (by simp)
    rw [List.findSome?_cons, List.findSome?_cons, List.findSome?_cons, List.findSome?_cons]
    cases hb : g b with
    | none => rfl
    | some x =>
      cases ha : g a with
      | none => rfl
      | some y => exact absurd ⟨by rw [hb]; rfl, by rw [ha]; rfl⟩ hone
  | trans hfirst _ ih ih' =>
    exact fun hp => (ih hp).trans
      (ih' ((hfirst.pairwise_iff fun hne h => hne ⟨h.2, h.1⟩).1 hp))

/-- A search that goes on in a second list where it finds nothing in the first one searches several lists
    one after the other. -/
theorem search_flatMap {α β γ : Type} {search : List β → Option γ} (hnil : search [] = none)
    (happend : ∀ bs cs, search (bs ++ cs) = (search bs).or (search cs)) (f : α → List β) (as : List α) :
    search (as.flatMap f) = as.findSome? fun a => search (f a) := by
  induction as with
  | nil => exact hnil
  | cons a as ih =>
    rw [List.flatMap_cons, happend, ih, List.findSome?_cons]
    cases search (f a) <;> rfl

theorem implementation?_append (ds ds' : List Declaration) :
    implementation? (ds ++ ds') = (implementation? ds).or (implementation? ds') := by
  induction ds with
  | nil => rfl
  | cons d ds ih =>
    cases d with
    | function f =>
      rw [List.cons_append, implementation?, implementation?, ih]
      split <;> rfl
    | other => exact ih

theorem implementation?_flatMap {α : Type} (f : α → List Declaration) (as : List α) :
    implementation? (as.flatMap f) = as.findSome? fun a => implementation? (f a) :=
  search_flatMap rfl implementation?_append f as

theorem lookup_flatMap {α : Type} (f : α → Scope) (name : String) (as : List α) :
    (as.flatMap f).lookup name = as.findSome? fun a => (f a).lookup name :=
  search_flatMap rfl (fun _ _ => List.lookup_append) f as

theorem findSome?_flatMap {α β γ : Type} (f : α → List β) (g : β → Option γ) (as : List α) :
    (as.flatMap f).findSome? g = as.findSome? fun a => (f a).findSome? g :=
  search_flatMap rfl (fun _ _ => List.findSome?_append) f as

theorem declarationsOf_flatMap {α : Type} (name : String) (f : α → List (String × Declaration))
    (as : List α) : declarationsOf name (as.flatMap f) = as.flatMap fun a => declarationsOf name (f a) := by
  unfold declarationsOf
  rw [List.filter_flatMap, List.map_flatMap]

/-! ## What statements introduce and export -/

/-- Whether a declaration is a function without a body. -/
def isOverload : Declaration → Bool
  | .other _ _ .overload => true
  | _ => false

/-- The names that a statement introduces: those that it binds, and those that it declares as more than
    overloads. -/
def introducedNames (s : Node) : List String :=
  ((statementNames s).map Prod.fst).filter (fun name => !name.isEmpty) ++
    ((declaredLocally s).filter fun e => !isOverload e.2).map Prod.fst

/-- The names that a statement exports: with declarations that are more than overloads, or in clauses. -/
def exportedNames (s : Node) : List String :=
  ((exportedWithDeclaration s).filter fun e => !isOverload e.2).map Prod.fst ++
    ((localClauses s).flatMap clauseNames).map Prod.snd

/-- No two statements of a module introduce the same name, or export the same one. -/
structure Distinct (root : Node) : Prop where
  introduced : root.operands.Pairwise fun s t => ∀ name ∈ introducedNames s, name ∉ introducedNames t
  exported : root.operands.Pairwise fun s t => ∀ name ∈ exportedNames s, name ∉ exportedNames t

instance (root : Node) : Decidable (Distinct root) :=
  decidable_of_iff (_ ∧ _) ⟨fun h => ⟨h.1, h.2⟩, fun h => ⟨h.introduced, h.exported⟩⟩

/-- An implementation is no overload. -/
theorem mem_of_implementation {name : String} {entries : List (String × Declaration)}
    (h : (implementation? (declarationsOf name entries)).isSome) :
    name ∈ (entries.filter fun e => !isOverload e.2).map Prod.fst := by
  obtain ⟨x, hx, d, rfl, -⟩ := (implementation?_isSome_iff _).1 h
  exact List.mem_map.2 ⟨_, List.mem_filter.2 ⟨mem_declarationsOf.1 hx, rfl⟩, rfl⟩

theorem mem_introducedNames_of_binds {s : Node} {name : String} (hname : name ≠ "")
    (h : Binds (statementNames s) name) : name ∈ introducedNames s := by
  obtain ⟨b, hb⟩ := h
  refine List.mem_append_left _ (List.mem_filter.2 ⟨List.mem_map.2 ⟨_, hb, rfl⟩, ?_⟩)
  simpa using hname

/-! ## Modules with the same statements -/

variable {root root' : Node} (hd : Distinct root) (hperm : root.operands.Perm root'.operands)
include hd hperm

/-- A name stands for the same function in both modules. -/
theorem localDeclarations_perm (name : String) :
    implementation? (localDeclarations root name) = implementation? (localDeclarations root' name) := by
  unfold localDeclarations
  rw [flatMap_operands (fun _ => declaredLocally_comment),
    flatMap_operands (fun _ => declaredLocally_comment), declarationsOf_flatMap,
    declarationsOf_flatMap, implementation?_flatMap, implementation?_flatMap]
  exact findSome?_perm hperm (hd.introduced.imp fun h both => h name
    (List.mem_append_right _ (mem_of_implementation both.1))
    (List.mem_append_right _ (mem_of_implementation both.2)))

theorem directExports_perm (name : String) :
    implementation? (directExports root name) = implementation? (directExports root' name) := by
  unfold directExports
  rw [flatMap_operands (fun _ => exportedWithDeclaration_comment),
    flatMap_operands (fun _ => exportedWithDeclaration_comment), declarationsOf_flatMap,
    declarationsOf_flatMap, implementation?_flatMap, implementation?_flatMap]
  exact findSome?_perm hperm (hd.exported.imp fun h both => h name
    (List.mem_append_left _ (mem_of_implementation both.1))
    (List.mem_append_left _ (mem_of_implementation both.2)))

/-- A clause that names a function stands for the same function in both modules, wherever it is. -/
theorem clauseExports_perm (name : String) :
    implementation? (clauseExports root name) = implementation? (clauseExports root' name) := by
  have hlocal : (fun e : String × String => implementation? (localDeclarations root e.1)) =
      fun e => implementation? (localDeclarations root' e.1) :=
    funext fun e => localDeclarations_perm hd hperm e.1
  unfold clauseExports
  rw [clauses_eq, clauses_eq, clausesOf, clausesOf, implementation?_flatMap, implementation?_flatMap,
    ← hlocal, List.filter_flatMap, List.filter_flatMap, findSome?_flatMap, findSome?_flatMap]
  have hclause : ∀ {s : Node}, ((((localClauses s).flatMap clauseNames).filter fun e =>
      e.2 == name).findSome? fun e => implementation? (localDeclarations root e.1)).isSome →
      name ∈ exportedNames s := by
    intro s hs
    obtain ⟨e, he, -⟩ := List.findSome?_isSome_iff.1 hs
    obtain ⟨he, hname⟩ := List.mem_filter.1 he
    exact List.mem_append_right _ (List.mem_map.2 ⟨e, he, beq_iff_eq.1 hname⟩)
  exact findSome?_perm hperm (hd.exported.imp fun h both => h name (hclause both.1) (hclause both.2))

/-- **The handlers of both modules are the same.** -/
theorem handler?_perm (word : String) :
    handler? (exports root) word = handler? (exports root') word := by
  unfold handler?
  rw [exports_of, exports_of, exportList, exportList, implementation?_append, implementation?_append,
    directExports_perm hd hperm, clauseExports_perm hd hperm]

/-- **The scopes of a function in both modules know the same.** -/
theorem agree_perm (f : Node) : Agree (Scope.of root (some f)) (Scope.of root' (some f)) := by
  intro name
  rw [find?_of_function, find?_of_function]
  split
  · rfl
  · rename_i hname
    have hlookup : (moduleBindings root).lookup name = (moduleBindings root').lookup name := by
      rw [moduleBindings_eq, moduleBindings_eq, lookup_flatMap, lookup_flatMap]
      have hbinds : ∀ {s : Node}, ((statementNames s).lookup name).isSome →
          name ∈ introducedNames s := fun hs => mem_introducedNames_of_binds hname
        ((binds_iff_lookup _ _).2 (Option.isSome_iff_exists.1 hs))
      exact findSome?_perm hperm (hd.introduced.imp fun h both => h name
        (hbinds both.1) (hbinds both.2))
    rw [hlookup]

theorem handlerTypes?_perm (settings : Settings) (limit : Nat) (d : FunctionDeclaration) :
    handlerTypes? settings limit root d = handlerTypes? settings limit root' d := by
  have hinfer := infer_agree (agree_perm hd hperm d.function) limit
  have htypeOf : (Scope.of root (some d.function)).typeOf limit =
      (Scope.of root' (some d.function)).typeOf limit := congrFun hinfer []
  simp only [handlerTypes?, responseType, declaredType, Scope.typeOfFunction, hinfer, htypeOf]

theorem signatures_perm (settings : Settings) (limit : Nat) (file : String) :
    signatures settings limit file root = signatures settings limit file root' := by
  refine seenTable_congr file fun word _ => ?_
  rw [← handler?_perm hd hperm]
  cases handler? (exports root) word with
  | none => exact .none
  | some d =>
    refine .some (routesSeen_signature ?_ rfl)
    unfold shownTypes
    rw [handlerTypes?_perm hd hperm]

omit hd hperm

/-! ## Modules with statements in another order -/

/-- The statements of one module are those of another one in some order. -/
def Rearranged (accessors : List String) (root root' : Node) : Prop :=
  ∃ ss : List Node, ss.Perm root.operands ∧ Reads accessors ss root'

/-- **The order of the statements of a module does not matter.**  If the statements of a module introduce
    pairwise different names, overloads aside, and export each name once, then every rearrangement of it has
    routes for the same methods, with the same types and the same query parameters, at every limit, for all
    settings and for every place of its file; and it fails where the other one does. -/
theorem statement_order {settings : Settings} (hd : Distinct root)
    (h : Rearranged settings.queryAccessors root root') (limit : Nat) (file : String) :
    signatures settings limit file root = signatures settings limit file root' := by
  obtain ⟨ss, hperm, hreads⟩ := h
  have hperm' : root.operands.Perm (moduleOf ss).operands := by
    rw [operands_moduleOf hreads]
    exact hperm.symm
  exact (signatures_perm hd hperm' settings limit file).trans (hreads.signatures file)

/-- A module that uses a constant above its definition, and exports a function below it. -/
def orderedSource : String := "let f=()=>x\nlet x=1\nexport\x7bf as GET\x7d"

/-- The same module from its end to its beginning: the clause stands before the function that it names. -/
def reversedSource : String := "export\x7bf as GET\x7d\nlet x=1\nlet f=()=>x"

/-- The signature that the handler of both modules has. -/
def orderedSignature : Signature :=
  ⟨"() => number", "any", []⟩

theorem statement_order_reversed :
    ∃ root ∈ (readModule .plain orderedSource).toOption,
      ∃ root' ∈ (readModule .plain reversedSource).toOption,
        Distinct root ∧ Rearranged ({} : Settings).queryAccessors root root' ∧
        root'.operands.length = 3 ∧
        signatures {} depthLimit "/src/routes/+server.ts" root' = .ok [(.get, orderedSignature)] := by
  obtain ⟨root, hroot, root', hroot', hd, hlength, hreads, htable⟩ :
      ∃ root ∈ (readModule .plain orderedSource).toOption,
        ∃ root' ∈ (readModule .plain reversedSource).toOption,
          Distinct root ∧ root'.operands.length = 3 ∧
          reads? ({} : Settings).queryAccessors root.operands.reverse root' = true ∧
          signatures {} depthLimit "/src/routes/+server.ts" root = .ok [(.get, orderedSignature)] := by
    decide +kernel
  have hrearranged : Rearranged ({} : Settings).queryAccessors root root' :=
    ⟨root.operands.reverse, List.reverse_perm _, reads_of_check hreads⟩
  exact ⟨root, hroot, root', hroot', hd, hrearranged, hlength,
    (statement_order hd hrearranged depthLimit "/src/routes/+server.ts").symm.trans htable⟩

end RouteAtlas.Analysis
