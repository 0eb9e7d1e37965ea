/-
  RouteAtlas: handlers that are written in different ways.

  A handler that is declared as a function has the same route as one that is a constant with a function
  expression or an arrow function.  The type of a constant takes one more of the limit where the handler
  refers to itself.  An arrow function that gives an expression is declared like one that returns it, but
  responds with nothing of its own.

  * `Parts.BoundInForms` relates what names are bound to around two forms, and `answer_forms` the types
    that are found there;
  * `ample_forms` and `signatures_forms`: the limits that both forms stay within, and their signatures;
  * `WordedFor`: an expression has a type with a text for all handlers; `declared_returned` and
    `signatures_returned`: what such an expression and the block that returns it have in common;
  * `handler_forms` is all of it.
-/
import RouteAtlas.Proofs.Handler.Returned
import RouteAtlas.Proofs.Route.Depth
import RouteAtlas.Proofs.Route.Signature
import RouteAtlas.Proofs.Typing.Assigned

namespace RouteAtlas.Handler.Parts

open RouteAtlas.Code RouteAtlas.Typing
open Context (answer)

/-! ## Types in two forms -/

variable (p : Parts) (name : String) (form form' : Form) (accessors : List String) {s s' : Scope}

theorem binding_constant (h : form ≠ .declaration) :
    p.binding name form = .value (p.function name form) := by
  cases form with
  | declaration => exact absurd rfl h
  | expression _ | arrow => rfl

/-- A name is bound to counterparts, or it is that of the handler. -/
def BoundInForms (other : String) (b b' : Binding) : Prop :=
  Binding.Resembles (Counterpart accessors (p.TwinForms name)) b b' ∨
    other = name ∧ b = p.binding name form ∧ b' = p.binding name form'

variable {accessors}
  (hs : ∀ other, Option.Rel (p.BoundInForms name form form' accessors other) (s.find? other)
    (s'.find? other))
include hs

/-- **What has a type with one form of a handler has it with the other one**, at a limit that is higher
    by one. -/
theorem answer_forms {c c' : Call} (hc : CallsOf accessors (p.TwinForms name) c c') {limit : Nat}
    {type : String} (h : answer s limit [] c = some type) :
    answer s' (limit + 1) [] c' = some type := by
  have htwins : ∀ t, AreTwins accessors (p.TwinForms name) t := areTwins_forms p name
  have hfunctions : Counterpart accessors (p.TwinForms name) (p.function name form)
    (p.function name form') := counterpart_forms p name form form'
  have hsame : Scope.Resembles (Counterpart accessors (p.TwinForms name)) s s' →
      answer s' (limit + 1) [] c' = some type := by
    intro hscope
    rw [answer_counterpart hscope (htwins s) limit [] hc] at h
    exact answer_mono s' 1 limit [] c' type h
  obtain hscope | ⟨hothers, hfind, hfind'⟩ := resembles_or_bound hs
  · exact hsame hscope
  by_cases hform : form = .declaration <;> by_cases hform' : form' = .declaration
  · subst hform hform'
    refine hsame (resembles_of_others hothers ?_)
    rw [hfind, hfind']
    exact .some (.function (isFunction_function p name _) hfunctions)
  · -- The name becomes a variable, which takes one more.
    subst hform
    rw [binding_constant p name form' hform'] at hfind'
    have hmore := answer_assigned (isFunction_function p name _) hfind limit [] c type h
    rw [answer_counterpart (assigned_resembles hothers hfind' hfunctions) (htwins _) _ [] hc] at hmore
    simpa using hmore
  · subst hform'
    rw [binding_constant p name form hform] at hfind
    rw [answer_counterpart (resembles_assigned hothers hfind hfunctions) (htwins s) limit [] hc] at h
    exact answer_mono s' 1 limit [] c' type
      (answer_of_assigned (isFunction_function p name _) hfind' limit [] c' type h)
  · rw [binding_constant p name form hform] at hfind
    rw [binding_constant p name form' hform'] at hfind'
    refine hsame (resembles_of_others hothers ?_)
    rw [hfind, hfind']
    exact .some (.value hfunctions)

variable {d d' : FunctionDeclaration} {helpers : List String} {limit : Nat}

theorem responseType_forms
    (hd : HandlesAlike accessors helpers (p.TwinForms name) d d') {type : Option String}
    (h : responseType s limit helpers d = some type) :
    responseType s' (limit + 1) helpers d' = some type :=
  responseType_mono₂ (hd.responses.imp fun _ _ he _ ht =>
    answer_forms p name form form' hs (.infer he) ht) h

theorem declaredType_forms
    (hd : HandlesAlike accessors helpers (p.TwinForms name) d d') {type : String}
    (h : declaredType s limit d = some type) : declaredType s' (limit + 1) d' = some type := by
  have hfunction : ∀ {t}, s.typeOfFunction limit d.function = some t →
      s'.typeOfFunction (limit + 1) d'.function = some t := fun ht =>
    answer_forms p name form form' hs (.functionType hd.isFunction hd.function) ht
  unfold declaredType at h ⊢
  rw [← hd.writtenType]
  cases hw : d.writtenType with
  | none =>
    rw [hw] at h
    exact hfunction h
  | some written =>
    rw [hw] at h
    by_cases hempty : written.isEmpty = true
    · simp only [if_pos hempty] at h ⊢
      exact hfunction h
    · simp only [if_neg hempty] at h ⊢
      exact h

end RouteAtlas.Handler.Parts

namespace RouteAtlas.Analysis

open RouteAtlas.Code RouteAtlas.Handler RouteAtlas.Recording RouteAtlas.Typing
open Context (answer)

/-! ## Tables at ample limits -/

section
variable {settings : Settings} {limit limit' : Nat} {root root' : Node}

/-- A module exceeds the limits that what it reads as exceeds. -/
theorem Reads.tooDeep {ss : List Node} (h : Reads settings.queryAccessors ss root) (word : String) :
    tooDeep settings limit (moduleOf ss) word = tooDeep settings limit root word := by
  unfold Analysis.tooDeep
  obtain ⟨hd, hd'⟩ | ⟨d, d', hd, hd', hrel⟩ :=
    rel_cases (handler?_match h.match (fun _ _ hrel => hrel.hasBody) word) <;> rw [hd, hd']
  · rfl
  · rw [Option.any_some, Option.any_some, handlerTypes?_match h.match (areTwins_none _ _) hrel]

theorem Reads.ample {ss : List Node} (h : Reads settings.queryAccessors ss root) :
    Ample settings limit (moduleOf ss) ↔ Ample settings limit root := by
  simp only [Ample, h.tooDeep]

/-- Two modules have the same table as far as a view goes if it shows the same of handlers that have
    types. -/
theorem seen_of_ample {β : Type} {view : Route → β}
    {Handlers : FunctionDeclaration → FunctionDeclaration → Prop} (ha : Ample settings limit root)
    (ha' : Ample settings limit' root')
    (h : ∀ word, Option.Rel Handlers (handler? (exports root) word) (handler? (exports root') word))
    (hview : ∀ word ∈ settings.methods, ∀ d ∈ handler? (exports root) word, ∀ d' types types',
      Handlers d d' → handlerTypes? settings limit root d = some types →
        handlerTypes? settings limit' root' d' = some types' →
          RoutesSeen view settings limit limit' root root' d d') (file : String) :
    seenTable view settings limit file root = seenTable view settings limit' file root' := by
  refine seenTable_congr file fun word hw => ?_
  obtain ⟨hd, hd'⟩ | ⟨d, d', hd, hd', hrel⟩ := rel_cases (h word)
  · rw [hd, hd']
    exact .none
  · obtain ⟨types, htypes⟩ := ha.types hw hd
    obtain ⟨types', htypes'⟩ := ha'.types hw hd'
    rw [hd, hd']
    exact .some (hview word hw d hd d' types types' hrel htypes htypes')

end

/-! ## Modules with a handler -/

section
variable {settings : Settings} {limit limit' : Nat} {p q : Parts} {name : String} {form form' : Form}
  {before after : List Node} {root root' : Node}

/-- The statements of a module that exports a handler. -/
def inModule (p : Parts) (name : String) (form : Form) (before after : List Node) : List Node :=
  before ++ p.statement name form :: after

/-- Modules that export handlers match, as far as the handlers and what the name is bound to are
    related. -/
theorem inModule_match {Twin : Node → Node → Prop}
    {Entries : String × Binding → String × Binding → Prop}
    {Handlers : FunctionDeclaration → FunctionDeclaration → Prop}
    (hentries : ∀ e e', NamesResemble settings Twin e e' → Entries e e')
    (hhandlers : ∀ d d', HandlesAlike settings.queryAccessors settings.responseHelpers Twin d d' →
      Handlers d d')
    (hname : Entries (name, p.binding name form) (name, q.binding name form'))
    (hhandler : Handlers (p.handler name form) (q.handler name form')) :
    List.Forall₂ (StatementsMatch Entries Handlers) (inModule p name form before after)
      (inModule q name form' before after) :=
  statements_match hentries hhandlers (Parts.statementsMatch name form form' hname hhandler)
    before after

/-! ## Two forms -/

/-- Names of modules with a handler in two forms: the name of the handler is bound in two forms. -/
def NamesInForms (settings : Settings) (p : Parts) (name : String) (form form' : Form)
    (e e' : String × Binding) : Prop :=
  e.1 = e'.1 ∧ p.BoundInForms name form form' settings.queryAccessors e.1 e.2 e'.2

theorem forms_match :
    List.Forall₂ (StatementsMatch (NamesInForms settings p name form form')
        (HandlesAlike settings.queryAccessors settings.responseHelpers (p.TwinForms name)))
      (inModule p name form before after) (inModule p name form' before after) :=
  inModule_match (fun _ _ he => ⟨he.1, .inl he.2⟩) (fun _ _ => id) ⟨rfl, .inr ⟨rfl, rfl, rfl⟩⟩
    (p.handlesAlike_forms name form form')

variable (h : Reads settings.queryAccessors (inModule p name form before after) root)
  (h' : Reads settings.queryAccessors (inModule p name form' before after) root')
include h h'

theorem handlerTypes?_forms {d d' : FunctionDeclaration} {types : HandlerTypes}
    (hd : HandlesAlike settings.queryAccessors settings.responseHelpers (p.TwinForms name) d d')
    (ht : handlerTypes? settings limit (moduleOf (inModule p name form before after)) d = some types) :
    handlerTypes? settings (limit + 1) (moduleOf (inModule p name form' before after)) d' =
      some types := by
  have hmatch := @forms_match settings p name form form' before after
  rw [← operands_moduleOf h, ← operands_moduleOf h'] at hmatch
  have hscope := find?_rel (R := p.BoundInForms name form form' settings.queryAccessors)
    (List.Forall₂.imp (fun _ _ he => ⟨he.1, .inl he.2⟩) hd.names) (moduleBindings_match hmatch)
  obtain ⟨response, hresponse, ht⟩ := Option.bind_eq_some_iff.1 ht
  obtain ⟨declared, hdeclared, ht⟩ := Option.bind_eq_some_iff.1 ht
  exact Option.bind_eq_some_iff.2 ⟨response, p.responseType_forms name form form' hscope hd hresponse,
    Option.bind_eq_some_iff.2 ⟨declared, p.declaredType_forms name form form' hscope hd hdeclared, ht⟩⟩

theorem handler?_forms (word : String) :
    Option.Rel (HandlesAlike settings.queryAccessors settings.responseHelpers (p.TwinForms name))
      (handler? (exports (moduleOf (inModule p name form before after))) word)
      (handler? (exports (moduleOf (inModule p name form' before after))) word) := by
  have hmatch := @forms_match settings p name form form' before after
  rw [← operands_moduleOf h, ← operands_moduleOf h'] at hmatch
  exact handler?_match hmatch (fun _ _ hd => hd.hasBody) word

/-- **One more of the limit is enough for the other form.** -/
theorem ample_forms (ha : Ample settings limit root) : Ample settings (limit + 1) root' := by
  rw [← h.ample] at ha
  rw [← h'.ample]
  intro word hw
  unfold tooDeep
  obtain ⟨hd, hd'⟩ | ⟨d, d', hd, hd', hrel⟩ := rel_cases (handler?_forms h h' word)
  · rw [hd']
    rfl
  · obtain ⟨types, htypes⟩ := ha.types hw hd
    rw [hd', Option.any_some, handlerTypes?_forms h h' hrel htypes]
    rfl

/-- **Both forms have the same signatures** at limits that they stay within. -/
theorem signatures_forms (ha : Ample settings limit root) (ha' : Ample settings limit' root')
    (file : String) :
    signatures settings limit file root = signatures settings limit' file root' := by
  rw [← h.signatures, ← h'.signatures]
  rw [← h.ample] at ha
  rw [← h'.ample] at ha'
  refine seen_of_ample ha ha' (handler?_forms h h')
    (fun _ _ d _ d' types types' hrel htypes htypes' => routesSeen_signature ?_ hrel.queries) file
  have hagree : types = types' := handlerTypes?_agree (handlerTypes?_forms h h' hrel htypes) htypes'
  rw [shownTypes, shownTypes, htypes, htypes', hagree]

end

/-! ## An expression and the block that returns it -/

section
variable {settings : Settings} {limit : Nat} {p : Parts} {name : String} {e : Node}
  {before after : List Node} {root root' : Node}

/-- The type of an expression has a text for the handlers of all configured methods. -/
def WordedFor (settings : Settings) (root e : Node) : Prop :=
  ∀ word ∈ settings.methods, ∀ d ∈ handler? (exports root) word,
    Worded (Scope.of root (some d.function)) e

theorem returned_match {Handlers : FunctionDeclaration → FunctionDeclaration → Prop}
    (hhandlers : ∀ d d', HandlesAlike settings.queryAccessors settings.responseHelpers
      (p.TwinReturned name e) d d' → Handlers d d')
    (hhandler : Handlers ((p.giving e).handler name .arrow) ((p.returning e).handler name .arrow)) :
    List.Forall₂ (StatementsMatch (NamesResemble settings (p.TwinReturned name e)) Handlers)
      (inModule (p.giving e) name .arrow before after)
      (inModule (p.returning e) name .arrow before after) :=
  inModule_match (fun _ _ => id) hhandlers ⟨rfl, .value (Or.inr ⟨rfl, rfl⟩)⟩ hhandler

variable (h : Reads settings.queryAccessors (inModule (p.giving e) name .arrow before after) root)
  (h' : Reads settings.queryAccessors (inModule (p.returning e) name .arrow before after) root')
  (he : IsExpression e) (hworded : WordedFor settings root e)
include h hworded he

/-- The functions are twins in the scopes of all handlers. -/
theorem areTwins_module {word : String} {d : FunctionDeclaration} (hw : word ∈ settings.methods)
    (hd : handler? (exports (moduleOf (inModule (p.giving e) name .arrow before after))) word = some d) :
    AreTwins settings.queryAccessors (p.TwinReturned name e)
      (Scope.of (moduleOf (inModule (p.giving e) name .arrow before after)) (some d.function)) := by
  obtain ⟨hnone, -⟩ | ⟨d₀, d', hd₀, hd', hrel⟩ :=
    rel_cases (handler?_match h.match (fun _ _ hrel => hrel.hasBody) word)
  · rw [hd] at hnone
    cases hnone
  obtain rfl : d = d₀ := Option.some.inj (hd.symm.trans hd₀)
  have hscope := Scope.Resembles.of_entries hrel.names (moduleBindings_match h.match)
  refine p.areTwins_returned name he fun limit resolving => ?_
  rw [answer_counterpart hscope (areTwins_none _ _) limit resolving
    (.infer (ReadsAlike.withRole e .body).counterpart)]
  exact hworded word hw d' hd' limit resolving

include h'

/-- **The expression and the block are declared alike**, at limits that both stay within. -/
theorem declared_returned (ha : Ample settings limit root) (ha' : Ample settings limit root')
    (file : String) :
    seenTable (Signature.asked ∘ Route.signature) settings limit file root =
      seenTable (Signature.asked ∘ Route.signature) settings limit file root' := by
  have hmatch : List.Forall₂ (StatementsMatch (NamesResemble settings (p.TwinReturned name e))
      (DeclaresAlike settings.queryAccessors (p.TwinReturned name e)))
        (inModule (p.giving e) name .arrow before after)
        (inModule (p.returning e) name .arrow before after) :=
    returned_match (fun _ _ hd => hd.toDeclaresAlike) (p.declaresAlike_returned name)
  rw [← operands_moduleOf h, ← operands_moduleOf h'] at hmatch
  rw [← h.ample] at ha
  rw [← h'.ample] at ha'
  refine (seenTable_comp Signature.asked (h.signatures file)).symm.trans (Eq.trans ?_
    (seenTable_comp Signature.asked (h'.signatures file)))
  refine seen_of_ample ha ha' (handler?_match hmatch fun _ _ hd => hd.hasBody)
    (fun word hw d hd d' types types' hrel htypes htypes' path method => ?_) file
  have hscope := Scope.Resembles.of_entries hrel.names (moduleBindings_match hmatch)
  have hdeclared := declaredType_match hscope (areTwins_module h he hworded hw hd) limit hrel
  rw [declaredType_of_handlerTypes? htypes, declaredType_of_handlerTypes? htypes'] at hdeclared
  have hasked : types.declared = types'.declared := Option.some.inj hdeclared
  simp only [Function.comp_apply, Signature.asked, Route.signature, routeFrom, shownTypes, htypes,
    htypes', Option.getD_some, hasked, hrel.queries]

/-- **They have the same signatures where the expression responds with nothing.** -/
theorem signatures_returned (hnone : responseOf? settings.responseHelpers (returnOf e) = none)
    (file : String) :
    signatures settings limit file root = signatures settings limit file root' := by
  have hmatch : ModulesMatch settings (p.TwinReturned name e)
      (moduleOf (inModule (p.giving e) name .arrow before after))
      (moduleOf (inModule (p.returning e) name .arrow before after)) := by
    unfold ModulesMatch
    rw [operands_moduleOf h, operands_moduleOf h']
    exact returned_match (fun _ _ => id) (p.handlesAlike_returned name he hnone)
  rw [← h.signatures, ← h'.signatures]
  exact signatures_of_match hmatch fun _ hw _ hd => areTwins_module h he hworded hw hd

end

/-! ## All ways -/

/-- **The way a handler is written does not change its route**, up to what it responds with.

    A handler with the same signature and the same body has the same route in all forms, in every module
    and for every place of its file: at all limits that both forms stay within, and one more than is
    enough for a form is enough for all others.  An arrow function that gives an expression, whose type
    has a text for all handlers, and one that returns it are declared alike and ask the query alike.  The
    return statements in the expression and, where it is returned, the expression itself are what they
    respond with; so they have the same routes where the expression responds with nothing. -/
theorem handler_forms (settings : Settings) (p : Parts) (name : String) (before after : List Node)
    (root root' : Node) :
    (∀ form form', Reads settings.queryAccessors (inModule p name form before after) root →
      Reads settings.queryAccessors (inModule p name form' before after) root' →
        (∀ limit, Ample settings limit root → Ample settings (limit + 1) root') ∧
        ∀ limit limit' file, Ample settings limit root → Ample settings limit' root' →
          signatures settings limit file root = signatures settings limit' file root') ∧
    ∀ e, IsExpression e →
      Reads settings.queryAccessors (inModule (p.giving e) name .arrow before after) root →
      Reads settings.queryAccessors (inModule (p.returning e) name .arrow before after) root' →
      WordedFor settings root e →
        (∀ limit file, Ample settings limit root → Ample settings limit root' →
          seenTable (Signature.asked ∘ Route.signature) settings limit file root =
            seenTable (Signature.asked ∘ Route.signature) settings limit file root') ∧
        responses settings.responseHelpers ((p.giving e).handler name .arrow) =
          responsesIn settings.responseHelpers p.signature ++
            responsesIn settings.responseHelpers e.children ∧
        responses settings.responseHelpers ((p.returning e).handler name .arrow) =
          responsesIn settings.responseHelpers p.signature ++
            ((responseOf? settings.responseHelpers (returnOf e)).toList ++
              responsesIn settings.responseHelpers e.children) ∧
        (responseOf? settings.responseHelpers (returnOf e) = none → ∀ limit file,
          signatures settings limit file root = signatures settings limit file root') := by
  refine ⟨fun form form' h h' => ⟨fun _ => ample_forms h h', fun _ _ file ha ha' =>
    signatures_forms h h' ha ha' file⟩, fun e he h h' hworded => ⟨fun _ file ha ha' =>
      declared_returned h h' he hworded ha ha' file, p.responses_giving name he,
      p.responses_returning name he, fun hnone _ file => signatures_returned h h' he hworded hnone file⟩⟩

/-- An expression, as in a body. -/
def numberOne : Node :=
  .planted .number none "1" []

/-- A handler without parameters that returns an expression. -/
def withoutParameters (e : Node) : Parts where
  isAsync := false
  signature := [.planted .parameters (some .parameters) "()" []]
  body := blockOf e
  signature_role := by decide
  body_role := role_blockOf e

/-- The signature of a handler that gives a number, but does not respond with it. -/
def numberSignature : Signature :=
  ⟨"() => number", "any", []⟩

theorem isExpression_numberOne : IsExpression numberOne where
  named := rfl
  notBlock := by decide
  notReturn := by decide
  noReturns := by
    show Node.visitReturns [] [numberOne] = []
    rw [Node.visitReturns]
    exact Node.visitReturns.eq_1 _

theorem worded_numberOne (s : Scope) : Worded s numberOne := by
  intro limit resolving
  cases limit with
  | zero => exact nofun
  | succ limit =>
    have hrule := answer_eq s limit resolving (.infer numberOne)
    rw [show Call.rule resolving s (.infer numberOne) = .plain "number" from rfl] at hrule
    rw [show limit + 1 = limit + Call.cost (.infer numberOne) from rfl, hrule]
    show some "number" ≠ some ""
    decide

theorem handler_forms_number :
    ∃ declared ∈ (readModule .plain "export function GET()\x7breturn 1\x7d").toOption,
      ∃ returning ∈ (readModule .plain "export let GET=()=>\x7breturn 1\x7d").toOption,
        ∃ giving ∈ (readModule .plain "export let GET=()=>1").toOption,
          ∀ root ∈ [declared, returning, giving],
            signatures {} depthLimit "/src/routes/+server.ts" root = .ok [(.get, numberSignature)] := by
  let p := withoutParameters numberOne
  obtain ⟨declared, hdeclared, returning, hreturning, giving, hgiving, hreads, hreads', hreads'', ha, ha',
      htable⟩ :
      ∃ declared ∈ (readModule .plain "export function GET()\x7breturn 1\x7d").toOption,
        ∃ returning ∈ (readModule .plain "export let GET=()=>\x7breturn 1\x7d").toOption,
          ∃ giving ∈ (readModule .plain "export let GET=()=>1").toOption,
            reads? ({} : Settings).queryAccessors (inModule p "GET" .declaration [] []) declared = true ∧
            reads? ({} : Settings).queryAccessors (inModule p "GET" .arrow [] []) returning = true ∧
            reads? ({} : Settings).queryAccessors
              (inModule (p.giving numberOne) "GET" .arrow [] []) giving = true ∧
            Ample {} depthLimit declared ∧ Ample {} depthLimit returning ∧
            signatures {} depthLimit "/src/routes/+server.ts" declared =
              .ok [(.get, numberSignature)] := by
    decide +kernel
  have hreads' := reads_of_check hreads'
  have hforms := (handler_forms {} p "GET" [] [] declared returning).1 .declaration .arrow
    (reads_of_check hreads) hreads'
  have hreturned := hforms.2 depthLimit depthLimit "/src/routes/+server.ts" ha ha'
  obtain ⟨-, -, -, hsame⟩ := (handler_forms {} p "GET" [] [] giving returning).2 numberOne
    isExpression_numberOne (reads_of_check hreads'') hreads' fun _ _ _ _ => worded_numberOne _
  have hgiven := hsame (by decide +kernel) depthLimit "/src/routes/+server.ts"
  refine ⟨declared, hdeclared, returning, hreturning, giving, hgiving, ?_⟩
  simp only [List.forall_mem_cons]
  exact ⟨htable, hreturned.symm.trans htable, hgiven.trans (hreturned.symm.trans htable), nofun⟩

/-- Where the expression responds with something, only the block does so.  Where its type has no text, as
    that of a member of the empty tuple, only the block has the type `any`.  And where a handler refers to
    itself, a limit can be enough for the declared function alone. -/
theorem handler_forms_differ :
    (∃ giving ∈ (readModule .plain "export let GET=()=>json(1)").toOption,
      ∃ returning ∈ (readModule .plain "export let GET=()=>\x7breturn json(1)\x7d").toOption,
        signatures {} depthLimit "/src/routes/+server.ts" giving =
          .ok [(.get, ⟨"() => Response", "any", []⟩)] ∧
        signatures {} depthLimit "/src/routes/+server.ts" returning =
          .ok [(.get, ⟨"() => Response", "number", []⟩)]) ∧
    (∃ giving ∈ (readModule .plain "let x:[]=[]\nexport let GET=()=>x[0]").toOption,
      ∃ returning ∈ (readModule .plain "let x:[]=[]\nexport let GET=()=>\x7breturn x[0]\x7d").toOption,
        signatures {} depthLimit "/src/routes/+server.ts" giving = .ok [(.get, ⟨"() => ", "any", []⟩)] ∧
        signatures {} depthLimit "/src/routes/+server.ts" returning =
          .ok [(.get, ⟨"() => any", "any", []⟩)]) ∧
    ∃ p : Parts,
      Ample {} 2 (moduleOf (inModule p "GET" .declaration [] [])) ∧
      ¬ Ample {} 2 (moduleOf (inModule p "GET" .arrow [] [])) := by
  refine ⟨by decide +kernel, by decide +kernel,
    withoutParameters (.planted .identifier none "GET" []), ?_⟩
  decide +kernel

end RouteAtlas.Analysis
