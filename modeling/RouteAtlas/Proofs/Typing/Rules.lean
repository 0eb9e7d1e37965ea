/-
  RouteAtlas: the rules of inference as data.

  A rule asks for the types of some parts of a module and makes one type of them.

  * `Call.rule scope resolving call` is the rule for a call while something is being resolved: what it
    asks for, and what it gives for the answers;
  * `answer_eq`: the answer to a call is what its rule gives for the answers to what it asks.
-/
import RouteAtlas.Proofs.Typing.Nesting

namespace RouteAtlas.Typing

open RouteAtlas.Code RouteAtlas.Text
open Context (answer)

/-! ## Questions and rules -/

/-- What a rule asks for. -/
inductive Question where
  /-- A type that is there without a call. -/
  | known (type : String)
  /-- The answer to a call while something is being resolved. -/
  | call (resolving : List String) (c : Call)

/-- A rule: what it asks for, and the type that it gives for the answers. -/
structure Rule where
  asks : List Question
  gives : List String → String

/-- The answers to calls while something is being resolved; none where types nest too deep. -/
abbrev Answers := List String → Call → Option String

/-- The type that answers a question. -/
def Question.answered (answers : Answers) : Question → Option String
  | .known type => some type
  | .call resolving c => answers resolving c

namespace Rule

/-- The type that a rule gives, if all that it asks for has an answer. -/
def apply (answers : Answers) (r : Rule) : Option String :=
  (r.asks.mapM (Question.answered answers)).map r.gives

/-- A rule that asks for nothing. -/
def plain (type : String) : Rule :=
  ⟨[], fun _ => type⟩

/-- A rule that asks one question. -/
def one (q : Question) (f : String → String) : Rule :=
  ⟨[q], fun types => f (types.headD any)⟩

/-- A rule that asks two questions. -/
def two (q q' : Question) (f : String → String → String) : Rule :=
  ⟨[q, q'], fun types => f (types.headD any) (types.tail.headD any)⟩

variable (answers : Answers)

@[simp] theorem apply_plain (type : String) : (plain type).apply answers = some type := rfl

@[simp] theorem apply_one (q : Question) (f : String → String) :
    (one q f).apply answers = (q.answered answers).map f := by
  unfold apply one
  simp only [List.mapM_cons, List.mapM_nil]
  cases q.answered answers <;> rfl

@[simp] theorem apply_two (q q' : Question) (f : String → String → String) :
    (two q q' f).apply answers =
      (q.answered answers).bind fun t => (q'.answered answers).map (f t) := by
  unfold apply two
  simp only [List.mapM_cons, List.mapM_nil]
  cases q.answered answers with
  | none => rfl
  | some t => cases q'.answered answers <;> rfl

end Rule

/-! ## The rule for a call -/

section
variable (resolving : List String)

/-- The type of the child in a role. -/
def Question.field (n : Node) (role : Role) : Question :=
  match n.field? role with
  | some c => .call resolving (.infer c)
  | none => .known any

/-- The type of the first named child, or something else where there is none. -/
def Question.first (n : Node) (otherwise : String) : Question :=
  match n.named.head? with
  | some c => .call resolving (.infer c)
  | none => .known otherwise

/-- A type as a function returns it. -/
def returned (f : Node) (type : String) : String :=
  if isAsync f then promiseOf type else type

/-- The rule for what a function returns. -/
def returnRule (f : Node) : Rule :=
  match typeTextOf (f.field? .returnType) with
  | some type => .plain type
  | none =>
    match f.field? .body with
    | none => .plain (returned f "void")
    | some body =>
      if body.kind != .block then .one (.call resolving (.infer body)) (returned f)
      else
        match f.ownReturns with
        | [] => .plain (returned f "void")
        | returns =>
          ⟨returns.map fun s => .first resolving s "undefined", fun types => returned f (union types)⟩

/-- The rule for a function. -/
def functionRule (f : Node) : Rule :=
  .one (.call resolving (.returnType f)) fun type => "(" ++ parametersText f ++ ") => " ++ type

/-- The rule for a name. -/
def nameRule (scope : Scope) (name : String) : Rule :=
  if resolving.contains name then .plain any
  else
    match scope.find? name with
    | some (.annotated type) => .plain type
    | some (.member type key) => .plain (memberOf type key)
    | some (.value e) => .one (.call (name :: resolving) (.infer e)) id
    | some (.function f) => .one (.call (name :: resolving) (.functionType f)) id
    | some .untyped | none => .plain any

/-- The key of a member of an object and what its type is asked from, if it is shown. -/
def memberQuestion (m : Node) : Option (String × Question) :=
  match m.kind with
  | .pair => (propertyKey? (m.field? .key)).map fun key => (key, .field resolving m .value)
  | .shorthand => some (m.text, .call resolving (.resolve m.text))
  | .methodDefinition =>
    (propertyKey? (m.field? .name)).map fun key => (key, .call resolving (.functionType m))
  | _ => none

/-- The rule for an object. -/
def objectRule (n : Node) : Rule :=
  let members := n.named.filterMap (memberQuestion resolving)
  ⟨members.map Prod.snd, fun types => objectText (List.zipWith memberText (members.map Prod.fst) types)⟩

/-- The rule for an array. -/
def arrayRule (n : Node) : Rule :=
  match elements n with
  | [] => .plain (arrayOf any)
  | es => ⟨es.map fun e => .call resolving (.infer e), fun types => arrayOf (union types)⟩

/-- The rule for two operands with an operator between them. -/
def binaryRule (n : Node) : Rule :=
  let op := n.fieldText .operator
  if comparisons.contains op then .plain "boolean"
  else .two (.field resolving n .left) (.field resolving n .right) (operatorType op)

/-- The rule for an operand with a type behind it. -/
def assertedRule (n : Node) : Rule :=
  match n.named with
  | _ :: rest@(_ :: _) => .plain ((rest.getLast?.map fun type => collapse type.text).getD any)
  | _ => .one (.first resolving n any) id

/-- The rule for a call. -/
def callRule (scope : Scope) (n : Node) : Rule :=
  match (n.field? .callee).map Node.unwrap with
  | none => .plain any
  | some callee =>
    match callee.kind with
    | .identifier =>
      match scope.find? callee.text with
      | none => .plain ((knownCalls.lookup callee.text).getD any)
      | some _ =>
        match scope.callable? callee.text with
        | none => .plain any
        | some f =>
          if resolving.contains callee.text then .plain any
          else .one (.call (callee.text :: resolving) (.returnType f)) id
    | .member => .plain (memberCallType (squeeze callee.text) (callee.fieldText .property))
    | _ => .plain any

/-- The rule for a member of an object that is written down. -/
def literalRule (key : String) : List Node → Rule
  | [] => .plain any
  | m :: ms =>
    if m.kind == .pair && propertyKey? (m.field? .key) == some key then
      .one (.field resolving m .value) id
    else if m.kind == .shorthand && m.text == key then .one (.call resolving (.resolve key)) id
    else literalRule key ms

/-- The rule for a member of something whose type is inferred. -/
def inferredMemberRule (object : Node) (key : String) : Rule :=
  .one (.call resolving (.infer object)) fun type => namedMember type key

/-- The rule for a member of a name. -/
def nameMemberRule (scope : Scope) (name : Node) (key : String) : Rule :=
  let path := name.text ++ "." ++ key
  match scope.value? name.text with
  | some e =>
    if e.kind == .object then
      if resolving.contains path then .plain any
      else literalRule (path :: resolving) key e.named
    else inferredMemberRule resolving name key
  | none => inferredMemberRule resolving name key

/-- The rule for a member. -/
def memberRule (scope : Scope) (n : Node) : Rule :=
  let key := n.fieldText .property
  if key == "length" then .plain "number"
  else
    match (n.field? .object).map Node.unwrap with
    | none => .plain any
    | some object =>
      if object.kind == .identifier then nameMemberRule resolving scope object key
      else if object.kind == .object then literalRule resolving key object.named
      else inferredMemberRule resolving object key

/-- The rule for an expression. -/
def expressionRule (n : Node) : Rule :=
  match n.kind with
  | .string | .template => .plain "string"
  | .number => .plain (if endsWith "n" n.text then "bigint" else "number")
  | .boolean => .plain "boolean"
  | .null => .plain "null"
  | .undefined => .plain "undefined"
  | .regex => .plain "RegExp"
  | .identifier =>
    if n.text == "undefined" then .plain "undefined"
    else if n.text == "NaN" || n.text == "Infinity" then .plain "number"
    else .one (.call resolving (.resolve n.text)) id
  | .object => objectRule resolving n
  | .array => arrayRule resolving n
  | .parenthesized | .satisfies | .nonNull => .one (.first resolving n any) id
  | .asExpression => assertedRule resolving n
  | .assertion => .plain (bracketedType n)
  | .await => .one (.first resolving n any) awaited
  | .ternary =>
    .two (.field resolving n .consequence) (.field resolving n .alternative) fun yes no =>
      union [yes, no]
  | .binary => binaryRule resolving n
  | .unary => .plain (unaryType (n.fieldText .operator))
  | .update => .plain "number"
  | .assignment => .one (.field resolving n .right) id
  | .sequence =>
    match n.named.getLast? with
    | some e => .one (.call resolving (.infer e)) id
    | none => .plain any
  | .functionDeclaration | .generatorDeclaration | .functionExpression | .generatorExpression
  | .arrowFunction | .methodDefinition => .one (.call resolving (.functionType n)) id
  | .construction => .plain (constructedType n)
  | .call => .one (.call resolving (.callType n)) id
  | .member => .one (.call resolving (.memberType n)) id
  | .subscript => .one (.field resolving n .object) elementOf
  | _ => .plain any

/-- The rule for an expression in a wrapper is that of the expression. -/
theorem expressionRule_of_isWrapper {n : Node} (h : n.kind.isWrapper = true) :
    expressionRule resolving n = .one (.first resolving n any) id := by
  unfold expressionRule
  revert h
  cases n.kind <;> simp [Kind.isWrapper]

/-- The rule for a call while something is being resolved. -/
def Call.rule (scope : Scope) : Call → Rule
  | .infer n => expressionRule resolving n
  | .resolve name => nameRule resolving scope name
  | .functionType f => functionRule resolving f
  | .returnType f => returnRule resolving f
  | .callType n => callRule resolving scope n
  | .memberType n => memberRule resolving scope n

end

/-! ## Answers by rules -/

/-- How much of the limit a call takes. -/
def Call.cost : Call → Nat
  | .infer _ => 1
  | _ => 0

section
variable (scope : Scope) (limit : Nat) (resolving : List String)

@[simp] theorem answered_field (n : Node) (role : Role) :
    (Question.field resolving n role).answered (answer scope limit) =
      inferField (infer scope limit) resolving n role := by
  unfold Question.field inferField
  cases n.field? role <;> rfl

@[simp] theorem answered_first (n : Node) :
    (Question.first resolving n any).answered (answer scope limit) =
      inferFirst (infer scope limit) resolving n := by
  unfold Question.first inferFirst
  cases n.named.head? <;> rfl

@[simp] theorem answered_returned (s : Node) :
    (Question.first resolving s "undefined").answered (answer scope limit) =
      returnedType (infer scope limit) resolving s := by
  unfold Question.first returnedType
  cases s.named.head? <;> rfl

theorem apply_returnRule (f : Node) :
    (returnRule resolving f).apply (answer scope limit) =
      returnType (infer scope limit) resolving f := by
  unfold returnRule returnType bodyType
  cases typeTextOf (f.field? .returnType) with
  | some type => rfl
  | none =>
    cases f.field? .body with
    | none => rfl
    | some body =>
      simp only
      split
      · exact Rule.apply_one _ _ _
      · cases f.ownReturns with
        | nil => rfl
        | cons r rs =>
          simp only [Rule.apply, List.mapM_map, Function.comp_def, answered_returned, Option.map_map]
          rfl

theorem apply_functionRule (f : Node) :
    (functionRule resolving f).apply (answer scope limit) =
      functionType (infer scope limit) resolving f :=
  Rule.apply_one _ _ _

theorem apply_nameRule (name : String) :
    (nameRule resolving scope name).apply (answer scope limit) =
      resolve (infer scope limit) resolving scope name := by
  unfold nameRule resolve
  split
  · rfl
  · cases scope.find? name with
    | none => rfl
    | some b => cases b <;> simp [Question.answered, answer]

/-- What a member of an object adds to its type. -/
theorem objectMembers_eq (m : Node) :
    objectMembers (infer scope limit) resolving scope m =
      match memberQuestion resolving m with
      | none => some []
      | some (key, q) => (q.answered (answer scope limit)).map fun type => [memberText key type] := by
  unfold objectMembers memberQuestion
  cases m.kind with
  | pair => cases propertyKey? (m.field? .key) <;> simp
  | shorthand => rfl
  | methodDefinition => cases propertyKey? (m.field? .name) <;> rfl
  | _ => rfl

/-- The members that are shown are those that are asked for, in their order. -/
theorem mapM_objectMembers (ms : List Node) :
    (ms.mapM (objectMembers (infer scope limit) resolving scope)).map List.flatten =
      ((ms.filterMap (memberQuestion resolving)).mapM fun m : String × Question =>
        m.2.answered (answer scope limit)).map fun types =>
          List.zipWith memberText ((ms.filterMap (memberQuestion resolving)).map Prod.fst) types := by
  induction ms with
  | nil => rfl
  | cons m ms ih =>
    rw [List.mapM_cons, objectMembers_eq]
    cases hm : memberQuestion resolving m with
    | none =>
      rw [List.filterMap_cons_none hm, ← ih]
      cases ms.mapM (objectMembers (infer scope limit) resolving scope) <;> rfl
    | some shown =>
      rw [List.filterMap_cons_some hm, List.mapM_cons]
      simp only
      cases shown.2.answered (answer scope limit) with
      | none => rfl
      | some type =>
        revert ih
        cases ms.mapM (objectMembers (infer scope limit) resolving scope) <;>
          cases (ms.filterMap (memberQuestion resolving)).mapM fun m : String × Question =>
            m.2.answered (answer scope limit) <;>
          simp

theorem apply_objectRule (n : Node) :
    (objectRule resolving n).apply (answer scope limit) =
      objectType (infer scope limit) resolving scope n := by
  have h := congrArg (Option.map objectText) (mapM_objectMembers scope limit resolving n.named)
  rw [Option.map_map, Option.map_map] at h
  unfold objectType objectRule Rule.apply
  rw [List.mapM_map]
  exact h.symm

theorem apply_arrayRule (n : Node) :
    (arrayRule resolving n).apply (answer scope limit) =
      arrayType (infer scope limit) resolving n := by
  unfold arrayRule arrayType
  cases elements n with
  | nil => rfl
  | cons e es =>
    unfold Rule.apply
    rw [List.mapM_map]
    rfl

theorem apply_binaryRule (n : Node) :
    (binaryRule resolving n).apply (answer scope limit) =
      binaryType (infer scope limit) resolving n := by
  unfold binaryRule binaryType
  simp only
  split
  · rfl
  · simp

theorem apply_assertedRule (n : Node) :
    (assertedRule resolving n).apply (answer scope limit) =
      assertedType (infer scope limit) resolving n := by
  unfold assertedRule assertedType
  rcases n.named with _ | ⟨e, _ | ⟨type, rest⟩⟩ <;> simp

theorem apply_callRule (n : Node) :
    (callRule resolving scope n).apply (answer scope limit) =
      callType (infer scope limit) resolving scope n := by
  unfold callRule callType
  cases (n.field? .callee).map Node.unwrap with
  | none => rfl
  | some callee =>
    simp only
    cases callee.kind with
    | identifier =>
      unfold namedCallType
      simp only
      cases scope.find? callee.text with
      | none => rfl
      | some b =>
        cases scope.callable? callee.text with
        | none => rfl
        | some f =>
          simp only
          split
          · rfl
          · simp [Question.answered, answer]
    | _ => rfl

theorem apply_literalRule (key : String) : ∀ ms : List Node,
    (literalRule resolving key ms).apply (answer scope limit) =
      literalMember (infer scope limit) resolving scope key ms
  | [] => rfl
  | m :: ms => by
    unfold literalRule literalMember
    split
    · simp
    · split
      · simp [Question.answered, answer]
      · exact apply_literalRule key ms

theorem apply_inferredMemberRule (object : Node) (key : String) :
    (inferredMemberRule resolving object key).apply (answer scope limit) =
      (infer scope limit resolving object).map fun type => namedMember type key :=
  Rule.apply_one _ _ _

theorem apply_memberRule (n : Node) :
    (memberRule resolving scope n).apply (answer scope limit) =
      memberType (infer scope limit) resolving scope n := by
  unfold memberRule memberType
  simp only
  split
  · rfl
  · cases (n.field? .object).map Node.unwrap with
    | none => rfl
    | some object =>
      simp only
      split
      · unfold nameMemberRule nameMemberType
        cases scope.value? object.text with
        | none => exact apply_inferredMemberRule _ _ _ _ _
        | some e =>
          simp only
          split
          · by_cases hmark : resolving.contains (object.text ++ "." ++ n.fieldText .property) = true
            · rw [if_pos hmark, if_pos hmark]; rfl
            · rw [if_neg hmark, if_neg hmark]; exact apply_literalRule _ _ _ _ _
          · exact apply_inferredMemberRule _ _ _ _ _
      · unfold plainMemberType
        split
        · exact apply_literalRule _ _ _ _ _
        · exact apply_inferredMemberRule _ _ _ _ _

theorem apply_expressionRule (n : Node) :
    (expressionRule resolving n).apply (answer scope limit) =
      typeOf (infer scope limit) resolving scope n := by
  have hfunction : (Rule.one (.call resolving (.functionType n)) id).apply (answer scope limit) =
      functionType (infer scope limit) resolving n := by
    simp [Question.answered, answer]
  unfold expressionRule typeOf
  cases n.kind with
  | identifier =>
    unfold nameType
    simp only
    split
    · rfl
    · split
      · rfl
      · simp [Question.answered, answer]
  | object => exact apply_objectRule scope limit resolving n
  | array => exact apply_arrayRule scope limit resolving n
  | asExpression => exact apply_assertedRule scope limit resolving n
  | binary => exact apply_binaryRule scope limit resolving n
  | sequence =>
    simp only
    cases n.named.getLast? with
    | none => rfl
    | some e => simp [Question.answered, answer]
  | parenthesized => simp
  | satisfies => simp
  | nonNull => simp
  | await => simp
  | ternary => simp
  | assignment => simp
  | subscript => simp
  | call => simp [Question.answered, answer]
  | member => simp [Question.answered, answer]
  | functionDeclaration => exact hfunction
  | generatorDeclaration => exact hfunction
  | functionExpression => exact hfunction
  | generatorExpression => exact hfunction
  | arrowFunction => exact hfunction
  | methodDefinition => exact hfunction
  | _ => rfl

/-- **The answer to a call is what its rule gives for the answers to what it asks.**  The type of an
    expression takes one of the limit. -/
theorem answer_eq (call : Call) :
    answer scope (limit + call.cost) resolving call =
      (call.rule resolving scope).apply (answer scope limit) := by
  cases call with
  | infer n => exact (apply_expressionRule scope limit resolving n).symm
  | resolve name => exact (apply_nameRule scope limit resolving name).symm
  | functionType f => exact (apply_functionRule scope limit resolving f).symm
  | returnType f => exact (apply_returnRule scope limit resolving f).symm
  | callType n => exact (apply_callRule scope limit resolving n).symm
  | memberType n => exact (apply_memberRule scope limit resolving n).symm

end

end RouteAtlas.Typing
