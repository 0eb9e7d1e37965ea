/-
  RouteAtlas: what is being resolved and is not met.

  A name that is being resolved is `any`, and so is a member of a name that is being looked up.  This
  matters only where they are met again: otherwise they need not be marked.

  * `markedName mark` is the name of a mark, of itself or of one of its members, and `freed o resolving`
    are the marks of other names than `o`;
  * `Rule.mapMarks f r`: a rule that asks its questions with other marks;
  * `rule_freed`: the rule for a call that does not look a name up is the same without its marks, one
    lemma for each rule;
  * `answer_freed`: so is the answer to a call that does not meet the name.
-/
import RouteAtlas.Proofs.Typing.Locality

namespace RouteAtlas.Typing

open RouteAtlas.Code RouteAtlas.Text
open Context (answer)

/-! ## Marks of a name -/

/-- The name of a mark: what stands in front of the first point. -/
def markedName (mark : String) : String :=
  .ofList (mark.toList.takeWhile fun c => c != '.')

/-- What is being resolved, without a name and its members. -/
def freed (o : String) (resolving : List String) : List String :=
  resolving.filter fun mark => markedName mark != o

/-- A name has no points. -/
def IsPlainName (name : String) : Prop :=
  '.' ∉ name.toList

instance (name : String) : Decidable (IsPlainName name) :=
  inferInstanceAs (Decidable (¬ _))

variable {o name key : String} {resolving : List String}

theorem IsPlainName.ne_point (h : IsPlainName name) : ∀ c ∈ name.toList, (c != '.') = true := fun _ hc =>
  bne_iff_ne.2 fun heq => h (heq ▸ hc)

theorem markedName_name (h : IsPlainName name) : markedName name = name := by
  have htake : name.toList.takeWhile (fun c => c != '.') = name.toList :=
    List.takeWhile_eq_self_iff.2 h.ne_point
  rw [markedName, htake, String.ofList_toList]

theorem markedName_path (h : IsPlainName name) (key : String) : markedName (name ++ "." ++ key) = name := by
  have htake : (name ++ "." ++ key).toList.takeWhile (fun c => c != '.') = name.toList := by
    rw [String.toList_append, String.toList_append, List.append_assoc,
      List.takeWhile_append_of_pos h.ne_point]
    simp
  rw [markedName, htake, String.ofList_toList]

theorem freed_cons_self {mark : String} (h : markedName mark = o) :
    freed o (mark :: resolving) = freed o resolving :=
  List.filter_cons_of_neg (by simp [h])

theorem freed_cons {mark : String} (h : markedName mark ≠ o) :
    freed o (mark :: resolving) = mark :: freed o resolving :=
  List.filter_cons_of_pos (by simpa using h)

theorem contains_freed {mark : String} (h : markedName mark ≠ o) :
    (freed o resolving).contains mark = resolving.contains mark := by
  rw [Bool.eq_iff_iff, List.contains_iff_mem, List.contains_iff_mem, freed, List.mem_filter]
  exact and_iff_left (by simpa using h)

theorem freed_eq_self (h : ∀ mark ∈ resolving, markedName mark ≠ o) : freed o resolving = resolving :=
  List.filter_eq_self.2 fun mark hmark => by simpa using h mark hmark

/-! ## Rules with other marks -/

/-- A question that is asked with other marks. -/
def Question.mapMarks (f : List String → List String) : Question → Question
  | .known type => .known type
  | .call resolving c => .call (f resolving) c

/-- A rule that asks its questions with other marks. -/
def Rule.mapMarks (f : List String → List String) (r : Rule) : Rule :=
  ⟨r.asks.map (Question.mapMarks f), r.gives⟩

section
variable (f : List String → List String)

theorem Rule.apply_mapMarks (answers : Answers) (r : Rule) :
    (r.mapMarks f).apply answers = r.apply fun resolving c => answers (f resolving) c := by
  unfold Rule.apply Rule.mapMarks
  rw [List.mapM_map]
  refine congrArg _ (Recording.mapM_congr fun q _ => ?_)
  cases q <;> rfl

@[simp] theorem Rule.mapMarks_plain (type : String) : (Rule.plain type).mapMarks f = .plain type := rfl

@[simp] theorem Rule.mapMarks_one (q : Question) (g : String → String) :
    (Rule.one q g).mapMarks f = .one (q.mapMarks f) g := rfl

@[simp] theorem Rule.mapMarks_two (q q' : Question) (g : String → String → String) :
    (Rule.two q q' g).mapMarks f = .two (q.mapMarks f) (q'.mapMarks f) g := rfl

@[simp] theorem Question.mapMarks_call (c : Call) :
    (Question.call resolving c).mapMarks f = .call (f resolving) c := rfl

@[simp] theorem Question.mapMarks_field (n : Node) (role : Role) :
    (Question.field resolving n role).mapMarks f = .field (f resolving) n role := by
  unfold Question.field
  cases n.field? role <;> rfl

@[simp] theorem Question.mapMarks_first (n : Node) (otherwise : String) :
    (Question.first resolving n otherwise).mapMarks f = .first (f resolving) n otherwise := by
  unfold Question.first
  cases n.named.head? <;> rfl

theorem returnRule_mapMarks (n : Node) :
    (returnRule resolving n).mapMarks f = returnRule (f resolving) n := by
  unfold returnRule
  split
  · rfl
  · split
    · rfl
    · split
      · rfl
      · split
        · rfl
        · simp [Rule.mapMarks]

theorem memberQuestion_mapMarks (m : Node) : memberQuestion (f resolving) m =
    (memberQuestion resolving m).map fun shown => (shown.1, shown.2.mapMarks f) := by
  unfold memberQuestion
  split
  · cases propertyKey? (m.field? .key) <;> simp
  · rfl
  · cases propertyKey? (m.field? .name) <;> rfl
  · rfl

theorem objectRule_mapMarks (n : Node) :
    (objectRule resolving n).mapMarks f = objectRule (f resolving) n := by
  have hmembers : n.named.filterMap (memberQuestion (f resolving)) =
      (n.named.filterMap (memberQuestion resolving)).map fun shown => (shown.1, shown.2.mapMarks f) := by
    rw [List.map_filterMap]
    exact List.filterMap_congr fun m _ => memberQuestion_mapMarks f m
  unfold objectRule Rule.mapMarks
  simp only [hmembers, List.map_map]
  rfl

theorem literalRule_mapMarks (key : String) : ∀ ms : List Node,
    (literalRule resolving key ms).mapMarks f = literalRule (f resolving) key ms
  | [] => rfl
  | m :: ms => by
    unfold literalRule
    split
    · simp
    · split
      · rfl
      · exact literalRule_mapMarks key ms

theorem expressionRule_mapMarks (n : Node) :
    (expressionRule resolving n).mapMarks f = expressionRule (f resolving) n := by
  unfold expressionRule
  cases n.kind with
  | identifier =>
    simp only
    split
    · rfl
    · split <;> rfl
  | object => exact objectRule_mapMarks f n
  | array =>
    show (arrayRule resolving n).mapMarks f = arrayRule (f resolving) n
    unfold arrayRule
    split
    · rfl
    · simp [Rule.mapMarks]
  | asExpression =>
    show (assertedRule resolving n).mapMarks f = assertedRule (f resolving) n
    unfold assertedRule
    split
    · rfl
    · simp
  | binary =>
    show (binaryRule resolving n).mapMarks f = binaryRule (f resolving) n
    unfold binaryRule
    simp only
    split
    · rfl
    · simp
  | sequence =>
    simp only
    split <;> rfl
  | _ => simp

end

/-! ## Answers without marks -/

section
variable {scope : Scope} (hplain : IsPlainName name) (hname : name ≠ o)
include hplain hname

theorem nameRule_freed :
    nameRule (freed o resolving) scope name = (nameRule resolving scope name).mapMarks (freed o) := by
  have hmarked : markedName name ≠ o := by rwa [markedName_name hplain]
  unfold nameRule
  rw [contains_freed hmarked]
  split
  · rfl
  · cases scope.find? name with
    | none => rfl
    | some b => cases b <;> simp [freed_cons hmarked]

theorem nameMemberRule_freed (x : Node) (hx : x.text = name) (key : String) :
    nameMemberRule (freed o resolving) scope x key =
      (nameMemberRule resolving scope x key).mapMarks (freed o) := by
  subst hx
  have hmarked : markedName (x.text ++ "." ++ key) ≠ o := by rwa [markedName_path hplain]
  unfold nameMemberRule
  simp only [contains_freed hmarked]
  split
  · split
    · split
      · rfl
      · rw [literalRule_mapMarks, freed_cons hmarked]
    · rfl
  · rfl

end

/-- **The rule for a call that does not look a name up** is the same without the marks of the name. -/
theorem rule_freed {scope : Scope} {call : Call} (h : ∀ name ∈ call.name?, name ≠ o ∧ IsPlainName name) :
    call.rule (freed o resolving) scope = (call.rule resolving scope).mapMarks (freed o) := by
  cases call with
  | infer n => exact (expressionRule_mapMarks _ n).symm
  | functionType f => rfl
  | returnType f => exact (returnRule_mapMarks _ f).symm
  | resolve name =>
    obtain ⟨hname, hplain⟩ := h name rfl
    exact nameRule_freed hplain hname
  | callType n =>
    show callRule (freed o resolving) scope n = (callRule resolving scope n).mapMarks (freed o)
    unfold callRule
    cases hc : (n.field? .callee).map Node.unwrap with
    | none => rfl
    | some callee =>
      simp only
      split
      · rename_i hk
        obtain ⟨hname, hplain⟩ := h callee.text (by simp [Call.name?, hc, hk])
        have hmarked : markedName callee.text ≠ o := by rwa [markedName_name hplain]
        split
        · rfl
        · split
          · rfl
          · rw [contains_freed hmarked]
            split
            · rfl
            · simp [freed_cons hmarked]
      · rfl
      · rfl
  | memberType n =>
    show memberRule (freed o resolving) scope n = (memberRule resolving scope n).mapMarks (freed o)
    unfold memberRule
    simp only
    split
    · rfl
    · rename_i hlength
      cases hobject : (n.field? .object).map Node.unwrap with
      | none => rfl
      | some object =>
        simp only
        split
        · rename_i hk
          obtain ⟨hname, hplain⟩ := h object.text (by simp [Call.name?, accessed?, hobject, hk, hlength])
          exact nameMemberRule_freed hplain hname object rfl _
        · split
          · exact (literalRule_mapMarks _ _ _).symm
          · rfl

/-- **A name that is not met need not be marked.**  A call that does not meet a name has the same answer
    whether the name, or a member of it, is being resolved or not. -/
theorem answer_freed {scope : Scope} : ∀ (limit : Nat) (resolving : List String) (call : Call),
    (∀ name, Meets scope name (freed o resolving) call → name ≠ o ∧ IsPlainName name) →
      answer scope limit (freed o resolving) call = answer scope limit resolving call := by
  refine @answer_induction scope _ (fun _ _ _ => rfl) fun limit resolving call hasked hmeets => ?_
  have hrule : call.rule (freed o resolving) scope = (call.rule resolving scope).mapMarks (freed o) :=
    rule_freed fun name hname => hmeets name (.looked hname)
  rw [answer_eq, answer_eq, hrule, Rule.apply_mapMarks]
  refine Rule.apply_congr fun q hq => ?_
  cases q with
  | known type => trivial
  | call marks inner =>
    have hinner : .call (freed o marks) inner ∈ (call.rule (freed o resolving) scope).asks := by
      rw [hrule]
      exact List.mem_map_of_mem (f := Question.mapMarks (freed o)) hq
    exact hasked _ hq fun name hname => hmeets name (.asked hinner hname)

end RouteAtlas.Typing
