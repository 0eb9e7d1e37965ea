/-
  RouteAtlas: what a handler asks the query for.

  A handler asks for a name wherever it calls an accessor with an argument.  Callees are compared as texts
  without blanks, and names are what stands between the marks of the first arguments.

  * `Asks accessors call`: a call asks the query; `callsAsking` are the calls below a handler that do, in
    the order of the walk;
  * `forall₂_names`: each of these calls gives one name, and nothing else gives one;
  * `IsLiteral content n`: a string without substitutions, escapes and marks inside, in one of the three
    styles; `IsLiteral.strip`: the name that it gives is its content;
  * `Reformatted accessors n n'`: the tree of `n'` is that of `n` with comments put in, literals in another
    style and other texts, where no callee becomes an accessor or ceases to be one;
    `Reformatted.queries`: the same names are asked for;
  * `query_names` joins these.
-/
import RouteAtlas.Code.Module
import RouteAtlas.Proofs.Code.Order
import RouteAtlas.Proofs.Handler.Forms
import RouteAtlas.Proofs.Text.Blank

namespace RouteAtlas.Handler

open RouteAtlas.Code RouteAtlas.Text RouteAtlas.Typing

variable {accessors : List String} {call n n' : Node} {content : String}

/-! ## Accessors -/

/-- The characters of a text that are no blanks. -/
def unspaced (text : String) : List Char :=
  text.toList.filter fun c => !isBlank c

/-- A text is an accessor, up to its blanks and to the spaces of the accessor. -/
def IsAccessor (accessors : List String) (text : String) : Prop :=
  ∃ accessor ∈ accessors, unspaced text = accessor.toList.filter fun c => c != ' '

instance (text : String) : Decidable (IsAccessor accessors text) :=
  inferInstanceAs (Decidable (∃ accessor ∈ accessors, _ = _))

theorem squeeze_eq (text : String) : squeeze text = .ofList (unspaced text) := by
  rw [squeeze, words, flatten_wordsFrom]
  rfl

theorem contains_squeeze_iff {text : String} :
    (accessors.map plainAccessor).contains (squeeze text) = true ↔ IsAccessor accessors text := by
  simp only [List.contains_iff_mem, List.mem_map, IsAccessor, squeeze_eq, plainAccessor,
    String.ofList_inj, eq_comm (a := unspaced text)]

/-- **White space makes no text an accessor, and none cease to be one.** -/
theorem isAccessor_append_blanks {front blanks back : String}
    (h : ∀ c ∈ blanks.toList, isBlank c = true) :
    IsAccessor accessors (front ++ blanks ++ back) ↔ IsAccessor accessors (front ++ back) := by
  have hnone : unspaced blanks = [] := List.filter_eq_nil_iff.2 fun c hc => by simp [h c hc]
  have hsame : unspaced (front ++ blanks ++ back) = unspaced (front ++ back) := by
    unfold unspaced at hnone ⊢
    simp only [String.toList_append, List.filter_append, hnone, List.append_nil]
  rw [IsAccessor, hsame, IsAccessor]

/-! ## Calls that ask -/

/-- The callee of a call is an accessor. -/
def CallsAccessor (accessors : List String) (call : Node) : Prop :=
  ∃ callee ∈ call.field? .callee, IsAccessor accessors callee.text

instance : Decidable (CallsAccessor accessors call) :=
  inferInstanceAs (Decidable (∃ callee ∈ call.field? .callee, IsAccessor accessors callee.text))

/-- A call of an accessor has an argument that is no comment. -/
structure Asks (accessors : List String) (call : Node) : Prop where
  kind : call.kind = .call
  callee : CallsAccessor accessors call
  argument : ∃ arguments, call.field? .arguments = some arguments ∧
    ∃ arg ∈ arguments.named, arg.isComment = false

/-- The marks around literals. -/
def quoteMarks : List Char :=
  ['\'', '"', '\x60']

/-- The first argument of a call gives a name: what stands between the marks at its ends. -/
def GivesName (call : Node) (name : String) : Prop :=
  ∃ arg, (callArguments call).head? = some arg ∧ strip quoteMarks arg.text = name

theorem givesName_unique : Relator.RightUnique GivesName := by
  rintro call name name' ⟨arg, harg, rfl⟩ ⟨arg', harg', rfl⟩
  rw [harg] at harg'
  rw [Option.some.inj harg']

theorem queryName?_eq_some_iff {name : String} : queryName? accessors call = some name ↔
    CallsAccessor accessors call ∧ GivesName call name := by
  unfold queryName? CallsAccessor GivesName
  cases call.field? .callee with
  | none => simp
  | some callee =>
    simp only [contains_squeeze_iff, Option.mem_def, Option.some.injEq, exists_eq_left']
    split
    · rename_i h
      rw [Option.map_eq_some_iff, and_iff_right h]
      rfl
    · rename_i h
      simp [h]

/-- A call has an argument that is no comment exactly if it has a first one. -/
theorem exists_head?_callArguments : (∃ arg, (callArguments call).head? = some arg) ↔
    ∃ arguments, call.field? .arguments = some arguments ∧
      ∃ arg ∈ arguments.named, arg.isComment = false := by
  rw [← Option.isSome_iff_exists]
  unfold callArguments Node.operands
  cases call.field? .arguments <;> simp

theorem asks_iff (h : call.kind = .call) :
    Asks accessors call ↔ ∃ name, queryName? accessors call = some name := by
  simp only [queryName?_eq_some_iff, GivesName, exists_and_left, exists_comm (α := String),
    exists_eq', and_true, exists_head?_callArguments]
  exact ⟨fun hasks => ⟨hasks.callee, hasks.argument⟩, fun hasks => ⟨h, hasks.1, hasks.2⟩⟩

instance : Decidable (Asks accessors call) :=
  decidable_of_iff (call.kind = .call ∧ (queryName? accessors call).isSome = true)
    ⟨fun h => (asks_iff h.1).2 (Option.isSome_iff_exists.1 h.2),
      fun h => ⟨h.kind, Option.isSome_iff_exists.2 ((asks_iff h.kind).1 h)⟩⟩

/-- The calls below a declaration that ask the query, in the order of the walk. -/
def callsAsking (accessors : List String) (d : FunctionDeclaration) : List Node :=
  d.node.inner.filter fun call => decide (Asks accessors call)

/-- The names that are asked for below some nodes. -/
def queriesIn (accessors : List String) (ns : List Node) : List String :=
  (below .call ns).filterMap (queryName? accessors)

theorem queryParameters_eq (accessors : List String) (d : FunctionDeclaration) :
    queryParameters accessors d = queriesIn accessors d.node.children := by
  rw [queryParameters, Node.descendantsOf, Node.descendants_eq_inner]
  rfl

/-- **Each call that asks the query gives one name**, and nothing else gives one. -/
theorem forall₂_names (accessors : List String) (ns : List Node) :
    List.Forall₂ GivesName (ns.filter fun call => decide (Asks accessors call))
      ((ns.filter fun n => n.kind == .call).filterMap (queryName? accessors)) := by
  induction ns with
  | nil => exact .nil
  | cons n ns ih =>
    rw [List.filter_cons, List.filter_cons]
    by_cases hk : n.kind = .call
    · rw [if_pos (by simpa using hk : (n.kind == .call) = true), List.filterMap_cons]
      cases hname : queryName? accessors n with
      | none =>
        have hn : ¬ Asks accessors n := by simp [asks_iff hk, hname]
        rwa [if_neg (by simpa using hn)]
      | some name =>
        have hn : Asks accessors n := (asks_iff hk).2 ⟨name, hname⟩
        rw [if_pos (by simpa using hn)]
        exact .cons (queryName?_eq_some_iff.1 hname).2 ih
    · have hn : ¬ Asks accessors n := fun h => hk h.kind
      rwa [if_neg (by simpa using hn), if_neg (by simpa using hk)]

/-! ## Literals -/

/-- The text of a node is a content between two marks, grave accents if it is a template. -/
def IsMarked (content : String) (n : Node) : Prop :=
  ∃ mark ∈ quoteMarks, (n.kind = if mark = '\x60' then .template else .string) ∧
    n.text = .singleton mark ++ content ++ .singleton mark

/-- There are no marks and no escapes in a content. -/
def IsPlain (content : String) : Prop :=
  ∀ c ∈ content.toList, c ∉ '\\' :: quoteMarks

-- The instances that go over all characters do not compute, those that go over a list do.
instance : Decidable (IsMarked content n) :=
  List.decidableBEx _ _

instance : Decidable (IsPlain content) :=
  List.decidableBAll _ _

/-- A string without substitutions, escapes and marks inside, in one of the three styles. -/
structure IsLiteral (content : String) (n : Node) : Prop where
  marked : IsMarked content n
  plain : IsPlain content
  whole : ∀ c ∈ n.children, c.kind = .templateText ∧ c.children.isEmpty = true

instance : Decidable (IsLiteral content n) :=
  decidable_of_iff (IsMarked content n ∧ IsPlain content ∧
      ∀ c ∈ n.children, c.kind = .templateText ∧ c.children.isEmpty = true)
    ⟨fun h => ⟨h.1, h.2.1, h.2.2⟩, fun h => ⟨h.marked, h.plain, h.whole⟩⟩

namespace IsLiteral

theorem kind (h : IsLiteral content n) : n.kind = .string ∨ n.kind = .template := by
  obtain ⟨mark, -, hk, -⟩ := h.marked
  split at hk
  · exact .inr hk
  · exact .inl hk

/-- **The name that a literal gives is its content.** -/
theorem strip (h : IsLiteral content n) : strip quoteMarks n.text = content := by
  obtain ⟨mark, hmark, -, htext⟩ := h.marked
  have hself : stripChars quoteMarks content.toList = content.toList := stripChars_eq_self_iff.2
    ⟨fun c hc hm => h.plain c (List.mem_of_head? hc) (List.mem_cons_of_mem _ hm),
      fun c hc hm => h.plain c (List.mem_of_getLast? hc) (List.mem_cons_of_mem _ hm)⟩
  have hmarks : ∀ c ∈ [mark], c ∈ quoteMarks := List.forall_mem_singleton.2 hmark
  rw [Text.strip, htext, String.toList_append, String.toList_append, String.toList_singleton,
    stripChars_append hmarks hmarks, hself, String.ofList_toList]

/-- Below a literal nothing is asked for. -/
theorem queriesIn_children (h : IsLiteral content n) : queriesIn accessors n.children = [] := by
  have hleaves : ∀ ns : List Node, (∀ c ∈ ns, c.kind = .templateText ∧ c.children.isEmpty = true) →
      below .call ns = [] := by
    intro ns hns
    induction ns with
    | nil => rfl
    | cons c ns ih =>
      obtain ⟨⟨hk, hc⟩, hns⟩ := List.forall_mem_cons.1 hns
      rw [below_cons, below_of_ne (by rw [hk]; decide), List.isEmpty_iff.1 hc, ih hns]
      rfl
  rw [queriesIn, hleaves _ h.whole]
  rfl

theorem kind_ne (h : IsLiteral content n) : n.kind ≠ .call := by
  rcases h.kind with hk | hk <;> rw [hk] <;> decide

theorem isNamed (h : IsLiteral content n) : n.isNamed = true := by
  rcases h.kind with hk | hk <;> rw [Node.isNamed, hk] <;> rfl

theorem isComment (h : IsLiteral content n) : n.isComment = false := by
  rcases h.kind with hk | hk <;> rw [Node.isComment, hk] <;> rfl

end IsLiteral

/-! ## Reformatted trees -/

/-- Two nodes are literals with the same content, and none is the template of a tagged call. -/
def SameLiteral (n n' : Node) : Prop :=
  n.role ≠ some .arguments ∧ ∃ content, IsLiteral content n ∧ IsLiteral content n'

/-- Two nodes are of the same kind, and both are calls of accessors or none is; strings have the same
    text. -/
structure AskedAlike (accessors : List String) (n n' : Node) : Prop where
  kind : n.kind = n'.kind
  text : n.kind = .string ∨ n.kind = .template → n.text = n'.text
  callee : n.kind = .call → (CallsAccessor accessors n ↔ CallsAccessor accessors n')

/-- The second tree is the first one with literals in another style, with comments put in and with other
    texts, where no callee becomes an accessor or ceases to be one. -/
inductive Reformatted (accessors : List String) : Node → Node → Prop where
  | literal {n n' : Node} : SameLiteral n n' → Reformatted accessors n n'
  | node {n n' : Node} : AskedAlike accessors n n' →
      Woven (Reformatted accessors) n.children n'.children → Reformatted accessors n n'

theorem rel_head? {α β : Type} {R : α → β → Prop} {as : List α} {bs : List β} (h : List.Forall₂ R as bs) :
    Option.Rel R as.head? bs.head? := by
  cases h with
  | nil => exact .none
  | cons hr _ => exact .some hr

namespace Reformatted

theorem isNamed (h : Reformatted accessors n n') : n.isNamed = n'.isNamed := by
  cases h with
  | literal h =>
    obtain ⟨-, content, hn, hn'⟩ := h
    rw [hn.isNamed, hn'.isNamed]
  | node h => rw [Node.isNamed, h.kind, Node.isNamed]

theorem isComment (h : Reformatted accessors n n') : n.isComment = n'.isComment := by
  cases h with
  | literal h =>
    obtain ⟨-, content, hn, hn'⟩ := h
    rw [hn.isComment, hn'.isComment]
  | node h => rw [Node.isComment, h.kind, Node.isComment]

/-- What stands in the place of a literal gives the same name. -/
theorem strip (h : Reformatted accessors n n') (hn : IsLiteral content n) :
    Text.strip quoteMarks n'.text = content := by
  cases h with
  | literal h =>
    obtain ⟨-, content', hc, hc'⟩ := h
    rw [hc'.strip, ← hc.strip, hn.strip]
  | node h => rw [← h.text hn.kind, hn.strip]

section
variable (h : Woven (Reformatted accessors) n.children n'.children)
include h

theorem operands : List.Forall₂ (Reformatted accessors) n.operands n'.operands := by
  have hnamed : Woven (Reformatted accessors) n.named n'.named :=
    h.filter fun _ _ hm => hm.isNamed
  exact hnamed.filter_forall₂ (fun _ _ hm => by rw [hm.isComment]) fun r hr => by
    rw [Node.isComment_of_isRemark hr]
    rfl

theorem callArguments :
    List.Forall₂ (Reformatted accessors) (callArguments n) (callArguments n') := by
  have hfield : Option.Rel (Reformatted accessors) (n.field? .arguments) (n'.field? .arguments) :=
    h.find? (fun _ _ _ hrole => by rw [hrole]) fun r hr => by simp [Node.role_of_isRemark hr]
  unfold Handler.callArguments
  obtain ⟨ha, ha'⟩ | ⟨a, a', ha, ha', hrel⟩ := rel_cases hfield <;> rw [ha, ha']
  · exact .nil
  · cases hrel with
    | literal hsame => exact absurd (Node.role_of_field? ha) hsame.1
    | node _ hchildren => exact operands hchildren

end

end Reformatted

/-! ## Queries of reformatted trees -/

/-- The first argument of a call is a literal. -/
def GivesLiteral (call : Node) (content : String) : Prop :=
  ∃ arg ∈ (callArguments call).head?, IsLiteral content arg

theorem GivesLiteral.givesName (h : GivesLiteral call content) : GivesName call content := by
  obtain ⟨arg, harg, hcontent⟩ := h
  exact ⟨arg, harg, hcontent.strip⟩

/-- If a call asks the query, then for a literal. -/
def AsksLiterally (accessors : List String) (call : Node) : Prop :=
  Asks accessors call → ∃ content, GivesLiteral call content

/-- A reformatted call gives the same name. -/
theorem queryName?_reformatted (hk : n.kind = .call) (hliteral : AsksLiterally accessors n)
    (halike : AskedAlike accessors n n') (h : Woven (Reformatted accessors) n.children n'.children) :
    queryName? accessors n = queryName? accessors n' := by
  refine Option.ext fun name => ?_
  rw [queryName?_eq_some_iff, queryName?_eq_some_iff, ← halike.callee hk]
  refine and_congr_right fun hcalls => ?_
  unfold GivesName
  obtain ⟨ha, ha'⟩ | ⟨a, a', ha, ha', hrel⟩ := rel_cases (rel_head? (Reformatted.callArguments h))
  · rw [ha, ha']
  · have hasks : Asks accessors n := ⟨hk, hcalls, exists_head?_callArguments.1 ⟨a, ha⟩⟩
    obtain ⟨content, arg, harg, hcontent⟩ := hliteral hasks
    obtain rfl : a = arg := Option.some.inj (ha.symm.trans harg)
    simp [ha, ha', hcontent.strip, hrel.strip hcontent]

theorem queriesIn_cons (n : Node) (ns : List Node) :
    queriesIn accessors (n :: ns) = queriesIn accessors [n] ++ queriesIn accessors ns :=
  filterMap_below_cons _ _ n ns

theorem queriesIn_single (n : Node) : queriesIn accessors [n] =
    (if n.kind = .call then (queryName? accessors n).toList else []) ++
      queriesIn accessors n.children :=
  filterMap_below_single _ _ n

/-- At a node the same names are asked for if they are below it. -/
theorem Reformatted.queries_single (h : Reformatted accessors n n') (hliteral : AsksLiterally accessors n)
    (hbelow : queriesIn accessors n.children = queriesIn accessors n'.children) :
    queriesIn accessors [n] = queriesIn accessors [n'] := by
  rw [queriesIn_single n, queriesIn_single n', hbelow]
  cases h with
  | literal h =>
    obtain ⟨-, content, hn, hn'⟩ := h
    rw [if_neg hn.kind_ne, if_neg hn'.kind_ne]
  | node halike hchildren =>
    rw [← halike.kind]
    split
    · rename_i hk
      rw [queryName?_reformatted hk hliteral halike hchildren]
    · rfl

theorem queriesIn_woven {ms ns : List Node} (h : Woven (Reformatted accessors) ms ns)
    (htrees : ∀ m ∈ ms, ∀ n, Reformatted accessors m n →
      queriesIn accessors [m] = queriesIn accessors [n]) :
    queriesIn accessors ms = queriesIn accessors ns := by
  induction h with
  | nil => rfl
  | @cons m n ms ns hr _ _ ih =>
    obtain ⟨hm, hms⟩ := List.forall_mem_cons.1 htrees
    rw [queriesIn_cons m, queriesIn_cons n, hm n hr, ih hms]
  | @remark r ms ns hr _ ih =>
    have hr : queriesIn accessors [r] = [] := by
      rw [queriesIn_single, if_neg (by rw [Node.kind_of_isRemark hr]; decide),
        Node.children_of_isRemark hr]
      rfl
    rw [queriesIn_cons r, hr, List.nil_append, ih htrees]

/-- **Below a reformatted node the same names are asked for**, if they are asked for by literals. -/
theorem Reformatted.queries : ∀ {n n' : Node}, Reformatted accessors n n' →
    (∀ call ∈ n.inner, AsksLiterally accessors call) →
    queriesIn accessors n.children = queriesIn accessors n'.children
  | n, n', .literal ⟨_, content, hn, hn'⟩, _ => by rw [hn.queriesIn_children, hn'.queriesIn_children]
  | n, n', .node _ hchildren, hliteral => by
    refine queriesIn_woven hchildren fun m hm m' h => ?_
    have hsize := Node.size_lt_of_mem hm
    have htree : ∀ call ∈ m.preorder, AsksLiterally accessors call := fun call hcall =>
      hliteral call (Node.mem_preorders.2 ⟨m, hm, hcall⟩)
    rw [Node.preorder_eq, List.forall_mem_cons] at htree
    exact h.queries_single htree.1 (Reformatted.queries h htree.2)
termination_by n => n.size

/-- **What a handler asks the query for.**  The names are those that the calls below the handler give whose
    callees are accessors up to white space, and that have an argument which is no comment: one name for each
    of them, in the order in which they start, and nothing else.  Where all these arguments are literals the
    names are their contents, however the handler is formatted: with comments put in, with literals in
    another of the three styles, with white space put in anywhere, as long as no callee becomes an accessor
    or ceases to be one; and white space makes no callee do so. -/
theorem query_names (accessors : List String) (d : FunctionDeclaration) :
    List.Forall₂ GivesName (callsAsking accessors d) (queryParameters accessors d) ∧
      (d.node.InOrder → (callsAsking accessors d).Pairwise fun c c' => c.start ≤ c'.start) ∧
      (∀ contents, List.Forall₂ GivesLiteral (callsAsking accessors d) contents →
        queryParameters accessors d = contents ∧
          ∀ d' : FunctionDeclaration, Reformatted accessors d.node d'.node →
            queryParameters accessors d' = contents) ∧
      ∀ front blanks back : String, (∀ c ∈ blanks.toList, isBlank c = true) →
        (IsAccessor accessors (front ++ blanks ++ back) ↔ IsAccessor accessors (front ++ back)) := by
  have hnames : List.Forall₂ GivesName (callsAsking accessors d) (queryParameters accessors d) := by
    rw [queryParameters_eq]
    exact forall₂_names accessors d.node.inner
  refine ⟨hnames, fun h => (Node.pairwise_inner h).filter _, fun contents hcontents => ?_,
    fun _ _ _ => isAccessor_append_blanks⟩
  have hsame : queryParameters accessors d = contents :=
    List.right_unique_forall₂' givesName_unique hnames (hcontents.imp fun _ _ h => h.givesName)
  refine ⟨hsame, fun d' h => ?_⟩
  have hliteral : ∀ call ∈ d.node.inner, AsksLiterally accessors call := by
    intro call hcall hasks
    obtain ⟨content, -, hgives⟩ := exists_right_of_mem hcontents call
      (List.mem_filter.2 ⟨hcall, decide_eq_true hasks⟩)
    exact ⟨content, hgives⟩
  rw [← hsame, queryParameters_eq, queryParameters_eq, h.queries hliteral]

/-! ## Checking -/

instance : Decidable (GivesLiteral call content) :=
  inferInstanceAs (Decidable (∃ arg ∈ (callArguments call).head?, IsLiteral content arg))

instance (n n' : Node) : Decidable (SameLiteral n n') :=
  decidable_of_iff (n.role ≠ some .arguments ∧ IsLiteral (strip quoteMarks n.text) n ∧
      IsLiteral (strip quoteMarks n.text) n')
    ⟨fun h => ⟨h.1, _, h.2⟩, fun ⟨hrole, content, hn, hn'⟩ => by
      rw [hn.strip]
      exact ⟨hrole, hn, hn'⟩⟩

instance (n n' : Node) : Decidable (AskedAlike accessors n n') :=
  decidable_of_iff (n.kind = n'.kind ∧ (n.kind = .string ∨ n.kind = .template → n.text = n'.text) ∧
      (n.kind = .call → (CallsAccessor accessors n ↔ CallsAccessor accessors n')))
    ⟨fun h => ⟨h.1, h.2.1, h.2.2⟩, fun h => ⟨h.kind, h.text, h.callee⟩⟩

mutual
/-- Checks that a tree is a reformatted one. -/
def reformatted? (accessors : List String) : Node → Node → Bool
  | .mk kind role span text children, n' =>
    decide (SameLiteral (.mk kind role span text children) n') ||
      (decide (AskedAlike accessors (.mk kind role span text children) n') &&
        reformattedAmong? accessors children n'.children)
/-- Checks that children are reformatted ones; remarks are passed over where none is expected. -/
def reformattedAmong? (accessors : List String) : List Node → List Node → Bool
  | [], ns => ns.all Node.isRemark
  | m :: ms, ns =>
    match if m.isRemark then ns else ns.dropWhile Node.isRemark with
    | [] => false
    | n :: ns => reformatted? accessors m n && m.role == n.role && reformattedAmong? accessors ms ns
end

mutual
theorem reformatted_of_check : ∀ {n n' : Node},
    reformatted? accessors n n' = true → Reformatted accessors n n'
  | .mk kind role span text children, n', h => by
    rw [reformatted?, Bool.or_eq_true, Bool.and_eq_true, decide_eq_true_iff, decide_eq_true_iff] at h
    rcases h with h | h
    · exact .literal h
    · exact .node h.1 (reformattedAmong_of_check h.2)
theorem reformattedAmong_of_check : ∀ {ms ns : List Node},
    reformattedAmong? accessors ms ns = true → Woven (Reformatted accessors) ms ns
  | [], ns, h => woven_of_all (by rwa [reformattedAmong?] at h)
  | m :: ms, ns, h => by
    rw [reformattedAmong?] at h
    split at h
    · cases h
    · rename_i n rest hskipped
      simp only [Bool.and_eq_true, beq_iff_eq] at h
      exact woven_cons_of_skipped hskipped (reformatted_of_check h.1.1) h.1.2
        (reformattedAmong_of_check h.2)
end

/-! ## Sources -/

/-- The function that a source exports as `GET`. -/
def getOf (source : String) : Option FunctionDeclaration :=
  (readModule .plain source).toOption.bind fun root => implementation? ((exports root).of "GET")

/-- A handler that asks for two names, for one of them in an argument. -/
def askingSource : String := "export let GET=()=>u.f('a',u.f(\"b\"))"

/-- The same handler with a line break in a callee, with a comment and with other marks. -/
def reformattedSource : String := "export let GET=()=>u\n.f(/**/\"a\",u.f(\x60b\x60))"

theorem query_names_reformatted :
    ∃ d ∈ getOf askingSource, ∃ d' ∈ getOf reformattedSource,
      Reformatted ["u.f"] d.node d'.node ∧ queryParameters ["u.f"] d' = ["a", "b"] ∧
      (callsAsking ["u.f"] d).length = 2 ∧
      (callsAsking ["u.f"] d).Pairwise fun c c' => c.start ≤ c'.start := by
  obtain ⟨d, hd, d', hd', hcheck, hliteral, hlength, horder⟩ :
      ∃ d ∈ getOf askingSource, ∃ d' ∈ getOf reformattedSource,
        reformatted? ["u.f"] d.node d'.node = true ∧
        List.Forall₂ GivesLiteral (callsAsking ["u.f"] d) ["a", "b"] ∧
        (callsAsking ["u.f"] d).length = 2 ∧ d.node.InOrder := by
    decide +kernel
  have hreformatted := reformatted_of_check hcheck
  obtain ⟨-, hpairwise, hcontents, -⟩ := query_names ["u.f"] d
  exact ⟨d, hd, d', hd', hreformatted, (hcontents _ hliteral).2 d' hreformatted, hlength,
    hpairwise horder⟩

/-- A call of a callee with the literal `a`. -/
def callOf (callee : String) : Node :=
  .planted .call none "" [
    .planted .member (some .callee) callee [],
    .planted .arguments (some .arguments) "" [.planted .string none "'a'" []]]

/-- Formatting is seen where a callee is text that holds it: the callee `f('a').g` is an accessor, and it
    is none with other marks, or with a comment.  A byte order mark in a callee is no white space, and the
    spaces of an accessor do not count. -/
theorem query_names_of_callees :
    (getOf "export let GET=()=>f('a').g('b')").map (queryParameters ["f", "f('a').g"]) =
        some ["b", "a"] ∧
      (getOf "export let GET=()=>f(\"a\").g('b')").map (queryParameters ["f", "f('a').g"]) =
        some ["a"] ∧
      queryName? ["f('a').g"] (callOf "f('a').g") = some "a" ∧
      queryName? ["f('a').g"] (callOf "f(/**/'a').g") = none ∧
      queryName? ["u.get"] (callOf "u.\ufeffget") = none ∧
      queryName? ["u . get"] (callOf "u.get") = some "a" := by
  decide +kernel

end RouteAtlas.Handler
