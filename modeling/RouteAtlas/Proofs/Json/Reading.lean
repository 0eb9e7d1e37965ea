/-
  RouteAtlas: reading JSON texts.

  * `character?`, `quoted?`, `tokens?` and `value?` read what the grammar spells, and give back what follows;
  * `character?_eq_some_iff`, `quoted?_eq_some_iff`, `tokens?_eq_some_iff` and `value?_eq_some_iff`: they read
    nothing else, and all of it if they may take as many steps as there are characters or tokens;
  * `Json.read` reads a whole text, and `read_eq_some_iff` says that it reads what the text denotes; so a
    text denotes at most one value.
-/
import RouteAtlas.Proofs.Json.Grammar

namespace RouteAtlas.Json

/-! ## Characters -/

/-- Reads a character that is spelled by its units. -/
def unitCharacter? (cs : List Char) : Option (Char × List Char) := do
  let (n, rest) ← unit? cs
  if n.isValidChar then return (.ofNat n, rest)
  else
    match rest with
    | first :: second :: more =>
      if first = '\\' ∧ second = 'u' then do
        let (low, rest) ← unit? more
        if 0xd800 ≤ n ∧ n < 0xdc00 ∧ 0xdc00 ≤ low ∧ low < 0xe000 then return (ofPair n low, rest)
        else none
      else none
    | _ => none

/-- Reads a character behind a backslash. -/
def escape? : List Char → Option (Char × List Char)
  | letter :: rest =>
    if letter = 'u' then unitCharacter? rest
    else (shortEscapes.lookup letter).map fun c => (c, rest)
  | [] => none

/-- Reads a character inside quotes. -/
def character? : List Char → Option (Char × List Char)
  | c :: rest =>
    if c = '\\' then escape? rest
    else if c ≠ '"' ∧ 32 ≤ c.toNat then some (c, rest)
    else none
  | [] => none

theorem unitCharacter?_eq_some_iff {cs rest : List Char} {c : Char} :
    unitCharacter? cs = some (c, rest) ↔ Character ('\\' :: 'u' :: cs) c rest := by
  constructor
  · intro h
    obtain ⟨⟨n, mid⟩, hunit, h⟩ := Option.bind_eq_some_iff.1 h
    simp only at h
    split at h
    · rename_i hvalid
      cases h
      exact .unit hunit hvalid
    · split at h
      · rename_i first second more _
        split at h
        · rename_i hmarks
          obtain ⟨rfl, rfl⟩ := hmarks
          obtain ⟨⟨low, last⟩, hlow, h⟩ := Option.bind_eq_some_iff.1 h
          simp only at h
          split at h
          · rename_i hpair
            obtain ⟨rfl, rfl⟩ := Prod.mk.inj (Option.some.inj h)
            exact .pair hunit hlow hpair.1 hpair.2.1 hpair.2.2.1 hpair.2.2.2
          · cases h
        · cases h
      · cases h
  · intro h
    unfold unitCharacter?
    cases h with
    | plain _ hback => exact absurd rfl hback
    | short h => cases h
    | unit hunit hvalid => simp [hunit, hvalid]
    | pair hunit hlow hhigh₁ hhigh₂ hlow₁ hlow₂ =>
      rename_i high more low
      have hnot : ¬ high.isValidChar := by
        unfold Nat.isValidChar
        omega
      simp [hunit, hlow, hnot, hhigh₁, hhigh₂, hlow₁, hlow₂]

/-- **Characters are read as they are spelled.** -/
theorem character?_eq_some_iff {cs rest : List Char} {c : Char} :
    character? cs = some (c, rest) ↔ Character cs c rest := by
  constructor
  · intro h
    cases cs with
    | nil => cases h
    | cons first cs =>
      simp only [character?] at h
      split at h
      · rename_i hback
        subst hback
        cases cs with
        | nil => cases h
        | cons letter cs =>
          simp only [escape?] at h
          split at h
          · rename_i hu
            subst hu
            exact unitCharacter?_eq_some_iff.1 h
          · obtain ⟨c', hlookup, h⟩ := Option.map_eq_some_iff.1 h
            cases h
            exact .short hlookup
      · rename_i hback
        split at h
        · rename_i hplain
          cases h
          exact .plain hplain.1 hback hplain.2
        · cases h
  · intro h
    cases h with
    | plain hquote hback hcode => simp [character?, hquote, hback, hcode]
    | short hlookup =>
      rename_i letter
      have hu : letter ≠ 'u' := fun hu => by
        subst hu
        cases hlookup
      simp [character?, escape?, hu, hlookup]
    | unit hunit hvalid => exact unitCharacter?_eq_some_iff.2 (.unit hunit hvalid)
    | pair hunit hlow h₁ h₂ h₃ h₄ => exact unitCharacter?_eq_some_iff.2 (.pair hunit hlow h₁ h₂ h₃ h₄)

/-- Four digits are taken off. -/
theorem length_of_unit? {cs rest : List Char} {n : Nat} (h : unit? cs = some (n, rest)) :
    cs.length = rest.length + 4 := by
  unfold unit? at h
  split at h
  · simp only [Option.bind_eq_bind, Option.bind_eq_some_iff, Option.pure_def, Option.some.injEq,
      Prod.mk.injEq] at h
    obtain ⟨-, -, -, -, -, -, -, -, -, rfl⟩ := h
    rfl
  · cases h

theorem Character.length_lt {cs rest : List Char} {c : Char} (h : Character cs c rest) :
    rest.length < cs.length := by
  cases h with
  | plain => simp
  | short =>
    simp only [List.length_cons]
    omega
  | unit hunit =>
    have hlength := length_of_unit? hunit
    simp only [List.length_cons]
    omega
  | pair hunit hlow =>
    have hlength := length_of_unit? hunit
    have hlength' := length_of_unit? hlow
    simp only [List.length_cons] at hlength ⊢
    omega

/-! ## Texts in quotes -/

/-- Reads characters up to the closing quote, in a number of steps. -/
def quoted? : Nat → List Char → Option (List Char × List Char)
  | _, [] | 0, _ => none
  | steps + 1, c :: cs =>
    if c = '"' then some ([], cs)
    else do
      let (first, mid) ← character? (c :: cs)
      let (value, rest) ← quoted? steps mid
      return (first :: value, rest)

theorem Quoted.length_lt {cs value rest : List Char} (h : Quoted cs value rest) :
    rest.length < cs.length := by
  induction h with
  | close => simp
  | more hfirst _ ih => exact Nat.lt_trans ih hfirst.length_lt

theorem Quoted.of_quoted? : ∀ {steps : Nat} {cs value rest : List Char},
    quoted? steps cs = some (value, rest) → Quoted cs value rest
  | 0, [], _, _, h => by cases h
  | 0, _ :: _, _, _, h => by cases h
  | _ + 1, [], _, _, h => by cases h
  | steps + 1, c :: cs, value, rest, h => by
    rw [quoted?] at h
    split at h
    · rename_i hquote
      cases h
      rw [hquote]
      exact .close
    · obtain ⟨⟨first, mid⟩, hfirst, h⟩ := Option.bind_eq_some_iff.1 h
      obtain ⟨⟨more, last⟩, hmore, h⟩ := Option.bind_eq_some_iff.1 h
      cases h
      exact .more (character?_eq_some_iff.1 hfirst) (Quoted.of_quoted? hmore)

theorem Quoted.quoted? {cs value rest : List Char} (h : Quoted cs value rest) :
    ∀ {steps : Nat}, cs.length ≤ steps → quoted? steps cs = some (value, rest) := by
  induction h with
  | close =>
    intro steps hsteps
    obtain _ | steps := steps
    · simp at hsteps
    · simp [Json.quoted?]
  | @more cs c mid value rest hfirst _ ih =>
    intro steps hsteps
    have hlt := hfirst.length_lt
    rw [← character?_eq_some_iff] at hfirst
    obtain _ | ⟨first, cs⟩ := cs
    · simp at hlt
    obtain _ | steps := steps
    · simp at hsteps
    have hquote : first ≠ '"' := fun hquote => by
      subst hquote
      cases hfirst
    have hvalue : Json.quoted? steps mid = some (value, rest) := ih (by simp at hlt hsteps; omega)
    simp [Json.quoted?, hquote, hfirst, hvalue]

/-- **Texts are read as they are spelled.** -/
theorem quoted?_eq_some_iff {steps : Nat} {cs value rest : List Char} (hsteps : cs.length ≤ steps) :
    quoted? steps cs = some (value, rest) ↔ Quoted cs value rest :=
  ⟨Quoted.of_quoted?, fun h => h.quoted? hsteps⟩

/-! ## Tokens -/

/-- Reads tokens, in a number of steps. -/
def tokens? : Nat → List Char → Option (List Token)
  | _, [] => some []
  | 0, _ => none
  | steps + 1, c :: cs =>
    if isSpace c then tokens? steps cs
    else if c = '"' then do
      let (value, rest) ← quoted? cs.length cs
      return .text (.ofList value) :: (← tokens? steps rest)
    else do
      return (← mark? c) :: (← tokens? steps cs)

theorem Spells.of_tokens? : ∀ {steps : Nat} {cs : List Char} {tokens : List Token},
    tokens? steps cs = some tokens → Spells cs tokens
  | 0, [], _, h | _ + 1, [], _, h => by
    cases h
    exact .nil
  | 0, _ :: _, _, h => by cases h
  | steps + 1, c :: cs, tokens, h => by
    rw [tokens?] at h
    split at h
    · rename_i hspace
      exact .space hspace (Spells.of_tokens? h)
    · split at h
      · rename_i hquote
        obtain ⟨⟨value, rest⟩, hvalue, h⟩ := Option.bind_eq_some_iff.1 h
        obtain ⟨more, hmore, h⟩ := Option.bind_eq_some_iff.1 h
        cases h
        rw [hquote]
        exact .text (.of_quoted? hvalue) (Spells.of_tokens? hmore)
      · obtain ⟨token, hmark, h⟩ := Option.bind_eq_some_iff.1 h
        obtain ⟨more, hmore, h⟩ := Option.bind_eq_some_iff.1 h
        cases h
        exact .mark hmark (Spells.of_tokens? hmore)

theorem Spells.tokens? {cs : List Char} {tokens : List Token} (h : Spells cs tokens) :
    ∀ {steps : Nat}, cs.length ≤ steps → tokens? steps cs = some tokens := by
  induction h with
  | nil =>
    intro steps _
    cases steps <;> rfl
  | space hspace _ ih =>
    intro steps hsteps
    obtain _ | steps := steps
    · simp at hsteps
    simp [Json.tokens?, hspace, ih (Nat.le_of_succ_le_succ hsteps)]
  | @mark c token cs tokens hmark _ ih =>
    intro steps hsteps
    obtain _ | steps := steps
    · simp at hsteps
    have hspace : isSpace c = false := by
      rw [Bool.eq_false_iff]
      intro hspace
      simp only [isSpace, Bool.or_eq_true, beq_iff_eq] at hspace
      obtain ((rfl | rfl) | rfl) | rfl := hspace <;> cases hmark
    have hquote : c ≠ '"' := fun hquote => by
      subst hquote
      cases hmark
    simp [Json.tokens?, hspace, hquote, hmark, ih (Nat.le_of_succ_le_succ hsteps)]
  | @text cs value rest tokens hvalue _ ih =>
    intro steps hsteps
    obtain _ | steps := steps
    · simp at hsteps
    have hlt := hvalue.length_lt
    have hrest : Json.tokens? steps rest = some tokens := ih (by simp at hsteps; omega)
    rw [← quoted?_eq_some_iff (Nat.le_refl _)] at hvalue
    rw [Json.tokens?, if_neg (by decide), if_pos rfl, hvalue]
    simp [hrest]

/-- **Tokens are read as they are spelled.** -/
theorem tokens?_eq_some_iff {steps : Nat} {cs : List Char} {tokens : List Token} (hsteps : cs.length ≤ steps) :
    tokens? steps cs = some tokens ↔ Spells cs tokens :=
  ⟨Spells.of_tokens?, fun h => h.tokens? hsteps⟩

/-! ## Values -/

section
variable {α : Type} (part? : List Token → Option (α × List Token)) (closing : Token)

/-- Reads parts that follow a comma each, up to a closing mark, in a number of steps. -/
def more? : Nat → List Token → Option (List α × List Token)
  | 0, _ | _, [] => none
  | steps + 1, token :: ts =>
    if token = closing then some ([], ts)
    else if token = .comma then do
      let (part, mid) ← part? ts
      let (parts, rest) ← more? steps mid
      return (part :: parts, rest)
    else none

/-- Reads parts up to a closing mark. -/
def parts? (steps : Nat) : List Token → Option (List α × List Token)
  | token :: ts =>
    if token = closing then some ([], ts)
    else do
      let (part, mid) ← part? (token :: ts)
      let (parts, rest) ← more? part? closing steps mid
      return (part :: parts, rest)
  | [] => none

end

/-- Reads a member with a way to read its value. -/
def member? (value? : List Token → Option (Json × List Token)) :
    List Token → Option ((String × Json) × List Token)
  | .text key :: .colon :: ts => (value? ts).map fun p => ((key, p.1), p.2)
  | _ => none

/-- Reads a value, in a number of steps. -/
def value? : Nat → List Token → Option (Json × List Token)
  | _ + 1, .text value :: ts => some (.text value, ts)
  | steps + 1, .openList :: ts =>
    (parts? (value? steps) .closeList steps ts).map fun p => (.list p.1, p.2)
  | steps + 1, .openObject :: ts =>
    (parts? (member? (value? steps)) .closeObject steps ts).map fun p => (.object p.1, p.2)
  | _, _ => none

section
variable {α : Type} {part? : List Token → Option (α × List Token)} {opening closing : Token}
  {spelled : α → List Token}

theorem eq_of_more? (hpart : ∀ {ts part rest}, part? ts = some (part, rest) → ts = spelled part ++ rest) :
    ∀ {steps : Nat} {ts : List Token} {parts : List α} {rest : List Token},
      more? part? closing steps ts = some (parts, rest) →
        ts = parts.flatMap (.comma :: spelled ·) ++ closing :: rest
  | 0, [], _, _, h | 0, _ :: _, _, _, h | _ + 1, [], _, _, h => by cases h
  | steps + 1, token :: ts, parts, rest, h => by
    rw [more?] at h
    split at h
    · rename_i hclosing
      cases h
      rw [hclosing]
      rfl
    · split at h
      · rename_i hcomma
        obtain ⟨⟨part, mid⟩, hfirst, h⟩ := Option.bind_eq_some_iff.1 h
        obtain ⟨⟨more, last⟩, hmore, h⟩ := Option.bind_eq_some_iff.1 h
        cases h
        rw [hcomma, hpart hfirst, eq_of_more? hpart hmore]
        simp
      · cases h

theorem eq_of_parts? (hpart : ∀ {ts part rest}, part? ts = some (part, rest) → ts = spelled part ++ rest)
    {steps : Nat} {ts : List Token} {parts : List α} {rest : List Token}
    (h : parts? part? closing steps ts = some (parts, rest)) :
    opening :: ts = bracketed opening closing (parts.map spelled) ++ rest := by
  obtain _ | ⟨token, ts⟩ := ts
  · cases h
  rw [parts?] at h
  split at h
  · rename_i hclosing
    cases h
    rw [hclosing]
    rfl
  · obtain ⟨⟨part, mid⟩, hfirst, h⟩ := Option.bind_eq_some_iff.1 h
    obtain ⟨⟨more, last⟩, hmore, h⟩ := Option.bind_eq_some_iff.1 h
    cases h
    rw [hpart hfirst, eq_of_more? hpart hmore]
    simp [bracketed, List.flatMap_map]

theorem more?_append (hclosing : closing ≠ .comma) (rest : List Token) : ∀ {parts : List α} {steps : Nat},
    (∀ part ∈ parts, ∀ rest, part? (spelled part ++ rest) = some (part, rest)) → parts.length < steps →
      more? part? closing steps (parts.flatMap (.comma :: spelled ·) ++ closing :: rest) = some (parts, rest)
  | _, 0, _, h => by simp at h
  | [], _ + 1, _, _ => if_pos rfl
  | part :: parts, steps + 1, hparts, h => by
    obtain ⟨hpart, hmore⟩ := List.forall_mem_cons.1 hparts
    have hrest := more?_append hclosing rest hmore (Nat.lt_of_succ_lt_succ h)
    rw [List.flatMap_cons]
    simp only [List.cons_append, List.append_assoc]
    rw [more?, if_neg hclosing.symm, if_pos rfl, hpart]
    simp [hrest]

theorem parts?_append (hclosing : closing ≠ .comma) (rest : List Token) {parts : List α} {steps : Nat}
    (hparts : ∀ part ∈ parts, ∀ rest, part? (spelled part ++ rest) = some (part, rest))
    (hfirst : ∀ part ∈ parts, ∃ token ts, spelled part = token :: ts ∧ token ≠ closing)
    (hsteps : parts.length ≤ steps) {ts : List Token}
    (hts : opening :: ts = bracketed opening closing (parts.map spelled)) :
    parts? part? closing steps (ts ++ rest) = some (parts, rest) := by
  obtain _ | ⟨part, parts⟩ := parts
  · cases hts
    simp [parts?]
  · obtain ⟨hpart, hmore⟩ := List.forall_mem_cons.1 hparts
    obtain ⟨token, more, htoken, hne⟩ := hfirst part (List.mem_cons_self ..)
    have hrest : more? part? closing steps (parts.flatMap (.comma :: spelled ·) ++ closing :: rest) =
        some (parts, rest) := more?_append hclosing rest hmore hsteps
    have hpart' := hpart (parts.flatMap (.comma :: spelled ·) ++ closing :: rest)
    have hall : ts ++ rest = spelled part ++ (parts.flatMap (.comma :: spelled ·) ++ closing :: rest) := by
      cases hts
      simp [List.flatMap_map]
    rw [hall]
    rw [htoken, List.cons_append] at hpart' ⊢
    rw [parts?, if_neg hne, hpart']
    simp [hrest]

end

theorem tokens_list (items : List Json) :
    tokens (.list items) = bracketed .openList .closeList (items.map tokens) := by
  rw [← itemTokens_eq_map]
  rfl

theorem tokens_object (members : List (String × Json)) : tokens (.object members) =
    bracketed .openObject .closeObject
      (members.map fun member => .text member.1 :: .colon :: tokens member.2) := by
  rw [← memberTokens_eq_map]
  rfl

theorem eq_of_member? {value? : List Token → Option (Json × List Token)}
    (hvalue : ∀ {ts value rest}, value? ts = some (value, rest) → ts = value.tokens ++ rest)
    {ts rest : List Token} {member : String × Json} (h : member? value? ts = some (member, rest)) :
    ts = .text member.1 :: .colon :: member.2.tokens ++ rest := by
  unfold member? at h
  split at h
  · obtain ⟨⟨value, last⟩, hread, h⟩ := Option.map_eq_some_iff.1 h
    cases h
    rw [hvalue hread]
    rfl
  · cases h

/-- What is read as a value has its tokens. -/
theorem eq_of_value? : ∀ {steps : Nat} {ts : List Token} {value : Json} {rest : List Token},
    value? steps ts = some (value, rest) → ts = value.tokens ++ rest
  | 0, ts, _, _, h => by cases h
  | steps + 1, ts, value, rest, h => by
    unfold value? at h
    split at h
    · cases h
      rfl
    · rename_i hsteps
      cases hsteps
      obtain ⟨⟨items, last⟩, hitems, h⟩ := Option.map_eq_some_iff.1 h
      cases h
      rw [tokens_list]
      exact eq_of_parts? eq_of_value? hitems
    · rename_i hsteps
      cases hsteps
      obtain ⟨⟨members, last⟩, hmembers, h⟩ := Option.map_eq_some_iff.1 h
      cases h
      rw [tokens_object]
      exact eq_of_parts? (eq_of_member? eq_of_value?) hmembers
    · cases h

/-- A value does not start with a mark that closes one. -/
theorem exists_tokens_eq_cons (value : Json) :
    ∃ token ts, value.tokens = token :: ts ∧ token ≠ .closeList ∧ token ≠ .closeObject := by
  cases value with
  | text value => exact ⟨_, [], rfl, by simp, by simp⟩
  | list items =>
    rw [tokens_list]
    cases items.map tokens <;> exact ⟨_, _, rfl, by simp, by simp⟩
  | object members =>
    rw [tokens_object]
    cases members.map _ <;> exact ⟨_, _, rfl, by simp, by simp⟩

theorem length_flatMap_comma (parts : List (List Token)) :
    parts.length ≤ (parts.flatMap (.comma :: ·)).length ∧
      ∀ part ∈ parts, part.length ≤ (parts.flatMap (.comma :: ·)).length := by
  induction parts with
  | nil => simp
  | cons first parts ih =>
    obtain ⟨hcount, hparts⟩ := ih
    simp only [List.flatMap_cons, List.length_append, List.length_cons, List.forall_mem_cons]
    exact ⟨by omega, by omega, fun part hpart => Nat.le_trans (hparts part hpart) (by omega)⟩

/-- Behind an opening mark there are as many tokens as there are parts, and as any part has. -/
theorem exists_bracketed_eq_cons (opening closing : Token) (parts : List (List Token)) :
    ∃ inner, bracketed opening closing parts = opening :: inner ∧ parts.length ≤ inner.length ∧
      ∀ part ∈ parts, part.length ≤ inner.length := by
  cases parts with
  | nil => exact ⟨[closing], rfl, by simp, by simp⟩
  | cons first parts =>
    obtain ⟨hcount, hparts⟩ := length_flatMap_comma parts
    refine ⟨first ++ parts.flatMap (.comma :: ·) ++ [closing], rfl, ?_, List.forall_mem_cons.2
      ⟨?_, fun part hpart => Nat.le_trans (hparts part hpart) ?_⟩⟩
    all_goals
      simp only [List.length_append, List.length_cons, List.length_nil]
      omega

/-- The tokens of a value are read as the value. -/
theorem value?_tokens (value : Json) : ∀ {steps : Nat} (rest : List Token), value.tokens.length ≤ steps →
    value? steps (value.tokens ++ rest) = some (value, rest) := by
  induction value with
  | text value =>
    intro steps rest hsteps
    obtain _ | steps := steps
    · cases hsteps
    · rfl
  | list items ih =>
    intro steps rest hsteps
    obtain ⟨inner, hinner, hcount, hlength⟩ :=
      exists_bracketed_eq_cons .openList .closeList (items.map tokens)
    rw [tokens_list, hinner] at hsteps ⊢
    obtain _ | steps := steps
    · cases hsteps
    have hle := Nat.le_of_succ_le_succ hsteps
    have hitems : parts? (value? steps) .closeList steps (inner ++ rest) = some (items, rest) := by
      refine parts?_append (by simp) rest (fun item hitem rest => ih item hitem rest ?_)
        (fun item _ => ?_) ?_ hinner.symm
      · exact Nat.le_trans (hlength _ (List.mem_map_of_mem hitem)) hle
      · obtain ⟨token, ts, htokens, hne, -⟩ := exists_tokens_eq_cons item
        exact ⟨token, ts, htokens, hne⟩
      · exact Nat.le_trans (by simpa using hcount) hle
    show (parts? (value? steps) .closeList steps (inner ++ rest)).map _ = _
    rw [hitems]
    rfl
  | object members ih =>
    intro steps rest hsteps
    obtain ⟨inner, hinner, hcount, hlength⟩ := exists_bracketed_eq_cons .openObject .closeObject
      (members.map fun member => .text member.1 :: .colon :: tokens member.2)
    rw [tokens_object, hinner] at hsteps ⊢
    obtain _ | steps := steps
    · cases hsteps
    have hle := Nat.le_of_succ_le_succ hsteps
    have hmembers : parts? (member? (value? steps)) .closeObject steps (inner ++ rest) =
        some (members, rest) := by
      refine parts?_append (by simp) rest (fun member hmember rest => ?_)
        (fun member _ => ⟨_, _, rfl, by simp⟩) ?_ hinner.symm
      · have hlt := Nat.le_trans (hlength _ (List.mem_map_of_mem hmember)) hle
        simp only [List.length_cons] at hlt
        show (value? steps (member.2.tokens ++ rest)).map _ = _
        rw [ih member hmember rest (by omega)]
        rfl
      · exact Nat.le_trans (by simpa using hcount) hle
    show (parts? (member? (value? steps)) .closeObject steps (inner ++ rest)).map _ = _
    rw [hmembers]
    rfl

/-- **Values are read as their tokens are.** -/
theorem value?_eq_some_iff {steps : Nat} {ts rest : List Token} {value : Json} (hsteps : ts.length ≤ steps) :
    value? steps ts = some (value, rest) ↔ ts = value.tokens ++ rest := by
  refine ⟨eq_of_value?, ?_⟩
  rintro rfl
  exact value?_tokens value rest (by simp at hsteps; omega)

/-! ## Whole texts -/

/-- Reads a text. -/
def read (s : String) : Option Json := do
  let ts ← tokens? s.toList.length s.toList
  match value? ts.length ts with
  | some (value, []) => some value
  | _ => none

/-- **A text is read as the value that it denotes.** -/
theorem read_eq_some_iff {s : String} {value : Json} : read s = some value ↔ Denotes s value := by
  constructor
  · intro h
    obtain ⟨ts, hts, h⟩ := Option.bind_eq_some_iff.1 h
    split at h
    · rename_i value' hvalue
      cases h
      rw [tokens?_eq_some_iff (Nat.le_refl _), eq_of_value? hvalue, List.append_nil] at hts
      exact hts
    · cases h
  · intro h
    have hvalue : value? value.tokens.length value.tokens = some (value, []) :=
      (value?_eq_some_iff (Nat.le_refl _)).2 (List.append_nil _).symm
    unfold read
    rw [(tokens?_eq_some_iff (Nat.le_refl _)).2 h]
    simp [hvalue]

/-- A text denotes at most one value. -/
theorem Denotes.unique {s : String} {value other : Json} (h : Denotes s value) (h' : Denotes s other) :
    value = other :=
  Option.some.inj ((read_eq_some_iff.2 h).symm.trans (read_eq_some_iff.2 h'))

example : read "\x7b \"a\\u00e9\\/\" : [ [ ] , \"\" ]\n\x7d" =
    some (.object [("aé/", .list [.list [], .text ""])]) := by rfl

end RouteAtlas.Json
