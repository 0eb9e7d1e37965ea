/-
  RouteAtlas: balanced brackets.

  * `readBracket` reads one character of a text; what is open is known by the brackets that close it.
    The second character of an arrow `=>` is no bracket;
  * `Balanced t`: every bracket of `t` is closed by one of its kind, in order;
  * `Balanced.append`, `Balanced.enclose`, `Balanced.joinWith` build balanced texts;
  * `balanced_middle_iff`: what stands between the first and the last bracket of a balanced text is
    balanced exactly if the one is closed by the other.
-/
import Mathlib.Data.List.Basic
import RouteAtlas.Proofs.Text.Cut

namespace RouteAtlas.Text

/-! ## Reading brackets -/

/-- What closes an opening bracket. -/
def closing? : Char → Option Char
  | '(' => some ')'
  | '[' => some ']'
  | '{' => some '}'
  | '<' => some '>'
  | _ => none

/-- Whether a character closes a bracket. -/
def isClosing (c : Char) : Bool :=
  c == ')' || c == ']' || c == '}' || c == '>'

/-- What was read of a text. -/
structure Brackets where
  /-- What closes the open brackets, the innermost first. -/
  opened : List Char := []
  /-- Whether the last character was an equals sign. -/
  equals : Bool := false
  deriving DecidableEq

/-- Reads one character, unless it closes what is not open. -/
def readBracket (b : Brackets) (c : Char) : Option Brackets :=
  match closing? c with
  | some close => some ⟨close :: b.opened, false⟩
  | none =>
    if isClosing c && !(b.equals && c == '>') then
      match b.opened with
      | close :: rest => if close == c then some ⟨rest, false⟩ else none
      | [] => none
    else some ⟨b.opened, c == '='⟩

/-- Reads several characters. -/
def readBrackets (b : Brackets) (cs : List Char) : Option Brackets :=
  cs.foldlM readBracket b

/-- Every bracket of a text is closed by one of its kind, in order. -/
def Balanced (t : String) : Prop :=
  (readBrackets {} t.toList).map Brackets.opened = some []

instance (t : String) : Decidable (Balanced t) :=
  inferInstanceAs (Decidable (_ = _))

theorem balanced_iff {t : String} :
    Balanced t ↔ ∃ equals, readBrackets {} t.toList = some ⟨[], equals⟩ := by
  unfold Balanced
  rw [Option.map_eq_some_iff]
  constructor
  · rintro ⟨⟨opened, equals⟩, h, rfl⟩; exact ⟨equals, h⟩
  · rintro ⟨equals, h⟩; exact ⟨_, h, rfl⟩

theorem readBrackets_cons (b : Brackets) (c : Char) (cs : List Char) :
    readBrackets b (c :: cs) = (readBracket b c).bind fun b' => readBrackets b' cs := by
  unfold readBrackets
  rw [List.foldlM_cons]
  rfl

theorem readBrackets_singleton (b : Brackets) (c : Char) : readBrackets b [c] = readBracket b c := by
  rw [readBrackets_cons]
  cases readBracket b c <;> rfl

theorem readBrackets_append (b : Brackets) (cs ds : List Char) :
    readBrackets b (cs ++ ds) = (readBrackets b cs).bind fun b' => readBrackets b' ds := by
  unfold readBrackets
  rw [List.foldlM_append]
  rfl

/-! ## What is open below -/

/-- What was read, with more open below. -/
def Brackets.above (b : Brackets) (base : List Char) : Brackets :=
  ⟨b.opened ++ base, b.equals⟩

/-- What is open below does not matter for a character that can be read without it. -/
theorem readBracket_above {b b' : Brackets} {c : Char} (h : readBracket b c = some b')
    (base : List Char) : readBracket (b.above base) c = some (b'.above base) := by
  unfold readBracket at h ⊢
  split at h
  · cases h; rfl
  · rename_i hopen
    split at h
    · rename_i hclosing
      have hclosing' : (isClosing c && !((b.above base).equals && c == '>')) = true := hclosing
      rw [if_pos hclosing']
      split at h
      · rename_i close rest hb
        split at h
        · rename_i hc
          cases h
          simp [Brackets.above, hb, hc]
        · cases h
      · cases h
    · rename_i hclosing
      have hclosing' : ¬ (isClosing c && !((b.above base).equals && c == '>')) = true := hclosing
      rw [if_neg hclosing']
      cases h
      rfl

theorem readBrackets_above {cs : List Char} {b b' : Brackets} (h : readBrackets b cs = some b')
    (base : List Char) : readBrackets (b.above base) cs = some (b'.above base) := by
  induction cs generalizing b with
  | nil => cases h; rfl
  | cons c cs ih =>
    rw [readBrackets_cons] at h ⊢
    obtain ⟨next, hc, h⟩ := Option.bind_eq_some_iff.1 h
    rw [readBracket_above hc base]
    exact ih h

theorem readBracket_equals {b b' : Brackets} {c : Char} (h : readBracket b c = some b') :
    b'.equals = (c == '=') := by
  have hno : ∀ d : Char, d ≠ '=' → false = (d == '=') := fun d hd => (beq_eq_false_iff_ne.2 hd).symm
  unfold readBracket at h
  split at h
  · rename_i close hc
    cases h
    refine hno c ?_
    rintro rfl
    cases hc
  · split at h
    · rename_i hclosing
      have hne : c ≠ '=' := by
        rintro rfl
        simp [isClosing] at hclosing
      split at h
      · split at h
        · cases h; exact hno c hne
        · cases h
      · cases h
    · cases h; rfl

/-- Whether an equals sign was read last. -/
theorem readBrackets_equals {cs : List Char} {b b' : Brackets} {c : Char}
    (h : readBrackets b (cs ++ [c]) = some b') : b'.equals = (c == '=') := by
  rw [readBrackets_append] at h
  obtain ⟨next, -, h⟩ := Option.bind_eq_some_iff.1 h
  rw [readBrackets_singleton] at h
  exact readBracket_equals h

/-! ## Balanced texts -/

variable {s t : String}

/-- Behind an equals sign a balanced text reads as it reads alone: it does not start with a bracket
    that closes. -/
theorem readBracket_behind_equals {b' : Brackets} {c : Char} (h : readBracket {} c = some b')
    (equals : Bool) : readBracket ⟨[], equals⟩ c = some b' := by
  unfold readBracket at h ⊢
  split at h
  · exact h
  · split at h
    · cases h
    · rename_i hclosing
      have hc : isClosing c = false := by simpa using hclosing
      simpa [hc] using h

theorem Balanced.append (hs : Balanced s) (ht : Balanced t) : Balanced (s ++ t) := by
  obtain ⟨equals, hs⟩ := balanced_iff.1 hs
  obtain ⟨equals', ht⟩ := balanced_iff.1 ht
  rw [balanced_iff, String.toList_append, readBrackets_append, hs, Option.bind_some]
  cases htext : t.toList with
  | nil => exact ⟨equals, rfl⟩
  | cons c cs =>
    rw [htext, readBrackets_cons] at ht
    obtain ⟨next, hc, ht⟩ := Option.bind_eq_some_iff.1 ht
    rw [readBrackets_cons, readBracket_behind_equals hc]
    exact ⟨equals', ht⟩

theorem Balanced.joinWith {sep : String} (hsep : Balanced sep) : ∀ {parts : List String},
    (∀ p ∈ parts, Balanced p) → Balanced (joinWith sep parts)
  | [], _ => by rw [joinWith_nil]; decide
  | [p], h => by rw [joinWith_singleton]; exact h p (List.mem_cons_self ..)
  | p :: q :: parts, h => by
    rw [joinWith_cons_cons]
    obtain ⟨hp, hrest⟩ := List.forall_mem_cons.1 h
    exact (hp.append hsep).append (Balanced.joinWith hsep hrest)

/-- A text does not end with an equals sign, which would make an arrow of what comes behind it. -/
theorem equals_of_endsWith {b : Brackets} (h : readBrackets {} t.toList = some b)
    (ht : endsWith "=" t = false) : b.equals = false := by
  rcases List.eq_nil_or_concat' t.toList with hnil | ⟨cs, c, hc⟩
  · rw [hnil] at h; cases h; rfl
  · rw [hc] at h
    rw [readBrackets_equals h]
    refine beq_eq_false_iff_ne.2 fun he => ?_
    have hend : t = .ofList cs ++ "=" := by
      apply String.toList_inj.1
      rw [hc, he, String.toList_append, String.toList_ofList]
      rfl
    rw [endsWith_iff.2 ⟨_, hend⟩] at ht
    cases ht

/-- A text that opens one bracket, and what closes it. -/
structure Encloses (close : Char) (start stop : String) : Prop where
  start : readBrackets {} start.toList = some ⟨[close], false⟩
  stop : stop.toList = [close]
  closes : isClosing close = true
  opens_nothing : closing? close = none

/-- What a closing bracket does if it is no end of an arrow. -/
theorem readBracket_closing {close : Char} {start stop : String} (h : Encloses close start stop)
    {b : Brackets} (hb : close = '>' → b.equals = false) : readBracket b close =
      match b.opened with
      | top :: rest => if top == close then some ⟨rest, false⟩ else none
      | [] => none := by
  have hcounts : (isClosing close && !(b.equals && close == '>')) = true := by
    rw [h.closes]
    by_cases hc : close = '>'
    · simp [hb hc]
    · simp [hc]
  unfold readBracket
  rw [h.opens_nothing]
  simp only
  rw [if_pos hcounts]

/-- What is read of a text between brackets. -/
theorem readBrackets_enclosed {close : Char} {start stop : String} (h : Encloses close start stop)
    (middle : String) : readBrackets {} (start ++ middle ++ stop).toList =
      (readBrackets (Brackets.above {} [close]) middle.toList).bind fun b => readBracket b close := by
  rw [String.toList_append, String.toList_append, h.stop, readBrackets_append, readBrackets_append,
    h.start, Option.bind_some]
  show (readBrackets (Brackets.above {} [close]) middle.toList).bind _ = _
  exact Option.bind_congr fun b _ => readBrackets_singleton b close

/-- A balanced text between brackets is balanced. -/
theorem Balanced.enclose {close : Char} {start stop : String} (h : Encloses close start stop)
    (ht : Balanced t) (hend : close = '>' → endsWith "=" t = false) :
    Balanced (start ++ t ++ stop) := by
  obtain ⟨equals, ht⟩ := balanced_iff.1 ht
  have hequals : close = '>' → equals = false := fun hc => equals_of_endsWith ht (hend hc)
  refine balanced_iff.2 ⟨false, ?_⟩
  rw [readBrackets_enclosed h, readBrackets_above ht, Option.bind_some, readBracket_closing h hequals]
  simp [Brackets.above]

/-! ## Between the first bracket and the last -/

/-- The bracket that the start of a text opens is not closed in the middle of it. -/
def ClosedLast (start stop middle : String) : Prop :=
  ∀ front back, middle = front ++ stop ++ back → ¬ Balanced (start ++ front ++ stop)

/-- One character read with a closing bracket open below: it is read without it, or it is the one. -/
theorem readBracket_below {b b' : Brackets} {c close : Char}
    (h : readBracket (b.above [close]) c = some b') :
    (∃ b₀, readBracket b c = some b₀ ∧ b' = b₀.above [close]) ∨ c = close ∧ b' = {} := by
  unfold readBracket at h
  split at h
  · rename_i d hopen
    cases h
    refine Or.inl ⟨⟨d :: b.opened, false⟩, ?_, rfl⟩
    unfold readBracket
    rw [hopen]
  · rename_i hopen
    split at h
    · rename_i hclosing
      have hclosing' : (isClosing c && !(b.equals && c == '>')) = true := hclosing
      split at h
      · rename_i top rest hb
        split at h
        · rename_i htop
          cases h
          have hb : b.opened ++ [close] = top :: rest := hb
          cases hopened : b.opened with
          | nil =>
            rw [hopened] at hb
            obtain ⟨rfl, rfl⟩ := List.cons.inj hb
            exact Or.inr ⟨(beq_iff_eq.1 htop).symm, rfl⟩
          | cons top' rest' =>
            rw [hopened] at hb
            obtain ⟨rfl, rfl⟩ := List.cons.inj hb
            refine Or.inl ⟨⟨rest', false⟩, ?_, rfl⟩
            unfold readBracket
            rw [hopen]
            simp only
            rw [if_pos hclosing', hopened]
            simp only
            rw [if_pos htop]
        · cases h
      · cases h
    · rename_i hclosing
      have hclosing' : ¬ (isClosing c && !(b.equals && c == '>')) = true := hclosing
      cases h
      refine Or.inl ⟨⟨b.opened, c == '='⟩, ?_, rfl⟩
      unfold readBracket
      rw [hopen]
      simp only
      rw [if_neg hclosing']

/-- A text read with a closing bracket open below: it is read without it, or it closes the bracket on
    the way. -/
theorem readBrackets_below {close : Char} : ∀ {cs : List Char} {b b' : Brackets},
    readBrackets (b.above [close]) cs = some b' →
      (∃ b₀, readBrackets b cs = some b₀ ∧ b' = b₀.above [close]) ∨
      ∃ front back, cs = front ++ close :: back ∧
        readBrackets (b.above [close]) (front ++ [close]) = some {}
  | [], b, b', h => by
    cases h
    exact Or.inl ⟨b, rfl, rfl⟩
  | c :: cs, b, b', h => by
    rw [readBrackets_cons] at h
    obtain ⟨next, hc, h⟩ := Option.bind_eq_some_iff.1 h
    rcases readBracket_below hc with ⟨b₀, hb₀, rfl⟩ | ⟨rfl, rfl⟩
    · rcases readBrackets_below h with ⟨b₁, hb₁, rfl⟩ | ⟨front, back, rfl, hfront⟩
      · refine Or.inl ⟨b₁, ?_, rfl⟩
        rw [readBrackets_cons, hb₀]
        exact hb₁
      · refine Or.inr ⟨c :: front, back, rfl, ?_⟩
        rw [List.cons_append, readBrackets_cons, hc]
        exact hfront
    · refine Or.inr ⟨[], cs, rfl, ?_⟩
      rw [List.nil_append, readBrackets_cons, hc]
      rfl

/-- What is open before the bracket that closes the rest of it. -/
theorem opened_of_closed {close : Char} (hopens : closing? close = none) {b b' : Brackets}
    (h : readBracket b close = some b') (hb : b'.opened = []) :
    b.opened = [close] ∨ b.opened = [] := by
  unfold readBracket at h
  rw [hopens] at h
  simp only at h
  split at h
  · split at h
    · rename_i top rest hopened
      split at h
      · rename_i htop
        cases h
        have hrest : rest = [] := hb
        rw [hopened, hrest, beq_iff_eq.1 htop]
        exact Or.inl rfl
      · cases h
    · cases h
  · cases h
    exact Or.inr hb

/-- **Between the first bracket and the last.**  What stands between them in a balanced text is
    balanced exactly if the one is closed by the other. -/
theorem balanced_middle_iff {close : Char} {start stop middle : String}
    (h : Encloses close start stop) (ht : Balanced (start ++ middle ++ stop)) :
    Balanced middle ↔ ClosedLast start stop middle := by
  constructor
  · -- With the bracket still open below, the middle never closes it.
    rintro hmiddle front back rfl hclosed
    obtain ⟨_, hmiddle⟩ := balanced_iff.1 hmiddle
    rw [String.toList_append, String.toList_append, h.stop, readBrackets_append,
      readBrackets_append] at hmiddle
    obtain ⟨b₂, hfront, -⟩ := Option.bind_eq_some_iff.1 hmiddle
    obtain ⟨b₁, hfront, hb₂⟩ := Option.bind_eq_some_iff.1 hfront
    rw [readBrackets_singleton] at hb₂
    obtain ⟨_, hclosed⟩ := balanced_iff.1 hclosed
    rw [readBrackets_enclosed h, readBrackets_above hfront, Option.bind_some,
      readBracket_above hb₂] at hclosed
    have hopened := congrArg Brackets.opened (Option.some.inj hclosed)
    simp [Brackets.above] at hopened
  · intro hlast
    obtain ⟨_, hall⟩ := balanced_iff.1 ht
    rw [readBrackets_enclosed h] at hall
    obtain ⟨b₁, hmiddle, hall⟩ := Option.bind_eq_some_iff.1 hall
    rcases readBrackets_below hmiddle with ⟨b₀, hb₀, rfl⟩ | ⟨front, back, hsplit, hfront⟩
    · have hopened : b₀.opened = [] := by
        rcases opened_of_closed h.opens_nothing hall rfl with ho | ho
        · simpa [Brackets.above] using ho
        · simp [Brackets.above] at ho
      exact balanced_iff.2 ⟨b₀.equals, by rw [hb₀, ← hopened]⟩
    · exfalso
      refine hlast (.ofList front) (.ofList back) ?_ (balanced_iff.2 ⟨false, ?_⟩)
      · apply String.toList_inj.1
        simp [hsplit, h.stop]
      · rw [readBrackets_append] at hfront
        obtain ⟨b, hb, hc⟩ := Option.bind_eq_some_iff.1 hfront
        rw [readBrackets_singleton] at hc
        rw [readBrackets_enclosed h, String.toList_ofList, hb, Option.bind_some]
        exact hc

theorem encloses_round : Encloses ')' "(" ")" := ⟨by decide, by decide, rfl, rfl⟩

end RouteAtlas.Text
