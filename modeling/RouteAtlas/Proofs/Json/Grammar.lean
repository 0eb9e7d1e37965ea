/-
  RouteAtlas: the grammar of JSON texts.

  A JSON text is a row of tokens with white space between them.  Of the values there are texts, lists and
  objects here; their tokens are those that the standard gives them.

  * `Json.induct` is induction over values;
  * `Character`, `Quoted` and `Spells`: how the characters of texts, whole texts and tokens are spelled, each
    in front of what follows;
  * `Json.tokens` are the tokens of a value;
  * `Json.Denotes`: a text denotes a value.
-/
import Mathlib.Data.List.Basic
import RouteAtlas.Json

namespace RouteAtlas

namespace Json

/-! ## Values -/

/-- Induction over values. -/
@[elab_as_elim, induction_eliminator]
theorem induct {motive : Json → Prop} (text : ∀ value, motive (.text value))
    (list : ∀ items, (∀ item ∈ items, motive item) → motive (.list items))
    (object : ∀ members, (∀ member ∈ members, motive member.2) → motive (.object members))
    (value : Json) : motive value :=
  @Json.rec motive (fun items => ∀ item ∈ items, motive item)
    (fun members => ∀ member ∈ members, motive member.2) (fun member => motive member.2)
    text list object (List.forall_mem_nil _) (fun _ _ hitem hrest => List.forall_mem_cons.2 ⟨hitem, hrest⟩)
    (List.forall_mem_nil _) (fun _ _ hmember hrest => List.forall_mem_cons.2 ⟨hmember, hrest⟩)
    (fun _ _ hvalue => hvalue) value

/-! ## Tokens -/

/-- The smallest parts of a JSON text. -/
inductive Token where
  | openList
  | closeList
  | openObject
  | closeObject
  | comma
  | colon
  | text (value : String)
  deriving DecidableEq, Repr

/-- The tokens of parts between two marks, with commas between them. -/
def bracketed (opening closing : Token) : List (List Token) → List Token
  | [] => [opening, closing]
  | part :: parts => opening :: part ++ parts.flatMap (.comma :: ·) ++ [closing]

mutual
/-- The tokens of a value. -/
def tokens : Json → List Token
  | text value => [.text value]
  | list items => bracketed .openList .closeList (itemTokens items)
  | object members => bracketed .openObject .closeObject (memberTokens members)
termination_by structural value => value
/-- The tokens of each item of a list. -/
def itemTokens : List Json → List (List Token)
  | [] => []
  | item :: rest => tokens item :: itemTokens rest
termination_by structural items => items
/-- The tokens of each member of an object. -/
def memberTokens : List (String × Json) → List (List Token)
  | [] => []
  | (key, value) :: rest => (.text key :: .colon :: tokens value) :: memberTokens rest
termination_by structural members => members
end

theorem itemTokens_eq_map : ∀ items : List Json, itemTokens items = items.map tokens
  | [] => rfl
  | item :: rest => congrArg (tokens item :: ·) (itemTokens_eq_map rest)

theorem memberTokens_eq_map : ∀ members : List (String × Json),
    memberTokens members = members.map fun member => .text member.1 :: .colon :: tokens member.2
  | [] => rfl
  | (_, _) :: rest => congrArg (_ :: ·) (memberTokens_eq_map rest)

/-! ## Characters -/

/-- The letters that stand for characters behind a backslash. -/
def shortEscapes : List (Char × Char) :=
  [('"', '"'), ('\\', '\\'), ('/', '/'), ('b', '\x08'), ('f', '\x0c'), ('n', '\n'), ('r', '\r'),
    ('t', '\t')]

/-- The value of a digit of a hexadecimal number, in letters of either case. -/
def hexValue? (c : Char) : Option Nat :=
  if '0' ≤ c ∧ c ≤ '9' then some (c.toNat - 48)
  else if 'a' ≤ c ∧ c ≤ 'f' then some (c.toNat - 87)
  else if 'A' ≤ c ∧ c ≤ 'F' then some (c.toNat - 55)
  else none

/-- Four hexadecimal digits, and what follows them. -/
def unit? : List Char → Option (Nat × List Char)
  | a :: b :: c :: d :: rest => do
    return (((← hexValue? a) * 4096 + (← hexValue? b) * 256 + (← hexValue? c) * 16 + (← hexValue? d)),
      rest)
  | _ => none

/-- The character for two units of which the first one opens a pair and the second one closes it. -/
def ofPair (high low : Nat) : Char :=
  .ofNat (0x10000 + (high - 0xd800) * 0x400 + (low - 0xdc00))

/-- How a character is spelled inside quotes. -/
inductive Character : List Char → Char → List Char → Prop
  | plain {c rest} : c ≠ '"' → c ≠ '\\' → 32 ≤ c.toNat → Character (c :: rest) c rest
  | short {letter c rest} : shortEscapes.lookup letter = some c → Character ('\\' :: letter :: rest) c rest
  | unit {cs n rest} : unit? cs = some (n, rest) → n.isValidChar →
      Character ('\\' :: 'u' :: cs) (.ofNat n) rest
  | pair {cs high more low rest} : unit? cs = some (high, '\\' :: 'u' :: more) →
      unit? more = some (low, rest) → 0xd800 ≤ high → high < 0xdc00 → 0xdc00 ≤ low → low < 0xe000 →
        Character ('\\' :: 'u' :: cs) (ofPair high low) rest

/-- How characters are spelled behind an opening quote, up to the closing one. -/
inductive Quoted : List Char → List Char → List Char → Prop
  | close {rest} : Quoted ('"' :: rest) [] rest
  | more {cs c mid value rest} : Character cs c mid → Quoted mid value rest → Quoted cs (c :: value) rest

/-! ## Texts -/

/-- White space between tokens. -/
def isSpace (c : Char) : Bool :=
  c == ' ' || c == '\t' || c == '\n' || c == '\r'

/-- The token that a mark is. -/
def mark? (c : Char) : Option Token :=
  [('[', .openList), (']', .closeList), ('\x7b', .openObject), ('\x7d', .closeObject), (',', .comma),
    (':', .colon)].lookup c

/-- How tokens are spelled. -/
inductive Spells : List Char → List Token → Prop
  | nil : Spells [] []
  | space {c cs tokens} : isSpace c = true → Spells cs tokens → Spells (c :: cs) tokens
  | mark {c token cs tokens} : mark? c = some token → Spells cs tokens → Spells (c :: cs) (token :: tokens)
  | text {cs value rest tokens} : Quoted cs value rest → Spells rest tokens →
      Spells ('"' :: cs) (.text (.ofList value) :: tokens)

/-- A text denotes a value. -/
def Denotes (s : String) (value : Json) : Prop :=
  Spells s.toList value.tokens

end Json

end RouteAtlas
