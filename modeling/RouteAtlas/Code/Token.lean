/-
  RouteAtlas: the tokens of a module.

  A module is cut into words, private names, numbers, strings, punctuation and the opening mark of
  templates; white space and comments stand between tokens.  A slash is read as punctuation here:
  where an operand is wanted the reader takes it for the start of a regular expression.

  * `skipWhile` moves over characters of a class;
  * `gap` moves over white space and comments, `Token.after` reads the token behind them.
-/
import RouteAtlas.Code.Node

namespace RouteAtlas.Code

/-! ## Characters of a source text -/

/-- The character at an offset; the end of the text reads as NUL. -/
def charAt (s : String) (i : Nat) : Char :=
  if i < s.utf8ByteSize then String.Pos.Raw.get s ⟨i⟩ else '\x00'

/-- The offset of the character after the one at an offset. -/
def next (s : String) (i : Nat) : Nat :=
  i + (charAt s i).utf8Size

theorem lt_next (s : String) (i : Nat) : i < next s i := by
  have := (charAt s i).utf8Size_pos
  simp only [next]; omega

/-- The part of a source text between two offsets. -/
def slice (s : String) (start stop : Nat) : String :=
  String.Pos.Raw.extract s ⟨start⟩ ⟨stop⟩

/-- White space between tokens: the ASCII blanks, the Unicode spaces and line separators, the byte
    order mark, the word joiner and the zero-width space. -/
def isSpace (c : Char) : Bool :=
  let n := c.toNat
  (decide (9 ≤ n) && decide (n ≤ 13)) || n == 32 || n == 0xa0 || n == 0x1680 ||
    (decide (0x2000 ≤ n) && decide (n ≤ 0x200b)) || n == 0x2028 || n == 0x2029 || n == 0x202f ||
    n == 0x205f || n == 0x2060 || n == 0x3000 || n == 0xfeff

/-- The white space that ends no word in a line of print: the no-break spaces and what has no
    width. -/
def joiningSpaces : List Nat :=
  [0xa0, 0x2007, 0x200b, 0x202f, 0x2060, 0xfeff]

/-- White space that ends a word in a line of print. -/
def isBreakingSpace (c : Char) : Bool :=
  isSpace c && !joiningSpaces.contains c.toNat

/-- The line feed and the Unicode separators of lines and paragraphs. -/
def isLineBreak (c : Char) : Bool :=
  c == '\n' || c.toNat == 0x2028 || c.toNat == 0x2029

/-- The characters that end a line comment. -/
def isLineEnd (c : Char) : Bool :=
  c == '\r' || isLineBreak c

/-- The ASCII characters that no word holds, besides the controls. -/
def delimiters : List Char :=
  [' ', ':', ';', '\x60', '"', '\'', '@', '#', '.', ',', '|', '^', '&', '<', '=', '>', '+', '-', '*',
    '/', '\\', '%', '?', '!', '~', '(', ')', '[', ']', '{', '}']

/-- A character that continues a word. -/
def isWordPart (c : Char) : Bool :=
  decide (32 ≤ c.toNat) && !isSpace c && !delimiters.contains c

/-- A character that begins a word. -/
def isWordStart (c : Char) : Bool :=
  isWordPart c && !c.isDigit

/-- A digit of a number in any base. -/
def isHexDigit (c : Char) : Bool :=
  c.isDigit || (decide ('a' ≤ c) && decide (c ≤ 'f')) || (decide ('A' ≤ c) && decide (c ≤ 'F'))

/-! ## Moving over characters -/

/-- The first offset from `i` on at which the class does not hold. -/
def skipWhile (s : String) (p : Char → Bool) (i : Nat) : Nat :=
  if i < s.utf8ByteSize then
    if p (charAt s i) then skipWhile s p (next s i) else i
  else i
termination_by s.utf8ByteSize - i
decreasing_by
  have := lt_next s i
  omega

/-- The number of line feeds between two offsets. -/
def lineFeeds (s : String) (i stop : Nat) : Nat :=
  if i < stop then
    (if charAt s i == '\n' then 1 else 0) + lineFeeds s (next s i) stop
  else 0
termination_by stop - i
decreasing_by
  have := lt_next s i
  omega

/-- The position at a later offset. -/
def Position.moveTo (s : String) (p : Position) (offset : Nat) : Position :=
  ⟨offset, p.line + lineFeeds s p.offset offset⟩

/-- The offset after the `*/` that ends a block comment, if there is one. -/
def blockCommentEnd? (s : String) (i : Nat) : Option Nat :=
  if i < s.utf8ByteSize then
    if charAt s i == '*' && charAt s (i + 1) == '/' then some (i + 2)
    else blockCommentEnd? s (next s i)
  else none
termination_by s.utf8ByteSize - i
decreasing_by
  have := lt_next s i
  omega

/-- The offset after the comment that starts at an offset, if one does; an open block comment is
    none. -/
def commentEnd? (s : String) (i : Nat) : Option Nat :=
  if charAt s i == '/' then
    if charAt s (i + 1) == '/' then some (skipWhile s (fun c => !isLineEnd c) (i + 2))
    else if charAt s (i + 1) == '*' then blockCommentEnd? s (i + 2)
    else none
  else none

/-! ## Gaps between tokens -/

/-- What lies between two tokens. -/
structure Gap where
  /-- Where it ends. -/
  stop : Position
  /-- It breaks the line: a line feed has breaking white space alone between it and the token or the
      comment before. -/
  newline : Bool
  /-- Behind the line break stands white space that is not breaking. -/
  detached : Bool
  /-- Breaking white space alone stands at its end, behind the last comment. -/
  plain : Bool
  /-- The end of the comments in front of the line break. -/
  lineEnd : Position
  /-- All comments, the last one first. -/
  comments : List Span

/-- Whether white space from an offset on breaks the line. -/
def breaksLine (s : String) (i : Nat) : Bool :=
  charAt s (skipWhile s (fun c => isBreakingSpace c && c != '\n') i) == '\n'

/-- Moves over white space and comments. -/
def gapFrom (s : String) : Nat → Gap → Gap
  | 0, g => g
  | fuel + 1, g =>
    let i := g.stop.offset
    let j := skipWhile s isSpace i
    if j > i then
      let newline := g.newline || breaksLine s i
      let plain := skipWhile s isBreakingSpace i == j
      gapFrom s fuel
        { g with
          stop := g.stop.moveTo s j
          newline
          detached := g.detached || (newline && !plain)
          plain }
    else
      match commentEnd? s i with
      | none => g
      | some j =>
        let stop := g.stop.moveTo s j
        gapFrom s fuel
          { g with
            stop
            plain := true
            lineEnd := if g.newline then g.lineEnd else stop
            comments := ⟨g.stop, stop⟩ :: g.comments }

/-- The gap that starts at a position. -/
def gap (s : String) (p : Position) : Gap :=
  gapFrom s (s.utf8ByteSize + 1 - p.offset) ⟨p, false, false, true, p, []⟩

/-! ## Tokens -/

/-- The classes of tokens. -/
inductive TokenKind where
  | word
  | privateName
  | number
  | string
  /-- The opening mark of a template. -/
  | template
  | punct
  /-- The end of the text. -/
  | eof
  /-- Characters that begin no token, or a string with an escape that is none. -/
  | unknown
  /-- A string that its line ends, or a misplaced interpreter line: the fault is where the token
      stops, not where its statement starts. -/
  | broken
  deriving DecidableEq, Repr, Inhabited

/-- A token, with what stood before it. -/
structure Token where
  kind : TokenKind
  text : String
  start : Position
  stop : Position
  /-- A line ended before the token, outside comments. -/
  newline : Bool
  /-- The token is no part of the line that it seems to start. -/
  detached : Bool
  /-- Breaking white space alone stands before the token, behind the last comment. -/
  plain : Bool
  /-- Where the line of the token before ends, behind the comments on it. -/
  lineEnd : Position
  deriving Inhabited

/-- Whether the token is the given punctuation. -/
def Token.isPunct (t : Token) (text : String) : Bool :=
  t.kind == .punct && t.text == text

/-- Whether the token is the given word. -/
def Token.isWord (t : Token) (text : String) : Bool :=
  t.kind == .word && t.text == text

/-- The punctuation of more than one character, longer ones first. -/
def longPunctuation : List (List Char) :=
  [ ['>', '>', '>', '='],
    ['.', '.', '.'], ['=', '=', '='], ['!', '=', '='], ['*', '*', '='], ['<', '<', '='],
    ['>', '>', '='], ['>', '>', '>'], ['&', '&', '='], ['|', '|', '='], ['?', '?', '='],
    ['=', '>'], ['=', '='], ['!', '='], ['<', '='], ['>', '='], ['&', '&'], ['|', '|'],
    ['?', '?'], ['?', '.'], ['+', '+'], ['-', '-'], ['+', '='], ['-', '='], ['*', '='],
    ['/', '='], ['%', '='], ['&', '='], ['|', '='], ['^', '='], ['<', '<'], ['>', '>'],
    ['*', '*'] ]

/-- The punctuation of one character. -/
def shortPunctuation : List Char :=
  ['{', '}', '(', ')', '[', ']', ';', ',', '<', '>', '+', '-', '*', '/', '%', '&', '|', '^', '!',
    '~', '?', ':', '=', '.', '@']

/-- Whether the characters stand at an offset. -/
def standsAt (s : String) (i : Nat) : List Char → Bool
  | [] => true
  | c :: cs => charAt s i == c && standsAt s (next s i) cs

/-- The offset after the punctuation at an offset, if there is any.  A question mark and a point
    before a digit are two tokens. -/
def punctuationEnd? (s : String) (i : Nat) : Option Nat :=
  if !shortPunctuation.contains (charAt s i) then none
  else if standsAt s i ['?', '.'] && (charAt s (i + 2)).isDigit then some (i + 1)
  else
    match longPunctuation.find? (standsAt s i) with
    | some cs => some (i + cs.length)
    | none => some (i + 1)

/-- The offset after digits with single underscores between them. -/
def digitsEnd (s : String) (p : Char → Bool) (i : Nat) : Nat :=
  if i < s.utf8ByteSize then
    if p (charAt s i) then digitsEnd s p (next s i)
    else if charAt s i == '_' && p (charAt s (i - 1)) && p (charAt s (i + 1)) then
      digitsEnd s p (next s i)
    else i
  else i
termination_by s.utf8ByteSize - i
decreasing_by
  all_goals have := lt_next s i; omega

/-- The offset after an exponent, or the given one if there is none. -/
def exponentEnd (s : String) (i : Nat) : Nat :=
  if charAt s i == 'e' || charAt s i == 'E' then
    let j := if charAt s (i + 1) == '+' || charAt s (i + 1) == '-' then i + 2 else i + 1
    if (charAt s j).isDigit then digitsEnd s Char.isDigit j else i
  else i

/-- The digits of the base that a letter behind a zero stands for. -/
def baseDigits? (c : Char) : Option (Char → Bool) :=
  if c == 'x' || c == 'X' then some isHexDigit
  else if c == 'o' || c == 'O' then some fun d => decide ('0' ≤ d) && decide (d ≤ '7')
  else if c == 'b' || c == 'B' then some fun d => d == '0' || d == '1'
  else none

/-- The offset after the mark of a long integer, if it is next. -/
def longMarkEnd (s : String) (i : Nat) : Nat :=
  if charAt s i == 'n' then i + 1 else i

/-- Whether the digits between two offsets can stand in front of a point or an exponent: a zero in
    front of other digits has a digit from one to nine behind it. -/
def beginsFraction (s : String) (i stop : Nat) : Bool :=
  charAt s i != '0' || stop ≤ i + 1 || ((charAt s (i + 1)).isDigit && charAt s (i + 1) != '0')

/-- The offset after the number at an offset. -/
def numberEnd (s : String) (i : Nat) : Nat :=
  match if charAt s i == '0' then baseDigits? (charAt s (i + 1)) else none with
  | some isDigit =>
    if isDigit (charAt s (i + 2)) then longMarkEnd s (digitsEnd s isDigit (i + 2)) else i + 1
  | none =>
    let j := digitsEnd s Char.isDigit i
    if charAt s j == 'n' then j + 1
    else if !beginsFraction s i j then j
    else if charAt s j == '.' then exponentEnd s (digitsEnd s Char.isDigit (j + 1))
    else exponentEnd s j

/-- The offset after the escape whose backslash stands at an offset, if it is one. -/
def escapeEnd? (s : String) (i : Nat) : Option Nat :=
  let c := charAt s (i + 1)
  let hex (j : Nat) : Bool := isHexDigit (charAt s j)
  if i + 1 ≥ s.utf8ByteSize then none
  else if c == 'x' then if hex (i + 2) && hex (i + 3) then some (i + 4) else none
  else if c == 'u' then
    if charAt s (i + 2) == '{' then
      let j := skipWhile s isHexDigit (i + 3)
      if j > i + 3 && charAt s j == '}' then some (j + 1) else none
    else if hex (i + 2) && hex (i + 3) && hex (i + 4) && hex (i + 5) then some (i + 6)
    else none
  else if (c == '\r' || c == '?') && isLineBreak (charAt s (i + 2)) then some (next s (i + 2))
  else some (next s (i + 1))

/-- The offset after the escape of a character of a word at an offset, if there is one. -/
def wordEscapeEnd? (s : String) (i : Nat) : Option Nat :=
  if standsAt s i ['\\', 'u'] then escapeEnd? s i else none

/-- The offset after a word that continues at an offset; a word may hold escapes. -/
def wordEnd (s : String) : Nat → Nat → Nat
  | 0, i => i
  | fuel + 1, i =>
    let j := skipWhile s isWordPart i
    match wordEscapeEnd? s j with
    | some k => wordEnd s fuel k
    | none => j

/-- The end of a string whose opening quote is passed: a string, or what its line breaks or an
    escape spoils. -/
def stringFrom (s : String) (quote : Char) : Nat → Nat → TokenKind × Nat
  | 0, i => (.broken, i)
  | fuel + 1, i =>
    if i ≥ s.utf8ByteSize then (.broken, i)
    else if charAt s i == quote then (.string, i + 1)
    else if charAt s i == '\n' || charAt s i == '\r' then (.broken, i + 1)
    else if charAt s i == '\\' then
      match escapeEnd? s i with
      | some j => stringFrom s quote fuel j
      | none => (.unknown, i + 1)
    else stringFrom s quote fuel (next s i)

/-- The end of a string whose opening quote stands at an offset. -/
def stringEnd (s : String) (i : Nat) : TokenKind × Nat :=
  stringFrom s (charAt s i) (s.utf8ByteSize + 1 - i) (i + 1)

/-- The kind and the end of the token at an offset. -/
def tokenEnd (s : String) (i : Nat) : TokenKind × Nat :=
  let c := charAt s i
  if i ≥ s.utf8ByteSize then (.eof, i)
  else if isWordStart c || (wordEscapeEnd? s i).isSome then (.word, wordEnd s s.utf8ByteSize i)
  else if c.isDigit || (c == '.' && (charAt s (i + 1)).isDigit) then (.number, numberEnd s i)
  else if c == '"' || c == '\'' then stringEnd s i
  else if c == '\x60' then (.template, i + 1)
  else if c == '#' then
    if isWordStart (charAt s (i + 1)) then (.privateName, wordEnd s s.utf8ByteSize (i + 1))
    else if charAt s (i + 1) == '!' then (.broken, i)
    else (.unknown, i + 1)
  else
    match punctuationEnd? s i with
    | some j => if standsAt s i ['/', '*'] then (.unknown, j) else (.punct, j)
    | none => (.unknown, next s i)

/-- The token after a gap. -/
def Token.after (s : String) (g : Gap) : Token :=
  let (kind, stop) := tokenEnd s g.stop.offset
  { kind
    text := slice s g.stop.offset stop
    start := g.stop
    stop := g.stop.moveTo s stop
    newline := g.newline
    detached := g.detached
    plain := g.plain
    lineEnd := g.lineEnd }

end RouteAtlas.Code
