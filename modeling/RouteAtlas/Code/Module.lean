/-
  RouteAtlas: whole modules.

  * `readModule` gives the tree of a module, or the line of its first fault.
-/
import RouteAtlas.Code.Comment
import RouteAtlas.Code.Phrase.Markup
import RouteAtlas.Code.Phrase.Statement

namespace RouteAtlas.Code

/-- Reads the phrases of the language; `depth` bounds how deep they stand inside each other. -/
def grammar : Nat → Grammar
  | 0, _ => fail
  | depth + 1, goal =>
    match goal with
    | .expression => expression (grammar depth)
    | .operand => operand (grammar depth)
    | .statement => statement (grammar depth)
    | .type => type (grammar depth)
    | .result => result (grammar depth)
    | .binding => binding (grammar depth)
    | .element => markup (grammar depth)

/-- The deepest nesting of phrases in a text: a phrase inside another one at the same place is one
    of finitely many. -/
def depthBound (source : String) : Nat :=
  8 * (source.utf8ByteSize + 8)

/-- The statements of a module. -/
def program (source : String) : Reading Node := do
  let start ← here
  let g := grammar (depthBound source)
  let statements ← collect do
    skipPageComments
    if ← atEnd then return none else return some (← statement g)
  finish .program start statements

/-- Where the tokens of a text start: behind an interpreter line, if there is one. -/
def firstPosition (source : String) : Position :=
  let i := skipWhile source isSpace 0
  if standsAt source i ['#', '!'] then
    Position.moveTo source ⟨0, 1⟩ (skipWhile source (fun c => c != '\n') i)
  else ⟨0, 1⟩

/-- The tree of a module, or its fault. -/
def readModule (dialect : Dialect) (source : String) : Except Fault Node :=
  match (program source).run (.start source dialect (firstPosition source)) with
  | .error fault => .error fault
  | .ok (root, s) => .ok (placeComments root (s.comments.reverse.map (commentNode source)))

end RouteAtlas.Code
