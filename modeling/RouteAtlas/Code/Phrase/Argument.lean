/-
  RouteAtlas: lists of expressions.

  * `sequence` reads expressions with commas between them as one expression;
  * `arguments` reads what a call hands over, `separatedByComma` any items with commas.
-/
import RouteAtlas.Code.Reading

namespace RouteAtlas.Code

variable (g : Grammar)

/-- One item or more with commas between them. -/
def separatedByComma (item : Reading Node) : Reading (List Node) := do
  let first ← item
  let others ← collect do
    if ← acceptPunct "," then return some (← item) else return none
  return first :: others

/-- Expressions with commas between them: a sequence if there is more than one. -/
def sequence : Reading Node := do
  let start ← here
  match ← separatedByComma (g .expression) with
  | [e] => return e
  | es => finish .sequence start es

/-- An expression of a list, possibly spread. -/
def element : Reading Node := do
  let start ← here
  if ← acceptPunct "..." then
    let e ← g .expression
    finish .spread start [e]
  else g .expression

/-- The arguments of a call. -/
def arguments : Reading Node := do
  let start ← here
  expectPunct "("
  let es ← separated ")" true (element g)
  return (← finish .arguments start es).withRole .arguments

end RouteAtlas.Code
