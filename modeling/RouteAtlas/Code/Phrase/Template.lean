/-
  RouteAtlas: templates.

  A template stands between grave accents: runs of text, escapes, and phrases between `$` with an
  opening brace and a closing brace.

  * `template escapes inside` reads a template whose phrases are read by `inside`; a template of
    types knows no escapes.
-/
import RouteAtlas.Code.Reading

namespace RouteAtlas.Code

/-- The first offset from `i` on with a grave accent, a backslash or the opening of a phrase. -/
def templateTextEnd (s : String) (i : Nat) : Nat :=
  if i < s.utf8ByteSize then
    if charAt s i == '\x60' || charAt s i == '\\' || standsAt s i ['$', '{'] then i
    else templateTextEnd s (next s i)
  else i
termination_by s.utf8ByteSize - i
decreasing_by
  have := lt_next s i
  omega

/-- A part of a template between two positions. -/
def templatePart (s : String) (start stop : Position) : Node :=
  .mk .templateText none ⟨start, stop⟩ (slice s start.offset stop.offset) []

/-- Reads the parts of a template from a position on and goes on behind the closing accent. -/
def templateFrom (escapes : Bool) (inside : Reading Node) :
    Nat → Position → List Node → Reading (List Node)
  | 0, _, _ => fail
  | fuel + 1, p, parts => do
    let s ← sourceText
    let textEnd := p.moveTo s (templateTextEnd s p.offset)
    let parts := if textEnd.offset > p.offset then templatePart s p textEnd :: parts else parts
    let c := charAt s textEnd.offset
    if textEnd.offset ≥ s.utf8ByteSize then fail
    else if c == '\x60' then
      resume ⟨textEnd.offset + 1, textEnd.line⟩
      return parts.reverse
    else if c == '\\' then
      match if escapes then escapeEnd? s textEnd.offset else none with
      | none => fail
      | some j =>
        let stop := textEnd.moveTo s j
        templateFrom escapes inside fuel stop (templatePart s textEnd stop :: parts)
    else
      resume ⟨textEnd.offset + 2, textEnd.line⟩
      let e ← enclosed inside
      let t ← peek
      unless t.isPunct "\x7d" do fail
      let part := .mk .construct none ⟨textEnd, t.stop⟩ (slice s textEnd.offset t.stop.offset) [e]
      templateFrom escapes inside fuel t.stop (part :: parts)

/-- A template. -/
def template (escapes : Bool) (inside : Reading Node) : Reading Node := do
  let t ← peek
  unless t.kind == .template do fail
  let parts ← templateFrom escapes inside (← roomLeft) t.stop []
  finish .template t.start parts

end RouteAtlas.Code
