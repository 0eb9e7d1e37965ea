/-
  RouteAtlas: the places of comments.

  A comment belongs to the smallest node with tokens on both sides of it, or to the one that ends
  with its line.  The reader leaves the comments out; `placeComments` puts them in, each into the
  deepest node whose span holds it.
-/
import RouteAtlas.Code.Token

namespace RouteAtlas.Code

/-- A comment of a source text; the comments of a page are constructs of their own. -/
def commentNode (s : String) (span : Span) : Node :=
  let kind := if charAt s span.start.offset == '/' then Kind.comment else .construct
  .mk kind none span (slice s span.start.offset span.stop.offset) []

/-- Whether a comment ends before a node starts. -/
def Node.precedes (comment n : Node) : Bool :=
  decide (comment.span.stop.offset ≤ n.span.start.offset)

/-- Whether a comment lies in the span of a node. -/
def Node.holds (n comment : Node) : Bool :=
  decide (n.span.start.offset < comment.span.start.offset) &&
    decide (comment.span.stop.offset ≤ n.span.stop.offset)

mutual
/-- Puts comments that lie inside a node into it or into the nodes below it. -/
def Node.place (comments : List Node) : Node → Node
  | .mk kind role span text children => .mk kind role span text (placeAmong comments children)
/-- Puts comments among siblings: in front of the sibling that they precede, into the one that holds
    them, or behind all. -/
def placeAmong (comments : List Node) : List Node → List Node
  | [] => comments
  | n :: ns =>
    let before := comments.takeWhile fun c => c.precedes n
    let rest := comments.dropWhile fun c => c.precedes n
    let inside := rest.takeWhile fun c => n.holds c
    let behind := rest.dropWhile fun c => n.holds c
    before ++ (if inside.isEmpty then n else n.place inside) :: placeAmong behind ns
end

/-- Puts comments, given in source order, into the tree of a text. -/
def placeComments (root : Node) (comments : List Node) : Node :=
  root.place comments

end RouteAtlas.Code
