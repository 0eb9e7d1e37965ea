/-
  RouteAtlas: segments of routes and the URL templates that routes stand for.

  A segment of a route is a literal text or a parameter in brackets: `[name]` must be there, and
  `[[name]]` may be left out.  A template writes a parameter as its name in braces.

  * `Segment.ofText` reads a segment;
  * `templates` are the templates of a route, each once: those without an optional segment come
    before those with it, and the decision on an earlier segment comes first.  They are enumerated
    with an explicit stack (`enumerate`); `choices` enumerates by recursion, and
    `enumerate_eq_choices` joins the two;
  * `segmentBeforeParameter` is the segment of a template that its first parameter belongs to.
-/
import RouteAtlas.Text.Cut

namespace RouteAtlas.Template

open RouteAtlas.Text

/-! ## Segments -/

/-- A segment of a route. -/
inductive Segment where
  | literal (text : String)
  | required (name : String)
  | optional (name : String)
  deriving DecidableEq, Repr

/-- The name of the parameter between brackets: without the dots of a rest parameter, and without
    the matcher behind an equals sign. -/
def parameterName (inside : List Char) : String :=
  .ofList (((dropStartChars? ['.', '.', '.'] inside).getD inside).takeWhile fun c => c != '=')

/-- What stands between an opening and a closing mark, if it is not empty. -/
def between? (opening closing cs : List Char) : Option (List Char) :=
  if opening.length + closing.length < cs.length then
    (dropStartChars? opening cs).bind (dropEndChars? closing)
  else none

/-- Reads a segment. -/
def Segment.ofText (text : String) : Segment :=
  match between? ['[', '['] [']', ']'] text.toList with
  | some inside => .optional (parameterName inside)
  | none =>
    match between? ['['] [']'] text.toList with
    | some inside => .required (parameterName inside)
    | none => .literal text

/-- A parameter as templates write it. -/
def placeholder (name : String) : String :=
  "\x7b" ++ name ++ "\x7d"

/-! ## Choices -/

/-- A choice in progress: the segments that are still to come, and what was chosen so far, the last
    first. -/
abbrev Choice := List Segment × List String

/-- A bound for the steps that segments take: an optional one doubles those behind it. -/
def steps : List Segment → Nat
  | [] => 1
  | _ :: segments => 3 * steps segments

theorem steps_pos (segments : List Segment) : 0 < steps segments := by
  induction segments with
  | nil => exact Nat.one_pos
  | cons _ segments ih => simp only [steps]; omega

/-- What is left to do for the choices on a stack. -/
def work : List Choice → Nat
  | [] => 0
  | (segments, _) :: rest => steps segments + work rest

/-- Enumerates what can be chosen from the segments of the choices on a stack; `found` holds, last
    first, what was enumerated before. -/
def enumerate (found : List (List String)) (stack : List Choice) : List (List String) :=
  match stack with
  | [] => found.reverse
  | ([], chosen) :: rest => enumerate (chosen.reverse :: found) rest
  | (.literal text :: segments, chosen) :: rest =>
    enumerate found ((segments, text :: chosen) :: rest)
  | (.required name :: segments, chosen) :: rest =>
    enumerate found ((segments, placeholder name :: chosen) :: rest)
  | (.optional name :: segments, chosen) :: rest =>
    enumerate found ((segments, chosen) :: (segments, placeholder name :: chosen) :: rest)
termination_by work stack
decreasing_by
  all_goals simp only [work, steps]
  · omega
  all_goals
    have := steps_pos segments
    omega

/-- What can be chosen from segments, by recursion. -/
def choices : List Segment → List (List String)
  | [] => [[]]
  | .literal text :: segments => (choices segments).map (text :: ·)
  | .required name :: segments => (choices segments).map (placeholder name :: ·)
  | .optional name :: segments =>
    choices segments ++ (choices segments).map (placeholder name :: ·)

theorem enumerate_eq (found : List (List String)) (stack : List Choice) :
    enumerate found stack =
      found.reverse ++ stack.flatMap fun c => (choices c.1).map (c.2.reverse ++ ·) := by
  induction found, stack using enumerate.induct <;>
    simp_all [enumerate, choices, List.map_map, Function.comp_def]

/-- **The enumeration with a stack is the recursive one.** -/
theorem enumerate_eq_choices (segments : List Segment) :
    enumerate [] [(segments, [])] = choices segments := by
  simp [enumerate_eq]

/-! ## Templates -/

/-- The members of a list, each at its first place; `seen` holds the members met so far. -/
def firstPlaces (seen : List String) : List String → List String
  | [] => []
  | t :: rest =>
    if seen.contains t then firstPlaces seen rest else t :: firstPlaces (t :: seen) rest

/-- The template that consists of given segments. -/
def ofSegments (segments : List String) : String :=
  let joined := joinWith "/" segments
  if joined.isEmpty then "/" else joined

/-- The segments of a route. -/
def segmentsOf (route : String) : List Segment :=
  (splitOn '/' route).map Segment.ofText

/-- The templates that a route stands for. -/
def templates (route : String) : List String :=
  firstPlaces [] ((enumerate [] [(segmentsOf route, [])]).map ofSegments)

/-! ## The segment of a parameter -/

/-- Whether a segment of a template is a parameter. -/
def isPlaceholder (segment : String) : Bool :=
  startsWith "\x7b" segment

/-- The first segment with a parameter right behind it. -/
def ownerOf? : List String → Option String
  | owner :: next :: rest => if isPlaceholder next then some owner else ownerOf? (next :: rest)
  | _ => none

/-- The segment of a template right before its first parameter, the last segment if nothing stands
    before the parameter or there is none. -/
def segmentBeforeParameter (template : String) : String :=
  let segments := splitOn '/' template
  let last := segments.getLast?.getD ""
  match segments with
  | [] => last
  | first :: _ => if isPlaceholder first then last else (ownerOf? segments).getD last

end RouteAtlas.Template
