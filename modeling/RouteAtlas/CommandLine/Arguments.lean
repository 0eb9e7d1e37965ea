/-
  RouteAtlas: arguments of the command line.

  An argument is an option, the value of one, or plain.  The one plain argument is the root of the
  project.  A long option may be cut short as long as it is the only one that starts so; it has its
  value behind an equals sign or in the next argument.  Short options may be written together, and have
  their value right behind them too.  Behind `--` all arguments are plain.

  * `Word.ofArgument` says what an argument is by itself;
  * `uses` are the options that are written in one argument;
  * `Arguments.read` reads a whole command line, or says why the program stops.
-/
import RouteAtlas.Settings

namespace RouteAtlas.CommandLine

open RouteAtlas.Text

/-! ## Options -/

/-- The options. -/
inductive Flag where
  | help
  | output
  | workers
  | strictRoutesRoot
  | verbose
  deriving DecidableEq, Repr

namespace Flag

/-- The long names of the options. -/
def longNames : List (String × Flag) :=
  [("--help", help), ("--output", output), ("--workers", workers),
    ("--strict-routes-root", strictRoutesRoot), ("--verbose", verbose)]

/-- The letters of the options that have one. -/
def letters : List (Char × Flag) :=
  [('h', help), ('o', output), ('v', verbose)]

/-- Whether an option has a value. -/
def takesValue : Flag → Bool
  | output | workers => true
  | help | strictRoutesRoot | verbose => false

end Flag

/-- What is written right behind the name of an option. -/
inductive Attached where
  | nothing
  /-- A text behind an equals sign. -/
  | value (text : List Char)
  /-- A text that follows a letter. -/
  | more (text : List Char)
  deriving DecidableEq, Repr

/-- A bound for what is still written behind a letter. -/
def Attached.size : Attached → Nat
  | nothing => 0
  | value text => text.length
  | more text => text.length + 1

/-- Why the program stops before it starts. -/
inductive Stop where
  /-- Help was asked for. -/
  | help
  /-- The arguments make no sense. -/
  | misuse
  deriving DecidableEq, Repr

/-! ## Single arguments -/

/-- What an argument is by itself. -/
inductive Word where
  | plain (text : String)
  | long (flag : Flag) (attached : Attached)
  | short (flag : Flag) (attached : Attached)
  /-- An option that there is not. -/
  | unknown
  /-- The mark behind which all arguments are plain. -/
  | mark
  deriving DecidableEq, Repr

/-- Whether characters are decimal digits of any script. -/
def areDigits (cs : List Char) : Bool :=
  cs.all fun c => (digitValue? c).isSome

/-- Whether an argument looks like a negative number; a line may end behind it. -/
def isNegativeNumber (argument : List Char) : Bool :=
  match argument with
  | '-' :: rest =>
    let number := (dropEndChars? ['\n'] rest).getD rest
    let fraction := number.dropWhile fun c => c != '.'
    match fraction with
    | [] => !number.isEmpty && areDigits number
    | _ :: places =>
      !places.isEmpty && areDigits places && areDigits (number.takeWhile fun c => c != '.')
  | _ => false

/-- What is written behind the first equals sign, if there is one. -/
def attachedTo (argument : List Char) : Attached :=
  match argument.dropWhile fun c => c != '=' with
  | [] => .nothing
  | _ :: rest => .value rest

/-- An argument that is no option by its name. -/
def unnamed (argument : String) : Word :=
  if isNegativeNumber argument.toList || argument.toList.contains ' ' then .plain argument
  else .unknown

/-- What follows a letter. -/
def following : List Char → Attached
  | [] => .nothing
  | '=' :: rest => .value rest
  | rest => .more rest

theorem size_following_le (cs : List Char) : (following cs).size ≤ cs.length + 1 := by
  unfold following
  split <;> simp [Attached.size]
  omega

/-- An argument that starts with two dashes: the option with the name before the equals sign, or the
    only one whose name starts so. -/
def longWord (argument : String) : Except Stop Word :=
  let cs := argument.toList
  let name := String.ofList (cs.takeWhile fun c => c != '=')
  match Flag.longNames.lookup argument, Flag.longNames.lookup name with
  | some flag, _ => .ok (.long flag .nothing)
  | none, some flag => .ok (.long flag (attachedTo cs))
  | none, none =>
    match Flag.longNames.filter fun entry => startsWith name entry.1 with
    | [] => .ok (unnamed argument)
    | [(_, flag)] => .ok (.long flag (attachedTo cs))
    | _ => .error .misuse

/-- What an argument is by itself. -/
def Word.ofArgument (argument : String) : Except Stop Word :=
  match argument.toList with
  | ['-', '-'] => .ok .mark
  | '-' :: '-' :: _ => longWord argument
  | '-' :: letter :: rest =>
    match Flag.letters.lookup letter with
    | some flag => .ok (.short flag (following rest))
    | none => .ok (unnamed argument)
  | _ => .ok (.plain argument)

/-- What the arguments of a command line are. -/
def wordsOf : List String → Except Stop (List Word)
  | [] => .ok []
  | argument :: rest => do
    let word ← Word.ofArgument argument
    if word == .mark then return word :: rest.map Word.plain
    else return word :: (← wordsOf rest)

/-! ## Options in an argument -/

/-- An option with its value, if the value is written in the same argument. -/
abbrev Use := Flag × Option String

/-- The options that are written in one argument that starts with a letter, and whether something is
    left over that is no option. -/
def shortUses (flag : Flag) : Attached → Except Stop (List Use × Bool)
  | .nothing => .ok ([(flag, none)], false)
  | .value text => if flag.takesValue then .ok ([(flag, some (.ofList text))], false) else .error .misuse
  | .more text =>
    if flag.takesValue then .ok ([(flag, some (.ofList text))], false)
    else
      match text with
      | [] => .ok ([(flag, none)], false)
      | letter :: rest =>
        if letter == '-' then .error .misuse
        else
          match Flag.letters.lookup letter with
          | none => .ok ([(flag, none)], true)
          | some next => do
            let (uses, leftOver) ← shortUses next (following rest)
            return ((flag, none) :: uses, leftOver)
termination_by attached => attached.size
decreasing_by
  have shorter := size_following_le rest
  have here : (Attached.more (letter :: rest)).size = rest.length + 2 := rfl
  omega

/-- The option that is written in one argument that starts with two dashes. -/
def longUse (flag : Flag) : Attached → Except Stop Use
  | .nothing => .ok (flag, none)
  | .value text | .more text =>
    if flag.takesValue then .ok (flag, some (.ofList text)) else .error .misuse

/-! ## Command lines -/

/-- What a command line says. -/
structure Arguments where
  root : Option String := none
  output : Option String := none
  workers : Int
  strictRoutesRoot : Bool
  verbose : Bool := false
  /-- Whether something was left over that has no meaning. -/
  leftOver : Bool := false
  deriving DecidableEq, Repr

namespace Arguments

/-- Takes an option with the value that was found for it. -/
def use (a : Arguments) (flag : Flag) (value : String) : Except Stop Arguments :=
  match flag with
  | .help => .error .help
  | .output => .ok { a with output := some value }
  | .workers =>
    match readInt value with
    | .ok n => .ok { a with workers := n }
    | .error _ => .error .misuse
  | .strictRoutesRoot => .ok { a with strictRoutesRoot := true }
  | .verbose => .ok { a with verbose := true }

/-- Takes options whose missing value, if any, is a given one. -/
def useAll (a : Arguments) (uses : List Use) (value : String) : Except Stop Arguments :=
  uses.foldlM (fun a u => a.use u.1 (u.2.getD value)) a

/-- Whether the last of some options lacks its value. -/
def lacksValue (uses : List Use) : Bool :=
  match uses.getLast? with
  | some (flag, none) => flag.takesValue
  | _ => false

/-- The options that are written in a word, and whether something is left over. -/
def usesOf : Word → Except Stop (List Use × Bool)
  | .long flag attached => do return ([← longUse flag attached], false)
  | .short flag attached => shortUses flag attached
  | .unknown => .ok ([], true)
  | .plain _ | .mark => .ok ([], false)

/-- Takes the words of a command line. -/
def take (a : Arguments) : List Word → Except Stop Arguments
  | [] => .ok a
  | .plain text :: .mark :: rest =>
    if a.root.isNone then take { a with root := some text } rest
    else take { a with leftOver := true } rest
  | .plain text :: rest =>
    if a.root.isNone then take { a with root := some text } rest
    else take { a with leftOver := true } rest
  | .mark :: .plain text :: rest =>
    if a.root.isNone then take { a with root := some text } rest
    else take { a with leftOver := true } rest
  | .mark :: rest => take { a with leftOver := true } rest
  | word :: .plain text :: rest => do
    let (uses, leftOver) ← usesOf word
    let a ← { a with leftOver := a.leftOver || leftOver }.useAll uses text
    if lacksValue uses then take a rest else take a (.plain text :: rest)
  | word :: rest => do
    let (uses, leftOver) ← usesOf word
    if lacksValue uses then .error .misuse
    else take (← { a with leftOver := a.leftOver || leftOver }.useAll uses "") rest

/-- Reads a command line; the settings say what holds without options. -/
def read (settings : Settings) (arguments : List String) : Except Stop Arguments := do
  let start : Arguments :=
    { workers := settings.scanWorkers, strictRoutesRoot := settings.strictRoutesRoot }
  let a ← start.take (← wordsOf arguments)
  if a.root.isNone || a.leftOver then .error .misuse else .ok a

end Arguments

end RouteAtlas.CommandLine
