import RowPolicy.Operation
import RowPolicy.Text.Padded

/-!
# Forms of command lines

A form says what may stand on a command line: options, at most one argument and further commands.
Options of outer forms may also stand behind inner commands; there the innermost one counts.
-/

namespace RowPolicy.Command

/-! ### Forms -/

/-- What the value of an option or an argument may be. -/
inductive ValueKind where
  /-- A path, which is not empty. -/
  | path
  | text
  | operation
  deriving DecidableEq, Repr, Inhabited

def ValueKind.accepts (kind : ValueKind) (s : String) : Bool :=
  match kind with
  | .path => !s.isEmpty
  | .text => true
  | .operation => (Operation.ofText? s).isSome

structure Switch where
  name : String
  kind : ValueKind
  /-- What stands for the value in help texts. -/
  label : String
  help : String
  /-- Whether the option may be repeated. -/
  many : Bool := false
  deriving Inhabited

structure Argument where
  label : String
  kind : ValueKind
  help : String := ""
  deriving Inhabited

/-- What was given on a command line: the argument, and options with the innermost first. -/
structure Given where
  argument : String := ""
  switches : List (String × String) := []
  deriving Inhabited

namespace Given

def get? (g : Given) (name : String) : Option String := g.switches.lookup name

def all (g : Given) (name : String) : List String :=
  (g.switches.filter fun s => s.1 == name).map (·.2)

end Given

/-- The form of a command that yields an `α`. -/
inductive Form (α : Type) where
  /-- A command that does something. -/
  | leaf (name about : String) (argument : Option Argument) (switches : List Switch)
    (make : Given → α)
  /-- A command that has further commands. -/
  | branch (name about : String) (children : List (Form α))

/-- What a command line asks for. -/
inductive Parsed (α : Type) where
  | run (a : α) (given : Given)
  /-- Help on a form, which is reached by the given words. -/
  | help (words : List String) (form : Form α)
  | version
  | usage

namespace Form

variable {α : Type}

def name : Form α → String
  | .leaf name _ _ _ _ => name
  | .branch name _ _ => name

def about : Form α → String
  | .leaf _ about _ _ _ => about
  | .branch _ about _ => about

def argument : Form α → Option Argument
  | .leaf _ _ argument _ _ => argument
  | .branch _ _ _ => none

def switches : Form α → List Switch
  | .leaf _ _ _ switches _ => switches
  | .branch _ _ _ => []

def children : Form α → List (Form α)
  | .leaf _ _ _ _ _ => []
  | .branch _ _ children => children

def child? (f : Form α) (name : String) : Option (Form α) :=
  f.children.find? fun c => c.name == name

/-! ### Reading -/

/-- How far a command line has been read at one form. -/
structure Reading where
  /-- The words that lead to the form. -/
  words : List String
  /-- Whether only arguments can follow. -/
  isTrailing : Bool := false
  argument : Option String := none
  /-- The options at this form, in order. -/
  own : List (String × String) := []
  /-- The options before it. -/
  outer : List (String × String) := []
  deriving Inhabited

def Reading.given (r : Reading) : Given := ⟨r.argument.getD "", r.own ++ r.outer⟩

def Reading.take? (r : Reading) (s : Switch) (value : String) : Option Reading :=
  if s.kind.accepts value && (s.many || (r.own.lookup s.name).isNone) then
    some { r with own := r.own ++ [(s.name, value)] }
  else none

def Reading.takeArgument? (r : Reading) (f : Form α) (value : String) : Option Reading :=
  match f.argument with
  | some a =>
    if a.kind.accepts value && r.argument.isNone then some { r with argument := some value }
    else none
  | none => none

/-- Go on at a further command. -/
def Reading.enter (r : Reading) (name : String) : Reading :=
  { words := r.words ++ [name], outer := r.own ++ r.outer }

def finish (f : Form α) (r : Reading) : Parsed α :=
  match f with
  | .branch _ _ _ => .usage
  | .leaf _ _ argument _ make =>
    if argument.isSome && r.argument.isNone then .usage else .run (make r.given) r.given

/-- The name of a long option and its value, if one is attached. -/
def splitLong (arg : String) : Option (String × Option String) :=
  match arg.toList with
  | '-' :: '-' :: cs =>
    let name := String.ofList (cs.takeWhile (· != '='))
    match cs.dropWhile (· != '=') with
    | [] => some (name, none)
    | _ :: value => some (name, some (String.ofList value))
  | _ => none

def shortLetter (arg : String) : Option Char :=
  match arg.toList with
  | '-' :: c :: _ => some c
  | _ => none

/-- Whether a word can be the value of the option before it. -/
def isValueWord (arg : String) : Bool := (splitLong arg).isNone && (shortLetter arg).isNone

def helpOn (words : List String) (f : Form α) : List String → Parsed α
  | [] => .help words f
  | name :: rest =>
    match f.child? name with
    | some c => helpOn (words ++ [name]) c rest
    | none => .usage

/-- Read a command line. The common options are known at every form, and the version can be asked
for at the outermost one. -/
def read (common : List Switch) (f : Form α) (r : Reading) : List String → Parsed α
  | [] => finish f r
  | arg :: rest =>
    if r.isTrailing then
      match r.takeArgument? f arg with
      | some r => read common f r rest
      | none => .usage
    else if arg == "help" && !f.children.isEmpty then helpOn r.words f rest
    else
      match f.child? arg with
      | some c => read common c (r.enter arg) rest
      | none =>
        if arg == "--" then read common f { r with isTrailing := true } rest
        else
          match splitLong arg, shortLetter arg with
          | some (name, value), _ =>
            let isOutermost := r.words.length ≤ 1
            if name == "help" && value.isNone then .help r.words f
            else if name == "version" && value.isNone && isOutermost then .version
            else
              match (f.switches ++ common).find? (·.name == name), value, rest with
              | some s, some value, rest =>
                match r.take? s value with
                | some r => read common f r rest
                | none => .usage
              | some s, none, value :: rest =>
                match if isValueWord value then r.take? s value else none with
                | some r => read common f r rest
                | none => .usage
              | _, _, _ => .usage
          | none, some letter =>
            if letter == 'h' then .help r.words f
            else if letter == 'V' && r.words.length ≤ 1 then .version
            else .usage
          | none, none =>
            match r.takeArgument? f arg with
            | some r => read common f r rest
            | none => .usage

/-! ### Help -/

def columns (rows : List (String × String)) : String :=
  let width := rows.foldl (fun w row => max w row.1.length) 0
  String.join (rows.map fun (left, right) => Text.padRight width left ++ "  " ++ right ++ "\n")

/-- A part of a help text under a heading. -/
def helpPart (heading : String) (rows : List (String × String)) : String :=
  if rows.isEmpty then "" else "\n" ++ heading ++ ":\n" ++ columns rows

/-- The options of a form in help texts, own and common ones merged by rank and name. -/
def helpSwitches (common own : List Switch) : List Switch :=
  let ranked := own.zipIdx ++ common.zipIdx
  let before (a b : Switch × Nat) : Bool :=
    a.2 < b.2 || (a.2 == b.2 && decide (a.1.name < b.1.name))
  (ranked.mergeSort fun a b => !before b a).map (·.1)

def helpText (common : List Switch) (words : List String) (f : Form α) : String :=
  let isOutermost := decide (words.length ≤ 1)
  let commands := f.children.map fun c => ("  " ++ c.name, c.about)
  let commands := if commands.isEmpty then []
    else commands ++ [("  help", "Print this message or the help of the given subcommand(s)")]
  let arguments := f.argument.toList.map fun a => ("  <" ++ a.label ++ ">", a.help)
  let options := (helpSwitches common f.switches).map fun s =>
    ("      --" ++ s.name ++ " <" ++ s.label ++ ">", s.help)
  let options := options ++ [("  -h, --help", "Print help")]
    ++ (if isOutermost then [("  -V, --version", "Print version")] else [])
  f.about ++ "\n\nUsage: " ++ String.intercalate " " words ++ " [OPTIONS]"
    ++ (match f.argument with
        | some a => " <" ++ a.label ++ ">"
        | none => "")
    ++ (if f.children.isEmpty then "" else " <COMMAND>") ++ "\n"
    ++ helpPart "Commands" commands ++ helpPart "Arguments" arguments
    ++ helpPart "Options" options

end Form

end RowPolicy.Command
