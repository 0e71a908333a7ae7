import TopologyAudit.Numeral.Ascii
import TopologyAudit.Text.Quoted

/-!
# Command line grammars

A grammar lists the options of a command and the names of its operands. Arguments
are first told apart: options by their dashes, and operands; behind a separator of
two dashes all are operands. Then they are taken in order. Long options may be
shortened as long as one option is meant, and a value follows an option as the next
argument or behind an equals sign.
-/

namespace TopologyAudit.CommandLine

/-- What an option does. -/
inductive OptionKind
  /-- Shows the help and ends. -/
  | help
  /-- Is present or absent. -/
  | flag
  /-- Takes one of some values. -/
  | choice (allowed : List Text)
deriving DecidableEq

structure OptionSpec where
  /-- The spellings of the option, with their dashes. -/
  names : List Text
  kind : OptionKind
deriving DecidableEq

/-- The option as messages name it. -/
def OptionSpec.title (o : OptionSpec) : Text := Text.join "/" o.names

structure Grammar where
  /-- The words that call the command. -/
  program : Text
  usage : Text
  /-- What the help shows below the usage. -/
  description : Text
  options : List OptionSpec
  operands : List Text

/-- Why arguments do not fit a grammar. -/
inductive UsageError
  | missing (operands : List Text)
  | invalidChoice (argument value : Text) (allowed : List Text)
  | missingValue (argument : Text)
  | unwantedValue (argument value : Text)
  | ambiguous (argument : Text) (candidates : List Text)
  | unrecognized (arguments : List Text)
deriving DecidableEq

def UsageError.message : UsageError → Text
  | .missing operands => "the following arguments are required: " ++ Text.join ", " operands
  | .invalidChoice argument value allowed =>
    "argument " ++ argument ++ ": invalid choice: " ++ value.quoted ++ " (choose from "
      ++ Text.join ", " (allowed.map Text.quoted) ++ ")"
  | .missingValue argument => "argument " ++ argument ++ ": expected one argument"
  | .unwantedValue argument value =>
    "argument " ++ argument ++ ": ignored explicit argument " ++ value.quoted
  | .ambiguous argument candidates =>
    "ambiguous option: " ++ argument ++ " could match " ++ Text.join ", " candidates
  | .unrecognized arguments => "unrecognized arguments: " ++ Text.join " " arguments

/-- An end before any command is run. -/
inductive Halt
  | help (grammar : Grammar)
  | misuse (grammar : Grammar) (e : UsageError)

/-- What is glued to an option: a value behind an equals sign, or letters behind the
letter of a short option. -/
inductive Glued
  | value (t : Text)
  | letters (t : Text)
deriving DecidableEq

/-- What an argument is to a grammar. -/
inductive Role
  | operand
  | separator
  | option (o : OptionSpec) (glued : Option Glued)
  /-- It has the form of an option but is none. -/
  | stray
deriving DecidableEq

namespace Grammar

/-- The separator before arguments that are all operands. -/
def separator : Text := "--"

/-- What a value behind an equals sign is to an option: a short option takes it for
letters, unless there are none. -/
def gluedTo (name value : Text) : Glued :=
  if value.isEmpty || Text.startsWith name separator then .value value else .letters value

/-- All spellings of options with the options they stand for. -/
def spellings (g : Grammar) : List (Text × OptionSpec) :=
  g.options.flatMap fun o => o.names.map fun name => (name, o)

/-- A text up to its first equals sign, and what follows the sign if there is one. -/
def splitValue (t : Text) : Text × Option Text :=
  let name := t.takeWhile fun c : CodePoint => !(c == '=')
  match t.drop name.length with
  | [] => (name, none)
  | _ :: value => (name, some value)

def isDigits (t : Text) : Bool := !t.isEmpty && t.all fun c => c.decimalValue?.isSome

/-- The digits of a number, with digits behind a point if it has one. -/
def isUnsignedNumber (t : Text) : Bool :=
  let whole := t.takeWhile fun c => c.decimalValue?.isSome
  match t.drop whole.length with
  | [] => !t.isEmpty
  | c :: fraction => c == '.' && isDigits fraction

/-- Whether an argument is a negative number; a line feed behind it does no harm. -/
def isNegativeNumber (t : Text) : Bool :=
  match t with
  | c :: rest =>
    c == '-'
      && (isUnsignedNumber rest
        || (rest.getLast? == some (CodePoint.ofChar '\n') && isUnsignedNumber rest.dropLast))
  | [] => false

/-- The options that an argument may be short for, with their spellings. -/
def candidates (g : Grammar) (t : Text) : List (Text × OptionSpec × Option Glued) :=
  match t with
  | a :: b :: rest =>
    if b == '-' then
      let (start, value) := splitValue t
      (g.spellings.filter fun (name, _) => Text.startsWith name start).map fun (name, o) =>
        (name, o, value.map .value)
    else
      g.spellings.filterMap fun (name, o) =>
        if name = [a, b] then some (name, o, some (.letters rest))
        else if Text.startsWith name t then some (name, o, none)
        else none
  | _ => []

/-- Tells what an argument before the separator is. -/
def role (g : Grammar) (t : Text) : Except UsageError Role :=
  if !(t.head? == some (CodePoint.ofChar '-')) then .ok .operand
  else
    match g.spellings.lookup t with
    | some o => .ok (.option o none)
    | none =>
      let (name, value) := splitValue t
      if t.length = 1 then .ok .operand
      else
        match value, g.spellings.lookup name with
        | some v, some o => .ok (.option o (some (gluedTo name v)))
        | _, _ =>
          match g.candidates t with
          -- one spelling that begins like this is enough
          | [(_, o, glued)] => .ok (.option o glued)
          | [] =>
            -- no option looks like a negative number or holds a space
            if isNegativeNumber t || t.contains (' ' : CodePoint) then .ok .operand
            else .ok .stray
          | several => .error (.ambiguous t (several.map (·.1)))

/-- Tells what the arguments are. -/
def roles (g : Grammar) : List Text → Except UsageError (List (Text × Role))
  | [] => .ok []
  | t :: rest =>
    if t = separator then .ok ((t, .separator) :: rest.map fun u => (u, .operand))
    else do
      let role ← g.role t
      return (t, role) :: (← roles g rest)

end Grammar

/-- What has been taken of the arguments: the operands, the options with their
values, and what is left over. An operand or an option may turn out to have no value. -/
structure Taken where
  operands : List (Option Text)
  choices : List (Text × Option Text)
  flags : List Text
  extras : List Text
deriving DecidableEq

namespace Taken

def empty : Taken := ⟨[], [], [], []⟩

/-- The value of an option; the last one counts. -/
def choice? (s : Taken) (title : Text) : Option Text := (s.choices.reverse.lookup title).join

end Taken

namespace Grammar

/-- The letters that are wrong behind the letter for help: all from the first one on
that does not ask for help once more. -/
def unwantedLetters? (letters : Text) : Option Text :=
  match letters.dropWhile fun c : CodePoint => c == 'h' with
  | [] => none
  | unwanted => some unwanted

/-- What is wrong with what is glued to an option without a value. -/
def unwanted? : Glued → Option Text
  | .value t => some t
  | .letters t => unwantedLetters? t

/-- Takes an option; what follows it may be its value. The separator behind an equals
sign is dropped, which leaves the option without a value. -/
def takeOption (o : OptionSpec) (glued : Option Glued) (rest : List (Text × Role)) (s : Taken) :
    Except UsageError (Option Taken × List (Text × Role)) :=
  let choose (allowed : List Text) (value : Text) (rest : List (Text × Role)) :
      Except UsageError (Option Taken × List (Text × Role)) :=
    if value = separator then
      .ok (some { s with choices := s.choices ++ [(o.title, none)] }, rest)
    else if allowed.contains value then
      .ok (some { s with choices := s.choices ++ [(o.title, some value)] }, rest)
    else .error (.invalidChoice o.title value allowed)
  match o.kind, glued with
  | .choice allowed, some (.value v) => choose allowed v rest
  | .choice allowed, some (.letters v) => choose allowed v rest
  | .choice allowed, none =>
    match rest with
    | (v, .operand) :: rest => choose allowed v rest
    | _ => .error (.missingValue o.title)
  | kind, glued =>
    match glued.bind unwanted? with
    | some v => .error (.unwantedValue o.title v)
    | none =>
      if kind = .help then .ok (none, rest)
      else .ok (some { s with flags := s.flags ++ [o.title] }, rest)

/-- Takes one operand off the front, along with the separators around it. The first
separator is dropped; an operand that is spelt like it may be dropped in its place. -/
def takeOperand? (args : List (Text × Role)) : Option (Option Text × List (Text × Role)) :=
  let isSeparator (a : Text × Role) : Bool := a.2 == .separator
  let before := args.takeWhile isSeparator
  match args.drop before.length with
  | (t, .operand) :: rest =>
    let after := rest.takeWhile isSeparator
    let value := if t = separator && before.isEmpty then none else some t
    some (value, rest.drop after.length)
  | _ => none

/-- Takes as many operands off the front as are wanted and there. -/
def takeOperands : (wanted : Nat) → List (Text × Role) → List (Option Text) × List (Text × Role)
  | 0, args => ([], args)
  | wanted + 1, args =>
    match takeOperand? args with
    | none => ([], args)
    | some (value, rest) =>
      let (values, rest) := takeOperands wanted rest
      (value :: values, rest)

/-- Whether an argument is taken as an option. -/
def isOption (a : Text × Role) : Bool :=
  match a.2 with
  | .option _ _ | .stray => true
  | _ => false

/-- Takes the operands that stand before the next option, as many as are wanted. -/
def takeFront (g : Grammar) (args : List (Text × Role)) (s : Taken) :
    List (Text × Role) × Taken :=
  let (values, rest) := takeOperands (g.operands.length - s.operands.length) args
  (rest, { s with operands := s.operands ++ values })

/-- Takes all arguments. Nothing comes back when the help is asked for. Operands
that are not wanted are left over. Each step takes an argument, so their number
bounds the steps. -/
def takeAll (g : Grammar) : (fuel : Nat) → List (Text × Role) → Taken →
    Except UsageError (Option Taken)
  | 0, _, s => .ok (some s)
  | fuel + 1, args, s =>
    if !args.any isOption then
      let (rest, s) := takeFront g args s
      .ok (some { s with extras := s.extras ++ rest.map (·.1) })
    else
      match args with
      | [] => .ok (some s)
      | (t, .stray) :: rest => takeAll g fuel rest { s with extras := s.extras ++ [t] }
      | (_, .option o glued) :: rest =>
        match takeOption o glued rest s with
        | .error e => .error e
        | .ok (none, _) => .ok none
        | .ok (some s, rest) => takeAll g fuel rest s
      | _ =>
        let (rest, s') := takeFront g args s
        -- without an operand taken, those in front of the next option are left over
        if rest.length < args.length then takeAll g fuel rest s'
        else
          let plain := args.takeWhile fun a => !isOption a
          takeAll g fuel (args.drop plain.length)
            { s with extras := s.extras ++ plain.map (·.1) }

/-- Reads arguments by a grammar. -/
def read (g : Grammar) (args : List Text) : Except Halt Taken := do
  let marked ← (g.roles args).mapError (.misuse g)
  match ← (g.takeAll (marked.length + 1) marked Taken.empty).mapError (.misuse g) with
  | none => .error (.help g)
  | some s =>
    match g.operands.drop s.operands.length with
    | [] => .ok s
    | missing => .error (.misuse g (.missing missing))

/-- Takes the options in front of the name of a command: the arguments from the name
on, and what is left over. -/
def takeCommand (g : Grammar) : List (Text × Role) → (extras : List Text) →
    Except Halt (List Text × List Text)
  | [], _ => .error (.misuse g (.missing g.operands))
  | (t, role) :: rest, extras =>
    match role with
    | .stray => takeCommand g rest (extras ++ [t])
    | .option o glued =>
      match takeOption o glued rest Taken.empty with
      | .error e => .error (.misuse g e)
      | .ok (none, _) => .error (.help g)
      | .ok (some _, _) => takeCommand g rest extras
    | .separator =>
      if rest.isEmpty then .error (.misuse g (.missing g.operands))
      else .ok (t :: rest.map (·.1), extras)
    | .operand => .ok (t :: rest.map (·.1), extras)

/-- Reads the name of a command: the name, the arguments behind it, and what is left
over before it. -/
def readCommand (g : Grammar) (commands : List Text) (args : List Text) :
    Except Halt (Text × List Text × List Text) := do
  let marked ← (g.roles args).mapError (.misuse g)
  match ← g.takeCommand marked [] with
  | ([], _) => .error (.misuse g (.missing g.operands))
  | (name :: rest, extras) =>
    if commands.contains name then return (name, rest, extras)
    else .error (.misuse g (.invalidChoice (Text.join ", " g.operands) name commands))

end Grammar

end TopologyAudit.CommandLine
