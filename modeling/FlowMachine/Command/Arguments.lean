import FlowMachine.Number.Numeral
import FlowMachine.Text.Quoted
import FlowMachine.Text.Search

/-!
# Arguments of a command

A command takes options, some of them with a value, and one kind of words. An option may be
shortened as long as it stays the only one, and its value may follow behind an equals sign. Two
hyphens end the options. What is left over is handed back, since an outer command decides about it.
-/
namespace FlowMachine.Command

/-- What an option does. -/
inductive OptionKind where
  | help
  | flag
  /-- Takes a value, one of the choices if there are any. -/
  | value (choices : List String)
deriving DecidableEq, Repr

structure OptionSpec where
  names : List String
  kind : OptionKind
deriving DecidableEq, Repr

/-- How an option is called in messages. -/
def OptionSpec.title (o : OptionSpec) : String := "/".intercalate o.names

/-- How many words a command takes. -/
inductive Arity where
  | any
  | atLeastOne
  | atMostOne
  /-- The name of a command and all that follows it. -/
  | command
deriving DecidableEq, Repr

/-- The words a command takes, one of the choices if there are any. -/
structure WordSpec where
  name : String
  arity : Arity
  choices : List String := []
deriving DecidableEq, Repr

structure Grammar where
  program : String
  help : List String
  options : List OptionSpec
  words : WordSpec
deriving DecidableEq, Repr

/-- The first part of the help, up to an empty line. -/
def Grammar.usage (g : Grammar) : List String := g.help.takeWhile (!·.isEmpty)

/-- What was given: flags, values of options, words, and what was not recognized. -/
structure Given where
  flags : List String := []
  values : List (String × String) := []
  words : List String := []
  extras : List String := []
deriving DecidableEq, Repr

namespace Given

def hasFlag (g : Given) (name : String) : Bool := g.flags.contains name

/-- The value of an option: the last one that was given. -/
def value? (g : Given) (name : String) : Option String := g.values.reverse.lookup name

end Given

/-- Why arguments are not taken. -/
inductive Stop where
  | help (g : Grammar)
  | mistake (g : Grammar) (message : String)
deriving DecidableEq, Repr

/-- How an argument is understood. -/
inductive Sense where
  | word
  | divider
  | unknown
  /-- An option under one of its names, with what stands behind it in the same argument. -/
  | option (o : OptionSpec) (name : String) (behind : Option String)
deriving DecidableEq, Repr

namespace Grammar

/-- All names of options with their options. -/
def named (g : Grammar) : List (String × OptionSpec) :=
  g.options.flatMap fun o => o.names.map fun name => (name, o)

/-- A text around its first equals sign. -/
def cutEquals (s : String) : String × Option String :=
  match Text.cutAt? ['='] s.toList with
  | some (front, behind) => (String.ofList front, some (String.ofList behind))
  | none => (s, none)

/-- A negative number is a word. -/
def isNegativeNumber (s : String) : Bool :=
  let isDigit (c : Char) : Bool := (Numeral.digit? c).isSome
  let body := match s.toList with
    | '-' :: rest => if rest.getLast? == some '\n' then rest.dropLast else rest
    | _ => []
  let fraction := match body.dropWhile isDigit with
    | '.' :: places => !places.isEmpty && places.all isDigit
    | _ => false
  (!body.isEmpty && body.all isDigit) || fraction

/-- The options that an argument can be short for. -/
def candidates (g : Grammar) (s : String) : List Sense :=
  match s.toList with
  | '-' :: '-' :: _ =>
    let cut := cutEquals s
    (g.named.filter fun entry => cut.1.toList.isPrefixOf entry.1.toList).map fun entry =>
      .option entry.2 entry.1 cut.2
  | '-' :: c :: rest =>
    (g.named.filter (·.1 == String.ofList ['-', c])).map fun entry =>
      .option entry.2 entry.1 (some (String.ofList rest))
  | _ => []

def optionNames (senses : List Sense) : List String :=
  senses.filterMap fun sense => match sense with
    | .option _ name _ => some name
    | _ => none

/-- Understands one argument in front of a divider. -/
def sense (g : Grammar) (s : String) : Except Stop Sense :=
  if s.toList.head? != some '-' then .ok .word
  else
    match g.named.lookup s with
    | some o => .ok (.option o s none)
    | none =>
      if s == "-" then .ok .word
      else
        let cut := cutEquals s
        match cut.2, g.named.lookup cut.1 with
        | some behind, some o => .ok (.option o cut.1 (some behind))
        | _, _ =>
          match g.candidates s with
          | [only] => .ok only
          | [] =>
            if isNegativeNumber s || s.toList.contains ' ' then .ok .word else .ok .unknown
          | many =>
            let names := ", ".intercalate (optionNames many)
            .error (.mistake g s!"ambiguous option: {s} could match {names}")

/-- Understands all arguments. Behind a divider all are words. -/
def senses (g : Grammar) : List String → Except Stop (List (String × Sense))
  | [] => .ok []
  | s :: rest => do
    if s == "--" then return (s, .divider) :: rest.map (·, .word)
    else
      let first ← g.sense s
      return (s, first) :: (← g.senses rest)

def isOption : Sense → Bool
  | .word => false
  | .divider => false
  | _ => true

/-- Refuses a value that is none of the choices. -/
def checkChoice (g : Grammar) (title : String) (choices : List String) (s : String) :
    Except Stop Unit :=
  if choices.isEmpty || choices.contains s then .ok ()
  else
    let listed := ", ".intercalate (choices.map Text.literal)
    .error (.mistake g
      s!"argument {title}: invalid choice: {Text.literal s} (choose from {listed})")

/-- How many of the arguments at the front are taken as words; nothing if they do not do. -/
def wordCount (arity : Arity) (args : List (String × Sense)) : Option Nat :=
  let lead := args.takeWhile fun a => !isOption a.2
  let dividers := (lead.takeWhile (·.2 == .divider)).length
  let hasWord := lead.length > dividers
  match arity with
  | .any => some lead.length
  | .atLeastOne => if hasWord then some lead.length else none
  | .command => if hasWord then some args.length else none
  | .atMostOne =>
    let front := if hasWord then dividers + 1 else dividers
    some (front + ((lead.drop front).takeWhile (·.2 == .divider)).length)

/-- Takes arguments as the words of the command. The divider is no word. -/
def takeWords (g : Grammar) (given : Given) (args : List String) : Except Stop Given := do
  let words := if g.words.arity == .command then args else args.erase "--"
  let checked := if g.words.arity == .command then words.take 1 else words
  for word in checked do
    g.checkChoice g.words.name g.words.choices word
  return { given with words }

/-- What an option without a value does. -/
def takeFlag (g : Grammar) (given : Given) (o : OptionSpec) : Except Stop Given :=
  match o.kind with
  | .help => .error (.help g)
  | _ => .ok { given with flags := o.names ++ given.flags }

def takeValue (g : Grammar) (given : Given) (o : OptionSpec) (choices : List String)
    (value : String) : Except Stop Given := do
  g.checkChoice o.title choices value
  return { given with values := given.values ++ o.names.map (·, value) }

/-- An option without a value was given one. -/
def ignored (g : Grammar) (o : OptionSpec) (value : List Char) : Stop :=
  .mistake g s!"argument {o.title}: ignored explicit argument {Text.literal (String.ofList value)}"

/-- The options that letters written together stand for, behind a first one. All of them have to be
options, and the first that is none is reported with all that follows it. -/
def letters (g : Grammar) (o : OptionSpec) : List Char → Except Stop (List OptionSpec)
  | [] => .ok [o]
  | c :: rest =>
    match g.named.lookup (String.ofList ['-', c]) with
    | none => .error (g.ignored o (c :: rest))
    | some next => return o :: (← g.letters next rest)

/-- Takes an option with what follows it, and says how many further arguments it used. -/
def takeOption (g : Grammar) (given : Given) (o : OptionSpec) (name : String)
    (behind : Option String) (next : Option (String × Sense)) :
    Except Stop (Given × Nat) :=
  match o.kind, behind with
  | .value choices, some value => return (← g.takeValue given o choices value, 0)
  | .value choices, none =>
    match next with
    | some (value, .word) => return (← g.takeValue given o choices value, 1)
    | _ => .error (.mistake g s!"argument {o.title}: expected one argument")
  | _, none => return (← g.takeFlag given o, 0)
  | _, some value =>
    if name.length == 2 && !value.isEmpty then do
      return (← (← g.letters o value.toList).foldlM g.takeFlag given, 0)
    else .error (g.ignored o value.toList)

/-- Takes arguments from the front. The words are taken once, from the first run of arguments that
do; later ones are left over. -/
def take (g : Grammar) : Nat → Bool → Given → List (String × Sense) → Except Stop (Given × Bool)
  | 0, pending, given, _ => .ok (given, pending)
  | fuel + 1, pending, given, args => do
    let lead := args.takeWhile fun a => !isOption a.2
    let rest := args.drop lead.length
    let count := if pending then wordCount g.words.arity args else none
    match rest with
    | [] =>
      match count with
      | none => return ({ given with extras := given.extras ++ lead.map Prod.fst }, pending)
      | some n =>
        let given ← g.takeWords given ((args.take n).map Prod.fst)
        return ({ given with extras := given.extras ++ (args.drop n).map Prod.fst }, false)
    | (s, sense) :: behind =>
      match if lead.isEmpty then none else count with
      | some n =>
        let given ← g.takeWords given ((args.take n).map Prod.fst)
        g.take fuel false given (args.drop n)
      | none =>
        let given := { given with extras := given.extras ++ lead.map Prod.fst }
        match sense with
        | .option o name more =>
          let (given, used) ← g.takeOption given o name more behind.head?
          g.take fuel pending given (behind.drop used)
        | _ => g.take fuel pending { given with extras := given.extras ++ [s] } behind

/-- Reads the arguments of a command. What is not recognized is handed back. -/
def read (g : Grammar) (args : List String) : Except Stop Given := do
  let senses ← g.senses args
  let (given, pending) ← g.take (2 * args.length + 2) true {} senses
  if pending && g.words.arity == .atLeastOne then
    throw (.mistake g s!"the following arguments are required: {g.words.name}")
  return given

/-- Reads the arguments of a command that has to recognize all of them. -/
def readAll (g : Grammar) (args : List String) : Except Stop Given := do
  let given ← g.read args
  if given.extras.isEmpty then return given
  else throw (.mistake g ("unrecognized arguments: " ++ " ".intercalate given.extras))

end Grammar

end FlowMachine.Command
