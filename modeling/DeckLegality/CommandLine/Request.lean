import DeckLegality.FormatRules
import DeckLegality.Text.Decimal

/-!
# The arguments of the command line

The command is given a decklist file, the codes of the legal sets, and options.  An option may stand anywhere; its
value is the next argument or follows an equals sign.  After the argument `--` nothing is an option any more.  Each
option may be given once, and the snapshot has to be given.
-/

namespace DeckLegality

/-- What the command is asked to do. -/
structure Request where
  decklist : String
  /-- The codes of the legal sets; if there are none, all sets of the snapshot are legal. -/
  sets : List String
  snapshot : String
  rules : FormatRules
  /-- Whether to look for a pairing as well. -/
  unique : Bool
  deriving DecidableEq

open Text (digits? maxCount maxSize unsigned?)

/-- The options that take a value. -/
inductive Setting where
  | printings
  | maxCards
  | minDeckSize
  | maxDeckSize
  | minSideboardSize
  | maxSideboardSize
  deriving DecidableEq, Repr

namespace Setting

/-- All options that take a value. -/
def all : List Setting := [printings, maxCards, minDeckSize, maxDeckSize, minSideboardSize, maxSideboardSize]

/-- The name of an option on the command line. -/
def name : Setting → String
  | printings => "printings"
  | maxCards => "max-cards"
  | minDeckSize => "min-deck-size"
  | maxDeckSize => "max-deck-size"
  | minSideboardSize => "min-sideboard-size"
  | maxSideboardSize => "max-sideboard-size"

/-- The number that the value of an option stands for.  Only a copy limit may have a minus sign, and then it has to
be zero. -/
def number? (s : Setting) (value : String) : Option Nat :=
  match s, value.toList with
  | maxCards, '-' :: digits => digits? 0 digits
  | maxCards, word => unsigned? maxCount word
  | _, word => unsigned? maxSize word

/-- Whether the option takes the value: a path that is not empty, or a number. -/
def accepts : Setting → String → Bool
  | printings, value => value ≠ ""
  | s, value => (s.number? value).isSome

end Setting

/-- What an argument is by itself. -/
inductive Argument where
  | positional
  | endOfOptions
  | unique
  | help
  | setting (setting : Setting) (value : Option String)
  | unknown
  deriving DecidableEq, Repr

/-- What an argument is that starts with two dashes, the rest of which is given. -/
def Argument.ofLong (long : List Char) : Argument :=
  match long.span (· ≠ '=') with
  | (name, []) =>
    let name := String.ofList name
    if name = "unique" then unique
    else if name = "help" then help
    else match Setting.all.find? (·.name = name) with
      | some s => setting s none
      | none => unknown
  | (name, _ :: value) =>
    match Setting.all.find? (·.name = String.ofList name) with
    | some s => setting s (some (String.ofList value))
    | none => unknown

/-- What an argument is by itself.  A single dash is no option. -/
def Argument.ofText (arg : String) : Argument :=
  match arg.toList with
  | ['-', '-'] => endOfOptions
  | '-' :: '-' :: long => ofLong long
  | '-' :: 'h' :: _ => help
  | '-' :: _ :: _ => unknown
  | _ => positional

/-- What has been read of the arguments. -/
structure Arguments where
  settings : List (Setting × String) := []
  unique : Bool := false
  /-- The arguments that are no options, in order. -/
  positionals : List String := []

namespace Arguments

/-- The value of an option. -/
def value? (a : Arguments) (s : Setting) : Option String := (a.settings.find? (·.1 = s)).map (·.2)

/-- The value of an option that is a number. -/
def number? (a : Arguments) (s : Setting) : Option Nat :=
  (a.value? s).bind s.number?

/-- Takes an option with its value, unless it was given before or does not take the value. -/
def set? (a : Arguments) (s : Setting) (value : String) : Option Arguments :=
  if (a.value? s).isNone && s.accepts value then some { a with settings := (s, value) :: a.settings } else none

/-- Takes an argument that is no option.  The first one is a path, which must not be empty. -/
def place? (a : Arguments) (arg : String) : Option Arguments :=
  if a.positionals.isEmpty && arg = "" then none else some { a with positionals := a.positionals ++ [arg] }

/-- The request that the arguments make. -/
def request? (a : Arguments) : Option Request :=
  match a.positionals, a.value? .printings with
  | decklist :: sets, some snapshot =>
    let rules : FormatRules := {}
    some {
      decklist, sets, snapshot, unique := a.unique
      rules := { rules with
        maxCards := (a.number? .maxCards).getD rules.maxCards
        minDeckSize := (a.number? .minDeckSize).getD rules.minDeckSize
        maxDeckSize := a.number? .maxDeckSize
        minSideboardSize := (a.number? .minSideboardSize).getD rules.minSideboardSize
        maxSideboardSize := (a.number? .maxSideboardSize).getD rules.maxSideboardSize } }
  | _, _ => none

end Arguments

/-- What a command line asks for. -/
inductive Invocation where
  | judge (request : Request)
  | help

/-- Goes on reading a command line. -/
def Invocation.ofRest? (a : Arguments) : List String → Option Invocation
  | [] => a.request?.map judge
  | arg :: rest =>
    match Argument.ofText arg with
    | .positional => (a.place? arg).bind (ofRest? · rest)
    | .endOfOptions => (rest.foldlM Arguments.place? a).bind fun a => a.request?.map judge
    | .unique => if a.unique then none else ofRest? { a with unique := true } rest
    | .help => some help
    | .unknown => none
    | .setting s (some value) => (a.set? s value).bind (ofRest? · rest)
    | .setting s none =>
      match rest with
      | value :: rest =>
        if Argument.ofText value = .positional then (a.set? s value).bind (ofRest? · rest) else none
      | [] => none

/-- What a command line asks for, unless it is refused. -/
def Invocation.ofArgs? (args : List String) : Option Invocation := ofRest? {} args

end DeckLegality
