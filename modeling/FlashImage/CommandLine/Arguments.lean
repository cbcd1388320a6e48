/-!
# Words and switches

The arguments of a command are words and switches. A switch has a short name behind one dash and a long
name behind two, and may take a value: attached to it, behind an equals sign, or as the next argument.
Short names can be run together. A dash alone is a word, and so is everything behind two dashes.
A switch counts once; giving it again is an error, as is an unknown one, a value where there is no
place for it, and a switch where a value should be.

## Parts

* `Switch` — what can be given;
* `Arguments` — what was given;
* `Arguments.read?` — taking arguments apart.
-/

namespace FlashImage

/-- **A switch** that a command knows. -/
structure Switch where
  short : Char
  long : String
  takesValue : Bool

/-- **Arguments, taken apart**: switches by their long name, each with its value if it takes one, and
words. -/
structure Arguments where
  switches : List (String × Option String)
  words : List String

namespace Arguments

/-- No arguments. -/
def empty : Arguments := ⟨[], []⟩

/-- Add a switch. -/
def addSwitch (a : Arguments) (name : String) (value : Option String) : Arguments :=
  { a with switches := a.switches ++ [(name, value)] }

/-- Add words. -/
def addWords (a : Arguments) (words : List String) : Arguments :=
  { a with words := a.words ++ words }

/-- Whether a switch was given. -/
def has (a : Arguments) (name : String) : Bool := a.switches.any (·.1 = name)

/-- The value that was given to a switch. -/
def value? (a : Arguments) (name : String) : Option String := (a.switches.lookup name).join

/-- A value behind an equals sign, or attached directly. -/
def attached : List Char → String
  | '=' :: value => String.ofList value
  | value => String.ofList value

/-- **Short names that are run together.** A switch that takes a value has the rest for it; if there is
none, its name comes back, since it waits for the next argument. -/
def readShort? (known : List Switch) (a : Arguments) : List Char →
    Option (Arguments × Option String)
  | [] => some (a, none)
  | c :: rest =>
    match known.find? (·.short = c) with
    | none => none
    | some s =>
      if s.takesValue then
        if rest.isEmpty then some (a, some s.long)
        else some (a.addSwitch s.long (some (attached rest)), none)
      else readShort? known (a.addSwitch s.long none) rest

/-- **A long name**, with or without a value behind an equals sign. -/
def readLong? (known : List Switch) (a : Arguments) (cs : List Char) :
    Option (Arguments × Option String) :=
  let (name, value) := cs.span (· ≠ '=')
  match known.find? (·.long = String.ofList name) with
  | none => none
  | some s =>
    match s.takesValue, value with
    | true, '=' :: value => some (a.addSwitch s.long (some (String.ofList value)), none)
    | true, _ => some (a, some s.long)
    | false, [] => some (a.addSwitch s.long none, none)
    | false, _ => none

/-- **Arguments one after the other**, behind those in `a`. While a switch is waiting for its value,
only a word can follow. -/
def readFrom? (known : List Switch) (a : Arguments) (waiting : Option String) :
    List String → Option Arguments
  | [] => if waiting.isNone then some a else none
  | arg :: rest =>
    match arg.toList, waiting with
    -- nothing behind two dashes is a switch
    | ['-', '-'], none => some (a.addWords rest)
    | '-' :: c :: cs, none =>
      match if c = '-' then readLong? known a cs else readShort? known a (c :: cs) with
      | some (a, waiting) => readFrom? known a waiting rest
      | none => none
    -- a switch, or two dashes, where a value should be
    | '-' :: _ :: _, some _ => none
    | _, some name => readFrom? known (a.addSwitch name (some arg)) none rest
    | _, none => readFrom? known (a.addWords [arg]) none rest

/-- **Taking arguments apart**, if every switch is known and given at most once. -/
def read? (known : List Switch) (args : List String) : Option Arguments := do
  let a ← readFrom? known empty none args
  if (a.switches.map Prod.fst).Nodup then some a else none

/-- Whether an argument is a switch and not a word. -/
def isSwitch (arg : String) : Bool :=
  match arg.toList with
  | '-' :: _ :: _ => true
  | _ => false

end Arguments

end FlashImage
