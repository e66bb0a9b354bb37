import Outreach.Text.Split

/-!
# Options on a command line

A level of a command line is a list of words: options in their long form `--name` or `--name=value`,
options in their short form, several of them in one word, and places that are filled by position.
Behind `--` every word is positional. A level may stop at the name of a command, and what follows is
then the next level.
-/

namespace Outreach

/-- Why the words of a command line are not carried out. -/
inductive Refusal where
  /-- They make no sense. -/
  | misuse
  /-- They ask only what could be said. -/
  | help
  deriving DecidableEq, Repr

/-- What an option takes. -/
inductive Takes where
  /-- Nothing; it may be given once. -/
  | nothing
  /-- Nothing; how often it is given counts. -/
  | count
  /-- A value; it may be given once. -/
  | value
  /-- A value that must not be empty; it may be given once. -/
  | path
  /-- A value each time that it is given. -/
  | values
  /-- Nothing, and everything else is beside the point. -/
  | help
  deriving DecidableEq, Repr

/-- An option. -/
structure CommandOption where
  name : String
  short : Option Char
  takes : Takes

namespace CommandOption

/-- Whether an option takes a value. -/
def takesValue (o : CommandOption) : Bool :=
  match o.takes with
  | .value | .path | .values => true
  | .nothing | .count | .help => false

/-- Whether an option may be given more than once. -/
def mayRepeat (o : CommandOption) : Bool :=
  match o.takes with
  | .count | .values => true
  | .nothing | .value | .path | .help => false

/-- Whether an option accepts a value. -/
def accepts (o : CommandOption) (value : String) : Bool :=
  o.takes != .path || !value.isEmpty

end CommandOption

/-- What was given on one level: the options with their values, the words that fill places, and the
next level with the name of its command. -/
structure Given where
  options : List (String × String)
  words : List String
  next : Option (String × List String)

namespace Given

/-- Nothing. -/
def nothing : Given :=
  ⟨[], [], none⟩

/-- The number of times that an option was given. -/
def count (given : Given) (name : String) : Nat :=
  given.options.countP fun o => o.1 == name

/-- Whether an option was given. -/
def has (given : Given) (name : String) : Bool :=
  0 < given.count name

/-- The values of an option, in order. -/
def values (given : Given) (name : String) : List String :=
  (given.options.filter fun o => o.1 == name).map Prod.snd

/-- The value of an option. -/
def value? (given : Given) (name : String) : Option String :=
  (given.values name).head?

/-- One more option. -/
def add (given : Given) (o : CommandOption) (value : String) : Except Refusal Given :=
  if o.takes = .help then .error .help
  else if given.has o.name && !o.mayRepeat then .error .misuse
  else if !o.accepts value then .error .misuse
  else .ok { given with options := given.options ++ [(o.name, value)] }

/-- The options of one word in short form. None of them takes a value. -/
def addShort (known : List CommandOption) (given : Given) : List Char → Except Refusal Given
  | [] => .ok given
  | c :: rest =>
    match known.find? fun o => o.short == some c with
    | none => .error .misuse
    | some o => do addShort known (← given.add o "") rest

/-- One more word, if a place is left for it that accepts it. -/
def addWord (places : List (String → Bool)) (given : Given) (word : String) :
    Except Refusal Given :=
  if places[given.words.length]?.any fun accepts => accepts word then
    .ok { given with words := given.words ++ [word] }
  else .error .misuse

end Given

namespace CommandLine

/-- Whether a word looks like options, and is no value. A single hyphen is a word like others. -/
def looksLikeOption (word : String) : Bool :=
  match word.toList with
  | ['-'] => false
  | '-' :: _ => true
  | _ => false

/-- The name of an option in long form, and the value that is attached to it. -/
def longForm? (word : String) : Option (String × Option String) :=
  (Text.behind? ['-', '-'] word.toList).map fun body =>
    match Text.splitOnce '=' body with
    | some (name, value) => (String.ofList name, some (String.ofList value))
    | none => (String.ofList body, none)

/-- Reads a level, with the options and the names of commands that are known on it and with what the
places accept that are filled by position. -/
def scan (known : List CommandOption) (commands : List String) (places : List (String → Bool))
    (given : Given) : List String → Except Refusal Given
  | [] => .ok given
  | word :: rest =>
    if commands.contains word then .ok { given with next := some (word, rest) }
    else if word = "--" then rest.foldlM (Given.addWord places) given
    else if !looksLikeOption word then do
      scan known commands places (← given.addWord places word) rest
    else match longForm? word with
      | none => do scan known commands places (← given.addShort known (word.toList.drop 1)) rest
      | some (name, attached) =>
        match known.find? fun o => o.name == name with
        | none => .error .misuse
        | some o =>
          match o.takesValue, attached with
          | false, some _ => .error .misuse
          | false, none => do scan known commands places (← given.add o "") rest
          | true, some value => do scan known commands places (← given.add o value) rest
          | true, none =>
            match rest with
            | [] => .error .misuse
            | value :: rest =>
              if looksLikeOption value then .error .misuse
              else do scan known commands places (← given.add o value) rest

end CommandLine

end Outreach
