/-!
Contract: the arguments of the command line.

Owns:
- `Command`, a command with its arguments;
- `Invocation`, a command with the options that every command has;
- `Invocation.parse`, which reads arguments from left to right.

An option's value follows it, or is attached: after an equals sign, or to a
letter directly. An option that is given is settled when the next one comes;
then a value that is missing, an empty path and a second value are refused.
-/

namespace Wireframe

/-- A command with its arguments. -/
inductive Command where
  | validate (document : String)
  | patch (document patches : String) (out : Option String)
  | generate (document : String) (framework out : Option String)
  | sample (out : Option String)
deriving DecidableEq

namespace Command

/-- A command and the options that every command has. -/
structure Invocation where
  command : Command
  config : Option String
  verbose : Bool
deriving DecidableEq

/-- Why arguments are not carried out. -/
inductive Halt where
  /-- They are not understood. -/
  | usage
  /-- They ask for help. -/
  | help
deriving DecidableEq

/-- What an argument is given for. -/
inductive Slot where
  | config
  | verbose
  | help
  | patches
  | framework
  | out
  | document
deriving DecidableEq

namespace Slot

def takesValue : Slot → Bool
  | .verbose | .help => false
  | _ => true

/-- Whether the value is a path, which must not be empty. -/
def isPath : Slot → Bool
  | .framework => false
  | _ => true

/-- The word after two hyphens. -/
def long : Slot → String
  | .config => "config"
  | .verbose => "verbose"
  | .help => "help"
  | .patches => "patches"
  | .framework => "framework"
  | .out => "out"
  | .document => ""

/-- The letter after one hyphen. -/
def short : Slot → Option Char
  | .config => some 'c'
  | .verbose => some 'v'
  | .help => some 'h'
  | .patches => some 'p'
  | .framework => some 'f'
  | .out => some 'o'
  | .document => none

end Slot

/-- The names of the commands. -/
inductive CommandName where
  | validate
  | patch
  | generate
  | sample
deriving DecidableEq

namespace CommandName

def ofText? : String → Option CommandName
  | "validate" => some .validate
  | "patch" => some .patch
  | "generate" => some .generate
  | "sample" => some .sample
  | _ => none

/-- The options of a command besides those of all commands. -/
def ownOptions : CommandName → List Slot
  | .validate => []
  | .patch => [.patches, .out]
  | .generate => [.framework, .out]
  | .sample => [.out]

def takesDocument : CommandName → Bool
  | .sample => false
  | _ => true

end CommandName

def sharedOptions : List Slot := [.config, .verbose, .help]

/-- What may be given at a place of the command line. -/
structure Level where
  options : List Slot
  takesDocument : Bool

/-- What was given so far: settled values, and a slot that waits to be settled,
with its value if it came. -/
structure Progress where
  settled : List (Slot × String) := []
  waiting : Option (Slot × Option String) := none
  documentGiven : Bool := false
  /-- Whether a double hyphen has ended the options. -/
  optionsEnded : Bool := false

namespace Progress

def store (progress : Progress) (slot : Slot) (value : String) : Except Halt Progress :=
  if (progress.settled.lookup slot).isSome then .error .usage
  else if slot.isPath && slot.takesValue && value.isEmpty then .error .usage
  else .ok { progress with settled := (slot, value) :: progress.settled, waiting := none }

def settle (progress : Progress) : Except Halt Progress :=
  match progress.waiting with
  | none => .ok progress
  | some (_, none) => .error .usage
  | some (slot, some value) => progress.store slot value

def awaitsValue (progress : Progress) : Bool :=
  match progress.waiting with
  | some (_, none) => true
  | _ => false

def value? (progress : Progress) (slot : Slot) : Option String :=
  progress.settled.lookup slot

/-- An option without a value. -/
def giveFlag (progress : Progress) (slot : Slot) : Except Halt Progress := do
  let progress ← progress.settle
  if slot = .help then throw .help else progress.store slot ""

def giveAttached (progress : Progress) (slot : Slot) (value : String) :
    Except Halt Progress := do
  (← progress.settle).store slot value

def giveOption (progress : Progress) (slot : Slot) : Except Halt Progress := do
  let progress ← progress.settle
  pure { progress with waiting := some (slot, none) }

def givePlain (level : Level) (progress : Progress) (value : String) :
    Except Halt Progress := do
  if level.takesDocument && !progress.documentGiven then
    let progress ← progress.settle
    pure { progress with waiting := some (.document, some value), documentGiven := true }
  else throw .usage

/-- An option by its word; an equals sign separates an attached value. -/
def giveLong (level : Level) (progress : Progress) (chars : List Char) :
    Except Halt Progress :=
  let word := String.ofList (chars.takeWhile (· ≠ '='))
  let attached := match chars.dropWhile (· ≠ '=') with
    | [] => none
    | _ :: value => some (String.ofList value)
  match level.options.find? fun slot => slot.long == word with
  | none => .error .usage
  | some slot =>
      match slot.takesValue, attached with
      | true, some value => progress.giveAttached slot value
      | true, none => progress.giveOption slot
      | false, some _ => .error .usage
      | false, none => progress.giveFlag slot

/-- Options by their letters. The rest after a letter that takes a value is the
value, an equals sign before it aside. -/
def giveShort (level : Level) : List Char → Progress → Except Halt Progress
  | [], progress => .ok progress
  | letter :: rest, progress =>
      match level.options.find? fun slot => slot.short == some letter with
      | none => .error .usage
      | some slot =>
          if slot.takesValue then
            match rest with
            | [] => progress.giveOption slot
            | '=' :: value => progress.giveAttached slot (String.ofList value)
            | value => progress.giveAttached slot (String.ofList value)
          else do giveShort level rest (← progress.giveFlag slot)

def give (level : Level) (progress : Progress) (argument : String) :
    Except Halt Progress :=
  if progress.optionsEnded then progress.givePlain level argument
  else
    match argument.toList with
    | ['-', '-'] => .ok { progress with optionsEnded := true }
    | '-' :: '-' :: chars => progress.giveLong level chars
    | '-' :: first :: chars => giveShort level (first :: chars) progress
    | _ =>
        match progress.waiting with
        | some (slot, none) =>
            .ok { progress with waiting := some (slot, some argument) }
        | _ => progress.givePlain level argument

end Progress

def topLevel : Level := ⟨sharedOptions, false⟩

def commandLevel (name : CommandName) : Level :=
  ⟨name.ownOptions ++ sharedOptions, name.takesDocument⟩

/-- The argument that has to be there. -/
def needed (value : Option String) : Except Halt String :=
  match value with
  | some value => .ok value
  | none => .error .usage

def commandOf (name : CommandName) (progress : Progress) : Except Halt Command :=
  match name with
  | .validate => do return .validate (← needed (progress.value? .document))
  | .patch => do
      let document ← needed (progress.value? .document)
      let patches ← needed (progress.value? .patches)
      pure (.patch document patches (progress.value? .out))
  | .generate => do
      let document ← needed (progress.value? .document)
      pure (.generate document (progress.value? .framework) (progress.value? .out))
  | .sample => .ok (.sample (progress.value? .out))

def parseCommand (name : CommandName) (arguments : List String) :
    Except Halt (Command × Progress) := do
  let progress ← arguments.foldlM (Progress.give (commandLevel name)) {}
  let progress ← progress.settle
  pure (← commandOf name progress, progress)

/-- The answer to the command `help` with the names after it. -/
def helpOn : List String → Halt
  | [] => .help
  | [name] => if (CommandName.ofText? name).isSome || name == "help" then .help else .usage
  | _ => .usage

namespace Invocation

/-- Reads arguments, some of them already given. -/
def parseFrom (progress : Progress) : List String → Except Halt Invocation
  | [] => .error .usage
  | argument :: rest =>
      let isName := !progress.optionsEnded && !progress.awaitsValue
      if isName && argument == "help" then .error (helpOn rest)
      else
        match CommandName.ofText? argument, isName with
        | some name, true => do
            let (command, own) ← parseCommand name rest
            let progress ← progress.settle
            pure {
              command
              config := (own.value? .config).or (progress.value? .config)
              verbose := (own.value? .verbose).isSome || (progress.value? .verbose).isSome }
        | _, _ => do parseFrom (← progress.give topLevel argument) rest

/-- The invocation that arguments spell. Options of all commands may stand on
either side of the command's name; behind it they count. -/
def parse (arguments : List String) : Except Halt Invocation :=
  parseFrom {} arguments

end Invocation

end Command

end Wireframe
