import PushQueue.Ident

/-!
The command line. One option, the settings file, stands before the command; help may be asked for at
every place. Words after a double dash are no options and no commands.
-/

namespace PushQueue

inductive Command where
  /-- Make this month's and the next month's tables, drop the retired ones. -/
  | rotate
  /-- Delete expired rows from every message table. -/
  | sweep
  | tables
  /-- Show what is stored for a subscriber. -/
  | inspect (subscriber : SubscriberId)
deriving DecidableEq

structure Invocation where
  command : Command
  config : Option String := none
deriving DecidableEq

inductive UsageError where
  | noArguments
  | helpAsked
  | missingCommand
  | unknownCommand
  | unknownArgument
  /-- An option without a value, or with an empty one. -/
  | missingValue
  /-- A value where none is taken. -/
  | unexpectedValue
  | repeatedOption
  | missingSubscriber
  | invalidSubscriber
deriving DecidableEq

def UsageError.message : UsageError → String
  | .noArguments | .helpAsked =>
    "usage: [--config FILE] rotate | sweep | tables | inspect SUBSCRIBER"
  | .missingCommand => "a command is missing"
  | .unknownCommand => "there is no such command"
  | .unknownArgument => "there is no such argument"
  | .missingValue => "an option lacks its value"
  | .unexpectedValue => "an option takes no value"
  | .repeatedOption => "an option is given twice"
  | .missingSubscriber => "a subscriber id is missing"
  | .invalidSubscriber => "the subscriber id is not a UUID"

inductive Word where
  | endOfOptions
  /-- A name after a double dash, and the value after an equals sign. -/
  | long (name : String) (value : Option String)
  | short (letters : List Char)
  | plain
deriving DecidableEq

namespace Word

def splitValue (cs : List Char) : Word :=
  let value := cs.dropWhile (· ≠ '=')
  .long (String.ofList (cs.takeWhile (· ≠ '=')))
    (if value.isEmpty then none else some (String.ofList (value.drop 1)))

def ofString (s : String) : Word :=
  match s.toList with
  | ['-', '-'] => .endOfOptions
  | '-' :: '-' :: cs => splitValue cs
  | ['-'] => .plain
  | '-' :: cs => .short cs
  | _ => .plain

end Word

/-- The option for the settings file, as far as it is read. -/
structure ConfigOption where
  value : Option String := none
  /-- Given last and not yet checked; without a value while none followed. -/
  pending : Option (Option String) := none

namespace ConfigOption

def settle (c : ConfigOption) : Except UsageError ConfigOption :=
  match c.pending with
  | none => .ok c
  | some none => .error .missingValue
  | some (some v) =>
    if c.value.isSome then .error .repeatedOption
    else if v.isEmpty then .error .missingValue
    else .ok ⟨some v, none⟩

/-- The option once more, with the value joined to it, or with one to follow. -/
def give (c : ConfigOption) (value : Option String) : Except UsageError ConfigOption := do
  let c ← c.settle
  match value with
  | some v => settle ⟨c.value, some (some v)⟩
  | none => .ok ⟨c.value, some none⟩

def awaitsValue (c : ConfigOption) : Bool := c.pending = some none

end ConfigOption

/-- What an option leads to where only help may be asked for; `pending` is checked before help. -/
def refuseOption (pending : Except UsageError Unit) : Word → UsageError
  | .long "help" none | .short ('h' :: _) =>
    match pending with
    | .ok () => .helpAsked
    | .error e => e
  | .long "help" (some _) => .unexpectedValue
  | _ => .unknownArgument

namespace Command

def words : List String := ["rotate", "sweep", "tables", "inspect", "help"]

def readNone (command : Command) : List String → Except UsageError Command
  | [] => .ok command
  | arg :: rest =>
    if Word.ofString arg = .endOfOptions ∧ rest = [] then .ok command
    else .error (refuseOption (.ok ()) (Word.ofString arg))

def readSubscriber (text : String) : Except UsageError Command :=
  match Ident.parse text with
  | .ok subscriber => .ok (.inspect subscriber)
  | .error _ => .error .invalidSubscriber

def finishInspect : Option String → Except UsageError Command
  | some text => readSubscriber text
  | none => .error .missingSubscriber

/-- The arguments of `inspect`; `given` is the subscriber, once it is read. -/
def readInspect (given : Option String) : List String → Except UsageError Command
  | [] => finishInspect given
  | arg :: rest =>
    match Word.ofString arg, given, rest with
    | .plain, none, rest => readInspect (some arg) rest
    | .endOfOptions, given, [] => finishInspect given
    | .endOfOptions, none, [text] => readSubscriber text
    | word, given, _ =>
      let pending :=
        match given with
        | some text => (readSubscriber text).map fun _ => ()
        | none => .ok ()
      .error (refuseOption pending word)

/-- What `help` leads to: it takes the name of one command. -/
def help : List String → UsageError
  | [] => .helpAsked
  | [word] => if words.contains word then .helpAsked else .unknownCommand
  | _ => .unknownCommand

/-- A command with its arguments, if the word names one. -/
def read? (word : String) (args : List String) : Option (Except UsageError Command) :=
  if word = "rotate" then some (readNone .rotate args)
  else if word = "sweep" then some (readNone .sweep args)
  else if word = "tables" then some (readNone .tables args)
  else if word = "inspect" then some (readInspect none args)
  else if word = "help" then some (.error (help args))
  else none

end Command

namespace Invocation

def missing (c : ConfigOption) : UsageError :=
  match c.settle with
  | .error e => e
  | .ok c => if c.value.isSome then .missingCommand else .noArguments

/-- The words of a command line, after the option `c`. -/
def read (c : ConfigOption) : List String → Except UsageError Invocation
  | [] => .error (missing c)
  | arg :: rest =>
    match if c.awaitsValue then none else Command.read? arg rest with
    | some command => do
      let command ← command
      let c ← c.settle
      return { command, config := c.value }
    | none =>
      match Word.ofString arg with
      | .endOfOptions =>
        match rest with
        | [] => .error (missing c)
        | word :: _ =>
          .error (if Command.words.contains word then .unknownArgument else .unknownCommand)
      | .long "config" value => do read (← c.give value) rest
      | .plain =>
        if c.awaitsValue then read { c with pending := some (some arg) } rest
        else .error .unknownCommand
      | word => .error (refuseOption (c.settle.map fun _ => ()) word)

def parse (args : List String) : Except UsageError Invocation := read {} args

end Invocation

end PushQueue
