import DnsMatch.Files.Path
import DnsMatch.MessageFile
import DnsMatch.Mode

/-! # The command line

There are two commands: `compare` takes two message files, a mode and a format,
and `batch` takes a configuration file. Each is followed by options in any
order. An option is one word with an equals sign before its value, or two
words, of which the second must not start with a dash unless it is nothing
else.

An option whose value is a word of its own is looked at only when the next
option that the command has is met, or at the end of the line. A word that the
command has no use for is refused at once. -/

namespace DnsMatch.CommandLine

inductive Command where
  | compare (expected actual : Files.Path) (mode : Mode) (format : Format)
  | batch (config : Files.Path)
deriving DecidableEq, Repr

/-- Why a command line gives no command. Asking for help or for the version is one reason. -/
inductive Refusal where
  | help
  | version
  | nothingAsked
  | unknownCommand
  | unknownArgument
  | surplusValue
  | noValue
  | badValue
  | repeatedOption
  | missingOption
deriving DecidableEq, Repr

def Refusal.status : Refusal → Nat
  | .help | .version => 0
  | _ => 2

/-! ## Words -/

/-- A word of a command line by its shape. -/
inductive Word where
  /-- Two dashes, behind which nothing is an option. -/
  | terminator
  /-- Two dashes and a name, with the value behind an equals sign if there is one. -/
  | long (name : String) (value? : Option String)
  /-- A dash and letters, of which the first is what counts. -/
  | short (letter : Char)
  | plain (text : String)
deriving DecidableEq, Repr

def Word.ofText (text : String) : Word :=
  match text.toList with
  | ['-', '-'] => .terminator
  | '-' :: '-' :: rest =>
    let name := rest.takeWhile (· != '=')
    .long (String.ofList name)
      (match rest.drop name.length with
        | [] => none
        | _ :: value => some (String.ofList value))
  | '-' :: letter :: _ => .short letter
  | _ => .plain text

/-! ## Settings -/

inductive Setting where
  | expected
  | actual
  | mode
  | format
  | config
deriving DecidableEq, Repr

namespace Setting

/-- The name of the option, without its dashes. -/
def name : Setting → String
  | .expected => "expected"
  | .actual => "actual"
  | .mode => "mode"
  | .format => "format"
  | .config => "config"

/-- Why a text is no value for the setting, if it is none. -/
def objection? (setting : Setting) (value : String) : Option Refusal :=
  match setting with
  | .expected | .actual | .config => if value = "" then some .noValue else none
  | .mode => if (Mode.ofText? value).isNone then some .badValue else none
  | .format => if (Format.ofText? value).isNone then some .badValue else none

end Setting

/-- Values under what they set, in the order in which they were given. -/
abbrev Settings := List (Setting × String)

/-- Adds a value, unless there is one already or the text is no value. -/
def Settings.add (settings : Settings) (setting : Setting) (value : String) :
    Except Refusal Settings :=
  if (settings.lookup setting).isSome then .error .repeatedOption
  else
    match setting.objection? value with
    | some refusal => .error refusal
    | none => .ok (settings ++ [(setting, value)])

/-! ## Reading options -/

/-- An option that was met but not looked at yet, with its value once there is one. -/
structure Pending where
  setting : Setting
  value? : Option String
deriving DecidableEq, Repr

/-- The settings with the pending option added. -/
def settle (settings : Settings) : Option Pending → Except Refusal Settings
  | none => .ok settings
  | some ⟨_, none⟩ => .error .noValue
  | some ⟨setting, some value⟩ => settings.add setting value

/-- The refusal when help is asked for: a pending option that is wrong comes first. -/
def askHelp (settings : Settings) (pending? : Option Pending) : Except Refusal Settings :=
  match settle settings pending? with
  | .error refusal => .error refusal
  | .ok _ => .error .help

/-- Reads the options of a command that has the given settings. -/
def readOptions (allowed : List Setting) (settings : Settings) (pending? : Option Pending) :
    List String → Except Refusal Settings
  | [] => settle settings pending?
  | word :: words =>
    match Word.ofText word with
    | .terminator =>
      if words.isEmpty then settle settings pending? else .error .unknownArgument
    | .long name value? =>
      match allowed.find? (·.name = name) with
      | none =>
        if name = "help" then
          if value?.isSome then .error .surplusValue else askHelp settings pending?
        else .error .unknownArgument
      | some setting =>
        match settle settings pending?, value? with
        | .error refusal, _ => .error refusal
        | .ok settled, none => readOptions allowed settled (some ⟨setting, none⟩) words
        | .ok settled, some value =>
          match settled.add setting value with
          | .error refusal => .error refusal
          | .ok settings => readOptions allowed settings none words
    | .short letter =>
      if letter = 'h' then askHelp settings pending? else .error .unknownArgument
    | .plain text =>
      match pending? with
      | some ⟨setting, none⟩ => readOptions allowed settings (some ⟨setting, some text⟩) words
      | _ => .error .unknownArgument

/-! ## Commands -/

/-- The path that a setting has, which must be there. -/
def Settings.path (settings : Settings) (setting : Setting) : Except Refusal Files.Path :=
  match settings.lookup setting with
  | none => .error .missingOption
  | some text => .ok ⟨text⟩

/-- The comparison that the words behind `compare` ask for. -/
def readCompare (words : List String) : Except Refusal Command := do
  let settings ← readOptions [.expected, .actual, .mode, .format] [] none words
  let expected ← settings.path .expected
  let actual ← settings.path .actual
  let mode := (settings.lookup .mode).bind Mode.ofText?
  let format := (settings.lookup .format).bind Format.ofText?
  return .compare expected actual (mode.getD Mode.default) (format.getD Format.default)

/-- The batch that the words behind `batch` ask for. -/
def readBatch (words : List String) : Except Refusal Command := do
  let settings ← readOptions [.config] [] none words
  return .batch (← settings.path .config)

/-- The names of the commands, of which the last shows help for one of them. -/
def commandNames : List String := ["compare", "batch", "help"]

/-- What the words behind `help` come to: help for at most one command. -/
def readHelp (words : List String) : Refusal :=
  match words with
  | [] => .help
  | [name] => if commandNames.contains name then .help else .unknownCommand
  | _ => .unknownCommand

/-- Reads the words of a command line, without the name of the program. -/
def read (words : List String) : Except Refusal Command :=
  match words with
  | [] => .error .nothingAsked
  | word :: words =>
    match Word.ofText word with
    | .plain "compare" => readCompare words
    | .plain "batch" => readBatch words
    | .plain "help" => .error (readHelp words)
    | .plain _ => .error .unknownCommand
    | .terminator =>
      match words with
      | [] => .error .nothingAsked
      | next :: _ =>
        .error (if commandNames.contains next then .unknownArgument else .unknownCommand)
    | .long name value? =>
      if name = "help" then .error (if value?.isSome then .surplusValue else .help)
      else if name = "version" then .error (if value?.isSome then .surplusValue else .version)
      else .error .unknownArgument
    | .short letter =>
      .error (if letter = 'h' then .help else if letter = 'V' then .version
        else .unknownArgument)

end DnsMatch.CommandLine
