import BlockScript.Check

/-!
# Command line arguments

Arguments are read from left to right, and the first that settles the matter does: a wrong
argument, or one that asks for the version or the usage. Options are named in full, and a value
follows its option as the next argument or behind a `=`. Only the verbosity may be given more
than once.
-/

namespace BlockScript

/-- When reports are coloured. -/
inductive ColourChoice
  /-- On a terminal. -/
  | auto
  | always | never
  deriving DecidableEq, Repr, Inhabited

/-- The style for reports on an output that is a terminal or is not. -/
def ColourChoice.style (terminal : Bool) : ColourChoice → Style
  | auto => .ofFlag terminal
  | always => .coloured
  | never => .plain

/-- What the arguments have settled so far. -/
structure Settings where
  file? : Option String
  dumps : Bool
  emit? : Option Emit
  compact : Bool
  colour? : Option ColourChoice
  verbosity : Nat
  deriving DecidableEq, Repr, Inhabited

namespace Settings

/-- The settings before any argument. -/
def initial : Settings := ⟨none, false, none, false, none, 0⟩

/-- The colour choice, `auto` unless another was made. -/
def colour (settings : Settings) : ColourChoice := settings.colour?.getD .auto

/-- The check that the settings ask for, if they name a script. -/
def options? (settings : Settings) : Option CheckOptions :=
  settings.file?.map fun file =>
    ⟨file, settings.emit?.getD .tree, if settings.compact then .compact else .pretty,
      settings.dumps⟩

end Settings

/-- What a list of arguments asks for. -/
inductive Invocation
  | check (options : CheckOptions) (colour : ColourChoice)
  | version
  | usage
  | invalid
  deriving DecidableEq, Repr, Inhabited

/-- The options that have no value. -/
inductive Flag
  | debug | compact | verbose | version | help
  deriving DecidableEq, Repr

/-- The options that have a value. -/
inductive Setting
  | file | emit | color
  deriving DecidableEq, Repr

/-- The flag with this name. -/
def Flag.ofName? : String → Option Flag
  | "debug" => some debug
  | "compact" => some compact
  | "verbose" => some verbose
  | "version" => some version
  | "help" => some help
  | _ => none

/-- The flag with this letter. -/
def Flag.ofLetter? : Char → Option Flag
  | 'v' => some verbose
  | 'V' => some version
  | 'h' => some help
  | _ => none

/-- The setting with this name. -/
def Setting.ofName? : String → Option Setting
  | "file" => some file
  | "emit" => some emit
  | "color" => some color
  | _ => none

/-- What is emitted under this name. -/
def Emit.ofName? : String → Option Emit
  | "ast" => some tree
  | "source" => some source
  | "tokens" => some tokens
  | _ => none

/-- The colour choice with this name. -/
def ColourChoice.ofName? : String → Option ColourChoice
  | "auto" => some auto
  | "always" => some always
  | "never" => some never
  | _ => none

namespace Settings

/-- The settings with a flag, or what the arguments ask for if that is settled now. -/
def flag (settings : Settings) : Flag → Except Invocation Settings
  | .debug => if settings.dumps then .error .invalid else .ok { settings with dumps := true }
  | .compact =>
      if settings.compact then .error .invalid else .ok { settings with compact := true }
  | .verbose => .ok { settings with verbosity := settings.verbosity + 1 }
  | .version => .error .version
  | .help => .error .usage

/-- The settings with a value for an option that must have none yet. -/
def set (settings : Settings) (value : String) : Setting → Except Invocation Settings
  | .file =>
      if value.isEmpty ∨ settings.file?.isSome then .error .invalid
      else .ok { settings with file? := some value }
  | .emit =>
      match Emit.ofName? value, settings.emit? with
      | some emit, none => .ok { settings with emit? := some emit }
      | _, _ => .error .invalid
  | .color =>
      match ColourChoice.ofName? value, settings.colour? with
      | some colour, none => .ok { settings with colour? := some colour }
      | _, _ => .error .invalid

/-- The settings with the flags that a cluster of letters stands for. -/
def letters (settings : Settings) : List Char → Except Invocation Settings
  | [] => .ok settings
  | letter :: rest =>
      match Flag.ofLetter? letter with
      | none => .error .invalid
      | some flag => do (← settings.flag flag).letters rest

end Settings

/-- The kinds of arguments. -/
inductive Argument
  /-- A name behind two dashes, and the text behind its `=`. -/
  | long (name : String) (value? : Option String)
  /-- Letters behind one dash. -/
  | short (letters : List Char)
  /-- Two dashes alone: nothing behind them is an option. -/
  | divider
  | positional
  deriving DecidableEq, Repr

/-- The kind of an argument. -/
def Argument.ofString (argument : String) : Argument :=
  match argument.toList with
  | ['-', '-'] => .divider
  | '-' :: '-' :: text =>
      let name := String.ofList (text.takeWhile (· != '='))
      match text.dropWhile (· != '=') with
      | [] => .long name none
      | _ :: value => .long name (some (String.ofList value))
  | '-' :: c :: letters => .short (c :: letters)
  | _ => .positional

/-- What settings ask for when no argument is left. -/
def Settings.invocation (settings : Settings) : Invocation :=
  match settings.options? with
  | none => .invalid
  | some options => .check options settings.colour

/-- What an option with this name makes of the settings. Without a value of its own, a setting
is still to be given one, and is returned. -/
def Settings.long (settings : Settings) (name : String) (value? : Option String) :
    Except Invocation (Settings × Option Setting) :=
  match Flag.ofName? name, Setting.ofName? name, value? with
  | some flag, _, none => (settings.flag flag).map (·, none)
  | none, some setting, some value => (settings.set value setting).map (·, none)
  | none, some setting, none => .ok (settings, some setting)
  | _, _, _ => .error .invalid

/-- What arguments ask for, behind those that made these settings. If the last of them was a
setting without a value, it is `pending?`, and the next argument is its value. -/
def Invocation.after (settings : Settings) (pending? : Option Setting) :
    List String → Invocation
  | [] => if pending?.isSome then .invalid else settings.invocation
  | argument :: rest =>
      match pending?, Argument.ofString argument with
      | some setting, .positional =>
          match settings.set argument setting with
          | .error invocation => invocation
          | .ok settings => after settings none rest
      | none, .long name value? =>
          match settings.long name value? with
          | .error invocation => invocation
          | .ok (settings, pending?) => after settings pending? rest
      | none, .short letters =>
          match settings.letters letters with
          | .error invocation => invocation
          | .ok settings => after settings none rest
      | none, .divider => if rest.isEmpty then settings.invocation else .invalid
      | _, _ => .invalid

/-- What a list of arguments asks for. -/
def Invocation.ofArguments (arguments : List String) : Invocation :=
  after .initial none arguments

end BlockScript
