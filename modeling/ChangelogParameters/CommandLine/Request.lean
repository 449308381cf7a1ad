import ChangelogParameters.CommandLine.Options

/-!
# Requests

The arguments are read as a sequence of items: settings with their values, switches, and
operands.  A value stands in the next argument, or in the same one after an equals sign; after
the short option it may also follow at once.  An argument that begins with a hyphen is no
operand, unless two hyphens alone were given before it.  The first operand is the name of a
query, and the second one is what is asked.
-/

namespace ChangelogParameters.CommandLine

/-! ### Items -/

/-- What arguments say, one after the other. -/
inductive Item where
  /-- A setting with its value. -/
  | setting (setting : Setting) (value : String)
  /-- A switch. -/
  | switch (switch : Switch)
  /-- The wish for help. -/
  | help
  /-- The wish for the version. -/
  | version
  /-- Two hyphens, after which there are only operands. -/
  | endOfOptions
  /-- Something that is no option. -/
  | operand (text : String)
  /-- Something that makes no sense. -/
  | misuse (cause : Misuse)
deriving DecidableEq, Repr

/-- What one argument says. -/
inductive Word where
  /-- An item of its own. -/
  | item (item : Item)
  /-- A setting whose value is the next argument. -/
  | awaiting (setting : Setting)
deriving DecidableEq, Repr

namespace Word

/-- A setting with the value that is attached to it, if there is one. -/
def ofSetting (setting : Setting) : Option String → Word
  | some value => .item (.setting setting value)
  | none => .awaiting setting

/-- An item that takes no value. -/
def bare (word : String) (item : Item) : Option String → Word
  | some _ => .item (.misuse (.needlessValue word))
  | none => .item item

/-- An option that is written with two hyphens. -/
def ofLong (name : String) (attached : Option String) : Word :=
  match Setting.ofWord? name, Switch.ofWord? name with
  | some setting, _ => ofSetting setting attached
  | none, some switch => bare name (.switch switch) attached
  | none, none =>
    if name = "--help" then bare name .help attached
    else if name = "--version" then bare name .version attached
    else .item (.misuse (.unknownOption name))

/-- An option that is written with one hyphen and a letter, and what follows the letter. -/
def ofShort (letter : Char) (rest : List Char) : Word :=
  let name := String.ofList ['-', letter]
  match Setting.ofWord? name with
  | some setting =>
    match rest with
    | [] => ofSetting setting none
    | '=' :: value => ofSetting setting (some (String.ofList value))
    | value => ofSetting setting (some (String.ofList value))
  | none =>
    if letter = 'h' then .item .help
    else if letter = 'V' then .item .version
    else .item (.misuse (.unknownOption name))

/-- What an argument says. -/
def read (argument : String) : Word :=
  match argument.toList with
  | ['-', '-'] => .item .endOfOptions
  | '-' :: '-' :: rest =>
    match rest.span (· != '=') with
    | (name, []) => ofLong (String.ofList ('-' :: '-' :: name)) none
    | (name, _ :: value) =>
      ofLong (String.ofList ('-' :: '-' :: name)) (some (String.ofList value))
  | '-' :: letter :: rest => ofShort letter rest
  | _ => .item (.operand argument)

end Word

/-- The setting that awaits a value, with the argument after it; options are no values. -/
def Item.ofValue (setting : Setting) (argument : String) : Item :=
  match Word.read argument with
  | .item (.operand value) => .setting setting value
  | _ => .misuse (.missingValue setting)

/-- What arguments say. -/
def items : List String → List Item
  | [] => []
  | argument :: rest =>
    match Word.read argument with
    | .item .endOfOptions => .endOfOptions :: rest.map .operand
    | .item item => item :: items rest
    | .awaiting setting =>
      match rest with
      | [] => [.misuse (.missingValue setting)]
      | value :: rest => Item.ofValue setting value :: items rest

/-! ### Requests -/

/-- What is asked of a store. -/
inductive Query where
  /-- The value of a key. -/
  | resolve (key : String)
  /-- The expansion of a text. -/
  | expand (text : String)
  /-- How a key comes by its value. -/
  | explain (key : String)
deriving DecidableEq, Repr

/-- The query of a name; it lacks its operand. -/
def Query.ofName? : String → Option (String → Query)
  | "resolve" => some .resolve
  | "expand" => some .expand
  | "explain" => some .explain
  | _ => none

/-- What the program is asked to do. -/
inductive Request where
  /-- To show how it is used. -/
  | help
  /-- To show its version. -/
  | version
  /-- To answer a query. -/
  | query (options : Options) (query : Query)
deriving DecidableEq, Repr

namespace Request

/-- The request of the items after the name of a query. -/
def ofQueryItems (outer : Options) (form : String → Query) :
    Options → Option String → List Item → Except Misuse Request
  | inner, some operand, [] => .ok (.query (inner.merge outer) (form operand))
  | _, none, [] => .error .missingOperand
  | inner, operand, item :: rest =>
    match item, operand with
    | .setting setting value, _ => do
      ofQueryItems outer form (← inner.give setting value) operand rest
    | .switch switch, _ => do ofQueryItems outer form (← inner.turnOn switch) operand rest
    | .help, _ => .ok .help
    | .version, _ => .error (.unknownOption "--version")
    | .endOfOptions, _ => ofQueryItems outer form inner operand rest
    | .operand text, none => ofQueryItems outer form inner (some text) rest
    | .operand text, some _ => .error (.needlessOperand text)
    | .misuse cause, _ => .error cause

/-- The request for help about a command. -/
def ofHelpItems : List Item → Except Misuse Request
  | [] => .ok .help
  | [.operand name] =>
    if (Query.ofName? name).isSome || name == "help" then .ok .help
    else .error (.unknownCommand name)
  | _ => .error .missingCommand

/-- The request of all items. -/
def ofItems : Options → List Item → Except Misuse Request
  | _, [] => .error .missingCommand
  | options, item :: rest =>
    match item with
    | .setting setting value => do ofItems (← options.give setting value) rest
    | .switch switch => do ofItems (← options.turnOn switch) rest
    | .help => .ok .help
    | .version => .ok .version
    | .endOfOptions => .error .missingCommand
    | .operand name =>
      match Query.ofName? name with
      | some form => ofQueryItems options form {} none rest
      | none => if name = "help" then ofHelpItems rest else .error (.unknownCommand name)
    | .misuse cause => .error cause

/-- The request that arguments make. -/
def read (arguments : List String) : Except Misuse Request :=
  ofItems {} (items arguments)

end Request

end ChangelogParameters.CommandLine
