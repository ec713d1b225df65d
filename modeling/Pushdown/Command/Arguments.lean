import Pushdown.Number.Numeral

/-!
# Arguments of the command line

Arguments are read from left to right. In front of the verb stand options for the connection;
behind it stand the same options again, those of the verb and its operand. An option is written
`--name value`, `--name=value`, `-n value`, `-nvalue` or `-n=value`, where a value that is an
argument of its own does not start with a dash, unless it is only a dash. Behind `--` there are only
operands. An option that takes one value is given at most once in front of the verb and once behind
it, and of the two the one behind it counts.
-/

namespace Pushdown.Command

/-- What the program may be asked to do. -/
inductive Verb where
  | tables
  | describe
  | list
  | sql
  | raw
  deriving DecidableEq, Repr

/-- The verb of a name. -/
def Verb.read? : String → Option Verb
  | "tables" => some .tables
  | "describe" => some .describe
  | "list" => some .list
  | "sql" => some .sql
  | "raw" => some .raw
  | _ => none

/-! ## Single arguments -/

/-- The name of an option. -/
inductive OptionName where
  | config
  | url
  | schema
  | table
  | filter
  | limit
  | version
  deriving DecidableEq, Repr

namespace OptionName

/-- The option of a long name. -/
def ofLong? : String → Option OptionName
  | "config" => some .config
  | "database-url" => some .url
  | "schema" => some .schema
  | "table" => some .table
  | "where" => some .filter
  | "limit" => some .limit
  | "version" => some .version
  | _ => none

/-- The option of a letter. -/
def ofShort? : Char → Option OptionName
  | 'c' => some .config
  | 'w' => some .filter
  | 'V' => some .version
  | _ => none

/-- Whether an option may stand behind a verb, or in front of any if there is none yet. -/
def isKnown (verb : Option Verb) : OptionName → Bool
  | .config | .url | .schema | .table => true
  | .filter => verb = some .list || verb = some .sql
  | .limit => verb = some .list
  | .version => verb.isNone

end OptionName

/-- How an argument reads. -/
inductive Word where
  /-- the mark behind which there are only operands -/
  | divider
  /-- an option, with its value if that is a part of the argument -/
  | option (name : OptionName) (value : Option String)
  /-- the demand for the version -/
  | version
  | operand (text : String)
  deriving DecidableEq, Repr

/-- The word of an option, if it may stand there. -/
def knownOption? (verb : Option Verb) (name : OptionName) (value : Option String) : Option Word :=
  if name.isKnown verb then some (.option name value) else none

/-- Reads the text behind two dashes: a name, and a value behind an equals sign. -/
def readLong? (verb : Option Verb) (s : List Char) : Option Word := do
  let name ← OptionName.ofLong? (String.ofList (s.takeWhile (· ≠ '=')))
  let value := match s.dropWhile (· ≠ '=') with
    | [] => none
    | _ :: value => some (String.ofList value)
  match name, value with
  | .version, none => if name.isKnown verb then some .version else none
  | .version, some _ => none
  | name, value => knownOption? verb name value

/-- Reads the text behind one dash: a letter, and a value behind it. -/
def readShort? (verb : Option Verb) : List Char → Option Word
  | [] => none
  | letter :: rest => do
    let name ← OptionName.ofShort? letter
    match name, rest with
    | .version, _ => if name.isKnown verb then some .version else none
    | name, [] => knownOption? verb name none
    | name, '=' :: value => knownOption? verb name (some (String.ofList value))
    | name, value => knownOption? verb name (some (String.ofList value))

/-- Reads an argument. -/
def Word.read? (verb : Option Verb) (argument : String) : Option Word :=
  match argument.toList with
  | ['-', '-'] => some .divider
  | '-' :: '-' :: rest => readLong? verb rest
  | ['-'] => some (.operand argument)
  | '-' :: rest => readShort? verb rest
  | _ => some (.operand argument)

/-- Whether an argument may be the value of the option before it. -/
def isValue (argument : String) : Bool :=
  match argument.toList with
  | ['-'] => true
  | '-' :: _ => false
  | _ => true

/-! ## What has been given -/

/-- What was given in front of the verb, or behind it. -/
structure Given where
  config : Option String := none
  url : Option String := none
  schema : Option String := none
  tables : List String := []
  filters : List String := []
  limit : Option Nat := none
  operands : List String := []
  deriving DecidableEq, Repr, Inhabited

/-- The value of an option that takes one, unless it has one already. -/
def once? (old : Option α) (value : α) : Option (Option α) :=
  if old.isSome then none else some (some value)

/-- The limit that a text spells. -/
def limit? (text : String) : Option Nat :=
  match Number.readUnsigned 64 text.toList with
  | .ok n => some n.toNat
  | .error _ => none

namespace Given

/-- Adds an option. The name of a file is not empty. -/
def add? (g : Given) (name : OptionName) (value : String) : Option Given :=
  match name with
  | .config =>
    if value.isEmpty then none else (once? g.config value).map fun config => { g with config }
  | .url => (once? g.url value).map fun url => { g with url }
  | .schema => (once? g.schema value).map fun schema => { g with schema }
  | .table => some { g with tables := g.tables ++ [value] }
  | .filter => some { g with filters := g.filters ++ [value] }
  | .limit => do
    let limit ← once? g.limit (← limit? value)
    return { g with limit }
  | .version => none

/-- Adds operands. -/
def addOperands (g : Given) (operands : List String) : Given :=
  { g with operands := g.operands ++ operands }

end Given

/-- How far arguments could be read. -/
inductive Progress where
  | version
  /-- a verb was reached, with the arguments behind it -/
  | verb (given : Given) (verb : Verb) (rest : List String)
  | finished (given : Given)
  deriving DecidableEq, Repr

/-- Reads arguments in front of the verb up to it, or behind it to their end. -/
def readWords? (verb : Option Verb) (g : Given) : List String → Option Progress
  | [] => some (.finished g)
  | argument :: rest => do
    match ← Word.read? verb argument with
    | .version => return .version
    | .divider => return .finished (g.addOperands rest)
    | .option name (some value) => readWords? verb (← g.add? name value) rest
    | .option name none =>
      match rest with
      | [] => none
      | value :: rest =>
        if isValue value then readWords? verb (← g.add? name value) rest else none
    | .operand text =>
      match verb with
      | none => return .verb g (← Verb.read? text) rest
      | some _ => readWords? verb (g.addOperands [text]) rest

/-! ## The whole command line -/

/-- A verb with what it needs. -/
inductive Action where
  | tables
  | describe (table : String)
  | list (table : String) (filters : List String) (limit : Option Nat)
  | sql (table : String) (filters : List String)
  | raw (query : String)
  deriving DecidableEq, Repr

/-- The action of a verb with what was given behind it. Every verb but one has one operand. -/
def Action.ofGiven? (verb : Verb) (g : Given) : Option Action :=
  match verb, g.operands with
  | .tables, [] => some .tables
  | .describe, [table] => some (.describe table)
  | .list, [table] => some (.list table g.filters g.limit)
  | .sql, [table] => some (.sql table g.filters)
  | .raw, [query] => some (.raw query)
  | _, _ => none

/-- Options for the connection. -/
structure Options where
  config : Option String
  url : Option String
  schema : Option String
  patterns : List String
  deriving DecidableEq, Repr

/-- The options that count: those behind the verb, or else those in front of it, or else for the
address of the database the one of the environment. -/
def Options.ofGiven (environment : Option String) (front behind : Given) : Options where
  config := behind.config <|> front.config
  url := behind.url <|> front.url <|> environment
  schema := behind.schema <|> front.schema
  patterns := if behind.tables.isEmpty then front.tables else behind.tables

/-- What a command line asks for. -/
inductive Invocation where
  | version
  | run (options : Options) (action : Action)
  deriving DecidableEq, Repr

/-- Reads a command line; one that breaks the rules asks for nothing. -/
def Invocation.read? (environment : Option String) (arguments : List String) :
    Option Invocation := do
  match ← readWords? none {} arguments with
  | .version => return .version
  | .finished _ => none
  | .verb front verb rest =>
    match ← readWords? (some verb) {} rest with
    | .finished behind =>
      return .run (.ofGiven environment front behind) (← Action.ofGiven? verb behind)
    | _ => none

end Pushdown.Command
