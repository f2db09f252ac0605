import StackLexer.Grammar.Bundled

/-! What a command line asks for.
The first word names a task. The words after it are values of options or, in order, of places.
Every option takes one value and may be given once. Two hyphens on their own make places of all
words that follow. Words count from the left: help is given if it is asked for before a fault. -/

namespace StackLexer

inductive OutputFormat where
  | text
  | json
  deriving DecidableEq, Repr, Inhabited

def OutputFormat.ofName? : String → Option OutputFormat
  | "text" => some text
  | "json" => some json
  | _ => none

structure TokenizeRequest where
  grammar : String := BundledGrammar.stringTemplate.id
  /-- The path of the text, which comes from the standard input if there is none. -/
  source : Option String := none
  start : Option String := none
  format : OutputFormat := .text
  settings : Option String := none
  deriving DecidableEq, Repr, Inhabited

inductive Task where
  | tokenize
  | check
  | states
  deriving DecidableEq, Repr, Inhabited

inductive CommandOption where
  | grammar
  | start
  | format
  | settings
  deriving DecidableEq, Repr, Inhabited

inductive HelpTopic where
  | program
  | task (t : Task)
  | help
  deriving DecidableEq, Repr, Inhabited

inductive Request where
  | tokenize (r : TokenizeRequest)
  | check (grammar : String)
  | states (grammar : String)
  | help (topic : HelpTopic)
  | version
  deriving DecidableEq, Repr, Inhabited

inductive UsageFault where
  | nothing
  | unknownTask (name : String)
  | unknownWord (word : String)
  | surplusValue (option value : String)
  | missingValue (option : CommandOption)
  | repeated (option : CommandOption)
  | unknownFormat (value : String)
  | missingGrammar
  deriving DecidableEq, Repr, Inhabited

namespace Task

def all : List Task := [tokenize, check, states]

def name : Task → String
  | tokenize => "tokenize"
  | check => "check"
  | states => "states"

def ofName? (name : String) : Option Task := all.find? (fun t => t.name = name)

theorem ofName?_name (t : Task) : ofName? t.name = some t := by
  cases t <;> decide

def options : Task → List CommandOption
  | tokenize => [.grammar, .start, .format, .settings]
  | check => []
  | states => [.grammar]

def places : Task → Nat
  | tokenize | check => 1
  | states => 0

end Task

namespace CommandOption

def name : CommandOption → String
  | grammar => "grammar"
  | start => "start"
  | format => "format"
  | settings => "config"

def letter? : CommandOption → Option Char
  | grammar => some 'g'
  | start => none
  | format => some 'f'
  | settings => some 'c'

def shown (o : CommandOption) : String := "--" ++ o.name ++ " <" ++ o.name ++ ">"

end CommandOption

inductive CommandWord where
  | plain (text : String)
  | separator
  | long (name : String) (value : Option String)
  | short (letter : Char) (rest : List Char)
  deriving DecidableEq, Repr, Inhabited

namespace CommandWord

def ofString (text : String) : CommandWord :=
  match text.toList with
  | ['-', '-'] => separator
  | '-' :: '-' :: word =>
    long (String.ofList (word.takeWhile (· ≠ '=')))
      (match word.dropWhile (· ≠ '=') with
        | [] => none
        | _ :: value => some (String.ofList value))
  | '-' :: letter :: rest => short letter rest
  | _ => plain text

def isPlain : CommandWord → Bool
  | plain _ => true
  | _ => false

end CommandWord

inductive Asked where
  | help
  | option (o : CommandOption) (value : Option String)
  deriving DecidableEq, Repr, Inhabited

def Task.asked (t : Task) : CommandWord → Except UsageFault Asked
  | .plain text => .error (.unknownWord text)
  | .separator => .error (.unknownWord "--")
  | .long name value =>
    match t.options.find? (fun o => o.name = name), value with
    | some o, _ => .ok (.option o value)
    | none, none => if name = "help" then .ok .help else .error (.unknownWord ("--" ++ name))
    | none, some value =>
      .error (if name = "help" then .surplusValue "--help" value else .unknownWord ("--" ++ name))
  | .short letter rest =>
    match t.options.find? (fun o => o.letter? = some letter), rest with
    | some o, [] => .ok (.option o none)
    | some o, '=' :: value => .ok (.option o (some (String.ofList value)))
    | some o, value => .ok (.option o (some (String.ofList value)))
    | none, _ =>
      if letter = 'h' then .ok .help else .error (.unknownWord (String.ofList ['-', letter]))

structure TaskWords where
  options : List (CommandOption × String) := []
  places : List String := []
  deriving DecidableEq, Repr, Inhabited

namespace TaskWords

def addOption (w : TaskWords) (o : CommandOption) (value : String) : Except UsageFault TaskWords :=
  if (w.options.lookup o).isSome then .error (.repeated o)
  else if o = .format && (OutputFormat.ofName? value).isNone then .error (.unknownFormat value)
  else .ok { w with options := w.options ++ [(o, value)] }

def addPlace (t : Task) (w : TaskWords) (value : String) : Except UsageFault TaskWords :=
  if w.places.length < t.places then .ok { w with places := w.places ++ [value] }
  else .error (.unknownWord value)

def read (t : Task) (w : TaskWords) : List String → Except UsageFault (Option TaskWords)
  | [] => .ok (some w)
  | text :: rest =>
    match CommandWord.ofString text with
    | .separator => (rest.foldlM (addPlace t) w).map some
    | .plain _ => (addPlace t w text).bind (fun w => w.read t rest)
    | word =>
      match t.asked word with
      | .error fault => .error fault
      | .ok .help => .ok none
      | .ok (.option o (some value)) => (w.addOption o value).bind (fun w => w.read t rest)
      | .ok (.option o none) =>
        match rest with
        | [] => .error (.missingValue o)
        | value :: rest =>
          if (CommandWord.ofString value).isPlain then
            (w.addOption o value).bind (fun w => w.read t rest)
          else .error (.missingValue o)

def grammar (w : TaskWords) : String :=
  (w.options.lookup .grammar).getD BundledGrammar.stringTemplate.id

def request (w : TaskWords) : Task → Except UsageFault Request
  | .tokenize => .ok (.tokenize
    { grammar := w.grammar
      source := w.places.head?
      start := w.options.lookup .start
      format := ((w.options.lookup .format).bind OutputFormat.ofName?).getD .text
      settings := w.options.lookup .settings })
  | .check =>
    match w.places with
    | [] => .error .missingGrammar
    | grammar :: _ => .ok (.check grammar)
  | .states => .ok (.states w.grammar)

end TaskWords

namespace HelpTopic

def ofWords : List String → Except UsageFault HelpTopic
  | [] => .ok .program
  | name :: rest =>
    match (if name = "help" then some .help else (Task.ofName? name).map .task), rest with
    | some topic, [] => .ok topic
    | some _, other :: _ => .error (.unknownTask other)
    | none, _ => .error (.unknownTask name)

end HelpTopic

namespace Request

def ofFirst (text : String) : Except UsageFault Request :=
  match CommandWord.ofString text with
  | .plain _ => .error (.unknownTask text)
  | .separator => .error .nothing
  | .long "help" none | .short 'h' _ => .ok (.help .program)
  | .long "version" none | .short 'V' _ => .ok .version
  | .long "help" (some value) => .error (.surplusValue "--help" value)
  | .long "version" (some value) => .error (.surplusValue "--version" value)
  | .long name _ => .error (.unknownWord ("--" ++ name))
  | .short letter _ => .error (.unknownWord (String.ofList ['-', letter]))

def ofArguments : List String → Except UsageFault Request
  | [] => .error .nothing
  | text :: rest =>
    if text = "help" then (HelpTopic.ofWords rest).map .help
    else
      match Task.ofName? text with
      | none => ofFirst text
      | some t =>
        match ({} : TaskWords).read t rest with
        | .error fault => .error fault
        | .ok none => .ok (.help (.task t))
        | .ok (some w) => w.request t

end Request

end StackLexer
