import StackLexer.Command.Request
import StackLexer.Text.Quoted

/-! What the program says of itself, and of command lines that it does not take. -/

namespace StackLexer

def programName : String := "stlex"

def programVersion : String := "0.1.0"

namespace HelpTopic

def columns (rows : List (String × String)) : List String :=
  let width := (rows.map (fun r => r.1.length)).foldl max 0
  rows.map (fun r => "  " ++ Text.padRight r.1 width ++ "  " ++ r.2)

def taskAbout : Task → String
  | .tokenize => "Tokenize a file (or stdin) and print the tokens of each line"
  | .check => "Load a grammar and report errors"
  | .states => "List the named states of a grammar"

def about : HelpTopic → String
  | program => "A rule-based lexer for syntax highlighting"
  | task t => taskAbout t
  | help => "Print this message or the help of the given subcommand(s)"

def usage : HelpTopic → String
  | program => programName ++ " <COMMAND>"
  | task .tokenize => programName ++ " tokenize [OPTIONS] [path]"
  | task .check => programName ++ " check <grammar>"
  | task .states => programName ++ " states [OPTIONS]"
  | help => programName ++ " help [COMMAND]..."

def grammarAbout : String := "Bundled grammar id or path to a rule set file"

def places : HelpTopic → List (String × String)
  | program | task .states => []
  | task .tokenize => [("[path]", "File to tokenize; reads stdin when omitted")]
  | task .check => [("<grammar>", grammarAbout)]
  | help => [("[COMMAND]...", "Print help for the subcommand(s)")]

def optionAbout : CommandOption → String
  | .grammar => grammarAbout ++ " [default: " ++ BundledGrammar.stringTemplate.id ++ "]"
  | .start => "Named state to start in (e.g. '#angle')"
  | .format => "Output format [default: text] [possible values: text, json]"
  | .settings => "Settings file layered over the built-in defaults"

def optionRow (o : CommandOption) : String × String :=
  ((match o.letter? with
    | some letter => String.ofList ['-', letter, ',', ' ']
    | none => "    ") ++ o.shown, optionAbout o)

def options : HelpTopic → List (String × String)
  | program => [("-h, --help", "Print help"), ("-V, --version", "Print version")]
  | task t => t.options.map optionRow ++ [("-h, --help", "Print help")]
  | help => []

def titled (title : String) (rows : List (String × String)) : List String :=
  if rows.isEmpty then [] else "" :: title :: columns rows

def lines (topic : HelpTopic) : List String :=
  let tasks := match topic with
    | program =>
      Task.all.map (fun t => (t.name, taskAbout t)) ++ [("help", about help)]
    | task _ | help => []
  [topic.about, "", "Usage: " ++ topic.usage] ++ titled "Commands:" tasks ++
    titled "Arguments:" topic.places ++ titled "Options:" topic.options

def text (topic : HelpTopic) : String := String.join (topic.lines.map (· ++ "\n"))

end HelpTopic

namespace UsageFault

def reason : UsageFault → String
  | nothing => "'" ++ programName ++ "' requires a subcommand but one was not provided"
  | unknownTask name => "unrecognized subcommand '" ++ name ++ "'"
  | unknownWord word => "unexpected argument '" ++ word ++ "' found"
  | surplusValue option value =>
    "unexpected value '" ++ value ++ "' for '" ++ option ++ "' found; no more were expected"
  | missingValue option =>
    "a value is required for '" ++ option.shown ++ "' but none was supplied"
  | repeated option =>
    "the argument '" ++ option.shown ++ "' cannot be used multiple times"
  | unknownFormat value =>
    "invalid value '" ++ value ++ "' for '" ++ CommandOption.shown .format ++ "'"
  | missingGrammar => "the following required arguments were not provided: <grammar>"

def message (fault : UsageFault) : String :=
  "error: " ++ fault.reason ++ "\n\nFor more information, try '--help'.\n"

end UsageFault

end StackLexer
