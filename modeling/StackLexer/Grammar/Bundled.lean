import StackLexer.Grammar.Loading
import StackLexer.Grammar.StringTemplate

/-! Grammars that come with the library. -/

namespace StackLexer

inductive BundledGrammar where
  /-- Templates between dollar signs, or from the state `#angle` between angle brackets. -/
  | stringTemplate
  deriving DecidableEq, Repr, Inhabited

namespace BundledGrammar

def all : List BundledGrammar := [stringTemplate]

def id : BundledGrammar → String
  | stringTemplate => "stringtemplate"

def displayName : BundledGrammar → String
  | stringTemplate => "StringTemplate"

def scopeName : BundledGrammar → String
  | stringTemplate => "text.stringtemplate"

def source : BundledGrammar → String
  | stringTemplate => StringTemplate.source

def ofId? (id : String) : Option BundledGrammar := all.find? (fun g => g.id == id)

theorem ofId?_id (g : BundledGrammar) : ofId? g.id = some g := by
  cases g
  decide

def ruleSet (g : BundledGrammar) : Except LoadError RuleSet :=
  RuleSet.readJson g.source

def load [RegexEngine] (g : BundledGrammar) : List Event × Except LoadError Lexicon :=
  RuleSet.loadRead g.ruleSet

end BundledGrammar

end StackLexer
