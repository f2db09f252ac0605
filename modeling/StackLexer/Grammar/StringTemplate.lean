/-! The grammar of StringTemplate templates. -/

namespace StackLexer.StringTemplate

/-- The rule file. `start` takes templates between dollar signs, `#angle` those between angle
brackets. -/
def source : String :=
  "\x7b
  \"start\": [
    \x7b
      \"include\": \"#dollar\"
    \x7d
  ],
  \"#dollar\": [
    \x7b
      \"token\": \"comment.block.stringtemplate\",
      \"regex\": \"\\\\$!\",
      \"push\": [
        \x7b
          \"token\": \"comment.block.stringtemplate\",
          \"regex\": \"!\\\\$\",
          \"next\": \"pop\"
        \x7d,
        \x7b
          \"defaultToken\": \"comment.block.stringtemplate\"
        \x7d
      ],
      \"comment\": \"Comments\"
    \x7d,
    \x7b
      \"token\": \"punctuation.definition.delimiter.begin.stringtemplate\",
      \"regex\": \"\\\\$\\\\s*(?=[^\\\\$]+:)\",
      \"push\": [
        \x7b
          \"token\": \"punctuation.definition.delimiter.end.stringtemplate\",
          \"regex\": \"\\\\s*\\\\$\",
          \"next\": \"pop\"
        \x7d,
        \x7b
          \"include\": \"#dollar-variable-template\"
        \x7d,
        \x7b
          \"defaultToken\": \"meta.function.variable.template.stringtemplate\"
        \x7d
      ],
      \"comment\": \"Template and variable calls\"
    \x7d,
    \x7b
      \"token\": [
        \"punctuation.definition.delimiter.begin.stringtemplate\",
        \"keyword.control.if.stringtemplate\",
        \"punctuation.definition.control.begin.stringtemplate\",
        \"punctuation.definition.logical.not.stringtemplate\"
      ],
      \"regex\": \"(\\\\$\\\\s*)(if|elseif)(\\\\s*\\\\(\\\\s*)(!?)\",
      \"push\": [
        \x7b
          \"token\": [
            \"punctuation.definition.control.end.stringtemplate\",
            \"punctuation.definition.delimiter.end.stringtemplate\"
          ],
          \"regex\": \"(\\\\s*\\\\))(\\\\s*\\\\$)\",
          \"next\": \"pop\"
        \x7d,
        \x7b
          \"include\": \"#variable\"
        \x7d,
        \x7b
          \"defaultToken\": \"meta.keyword.control.stringtemplate\"
        \x7d
      ],
      \"comment\": \"Keyword calls\"
    \x7d,
    \x7b
      \"token\": [
        \"punctuation.definition.delimiter.begin.stringtemplate\",
        \"support.function.stringtemplate\",
        \"punctuation.definition.function.begin.stringtemplate\"
      ],
      \"regex\": \"(\\\\$\\\\s*)(first|last|rest|trunc|strip|length)(\\\\s*\\\\(\\\\s*)\",
      \"push\": [
        \x7b
          \"token\": [
            \"punctuation.definition.function.end.stringtemplate\",
            \"punctuation.definition.delimiter.end.stringtemplate\"
          ],
          \"regex\": \"(\\\\s*\\\\))(\\\\s*\\\\$)\",
          \"next\": \"pop\"
        \x7d,
        \x7b
          \"include\": \"#variable\"
        \x7d,
        \x7b
          \"defaultToken\": \"meta.function.support.stringtemplate\"
        \x7d
      ],
      \"comment\": \"Function calls\"
    \x7d,
    \x7b
      \"token\": \"punctuation.definition.delimiter.begin.stringtemplate\",
      \"regex\": \"\\\\$\\\\s*(?=\\\\([^\\\\$]+\\\\)\\\\()\",
      \"push\": [
        \x7b
          \"token\": \"punctuation.definition.delimiter.end.stringtemplate\",
          \"regex\": \"\\\\s*\\\\$\",
          \"next\": \"pop\"
        \x7d,
        \x7b
          \"include\": \"#indirect-template\"
        \x7d,
        \x7b
          \"defaultToken\": \"meta.function.template.indirect.stringtemplate\"
        \x7d
      ],
      \"comment\": \"Indirect template calls\"
    \x7d,
    \x7b
      \"token\": \"punctuation.definition.delimiter.begin.stringtemplate\",
      \"regex\": \"\\\\$\\\\s*(?=[^\\\\$\\\\.]+\\\\()\",
      \"push\": [
        \x7b
          \"token\": \"punctuation.definition.delimiter.end.stringtemplate\",
          \"regex\": \"\\\\s*\\\\$\",
          \"next\": \"pop\"
        \x7d,
        \x7b
          \"include\": \"#template\"
        \x7d,
        \x7b
          \"defaultToken\": \"meta.function.template.stringtemplate\"
        \x7d
      ],
      \"comment\": \"Template calls\"
    \x7d,
    \x7b
      \"token\": [
        \"punctuation.definition.delimiter.begin.stringtemplate\",
        \"keyword.control.stringtemplate\",
        \"punctuation.definition.delimiter.end.stringtemplate\"
      ],
      \"regex\": \"(\\\\$\\\\s*)(else|endif)(\\\\s*\\\\$)\",
      \"comment\": \"Keyword calls\"
    \x7d,
    \x7b
      \"token\": \"punctuation.definition.delimiter.begin.stringtemplate\",
      \"regex\": \"\\\\$\\\\s*(?=[^\\\\$]+;)\",
      \"push\": [
        \x7b
          \"token\": \"punctuation.definition.delimiter.end.stringtemplate\",
          \"regex\": \"\\\\s*\\\\$\",
          \"next\": \"pop\"
        \x7d,
        \x7b
          \"include\": \"#dollar-variable-options\"
        \x7d,
        \x7b
          \"defaultToken\": \"meta.variable.other.options.stringtemplate\"
        \x7d
      ],
      \"comment\": \"Variable with option calls\"
    \x7d,
    \x7b
      \"token\": \"punctuation.definition.delimiter.begin.stringtemplate\",
      \"regex\": \"\\\\$\\\\s*\",
      \"push\": [
        \x7b
          \"token\": \"punctuation.definition.delimiter.end.stringtemplate\",
          \"regex\": \"\\\\s*\\\\$\",
          \"next\": \"pop\"
        \x7d,
        \x7b
          \"include\": \"#variable\"
        \x7d,
        \x7b
          \"defaultToken\": \"meta.variable.other.stringtemplate\"
        \x7d
      ],
      \"comment\": \"Variable calls\"
    \x7d
  ],
  \"#dollar-options\": [
    \x7b
      \"token\": [
        \"storage.modifier.option.stringtemplate\",
        \"punctuation.definition.equal.stringtemplate\"
      ],
      \"regex\": \"(separator|format|null|wrap|anchor)(\\\\s*=\\\\s*)\",
      \"push\": [
        \x7b
          \"token\": \"punctuation.definition.comma.stringtemplate\",
          \"regex\": \"\\\\s*,\\\\s*|(?=\\\\$)\",
          \"next\": \"pop\"
        \x7d,
        \x7b
          \"include\": \"#expression\"
        \x7d,
        \x7b
          \"defaultToken\": \"meta.storage.modifier.option.stringtemplate\"
        \x7d
      ],
      \"comment\": \"Variable option\"
    \x7d
  ],
  \"#dollar-variable-options\": [
    \x7b
      \"token\": \"punctuation.definition.semicolon.stringtemplate\",
      \"regex\": \";\\\\s*\",
      \"push\": [
        \x7b
          \"token\": \"meta.punctuation.definition.semicolon.stringtemplate\",
          \"regex\": \"(?=\\\\$)\",
          \"next\": \"pop\"
        \x7d,
        \x7b
          \"include\": \"#dollar-options\"
        \x7d,
        \x7b
          \"defaultToken\": \"meta.punctuation.definition.semicolon.stringtemplate\"
        \x7d
      ],
      \"comment\": \"Variable options\"
    \x7d,
    \x7b
      \"include\": \"#variable\"
    \x7d
  ],
  \"#dollar-variable-template\": [
    \x7b
      \"token\": [
        \"punctuation.definition.template.call.stringtemplate\",
        \"punctuation.definition.anonymous.begin.stringtemplate\",
        \"variable.parameter.template.anonymous.stringtemplate\",
        \"punctuation.definition.comma.stringtemplate\",
        \"punctuation.definition.pipe.stringtemplate\"
      ],
      \"regex\": \"(:\\\\s*)(\\\\\x7b\\\\s*)(?:(?:([A-Za-z]\\\\w*)(\\\\s*,?\\\\s*))+(\\\\|))?\",
      \"push\": [
        \x7b
          \"token\": [
            \"punctuation.definition.anonymous.end.stringtemplate\",
            \"punctuation.definition.comma.stringtemplate\"
          ],
          \"regex\": \"(\\\\\x7d\\\\s*)(,?)\",
          \"next\": \"pop\"
        \x7d,
        \x7b
          \"include\": \"#expression-internal\"
        \x7d,
        \x7b
          \"defaultToken\": \"meta.function.template.anonymous.stringtemplate\"
        \x7d
      ],
      \"comment\": \"Indirect template with parameters\"
    \x7d,
    \x7b
      \"token\": \"punctuation.definition.template.call.stringtemplate\",
      \"regex\": \":\\\\s*(?=\\\\()\",
      \"push\": [
        \x7b
          \"token\": \"meta.function.template.indirect.stringtemplate\",
          \"regex\": \"(?=\\\\$)\",
          \"next\": \"pop\"
        \x7d,
        \x7b
          \"include\": \"#indirect-template\"
        \x7d,
        \x7b
          \"defaultToken\": \"meta.function.template.indirect.stringtemplate\"
        \x7d
      ],
      \"comment\": \"Indirect template\"
    \x7d,
    \x7b
      \"token\": \"punctuation.definition.template.call.stringtemplate\",
      \"regex\": \":\",
      \"push\": [
        \x7b
          \"token\": \"meta.function.template.stringtemplate\",
          \"regex\": \"(?=\\\\$)\",
          \"next\": \"pop\"
        \x7d,
        \x7b
          \"include\": \"#template\"
        \x7d,
        \x7b
          \"defaultToken\": \"meta.function.template.stringtemplate\"
        \x7d
      ],
      \"comment\": \"Template\"
    \x7d,
    \x7b
      \"include\": \"#variable\"
    \x7d
  ],
  \"#angle\": [
    \x7b
      \"token\": \"comment.block.stringtemplate\",
      \"regex\": \"<!\",
      \"push\": [
        \x7b
          \"token\": \"comment.block.stringtemplate\",
          \"regex\": \"!>\",
          \"next\": \"pop\"
        \x7d,
        \x7b
          \"defaultToken\": \"comment.block.stringtemplate\"
        \x7d
      ],
      \"comment\": \"Comments\"
    \x7d,
    \x7b
      \"token\": \"punctuation.definition.delimiter.begin.stringtemplate\",
      \"regex\": \"<(?=[^>]+:)\",
      \"push\": [
        \x7b
          \"token\": \"punctuation.definition.delimiter.end.stringtemplate\",
          \"regex\": \">\",
          \"next\": \"pop\"
        \x7d,
        \x7b
          \"include\": \"#angle-variable-template\"
        \x7d,
        \x7b
          \"defaultToken\": \"meta.function.variable.template.stringtemplate\"
        \x7d
      ],
      \"comment\": \"Template and variable calls\"
    \x7d,
    \x7b
      \"token\": [
        \"punctuation.definition.delimiter.begin.stringtemplate\",
        \"keyword.control.if.stringtemplate\",
        \"punctuation.definition.control.begin.stringtemplate\",
        \"punctuation.definition.logical.not.stringtemplate\"
      ],
      \"regex\": \"(<\\\\s*)(if|elseif)(\\\\s*\\\\(\\\\s*)(!?)\",
      \"push\": [
        \x7b
          \"token\": [
            \"punctuation.definition.control.end.stringtemplate\",
            \"punctuation.definition.delimiter.end.stringtemplate\"
          ],
          \"regex\": \"(\\\\s*\\\\))(\\\\s*>)\",
          \"next\": \"pop\"
        \x7d,
        \x7b
          \"include\": \"#variable\"
        \x7d,
        \x7b
          \"defaultToken\": \"meta.keyword.control.stringtemplate\"
        \x7d
      ],
      \"comment\": \"Keyword calls\"
    \x7d,
    \x7b
      \"token\": [
        \"punctuation.definition.delimiter.begin.stringtemplate\",
        \"support.function.stringtemplate\",
        \"punctuation.definition.function.begin.stringtemplate\"
      ],
      \"regex\": \"(<\\\\s*)(first|last|rest|trunc|strip|length)(\\\\s*\\\\(\\\\s*)\",
      \"push\": [
        \x7b
          \"token\": [
            \"punctuation.definition.function.end.stringtemplate\",
            \"punctuation.definition.delimiter.end.stringtemplate\"
          ],
          \"regex\": \"(\\\\s*\\\\))(\\\\s*>)\",
          \"next\": \"pop\"
        \x7d,
        \x7b
          \"include\": \"#variable\"
        \x7d,
        \x7b
          \"defaultToken\": \"meta.function.support.stringtemplate\"
        \x7d
      ],
      \"comment\": \"Function calls\"
    \x7d,
    \x7b
      \"token\": \"punctuation.definition.delimiter.begin.stringtemplate\",
      \"regex\": \"<\\\\s*(?=\\\\([^>]+\\\\)\\\\()\",
      \"push\": [
        \x7b
          \"token\": \"punctuation.definition.delimiter.end.stringtemplate\",
          \"regex\": \"\\\\s*>\",
          \"next\": \"pop\"
        \x7d,
        \x7b
          \"include\": \"#indirect-template\"
        \x7d,
        \x7b
          \"defaultToken\": \"meta.function.template.indirect.stringtemplate\"
        \x7d
      ],
      \"comment\": \"Indirect template calls\"
    \x7d,
    \x7b
      \"token\": \"punctuation.definition.delimiter.begin.stringtemplate\",
      \"regex\": \"<\\\\s*(?=[^>\\\\.]+\\\\()\",
      \"push\": [
        \x7b
          \"token\": \"punctuation.definition.delimiter.end.stringtemplate\",
          \"regex\": \"\\\\s*>\",
          \"next\": \"pop\"
        \x7d,
        \x7b
          \"include\": \"#template\"
        \x7d,
        \x7b
          \"defaultToken\": \"meta.function.template.stringtemplate\"
        \x7d
      ],
      \"comment\": \"Template calls\"
    \x7d,
    \x7b
      \"token\": [
        \"punctuation.definition.delimiter.begin.stringtemplate\",
        \"keyword.control.stringtemplate\",
        \"punctuation.definition.delimiter.end.stringtemplate\"
      ],
      \"regex\": \"(<\\\\s*)(else|endif)(\\\\s*>)\",
      \"comment\": \"Keyword calls\"
    \x7d,
    \x7b
      \"token\": \"punctuation.definition.delimiter.begin.stringtemplate\",
      \"regex\": \"<\\\\s*(?=[^>]+;)\",
      \"push\": [
        \x7b
          \"token\": \"punctuation.definition.delimiter.end.stringtemplate\",
          \"regex\": \"\\\\s*>\",
          \"next\": \"pop\"
        \x7d,
        \x7b
          \"include\": \"#angle-variable-options\"
        \x7d,
        \x7b
          \"defaultToken\": \"meta.variable.other.options.stringtemplate\"
        \x7d
      ],
      \"comment\": \"Variable with option calls\"
    \x7d,
    \x7b
      \"token\": \"punctuation.definition.delimiter.begin.stringtemplate\",
      \"regex\": \"<\\\\s*\",
      \"push\": [
        \x7b
          \"token\": \"punctuation.definition.delimiter.end.stringtemplate\",
          \"regex\": \"\\\\s*>\",
          \"next\": \"pop\"
        \x7d,
        \x7b
          \"include\": \"#variable\"
        \x7d,
        \x7b
          \"defaultToken\": \"meta.variable.other.stringtemplate\"
        \x7d
      ],
      \"comment\": \"Variable calls\"
    \x7d
  ],
  \"#angle-options\": [
    \x7b
      \"token\": [
        \"storage.modifier.option.stringtemplate\",
        \"punctuation.definition.equal.stringtemplate\"
      ],
      \"regex\": \"(\\\\s*(?:separator|format|null|wrap|anchor))(\\\\s*=\\\\s*)\",
      \"push\": [
        \x7b
          \"token\": \"punctuation.definition.comma.stringtemplate\",
          \"regex\": \"\\\\s*,|(?=\\\\$)\",
          \"next\": \"pop\"
        \x7d,
        \x7b
          \"include\": \"#expression\"
        \x7d,
        \x7b
          \"defaultToken\": \"meta.storage.modifier.option.stringtemplate\"
        \x7d
      ],
      \"comment\": \"Anonymous template\"
    \x7d
  ],
  \"#angle-variable-options\": [
    \x7b
      \"token\": \"punctuation.definition.semicolon.stringtemplate\",
      \"regex\": \"\\\\s*;\\\\s*\",
      \"push\": [
        \x7b
          \"token\": \"meta.punctuation.definition.semicolon.stringtemplate\",
          \"regex\": \"(?=\\\\$)\",
          \"next\": \"pop\"
        \x7d,
        \x7b
          \"include\": \"#angle-options\"
        \x7d,
        \x7b
          \"defaultToken\": \"meta.punctuation.definition.semicolon.stringtemplate\"
        \x7d
      ],
      \"comment\": \"Variable options\"
    \x7d,
    \x7b
      \"include\": \"#variable\"
    \x7d
  ],
  \"#angle-variable-template\": [
    \x7b
      \"token\": \"punctuation.definition.template.call.stringtemplate\",
      \"regex\": \"\\\\s*:\\\\s*(?=\\\\()\",
      \"push\": [
        \x7b
          \"token\": \"meta.function.template.indirect.stringtemplate\",
          \"regex\": \"(?=\\\\$)\",
          \"next\": \"pop\"
        \x7d,
        \x7b
          \"include\": \"#indirect-template\"
        \x7d,
        \x7b
          \"defaultToken\": \"meta.function.template.indirect.stringtemplate\"
        \x7d
      ],
      \"comment\": \"Indirect template call\"
    \x7d,
    \x7b
      \"token\": \"punctuation.definition.template.call.stringtemplate\",
      \"regex\": \"\\\\s*:\\\\s*\",
      \"push\": [
        \x7b
          \"token\": \"meta.function.template.stringtemplate\",
          \"regex\": \"(?=\\\\$)\",
          \"next\": \"pop\"
        \x7d,
        \x7b
          \"include\": \"#template\"
        \x7d,
        \x7b
          \"defaultToken\": \"meta.function.template.stringtemplate\"
        \x7d
      ],
      \"comment\": \"Template call\"
    \x7d,
    \x7b
      \"include\": \"#variable\"
    \x7d
  ],
  \"#argument-list\": [
    \x7b
      \"include\": \"#comma\"
    \x7d,
    \x7b
      \"token\": [
        \"variable.parameter.stringtemplate\",
        \"punctuation.definition.equal.stringtemplate\"
      ],
      \"regex\": \"([A-Za-z]\\\\w*)(\\\\s*=\\\\s*)\",
      \"comment\": \"Argument\"
    \x7d,
    \x7b
      \"include\": \"#expression\"
    \x7d
  ],
  \"#comma\": [
    \x7b
      \"token\": \"punctuation.definition.comma.stringtemplate\",
      \"regex\": \"\\\\s*,\\\\s*\",
      \"comment\": \"Separator\"
    \x7d
  ],
  \"#expression\": [
    \x7b
      \"token\": \"punctuation.definition.string.begin.stringtemplate\",
      \"regex\": \"\\\"\",
      \"push\": [
        \x7b
          \"token\": \"punctuation.definition.string.end.stringtemplate\",
          \"regex\": \"\\\"\",
          \"next\": \"pop\"
        \x7d,
        \x7b
          \"defaultToken\": \"string.quoted.double.stringtemplate\"
        \x7d
      ],
      \"comment\": \"Quoted string\"
    \x7d,
    \x7b
      \"token\": \"punctuation.definition.anonymous.begin.stringtemplate\",
      \"regex\": \"\\\\\x7b\",
      \"push\": [
        \x7b
          \"token\": \"punctuation.definition.anonymous.end.stringtemplate\",
          \"regex\": \"\\\\\x7d\",
          \"next\": \"pop\"
        \x7d,
        \x7b
          \"include\": \"#expression-internal\"
        \x7d,
        \x7b
          \"defaultToken\": \"meta.function.template.anonymous.stringtemplate\"
        \x7d
      ],
      \"comment\": \"Anonymous template\"
    \x7d,
    \x7b
      \"token\": \"punctuation.definition.concatenation.stringtemplate\",
      \"regex\": \"\\\\s*\\\\+\\\\s*\",
      \"comment\": \"Concatenation operator\"
    \x7d,
    \x7b
      \"include\": \"#variable\"
    \x7d
  ],
  \"#expression-internal\": [],
  \"#indirect-template\": [
    \x7b
      \"token\": \"punctuation.definition.indirect.begin.stringtemplate\",
      \"regex\": \"\\\\(\\\\s*\",
      \"push\": [
        \x7b
          \"token\": \"punctuation.definition.template.end.stringtemplate\",
          \"regex\": \"\\\\s*\\\\)\\\\s*(?=\\\\()\",
          \"next\": \"pop\"
        \x7d,
        \x7b
          \"include\": \"#expression\"
        \x7d,
        \x7b
          \"defaultToken\": \"meta.function.template.indirect.expression.stringtemplate\"
        \x7d
      ],
      \"comment\": \"Indirect template calls\"
    \x7d,
    \x7b
      \"token\": \"punctuation.definition.template.begin.stringtemplate\",
      \"regex\": \"\\\\(\",
      \"push\": [
        \x7b
          \"token\": \"punctuation.definition.template.end.stringtemplate\",
          \"regex\": \"\\\\)\",
          \"next\": \"pop\"
        \x7d,
        \x7b
          \"include\": \"#argument-list\"
        \x7d,
        \x7b
          \"defaultToken\": \"meta.function.template.indirect.call.stringtemplate\"
        \x7d
      ],
      \"comment\": \"Template calls\"
    \x7d
  ],
  \"#list\": [
    \x7b
      \"include\": \"#comma\"
    \x7d,
    \x7b
      \"include\": \"#expression\"
    \x7d
  ],
  \"#template\": [
    \x7b
      \"token\": [
        \"entity.name.function.template.stringtemplate\",
        \"punctuation.definition.template.begin.stringtemplate\"
      ],
      \"regex\": \"([A-Za-z]\\\\w*(?:\\\\/[A-Za-z]\\\\w*)*)(\\\\(\\\\s*)\",
      \"push\": [
        \x7b
          \"token\": [
            \"punctuation.definition.template.end.stringtemplate\",
            \"punctuation.definition.comma.stringtemplate\"
          ],
          \"regex\": \"(\\\\))(\\\\s*,?)\",
          \"next\": \"pop\"
        \x7d,
        \x7b
          \"include\": \"#argument-list\"
        \x7d,
        \x7b
          \"defaultToken\": \"meta.function.template.call.stringtemplate\"
        \x7d
      ],
      \"comment\": \"Template calls\"
    \x7d
  ],
  \"#variable\": [
    \x7b
      \"token\": \"punctuation.definition.list.begin.stringtemplate\",
      \"regex\": \"\\\\[\\\\s*\",
      \"push\": [
        \x7b
          \"token\": \"punctuation.definition.list.end.stringtemplate\",
          \"regex\": \"\\\\s*\\\\]\",
          \"next\": \"pop\"
        \x7d,
        \x7b
          \"include\": \"#list\"
        \x7d,
        \x7b
          \"defaultToken\": \"meta.variable.other.list.stringtemplate\"
        \x7d
      ],
      \"comment\": \"List creation\"
    \x7d,
    \x7b
      \"token\": \"punctuation.definition.indirect.begin.stringtemplate\",
      \"regex\": \"\\\\(\\\\s*\",
      \"push\": [
        \x7b
          \"token\": \"punctuation.definition.indirect.end.stringtemplate\",
          \"regex\": \"\\\\s*\\\\)\",
          \"next\": \"pop\"
        \x7d,
        \x7b
          \"include\": \"#expression\"
        \x7d,
        \x7b
          \"defaultToken\": \"meta.variable.other.indirect.stringtemplate\"
        \x7d
      ],
      \"comment\": \"Indirect property lookup\"
    \x7d,
    \x7b
      \"token\": \"variable.other.stringtemplate\",
      \"regex\": \"[\\\\p\x7bLu\x7d\\\\p\x7bLl\x7d\\\\p\x7bLt\x7d\\\\p\x7bLm\x7d\\\\p\x7bLo\x7d\\\\p\x7bNl\x7d_][\\\\p\x7bLu\x7d\\\\p\x7bLl\x7d\\\\p\x7bLt\x7d\\\\p\x7bLm\x7d\\\\p\x7bLo\x7d\\\\p\x7bNl\x7d\\\\p\x7bNd\x7d\\\\p\x7bPc\x7d\\\\p\x7bMn\x7d\\\\p\x7bMc\x7d\\\\p\x7bCf\x7d]*\",
      \"comment\": \"Variable\"
    \x7d,
    \x7b
      \"token\": \"punctuation.definition.dot.stringtemplate\",
      \"regex\": \"\\\\.\",
      \"comment\": \"Property operator\"
    \x7d
  ]
\x7d
"

end StackLexer.StringTemplate
