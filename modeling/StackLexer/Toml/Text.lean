import StackLexer.Unicode.Ranges

/-! Characters, comments and texts in quotes of a TOML document. -/

namespace StackLexer.Toml

open Unicode (hexDigit?)

def isBlank (c : Char) : Bool := c = ' ' || c = '\t'

/-- Whether a character may stand in a comment or between quotes: all but control characters, of
which the tab is allowed. -/
def isText (c : Char) : Bool := c = '\t' || (0x20 ≤ c.toNat && c.toNat ≠ 0x7F)

def skipBlanks (text : List Char) : List Char := text.dropWhile isBlank

def afterNewline? : List Char → Option (List Char)
  | '\n' :: rest => some rest
  | '\r' :: '\n' :: rest => some rest
  | _ => none

def skipComment (text : List Char) : List Char :=
  if text.head? = some '#' then text.dropWhile isText else text

def endLine? (text : List Char) : Option (List Char) :=
  match skipComment (skipBlanks text) with
  | [] => some []
  | rest => afterNewline? rest

theorem length_skipComment (text : List Char) : (skipComment text).length ≤ text.length := by
  unfold skipComment
  split
  · exact (List.dropWhile_sublist _).length_le
  · exact Nat.le_refl _

theorem length_afterNewline {text rest : List Char} (h : afterNewline? text = some rest) :
    rest.length < text.length := by
  unfold afterNewline? at h
  split at h
  · simp only [Option.some.injEq] at h
    subst h
    exact Nat.lt_succ_self _
  · simp only [Option.some.injEq] at h
    subst h
    simp only [List.length_cons]
    omega
  · simp at h

def skipSpace (text : List Char) : List Char :=
  let rest := skipComment (skipBlanks text)
  match _h : afterNewline? rest with
  | some more => skipSpace more
  | none => if (skipBlanks text).head? = some '#' then skipBlanks text else rest
termination_by text.length
decreasing_by
  have blanks : (skipBlanks text).length ≤ text.length := (List.dropWhile_sublist _).length_le
  have comment := length_skipComment (skipBlanks text)
  have shorter := length_afterNewline _h
  exact Nat.lt_of_lt_of_le shorter (Nat.le_trans comment blanks)

theorem length_skipSpace (text : List Char) : (skipSpace text).length ≤ text.length := by
  have blanks (text : List Char) : (skipBlanks text).length ≤ text.length :=
    (List.dropWhile_sublist _).length_le
  fun_induction skipSpace text with
  | case1 text _ more found ih =>
    have : more.length < (skipComment (skipBlanks text)).length := length_afterNewline found
    have := length_skipComment (skipBlanks text)
    have := blanks text
    omega
  | case2 text => exact blanks text
  | case3 text => exact Nat.le_trans (length_skipComment _) (blanks text)

def numbered? (count : Nat) (text : List Char) : Option Char :=
  if text.length < count then none
  else
    ((text.take count).foldlM (fun n c => (hexDigit? c).map (n * 16 + ·)) 0).bind (fun n =>
      if n.isValidChar then some (Char.ofNat n) else none)

def escape? : List Char → Option (Char × Nat)
  | 'b' :: _ => some ('\x08', 1)
  | 't' :: _ => some ('\t', 1)
  | 'n' :: _ => some ('\n', 1)
  | 'f' :: _ => some ('\x0c', 1)
  | 'r' :: _ => some ('\r', 1)
  | '"' :: _ => some ('"', 1)
  | '\\' :: _ => some ('\\', 1)
  | 'u' :: rest => (numbered? 4 rest).map (·, 5)
  | 'U' :: rest => (numbered? 8 rest).map (·, 9)
  | _ => none

def basic (read : List Char) (text : List Char) : Option (String × List Char) :=
  match text with
  | '"' :: rest => some (String.ofList read.reverse, rest)
  | '\\' :: rest =>
    match escape? rest with
    | some (c, size) => basic (c :: read) (rest.drop size)
    | none => none
  | c :: rest => if isText c then basic (c :: read) rest else none
  | [] => none
termination_by text.length
decreasing_by all_goals (simp only [List.length_cons, List.length_drop]; omega)

def literal (read : List Char) : List Char → Option (String × List Char)
  | '\'' :: rest => some (String.ofList read.reverse, rest)
  | c :: rest => if isText c then literal (c :: read) rest else none
  | [] => none

/-- A run of quotes inside a text between threefold quotes: up to two are part of the text, three
end it, and one or two more belong to the text before the end. -/
inductive QuoteRun where
  | inside (quotes : List Char)
  | ending (quotes : List Char)
  deriving DecidableEq, Repr, Inhabited

def quoteRun (quote : Char) (text : List Char) : QuoteRun × List Char :=
  let count := (text.takeWhile (· == quote)).length
  if count < 3 then (.inside (List.replicate count quote), text.drop count)
  else
    let extra := min (count - 3) 2
    (.ending (List.replicate extra quote), text.drop (extra + 3))

/-- The rest of a text between threefold double quotes. A backslash at the end of a line takes
away the space up to the next text. -/
def longBasic (read : List Char) (text : List Char) : Option (String × List Char) :=
  match text with
  | [] => none
  | c :: rest =>
    if c = '"' then
      match quoteRun '"' (c :: rest) with
      | (.ending quotes, after) => some (String.ofList (read.reverse ++ quotes), after)
      | (.inside quotes, after) =>
        if after.length < (c :: rest).length then longBasic (quotes ++ read) after else none
    else if c = '\\' then
      match afterNewline? (skipBlanks rest) with
      | some after =>
        let after := after.dropWhile (fun c => isBlank c || c = '\n' || c = '\r')
        if after.length < (c :: rest).length then longBasic read after else none
      | none =>
        match escape? rest with
        | some (c, size) => longBasic (c :: read) (rest.drop size)
        | none => none
    else match afterNewline? (c :: rest) with
      | some after =>
        if after.length < (c :: rest).length then longBasic ('\n' :: read) after else none
      | none => if isText c then longBasic (c :: read) rest else none
termination_by text.length
decreasing_by all_goals first | assumption | (simp only [List.length_cons, List.length_drop]; omega)

def longLiteral (read : List Char) (text : List Char) : Option (String × List Char) :=
  match text with
  | [] => none
  | c :: rest =>
    if c = '\'' then
      match quoteRun '\'' (c :: rest) with
      | (.ending quotes, after) => some (String.ofList (read.reverse ++ quotes), after)
      | (.inside quotes, after) =>
        if after.length < (c :: rest).length then longLiteral (quotes ++ read) after else none
    else match afterNewline? (c :: rest) with
      | some after =>
        if after.length < (c :: rest).length then longLiteral ('\n' :: read) after else none
      | none => if isText c then longLiteral (c :: read) rest else none
termination_by text.length
decreasing_by all_goals first | assumption | (simp only [List.length_cons]; omega)

def skipFirstNewline (text : List Char) : List Char := (afterNewline? text).getD text

def shortString? : List Char → Option (String × List Char)
  | '"' :: rest => basic [] rest
  | '\'' :: rest => literal [] rest
  | _ => none

def string? : List Char → Option (String × List Char)
  | '"' :: '"' :: '"' :: rest => longBasic [] (skipFirstNewline rest)
  | '\'' :: '\'' :: '\'' :: rest => longLiteral [] (skipFirstNewline rest)
  | text => shortString? text

end StackLexer.Toml
