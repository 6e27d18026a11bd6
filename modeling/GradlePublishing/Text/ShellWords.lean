import GradlePublishing.Text.Basic

/-!
Splitting a line into words as a shell does: quotes group, a backslash takes the next character as
it is, and inside double quotes it does so only before a quote or another backslash.
-/

namespace GradlePublishing.Text

inductive ShellFault
  | unclosedQuote
  | danglingEscape
  deriving DecidableEq, Repr

def isShellSpace (c : Char) : Bool := c ∈ [' ', '\t', '\r', '\n']

/-- Where a reader stands: between words, in a word, after a backslash in a word, inside quotes, or
after a backslash inside double quotes. Words are kept in reverse. -/
inductive ShellState
  | between
  | word (read : Text)
  | escaped (read : Text)
  | inside (quote : Char) (read : Text)
  | escapedInside (read : Text)
  deriving DecidableEq, Repr

def shellStep (read : Text) (c : Char) : ShellState :=
  if isQuote c then .inside c read
  else if c = '\\' then .escaped read
  else .word (c :: read)

def shellWordsFrom : ShellState → Text → Except ShellFault (List Text)
  | .between, [] => .ok []
  | .word read, [] => .ok [read.reverse]
  | .escaped _, [] => .error .danglingEscape
  | .inside _ _, [] => .error .unclosedQuote
  | .escapedInside _, [] => .error .danglingEscape
  | .between, c :: s =>
    if isShellSpace c then shellWordsFrom .between s else shellWordsFrom (shellStep [] c) s
  | .word read, c :: s =>
    if isShellSpace c then (shellWordsFrom .between s).map (read.reverse :: ·)
    else shellWordsFrom (shellStep read c) s
  | .escaped read, c :: s => shellWordsFrom (.word (c :: read)) s
  | .inside quote read, c :: s =>
    if c = quote then shellWordsFrom (.word read) s
    else if c = '\\' && quote = '"' then shellWordsFrom (.escapedInside read) s
    else shellWordsFrom (.inside quote (c :: read)) s
  | .escapedInside read, c :: s =>
    if c = '"' || c = '\\' then shellWordsFrom (.inside '"' (c :: read)) s
    else shellWordsFrom (.inside '"' (c :: '\\' :: read)) s

def shellWords (s : Text) : Except ShellFault (List Text) := shellWordsFrom .between s

end GradlePublishing.Text
