/-!
# Tokens of Python text

A token knows where it stands and what lies between it and the token before it: whether a line ended
there, how far the line of the token is indented, and which comments stand on lines of their own.
Blocks are told from this gap alone, so no tokens for indentation are needed.
-/

namespace AgentFlow.Code

/-- A comment on a line of its own. -/
structure Comment where
  indent : Nat
  line : Nat
deriving Inhabited

/-- What lies between two tokens.  `indent` is the width of the blanks on the line of the second. -/
structure Gap where
  comments : List Comment := []
  newline : Bool := false
  indent : Nat := 0
deriving Inhabited

inductive TokenKind where
  | name
  | number
  | text
  | mark
  /-- A conversion such as `!r` in a replacement field. -/
  | conversion
  /-- A character or an open text that no token can start with. -/
  | broken
  | finish
deriving DecidableEq, Inhabited

/-- A token of the text.  `source` is the text from the token on, `start` and `stop` count
characters from the start of the text, and `fields` are the tokens of the replacement fields of a
formatted text. -/
inductive Token where
  | mk (kind : TokenKind) (word : String) (source : List Char) (start stop line endLine : Nat)
    (gap : Gap) (fields : List (List Token))

namespace Token

def kind : Token → TokenKind
  | mk k .. => k

/-- The characters of a name or a mark; empty for other tokens. -/
def word : Token → String
  | mk _ w .. => w

def source : Token → List Char
  | mk _ _ s .. => s

def start : Token → Nat
  | mk _ _ _ n .. => n

def stop : Token → Nat
  | mk _ _ _ _ n .. => n

def line : Token → Nat
  | mk _ _ _ _ _ n .. => n

def endLine : Token → Nat
  | mk _ _ _ _ _ _ n .. => n

def gap : Token → Gap
  | mk _ _ _ _ _ _ _ g _ => g

def fields : Token → List (List Token)
  | mk _ _ _ _ _ _ _ _ fs => fs

/-- The token with the first `n` comments before it taken away. -/
def dropComments (n : Nat) : Token → Token
  | mk k w s a b l m g fs => mk k w s a b l m { g with comments := g.comments.drop n } fs

def length (t : Token) : Nat := t.stop - t.start

def isMark (t : Token) (w : String) : Bool := t.kind == .mark && t.word == w

def isWord (t : Token) (w : String) : Bool := t.kind == .name && t.word == w

end Token

instance : Inhabited Token := ⟨.mk .finish "" [] 0 0 1 1 {} []⟩

def reservedWords : List String :=
  ["False", "None", "True", "and", "as", "assert", "break", "class", "continue", "def", "del",
    "elif", "else", "except", "finally", "for", "from", "global", "if", "import", "in", "is",
    "lambda", "nonlocal", "not", "or", "pass", "raise", "return", "try", "while", "with", "yield"]

def Token.isName (t : Token) : Bool := t.kind == .name && !reservedWords.contains t.word

/-- The text from the start of `first` to the character with number `stop`. -/
def textUpTo (first : Token) (stop : Nat) : String :=
  String.ofList (first.source.take (stop - first.start))

end AgentFlow.Code
