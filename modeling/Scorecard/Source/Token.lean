import Scorecard.Number.Decimal

set_option autoImplicit false

/-! # Tokens of Python source

A source text is a sequence of names, keywords, constants, operators and marks for the ends of lines
and the changes of indentation. Every token knows the lines on which it starts and ends; only a text
literal can span several.
-/

namespace Scorecard.Source

/-- A constant of the language. Integers are never negative: a sign is an operator. A text remembers
whether it was marked with the letter `u`. -/
inductive Constant where
  | none
  | bool (b : Bool)
  | ellipsis
  | int (n : Nat)
  | float (x : Number)
  | imaginary (x : Number)
  | text (s : String) (marked : Bool)
  | bytes (bs : List Nat)
deriving DecidableEq, Repr

/-- A text literal as written: its prefix letters and what stands between the quotes. -/
structure Quoted where
  isBytes : Bool
  isRaw : Bool
  isFormatted : Bool
  isMarked : Bool
  body : List Char
deriving DecidableEq, Repr

/-- What a token is. Names are in normal form; `op` holds the operator or delimiter. -/
inductive TokenKind where
  | name (id : String)
  | keyword (word : String)
  | number (value : Constant)
  | quoted (q : Quoted)
  | op (symbol : String)
  | newline
  | indent
  | dedent
  | done
deriving DecidableEq, Repr

/-- A token with its first and last line, counted from one. -/
structure Token where
  kind : TokenKind
  line : Nat
  lastLine : Nat
deriving DecidableEq, Repr

/-- The reserved words. -/
def keywords : List String :=
  ["False", "None", "True", "and", "as", "assert", "async", "await", "break", "class", "continue",
    "def", "del",
   "elif", "else", "except", "finally", "for", "from", "global", "if", "import", "in", "is",
     "lambda", "nonlocal",
   "not", "or", "pass", "raise", "return", "try", "while", "with", "yield"]

/-- Operators and delimiters, longer ones before their beginnings. -/
def operators : List String :=
  ["**=", "//=", "<<=", ">>=", "...",
   "!=", "%=", "&=", "**", "*=", "+=", "-=", "->", "//", "/=", ":=", "<<", "<=", "<>", "==", ">=",
     ">>", "@=",
   "^=", "|=",
   "%", "&", "(", ")", "*", "+", ",", "-", ".", "/", ":", ";", "<", "=", ">", "@", "[", "]", "^",
     "\x7b", "|",
   "\x7d", "~"]

end Scorecard.Source
