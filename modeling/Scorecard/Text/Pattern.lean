import Scorecard.Text.Glob

set_option autoImplicit false

/-! # Regular patterns

A pattern describes texts by sets of characters, alternatives, sequences and repetitions. A text is
compared with it character by character: what may still follow after a character is a pattern again
(`Pattern.after`), and the text fits if after its last character nothing has to follow. Of several
ways to fit a pattern none is preferred, since only whether there is one is asked for.
-/

namespace Scorecard.Text

/-- A regular pattern. -/
inductive Pattern where
  | nothing
  | empty
  | oneOf (ranges : List CharRange)
  | seq (p q : Pattern)
  | either (p q : Pattern)
  | many (p : Pattern)
deriving DecidableEq, Repr

namespace Pattern

/-- Patterns one after the other. -/
def inOrder (ps : List Pattern) : Pattern := ps.foldr seq empty

/-- A pattern up to `n` times. -/
def upTo (n : Nat) (p : Pattern) : Pattern :=
  match n with
  | 0 => empty
  | n + 1 => either empty (seq p (upTo n p))

/-- A pattern once or more often. -/
def oneOrMore (p : Pattern) : Pattern := seq p (many p)

/-- Whether the empty text fits. -/
def isNullable : Pattern → Bool
  | nothing | oneOf _ => false
  | empty | many _ => true
  | seq p q => p.isNullable && q.isNullable
  | either p q => p.isNullable || q.isNullable

/-- A sequence without parts that add nothing to it. -/
def followedBy : Pattern → Pattern → Pattern
  | nothing, _ => nothing
  | empty, q => q
  | p, q => seq p q

/-- An alternative without parts that no text fits. -/
def orElse : Pattern → Pattern → Pattern
  | nothing, q => q
  | p, nothing => p
  | p, q => either p q

/-- What may follow a character. -/
def after (c : Char) : Pattern → Pattern
  | nothing | empty => nothing
  | oneOf ranges => if ranges.any (·.contains c) then empty else nothing
  | seq p q =>
    let first := (p.after c).followedBy q
    if p.isNullable then first.orElse (q.after c) else first
  | either p q => (p.after c).orElse (q.after c)
  | many p => (p.after c).followedBy (many p)

/-- Whether a text as a whole fits. -/
def accepts (p : Pattern) (cs : List Char) : Bool := (cs.foldl (fun p c => p.after c) p).isNullable

end Pattern

end Scorecard.Text
