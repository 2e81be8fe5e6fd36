/-!
Patterns over characters, matched by priority. A pattern may match several
initial parts of a text; `Pattern.ends` lists their lengths, the preferred one
first, each length once. A match of a whole expression is the first
combination of lengths that lets everything after it match as well, so the
order of the list is part of the meaning.

Most tokens have one length at most: a `run` takes every character of its class,
since nothing that may follow it begins with one of them. Where a shorter part
must be tried as well, `longRun` and `shortRun` offer all of them.

Repetition leaves out rounds that consume nothing, hence the length of the text
bounds the number of rounds.
-/

namespace RecordQuery

/-- A pattern of consecutive characters. -/
inductive Pattern where
  /-- Matches the empty text. -/
  | empty
  /-- Matches exactly these characters. -/
  | word (chars : List Char)
  /-- Matches one character of a class. -/
  | one (accepts : Char → Bool)
  /-- Matches all characters of a class that come next, possibly none. -/
  | run (accepts : Char → Bool)
  /-- Matches any number of characters of a class, as many as possible first. -/
  | longRun (accepts : Char → Bool)
  /-- Matches one or more characters of a class, as few as possible first. -/
  | shortRun (accepts : Char → Bool)
  /-- Matches the initial part that is measured, if there is one. -/
  | measured (length? : List Char → Option Nat)
  /-- Matches the first pattern and then the second. -/
  | seq (first second : Pattern)
  /-- Matches either pattern, the first by preference. -/
  | either (first second : Pattern)
  /-- Matches any number of rounds of the body, as many as possible first. -/
  | many (body : Pattern)

namespace Pattern

/-- How many characters at the start of the text belong to the class. -/
def runLength (accepts : Char → Bool) : List Char → Nat
  | c :: rest => if accepts c then runLength accepts rest + 1 else 0
  | [] => 0

/-- The lengths after any number of rounds of a step, longest path first. Rounds
that consume nothing are left out, and the count bounds the rounds. -/
def rounds (step : List Char → List Nat) : Nat → List Char → List Nat
  | 0, _ => [0]
  | bound + 1, s =>
    (((step s).filter (0 < ·)).flatMap fun n =>
      (rounds step bound (s.drop n)).map (n + ·)) ++ [0]

/-- The lengths of the initial parts that the pattern matches, by priority. -/
def ends : Pattern → List Char → List Nat
  | .empty, _ => [0]
  | .word chars, s => if chars.isPrefixOf s then [chars.length] else []
  | .one accepts, s =>
    match s with
    | c :: _ => if accepts c then [1] else []
    | [] => []
  | .run accepts, s => [runLength accepts s]
  | .longRun accepts, s => (List.range (runLength accepts s + 1)).reverse
  | .shortRun accepts, s => (List.range (runLength accepts s)).map (· + 1)
  | .measured length?, s => (length? s).toList
  | .seq first second, s =>
    ((first.ends s).flatMap fun n => (second.ends (s.drop n)).map (n + ·)).eraseDups
  | .either first second, s => (first.ends s ++ second.ends s).eraseDups
  | .many body, s => (rounds body.ends s.length s).eraseDups

theorem mem_ends_seq (first second : Pattern) (s : List Char) (n : Nat) :
    n ∈ ends (.seq first second) s ↔
      ∃ m ∈ first.ends s, ∃ k ∈ second.ends (s.drop m), m + k = n := by
  simp only [ends, List.mem_eraseDups, List.mem_flatMap, List.mem_map]

theorem mem_ends_either (first second : Pattern) (s : List Char) (n : Nat) :
    n ∈ ends (.either first second) s ↔ n ∈ first.ends s ∨ n ∈ second.ends s := by
  simp only [ends, List.mem_eraseDups, List.mem_append]

theorem mem_ends_many (body : Pattern) (s : List Char) (n : Nat) :
    n ∈ ends (.many body) s ↔ n ∈ rounds body.ends s.length s := by
  simp only [ends, List.mem_eraseDups]

def accepts (p : Pattern) (s : List Char) : Bool :=
  (p.ends s).contains s.length

def all : List Pattern → Pattern
  | [] => .empty
  | [p] => p
  | p :: rest => .seq p (all rest)

/-- The first of the patterns that lets the rest match. -/
def anyOf : List Pattern → Pattern
  | [] => .one fun _ => false
  | [p] => p
  | p :: rest => .either p (anyOf rest)

/-- The pattern or nothing, the pattern by preference. -/
def optional (p : Pattern) : Pattern :=
  .either p .empty

/-- All characters of a class that come next, at least one. -/
def someOf (accepts : Char → Bool) : Pattern :=
  .seq (.one accepts) (.run accepts)

def exactly (accepts : Char → Bool) : Nat → Pattern
  | 0 => .empty
  | 1 => .one accepts
  | n + 1 => .seq (.one accepts) (exactly accepts n)

def text (t : String) : Pattern :=
  .word t.toList

end Pattern

end RecordQuery
