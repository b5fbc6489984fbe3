/-!
# `HeaderBind.Text.Lines`: line breaks

Three notions of a line break meet here and differ on purpose:

* `splitLines` ends a line at any break character of Unicode, a carriage return followed by a
  line feed counting as one break. Probe output and the two sides of a diff are read so.
* `joinCrLf` rewrites a carriage return followed by a line feed as a line feed and leaves a lone
  carriage return alone. The sides of a diff pass through it before they are split.
* `unifyNewlines` rewrites both of them as a line feed. Every text read from a file passes
  through it, so a file with foreign line ends equals the text that was meant.
-/

set_option autoImplicit false

namespace HeaderBind.Text

/-- Whether `c` ends a line: the vertical controls, the information separators, U+0085 and the
two Unicode separators. -/
def isLineBreak (c : Char) : Bool :=
  c == '\n' || c == '\r' || c == '\x0b' || c == '\x0c' || c == '\x1c' || c == '\x1d' ||
    c == '\x1e' || c == '\u0085' || c == '\u2028' || c == '\u2029'

/-- The lines of a text, without their breaks. A break at the very end opens no further line. -/
def splitLines : List Char → List (List Char)
  | [] => []
  | '\r' :: '\n' :: rest => [] :: splitLines rest
  | c :: rest =>
    if isLineBreak c then [] :: splitLines rest
    else
      match splitLines rest with
      | [] => [[c]]
      | line :: lines => (c :: line) :: lines

/-- The lines of a text, without their breaks. -/
def lines (s : String) : List String :=
  (splitLines s.toList).map String.ofList

/-- The text with every carriage return that a line feed follows dropped. -/
def joinCrLf : List Char → List Char
  | [] => []
  | '\r' :: '\n' :: rest => '\n' :: joinCrLf rest
  | c :: rest => c :: joinCrLf rest

/-- The text with a line feed for every carriage return, or carriage return and line feed. -/
def unifyNewlines : List Char → List Char
  | [] => []
  | '\r' :: '\n' :: rest => '\n' :: unifyNewlines rest
  | c :: rest => (if c = '\r' then '\n' else c) :: unifyNewlines rest

end HeaderBind.Text
