import IntentGrammar.Json.Reading
import IntentGrammar.Yaml.Fold

/-!
# Scalars in quotes

In single quotes a quote is written twice, and every other character stands for itself.  In double
quotes a backslash starts an escape; behind it a line break joins two lines without a space.  The
white space in front of the closing quote belongs to the text.
-/

namespace IntentGrammar.Yaml

/-- What follows the opening quote of a scalar in single quotes. -/
def readSingle (d : Draft) (place : Place) (cs : List Char) : Option (String × Cursor) :=
  if place.column = 0 && atMark cs then none
  else
    match cs with
    | [] => none
    | '\'' :: '\'' :: cs => readSingle (d.push '\'') ((place.past '\'').past '\'') cs
    | '\'' :: cs => some (String.ofList d.join.reverse, ⟨cs, place.past '\''⟩)
    | c :: cs => readSingle (d.add c) (place.past c) cs

/-- The number of hexadecimal digits behind a letter that takes some. -/
def codeLength? (c : Char) : Option Nat :=
  if c = 'x' then some 2 else if c = 'u' then some 4 else if c = 'U' then some 8 else none

/-- The character given by hexadecimal digits. -/
def charOfDigits? (count : Nat) (digits : List Char) : Option Char := do
  guard (digits.length = count)
  let values ← digits.mapM Json.hexDigit?
  let n := values.foldl (fun n d => 16 * n + d) 0
  if n.isValidChar then some (Char.ofNat n) else none

/-- The character that a character behind a backslash stands for. -/
def escaped? (c : Char) : Option Char :=
  [('0', 0), ('a', 7), ('b', 8), ('t', 9), ('\t', 9), ('n', 10), ('v', 11), ('f', 12), ('r', 13),
    ('e', 27), (' ', 32), ('"', 34), ('/', 47), ('\\', 92), ('N', 0x85), ('_', 0xA0),
    ('L', 0x2028), ('P', 0x2029)].lookup c |>.map Char.ofNat

/-- The character that starts a text behind a backslash stands for, and the length of the escape. -/
def readEscape? : List Char → Option (Char × Nat)
  | [] => none
  | c :: cs =>
    match codeLength? c with
    | some count => (charOfDigits? count (cs.take count)).map fun e => (e, count + 1)
    | none => (escaped? c).map fun e => (e, 1)

/-- What follows the opening quote of a scalar in double quotes. -/
def readDouble (d : Draft) (c : Cursor) : Option (String × Cursor) :=
  if c.column = 0 && atMark c.rest then none
  else
    match _h : c.rest with
    | [] => none
    | '"' :: _ => some (String.ofList d.join.reverse, c.forward 1)
    | '\\' :: cs =>
      if cs.head?.any isBreak then
        let blanks := cs.takeWhile fun x => isGap x || isBreak x
        readDouble { text := (blanks.filter isBreak).tail.reverse ++ d.join }
          (c.forward (1 + blanks.length))
      else
        match readEscape? cs with
        | some (e, length) => readDouble (d.push e) (c.forward (1 + length))
        | none => none
    | x :: _ => readDouble (d.add x) (c.forward 1)
termination_by c.rest.length
decreasing_by all_goals simp [Cursor.forward, _h]; try omega

end IntentGrammar.Yaml
