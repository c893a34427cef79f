import IntentGrammar.Yaml.Fold

/-!
# Plain scalars

A scalar without quotes ends where something else could start: at a colon with a gap behind it, at
a comment, at a mark of a document, in flow style at a comma or a bracket, and in block style at a
line that is not indented far enough.  The white space at its end does not belong to it.
-/

namespace IntentGrammar.Yaml

/-- A plain scalar starts here. -/
def startsPlain (flow : Bool) : List Char → Bool
  | [] => false
  | c :: cs =>
    if c = '-' then !cs.head?.any isGap
    else if c = '?' || c = ':' then !flow && !atGap cs
    else !(isGap c || isBreak c || isBracket c || ",#&*!|>'\"%@\x60".toList.contains c)

/-- What is left of a plain scalar: its text, whether it ends with a line break, and what follows.
Outside of flow style a further line belongs to it only if it stands in the column `indent` or
further right. -/
def readPlain (flow : Bool) (indent : Nat) (d : Draft) (place : Place) (cs : List Char) :
    Option (String × Bool × Cursor) :=
  let done := some (String.ofList d.text.reverse, !d.breaks.isEmpty, (⟨cs, place⟩ : Cursor))
  match cs with
  | [] => done
  | c :: rest =>
    if isBreak c then readPlain flow indent (d.newLine c) (place.past c) rest
    else if isGap c then
      if c = '\t' && !d.breaks.isEmpty && place.column < indent then none
      else readPlain flow indent (d.gap c) (place.past c) rest
    else if d.isOpen && (c = '#' || (!flow && place.column < indent)
        || (place.column = 0 && atMark cs)) then done
    else if flow && c = ':' && rest.head?.any fun x => x = ',' || x = '?' || isBracket x then none
    else if c = ':' && atGap rest then done
    else if flow && (c = ',' || isBracket c) then done
    else readPlain flow indent (d.push c) (place.past c) rest

end IntentGrammar.Yaml
