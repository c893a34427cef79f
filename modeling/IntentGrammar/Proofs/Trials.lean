import IntentGrammar.Proofs.Headers

/-!
# Reading by trial

A text can be read by trial: a reader that finds something else than it expects *gives way*, and
another one is tried, or the part it would have read is taken to be absent.  Only a *fault* ends all
reading.  Such readers are put together from small ones, and what gives way is as good as absent for
them (`Attempt.outcome`).

A header that is read by trial is read as it is without (**`Trial.header_eq`**): whatever gives way
in between, in the end there is a header or a fault, and never a mere mismatch.
-/

namespace IntentGrammar

open Text

/-! ### Attempts -/

/-- Why nothing has been read: something else was expected, or there is a fault.  A mismatch says no
more than what kind of reader has given way, and where. -/
inductive Hindrance where
  | mismatch (what : String) (left : Nat)
  | fault (stop : Stop)
  deriving DecidableEq, Repr

/-- What comes of a trial. -/
abbrev Attempt := Except Hindrance

/-- What has been read, if there is no fault; nothing if the reader has given way. -/
def Attempt.outcome {α : Type} : Attempt α → Except Stop (Option α)
  | .ok a => .ok (some a)
  | .error (.mismatch _ _) => .ok none
  | .error (.fault stop) => .error stop

/-- What a reader makes of a text: what it has read, and the rest. -/
abbrev Reader (α : Type) := List Char → Attempt (α × List Char)

namespace Trial

/-! ### Small readers -/

section Readers

variable {α β : Type}

/-- Give way. -/
def mismatch (what : String) : Reader α := fun cs => .error (.mismatch what cs.length)

/-- End with a fault. -/
def fail (fault : Fault) (left : Nat) : Attempt α := .error (.fault ⟨fault, left⟩)

/-- What was tried has to be there. -/
def expect (fault : Fault) (left : Nat) (attempt : Attempt α) : Attempt α :=
  match attempt.outcome with
  | .ok none => fail fault left
  | .ok (some a) => .ok a
  | .error stop => .error (.fault stop)

/-- A character with a property. -/
def satisfying (what : String) (p : Char → Bool) : Reader Char
  | [] => mismatch what []
  | c :: rest => if p c then .ok (c, rest) else mismatch what (c :: rest)

/-- A certain character. -/
def char (c : Char) : Reader Char := satisfying "Char" (· == c)

/-- The longest run of characters with a property, which may be empty. -/
def run (p : Char → Bool) : Reader (List Char) := fun cs => .ok (cs.takeWhile p, cs.dropWhile p)

/-- The longest run of characters with a property, unless it is empty. -/
def someRun (what : String) (p : Char → Bool) : Reader (List Char) := fun cs =>
  if (cs.takeWhile p).isEmpty then mismatch what cs else run p cs

/-- A run of spaces and tabs. -/
def gap : Reader (List Char) := run isIndent

/-- Something, or nothing. -/
def opt (r : Reader α) : Reader (Option α) := fun cs =>
  match (r cs).outcome with
  | .ok none => .ok (none, cs)
  | .ok (some (a, rest)) => .ok (some a, rest)
  | .error stop => .error (.fault stop)

/-- What the first reader that does not give way reads. -/
def alt : List (Reader α) → Reader α
  | [] => mismatch "Alt"
  | r :: rs => fun cs =>
    match (r cs).outcome with
    | .ok none => alt rs cs
    | .ok (some a) => .ok a
    | .error stop => .error (.fault stop)

/-- What stands behind separators, until one is missing or nothing stands behind it; such a last one
is left in place.  Readers that read nothing would be tried forever, so they give way. -/
def further (separator : Reader β) (r : Reader α) (cs : List Char) :
    Attempt (List α × List Char) :=
  match (separator cs).outcome with
  | .error stop => .error (.fault stop)
  | .ok none => .ok ([], cs)
  | .ok (some (_, rest)) =>
    match (r rest).outcome with
    | .error stop => .error (.fault stop)
    | .ok none => .ok ([], cs)
    | .ok (some (a, behind)) =>
      if behind.length < cs.length then do
        let (as, rest) ← further separator r behind
        return (a :: as, rest)
      else mismatch "SeparatedList" cs
termination_by cs.length

/-- A list with separators, which may be empty. -/
def separated (separator : Reader β) (r : Reader α) : Reader (List α) := fun cs =>
  match (r cs).outcome with
  | .error stop => .error (.fault stop)
  | .ok none => .ok ([], cs)
  | .ok (some (a, rest)) => do
    let (as, rest) ← further separator r rest
    return (a :: as, rest)

end Readers

/-! ### Readers of headers -/

/-- The text up to a closing bracket. -/
def bracketText (opened : Nat) : Reader (List Char) := fun cs => do
  let (body, rest) ← run isPlain cs
  match rest with
  | [] => fail .unclosedBracket opened
  | c :: behind =>
    if c = ']' then return (body, behind) else fail .nestedBracket rest.length

/-- A text between two quotes. -/
def quotedText (quote : Char) : Reader (List Char) := fun cs => do
  let (_, rest) ← char quote cs
  let (body, rest) ← run (· != quote) rest
  let (_, rest) ← expect .unclosedString cs.length (char quote rest)
  return (body, rest)

/-- A quoted text or a bare word. -/
def value : Reader (List Char) :=
  alt [quotedText '\'', quotedText '"', someRun "TakeWhile1" isBare]

/-- A named argument. -/
def argument : Reader Argument := fun cs => do
  let (name, rest) ← value cs
  let (_, rest) ← gap rest
  let (_, rest) ← expect .expectedColon rest.length (char ':' rest)
  let (_, rest) ← gap rest
  let (value, rest) ← expect .expectedValue rest.length (value rest)
  return (⟨cs.length, String.ofList name, String.ofList value⟩, rest)

/-- A comma between two arguments. -/
def comma : Reader Char := fun cs => do
  let (_, rest) ← gap cs
  let (c, rest) ← char ',' rest
  let (_, rest) ← gap rest
  return (c, rest)

/-- The closing parenthesis of an argument list. -/
def parenthesis (opened : Nat) : Reader Unit
  | [] => fail .unclosedArguments opened
  | c :: behind =>
    if c = ')' then return ((), behind) else fail (.expectedComma c) (c :: behind).length

/-- The end of an argument list: a last comma or none, and the parenthesis. -/
def listEnd (opened : Nat) : Reader Unit := fun cs => do
  let (_, rest) ← gap cs
  let (_, rest) ← opt (char ',') rest
  let (_, rest) ← gap rest
  parenthesis opened rest

/-- The argument list of a header. -/
def argumentList : Reader (List (String × String)) := fun cs => do
  let (_, rest) ← char '(' cs
  let (_, rest) ← gap rest
  let (arguments, rest) ← separated comma argument rest
  let (_, rest) ← listEnd cs.length rest
  match firstRepeated? [] arguments with
  | some repeated => fail (.repeatedArgument repeated.name) repeated.left
  | none => return (arguments.map Argument.pair, rest)

/-- What stands behind the name in a header: arguments or none. -/
def headerEnd : Reader (List (String × String)) := fun cs => do
  let (_, rest) ← gap cs
  let (arguments, rest) ← opt argumentList rest
  let (_, rest) ← gap rest
  if rest.isEmpty then return (arguments.getD [], rest) else fail .textAfterHeader rest.length

/-- A header, up to the end of its line. -/
def header : Reader (Key × List (String × String)) := fun cs => do
  let (sigil, behind) ← satisfying "Eof" (fun _ => true) cs
  let (_, rest) ← expect .noHeader cs.length (char '[' behind)
  let some kind := Kind.ofSigil? sigil | fail (.unknownSigil sigil) cs.length
  let (body, rest) ← bracketText behind.length rest
  let label ← (Label.read body).mapError fun fault => .fault ⟨fault, behind.length⟩
  if label.optional then fail .optionalHeader behind.length
  else if kind = .intent ∧ label.variation.isSome then fail .intentVariation behind.length
  else do
    let (arguments, rest) ← headerEnd rest
    return ((⟨kind, label.name, label.variation⟩, arguments), rest)

/-! ### What comes of small readers -/

section Outcomes

variable {α : Type} {x : Attempt α} {a : α} {stop : Stop} {c d : Char} {p : Char → Bool}
  {cs rest : List Char} {fault : Fault} {left : Nat}

theorem eq_of_outcome_error (h : x.outcome = .error stop) : x = .error (.fault stop) := by
  rcases x with (⟨what, left⟩ | stop') | a
  · cases h
  · rw [Except.error.inj h]
  · cases h

theorem eq_of_outcome_none (h : x.outcome = .ok none) :
    ∃ what left, x = .error (.mismatch what left) := by
  rcases x with (⟨what, left⟩ | stop') | a
  · exact ⟨what, left, rfl⟩
  · cases h
  · cases h

theorem eq_of_outcome_some (h : x.outcome = .ok (some a)) : x = .ok a := by
  rcases x with (⟨what, left⟩ | stop') | a'
  · cases h
  · cases h
  · rw [Option.some.inj (Except.ok.inj h)]

theorem gap_eq (cs : List Char) : gap cs = .ok (cs.takeWhile isIndent, skipIndent cs) := rfl

theorem char_self (c : Char) (rest : List Char) : char c (c :: rest) = .ok (c, rest) := by
  rw [char, satisfying, beq_self_eq_true, if_pos rfl]

theorem outcome_char_of_ne (h : ∀ rest, cs ≠ c :: rest) : (char c cs).outcome = .ok none := by
  rcases cs with _ | ⟨d, rest⟩
  · rfl
  · have hd : ¬(d == c) = true := by
      rw [beq_iff_eq]
      rintro rfl
      exact h rest rfl
    rw [char, satisfying, if_neg hd]
    rfl

theorem expect_ok (fault : Fault) (left : Nat) (a : α) : expect fault left (.ok a) = .ok a := rfl

theorem expect_of_none (h : x.outcome = .ok none) :
    expect fault left x = .error (.fault ⟨fault, left⟩) := by
  rw [expect]
  simp only [h]
  rfl

theorem outcome_alt_of_none {r : Reader α} {rs : List (Reader α)}
    (h : (r cs).outcome = .ok none) : (alt (r :: rs) cs).outcome = (alt rs cs).outcome := by
  rw [alt]
  simp only [h]

theorem outcome_alt_of_ne {r : Reader α} {rs : List (Reader α)}
    (h : (r cs).outcome ≠ .ok none) : (alt (r :: rs) cs).outcome = (r cs).outcome := by
  rw [alt]
  rcases hr : (r cs).outcome with stop | _ | b
  · simp only [hr]
    rfl
  · exact absurd hr h
  · simp only [hr]
    rfl

/-- A last reader may give way, as no reader is left. -/
theorem outcome_alt_singleton (r : Reader α) (cs : List Char) :
    (alt [r] cs).outcome = (r cs).outcome := by
  by_cases h : (r cs).outcome = .ok none
  · rw [outcome_alt_of_none h, h]
    rfl
  · exact outcome_alt_of_ne h

end Outcomes

/-! ### Headers -/

section Headers

variable {cs rest : List Char}

theorem bracketText_eq (opened : Nat) (cs : List Char) :
    bracketText opened cs = (bracketBody opened cs).mapError .fault := by
  show (match cs.dropWhile isPlain with
    | [] => fail .unclosedBracket opened
    | c :: behind => if c = ']' then return (cs.takeWhile isPlain, behind)
      else fail .nestedBracket (cs.dropWhile isPlain).length) = _
  rw [bracketBody]
  rcases hdrop : cs.dropWhile isPlain with _ | ⟨c, behind⟩
  · rfl
  · by_cases hc : c = ']'
    · simp only [if_pos hc]
      rfl
    · simp only [if_neg hc]
      rfl

/-- A quoted text is tried where its quote stands. -/
theorem outcome_quotedText_self (quote : Char) (rest : List Char) :
    (quotedText quote (quote :: rest)).outcome
      = (readQuoted quote (quote :: rest).length rest).map some := by
  rw [quotedText, char_self]
  show Attempt.outcome (expect .unclosedString (quote :: rest).length
    (char quote (rest.dropWhile (· != quote))) >>=
      fun b => .ok (rest.takeWhile (· != quote), b.2)) = _
  rw [readQuoted]
  have hhead := List.head?_dropWhile_not (· != quote) rest
  rcases hdrop : rest.dropWhile (· != quote) with _ | ⟨c, behind⟩
  · rfl
  · rw [hdrop] at hhead
    obtain rfl : c = quote := by simpa using hhead
    rw [char_self]
    rfl

theorem outcome_quotedText_of_ne {quote : Char} (h : ∀ rest, cs ≠ quote :: rest) :
    (quotedText quote cs).outcome = .ok none := by
  obtain ⟨what, left, hchar⟩ := eq_of_outcome_none (outcome_char_of_ne h)
  rw [quotedText, hchar]
  rfl

theorem outcome_value (cs : List Char) : (value cs).outcome = readValue? cs := by
  rcases cs with _ | ⟨c, rest⟩
  · rfl
  have hquoted (quote : Char) : (quotedText quote (quote :: rest)).outcome ≠ .ok none := by
    rw [outcome_quotedText_self]
    rcases readQuoted quote (quote :: rest).length rest with stop | b
    · intro h
      cases h
    · intro h
      cases h
  have hother {quote : Char} (h : c ≠ quote) :
      (quotedText quote (c :: rest)).outcome = .ok none := by
    apply outcome_quotedText_of_ne
    rintro _ ⟨⟩
    exact h rfl
  -- a quote decides what is read, so the quoted texts are tried first
  rw [value, readValue?]
  by_cases hsingle : c = '\''
  · subst hsingle
    rw [outcome_alt_of_ne (hquoted _), outcome_quotedText_self, if_pos (.inl rfl)]
  rw [outcome_alt_of_none (hother hsingle)]
  by_cases hdouble : c = '"'
  · subst hdouble
    rw [outcome_alt_of_ne (hquoted _), outcome_quotedText_self, if_pos (.inr rfl)]
  rw [outcome_alt_of_none (hother hdouble), outcome_alt_singleton,
    if_neg (not_or.mpr ⟨hsingle, hdouble⟩), someRun]
  by_cases hbare : isBare c = true
  · rw [List.takeWhile_cons_of_pos hbare, if_pos hbare, List.isEmpty_cons,
      if_neg Bool.false_ne_true, run, List.takeWhile_cons_of_pos hbare]
    rfl
  · rw [List.takeWhile_cons_of_neg hbare, if_neg hbare]
    rfl

/-- An argument is tried where one may start. -/
theorem outcome_argument (cs : List Char) : (argument cs).outcome = readArgument? cs := by
  rw [argument, readArgument?]
  rcases hname : readValue? cs with stop | _ | ⟨name, rest⟩
  · rw [eq_of_outcome_error ((outcome_value cs).trans hname)]
    rfl
  · obtain ⟨what, left, h⟩ := eq_of_outcome_none ((outcome_value cs).trans hname)
    rw [h]
    rfl
  rw [eq_of_outcome_some ((outcome_value cs).trans hname)]
  simp only [ok_bind, gap_eq]
  rcases Classical.em (∃ tail, skipIndent rest = ':' :: tail) with ⟨tail, htail⟩ | hcolon
  · simp only [htail, char_self, expect_ok, ok_bind]
    rcases hvalue : readValue? (skipIndent tail) with stop | _ | b
    · rw [eq_of_outcome_error ((outcome_value _).trans hvalue)]
      rfl
    · rw [expect_of_none ((outcome_value _).trans hvalue)]
      rfl
    · rw [eq_of_outcome_some ((outcome_value _).trans hvalue)]
      rfl
  · rw [not_exists] at hcolon
    rw [expect_of_none (outcome_char_of_ne hcolon)]
    split
    · next tail htail => exact absurd htail (hcolon tail)
    · rfl

/-- A comma is tried behind a gap. -/
theorem comma_of_eq (h : skipIndent cs = ',' :: rest) : comma cs = .ok (',', skipIndent rest) := by
  simp only [comma, gap_eq, ok_bind, h, char_self]
  rfl

theorem outcome_comma_of_ne (h : ∀ rest, skipIndent cs ≠ ',' :: rest) :
    (comma cs).outcome = .ok none := by
  obtain ⟨what, left, hchar⟩ := eq_of_outcome_none (outcome_char_of_ne h)
  simp only [comma, gap_eq, ok_bind, hchar]
  rfl

theorem readArguments_of_ne {fuel : Nat} (h : ∀ rest, skipIndent cs ≠ ',' :: rest) :
    readArguments fuel cs = .ok ([], cs) := by
  unfold readArguments
  split
  · next hcomma => exact absurd hcomma (h _)
  · rfl

/-- Further arguments are tried behind commas as long as there are any. -/
theorem further_eq {fuel : Nat} (h : cs.length ≤ fuel) :
    further comma argument cs = (readArguments fuel cs).mapError .fault := by
  -- a comma and an argument leave a shorter text, so the fuel never runs out
  induction fuel generalizing cs with
  | zero =>
    obtain rfl := List.length_eq_zero_iff.mp (Nat.le_zero.mp h)
    rw [further]
    rfl
  | succ fuel ih =>
    rcases Classical.em (∃ tail, skipIndent cs = ',' :: tail) with ⟨tail, htail⟩ | hcomma
    · have hskip := length_skipIndent_le cs
      have hbehind := length_skipIndent_le tail
      rw [htail, List.length_cons] at hskip
      have hseparator : (comma cs).outcome = .ok (some (',', skipIndent tail)) := by
        rw [comma_of_eq htail]
        rfl
      rw [further]
      unfold readArguments
      simp only [hseparator, outcome_argument, htail]
      rcases hargument : readArgument? (skipIndent tail) with stop | _ | ⟨a, behind⟩
      · rfl
      · rfl
      have hshort := length_of_readArgument? hargument
      simp only [ok_bind]
      rw [if_pos (by omega), ih (by omega)]
      rcases readArguments fuel behind with stop | ⟨as, rest⟩
      · rfl
      · rfl
    · rw [not_exists] at hcomma
      rw [further, outcome_comma_of_ne hcomma, readArguments_of_ne hcomma]
      rfl

theorem parenthesis_eq (opened : Nat) (cs : List Char) : parenthesis opened cs
    = ((match cs with
        | [] => .error ⟨.unclosedArguments, opened⟩
        | c :: behind => if c = ')' then .ok behind else .error ⟨.expectedComma c, cs.length⟩
      : Except Stop (List Char)).map fun rest => ((), rest)).mapError .fault := by
  rcases cs with _ | ⟨c, behind⟩
  · rfl
  · rw [parenthesis]
    by_cases hc : c = ')'
    · simp only [if_pos hc]
      rfl
    · simp only [if_neg hc]
      rfl

/-- A list ends as if its last comma had been looked for. -/
theorem listEnd_eq (opened : Nat) (cs : List Char) : listEnd opened cs
    = ((closeArguments opened cs).map fun rest => ((), rest)).mapError .fault := by
  rw [listEnd, closeArguments]
  simp only [gap_eq, ok_bind]
  refine Eq.trans ?_ (parenthesis_eq opened _)
  split
  · next tail htail =>
    have hopt : opt (char ',') (skipIndent cs) = .ok (some ',', tail) := by
      rw [htail, opt, char_self]
      rfl
    simp only [hopt, ok_bind]
  · next hne =>
    have hopt : opt (char ',') (skipIndent cs) = .ok (none, skipIndent cs) := by
      rw [opt, outcome_char_of_ne hne]
    simp only [hopt, ok_bind, skipIndent_skipIndent]

/-- A list of arguments is tried where a parenthesis opens. -/
theorem outcome_argumentList_open (behind : List Char) : (argumentList ('(' :: behind)).outcome
    = (readArgumentList (behind.length + 1) behind).map some := by
  simp only [argumentList, char_self, ok_bind, gap_eq, separated, outcome_argument,
    readArgumentList, List.length_cons]
  rcases readArgument? (skipIndent behind) with stop | _ | ⟨first, rest⟩
  · rfl
  · -- no argument gives way to an empty list
    simp only [ok_bind, listEnd_eq]
    show _ = Except.map some (closeArguments (behind.length + 1) (skipIndent behind) >>= _)
    rcases closeArguments (behind.length + 1) (skipIndent behind) with stop | closed
    · rfl
    · rfl
  · simp only [ok_bind, further_eq le_rfl]
    rcases readArguments rest.length rest with stop | ⟨others, rest'⟩
    · rfl
    show Attempt.outcome (listEnd (behind.length + 1) rest' >>= _)
      = Except.map some (closeArguments (behind.length + 1) rest' >>= _)
    rw [listEnd_eq]
    rcases closeArguments (behind.length + 1) rest' with stop | closed
    · rfl
    rcases firstRepeated? [] (first :: others) with _ | repeated
    · rfl
    · rfl

theorem outcome_argumentList_of_ne (h : ∀ rest, cs ≠ '(' :: rest) :
    (argumentList cs).outcome = .ok none := by
  obtain ⟨what, left, hchar⟩ := eq_of_outcome_none (outcome_char_of_ne h)
  rw [argumentList, hchar]
  rfl

theorem readHeader_of_ne {sigil : Char} {behind : List Char}
    (h : ∀ inner, behind ≠ '[' :: inner) :
    readHeader (sigil :: behind) = .error ⟨.noHeader, (sigil :: behind).length⟩ := by
  unfold readHeader
  split
  · next c inner heq =>
    cases heq
    exact absurd rfl (h inner)
  · rfl

/-- **A header that is tried is read**: it has all that a header has, and nothing is left, or there
is a fault. -/
theorem header_eq (hsome : cs ≠ []) :
    header cs = ((readHeader cs).map fun h => (h, [])).mapError .fault := by
  obtain ⟨sigil, behind, rfl⟩ := List.exists_cons_of_ne_nil hsome
  rcases Classical.em (∃ inner, behind = '[' :: inner) with ⟨inner, rfl⟩ | hopen
  · unfold readHeader
    simp only [header, satisfying, if_pos, ok_bind, char_self, expect_ok, bracketText_eq]
    rcases Kind.ofSigil? sigil with _ | kind
    · rfl
    rcases bracketBody (inner.length + 1) inner with stop | ⟨body, rest⟩
    · rfl
    simp only [mapError_ok, ok_bind]
    rcases Label.read body with fault | label
    · rfl
    simp only [mapError_ok, ok_bind]
    by_cases hoptional : label.optional = true
    · rw [if_pos hoptional, if_pos hoptional]
      rfl
    rw [if_neg hoptional, if_neg hoptional]
    by_cases hvariation : kind = .intent ∧ label.variation.isSome = true
    · rw [if_pos hvariation, if_pos hvariation]
      rfl
    rw [if_neg hvariation, if_neg hvariation, headerEnd]
    simp only [gap_eq, ok_bind]
    -- arguments are tried just where a parenthesis opens
    split
    · next behind hbehind =>
      rw [hbehind, opt, outcome_argumentList_open]
      rcases readArgumentList (behind.length + 1) behind with stop | ⟨arguments, rest'⟩
      · rfl
      simp only [Except.map, ok_bind]
      rcases skipIndent rest' with _ | ⟨c, tail⟩
      · rfl
      · rfl
    · next hne =>
      rw [opt, outcome_argumentList_of_ne hne]
      simp only [ok_bind, pure_bind, skipIndent_skipIndent]
      rcases skipIndent rest with _ | ⟨c, tail⟩
      · rfl
      · rfl
  · rw [not_exists] at hopen
    rw [readHeader_of_ne hopen, header]
    simp only [satisfying, if_pos, ok_bind, expect_of_none (outcome_char_of_ne hopen)]
    rfl

end Headers

end Trial

end IntentGrammar
