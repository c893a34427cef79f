import IntentGrammar.Json.Reading
import Mathlib.Data.List.Basic
import Mathlib.Tactic.IntervalCases

/-!
# Reading what has been written

The compact text of a JSON value is read as that value, whatever it is (**`Json.read?_text`**), so
no two values have the same text (`Json.text_injective`).

A part of a text is read together with what follows it.  A character of a string is read back
however it is written (`Json.readChars?_escapeChar`), and the quote ends the string.  A number has
nothing that ends it, so what follows must not go on with one (`Json.Stops`).  For arrays and
objects the induction is on the value, and as many steps are enough as its text has characters
(`Json.readValue?_compact`).
-/

namespace IntentGrammar.Json

variable {c : Char} {cs rest : List Char}

theorem skipSpace_cons (h : isSpace c = false) (cs : List Char) :
    skipSpace (c :: cs) = c :: cs :=
  List.dropWhile_cons_of_neg (Bool.eq_false_iff.mp h)

/-! ### Strings -/

theorem hexDigit?_digitChar {n : Nat} (hn : n < 16) : hexDigit? (Nat.digitChar n) = some n := by
  interval_cases n <;> rfl

/-- A control character that is written with its number. -/
theorem readEscape?_number (h : c.toNat < 32) (rest : List Char) :
    readEscape? ('u' :: '0' :: '0' :: Nat.digitChar (c.toNat / 16)
      :: Nat.digitChar (c.toNat % 16) :: rest) = some (c, rest) := by
  have hhigh := hexDigit?_digitChar (n := c.toNat / 16) (by omega)
  have hlow := hexDigit?_digitChar (n := c.toNat % 16) (by omega)
  have hhex : readHex4? ('0' :: '0' :: Nat.digitChar (c.toNat / 16)
      :: Nat.digitChar (c.toNat % 16) :: rest) = some (c.toNat, rest) := by
    rw [readHex4?, hhigh, hlow]
    show some (4096 * 0 + 256 * 0 + 16 * (c.toNat / 16) + c.toNat % 16, rest) = _
    congr 2
    omega
  show readUnicode? _ = _
  rw [readUnicode?, hhex]
  show (if 0xD800 ≤ c.toNat ∧ c.toNat < 0xDC00 then _ else if _ then _ else _) = _
  rw [if_neg (by omega), if_neg (by omega), Char.ofNat_toNat]
  rfl

/-- A character that is escaped. -/
theorem readChars?_escaped (h : readEscape? cs = some (c, rest)) (fuel : Nat) :
    readChars? (fuel + 1) ('\\' :: cs)
      = (readChars? fuel rest).map fun (others, rest) => (c :: others, rest) := by
  rw [readChars?, h, Option.map_eq_bind]
  rfl

/-- A character that stands for itself. -/
theorem readChars?_plain (hquote : c ≠ '"') (hslash : c ≠ '\\') (hlow : 32 ≤ c.toNat) (fuel : Nat) :
    readChars? (fuel + 1) (c :: rest)
      = (readChars? fuel rest).map fun (others, rest) => (c :: others, rest) := by
  rw [readChars?, guard, if_pos hlow, Option.map_eq_bind]
  · rfl
  · exact hquote
  · exact hslash

/-- **A character of a string** is read back, however it is written. -/
theorem readChars?_escapeChar (fuel : Nat) (c : Char) (rest : List Char) :
    readChars? (fuel + 1) (escapeChar c ++ rest)
      = (readChars? fuel rest).map fun (others, rest) => (c :: others, rest) := by
  unfold escapeChar
  split_ifs with hquote hslash hbreak htab hreturn hback hfeed hlow
  · subst hquote
    exact readChars?_escaped rfl fuel
  · subst hslash
    exact readChars?_escaped rfl fuel
  · subst hbreak
    exact readChars?_escaped rfl fuel
  · subst htab
    exact readChars?_escaped rfl fuel
  · subst hreturn
    exact readChars?_escaped rfl fuel
  · obtain rfl : Char.ofNat 8 = c := by rw [← hback, Char.ofNat_toNat]
    exact readChars?_escaped rfl fuel
  · obtain rfl : Char.ofNat 12 = c := by rw [← hfeed, Char.ofNat_toNat]
    exact readChars?_escaped rfl fuel
  · exact readChars?_escaped (readEscape?_number hlow rest) fuel
  · exact readChars?_plain hquote hslash (Nat.not_lt.mp hlow) fuel

theorem escapeChar_ne_nil (c : Char) : escapeChar c ≠ [] := by
  unfold escapeChar
  split_ifs <;> exact List.cons_ne_nil _ _

/-- A string is not longer than what is written for it. -/
theorem length_le_length_flatMap_escapeChar (cs : List Char) :
    cs.length ≤ (cs.flatMap escapeChar).length := by
  induction cs with
  | nil => exact Nat.le_refl 0
  | cons c cs ih =>
    have hone := List.length_pos_of_ne_nil (escapeChar_ne_nil c)
    rw [List.flatMap_cons, List.length_append, List.length_cons]
    omega

theorem readChars?_flatMap_escapeChar (cs rest : List Char) {fuel : Nat} (h : cs.length ≤ fuel) :
    readChars? fuel (cs.flatMap escapeChar ++ '"' :: rest) = some (cs, rest) := by
  induction cs generalizing fuel with
  | nil => cases fuel <;> rfl
  | cons c cs ih =>
    obtain ⟨fuel, rfl⟩ := Nat.exists_eq_add_one_of_ne_zero (Nat.ne_zero_of_lt h)
    rw [List.flatMap_cons, List.append_assoc, readChars?_escapeChar, ih (Nat.le_of_succ_le_succ h)]
    rfl

theorem quote_append (s : String) (rest : List Char) :
    quote s ++ rest = '"' :: (s.toList.flatMap escapeChar ++ '"' :: rest) := by
  simp [quote]

/-- **A string** is read back. -/
theorem readString?_quote (s : String) (rest : List Char) :
    readString? (quote s ++ rest) = some (s, rest) := by
  have hfuel : s.toList.length ≤ (s.toList.flatMap escapeChar ++ '"' :: rest).length := by
    have hlength := length_le_length_flatMap_escapeChar s.toList
    rw [List.length_append]
    omega
  rw [quote_append]
  show (readChars? _ _).map _ = _
  rw [readChars?_flatMap_escapeChar _ _ hfuel]
  show some (String.ofList s.toList, rest) = _
  rw [String.ofList_toList]

/-! ### Numbers -/

theorem isDigit_of_mem_toDigits {n : Nat} (h : c ∈ Nat.toDigits 10 n) : c.isDigit = true :=
  Nat.isDigit_of_mem_toDigits (by decide) (by decide) h

theorem digitsValue_toDigits (n : Nat) : Decimal.digitsValue (Nat.toDigits 10 n) = n :=
  Nat.ofDigitChars_eq_foldl.symm.trans Nat.ofDigitChars_ten_toDigits

/-- A number that has several digits does not start with zero. -/
theorem head?_toDigits_ne {n : Nat} (h : 0 < n) : (Nat.toDigits 10 n).head? ≠ some '0' := by
  induction n using Nat.strongRecOn with
  | ind n ih =>
    rw [Nat.toDigits_eq_if (by decide)]
    split
    · simpa using h.ne'
    · have hhead := ih (n / 10) (by omega) (by omega)
      rwa [List.head?_append_of_ne_nil _ Nat.toDigits_ne_nil]

theorem splitSign_integerText (n : Int) :
    Decimal.splitSign (integerText n) = (decide (n < 0), Nat.toDigits 10 n.natAbs) := by
  rw [integerText]
  split
  · next hneg =>
    rw [decide_eq_true hneg]
    rfl
  · next hpos =>
    rw [decide_eq_false hpos]
    rcases hdigits : Nat.toDigits 10 n.natAbs with _ | ⟨d, ds⟩
    · rfl
    · have hd : d.isDigit = true := isDigit_of_mem_toDigits (hdigits ▸ List.mem_cons_self)
      unfold Decimal.splitSign
      split
      · next heq => cases heq; cases hd
      · next heq => cases heq; cases hd
      · rfl

/-- An exponent is read back. -/
theorem readExponent?_integerText (e : Int) :
    Decimal.readExponent? ('e' :: integerText e) = some e := by
  have hdigits : ((Nat.toDigits 10 e.natAbs).isEmpty
      || !(Nat.toDigits 10 e.natAbs).all Char.isDigit) = false := by
    simpa [Nat.toDigits_ne_nil] using fun c hc => isDigit_of_mem_toDigits hc
  rw [Decimal.readExponent?, if_pos (.inl rfl), splitSign_integerText]
  show (if _ then _ else some (if _ then _ else _)) = _
  rw [hdigits, if_neg Bool.false_ne_true, digitsValue_toDigits]
  split
  · next hneg =>
    have hneg := of_decide_eq_true hneg
    congr
    omega
  · next hpos =>
    have hpos := of_decide_eq_false (Bool.eq_false_iff.mpr hpos)
    congr
    omega

/-- The digits before what is not a digit. -/
theorem splitMantissa_toDigits (n : Nat) {tail : List Char}
    (h : ∀ c ∈ tail.head?, c.isDigit = false ∧ c ≠ '.') :
    Decimal.splitMantissa (Nat.toDigits 10 n ++ tail) = (Nat.toDigits 10 n, [], tail) := by
  have hdigits : ∀ c ∈ Nat.toDigits 10 n, c.isDigit = true := fun c hc => isDigit_of_mem_toDigits hc
  rw [Decimal.splitMantissa, List.takeWhile_append_of_pos hdigits,
    List.dropWhile_append_of_pos hdigits]
  rcases tail with _ | ⟨c, tail⟩
  · rw [List.takeWhile_nil, List.append_nil]
    rfl
  · obtain ⟨hdigit, hpoint⟩ := h c rfl
    rw [List.takeWhile_cons_of_neg (Bool.eq_false_iff.mp hdigit), List.append_nil,
      List.dropWhile_cons_of_neg (Bool.eq_false_iff.mp hdigit)]
    split
    · next heq =>
      cases heq
      exact absurd rfl hpoint
    · rfl

theorem readNumeral?_toDigits (n : Nat) (tail : List Char) :
    readNumeral? (Nat.toDigits 10 n ++ tail) = readDigits? false (Nat.toDigits 10 n ++ tail) := by
  rcases hdigits : Nat.toDigits 10 n with _ | ⟨d, ds⟩
  · exact absurd hdigits Nat.toDigits_ne_nil
  · have hd : d.isDigit = true := isDigit_of_mem_toDigits (hdigits ▸ List.mem_cons_self)
    rw [List.cons_append, readNumeral?]
    rintro rest ⟨⟩
    cases hd

theorem point_notMem_toDigits (n : Nat) : '.' ∉ Nat.toDigits 10 n := by
  intro h
  cases isDigit_of_mem_toDigits h

theorem point_notMem_integerText (n : Int) : '.' ∉ integerText n := by
  rw [integerText]
  split
  · simpa using point_notMem_toDigits _
  · exact point_notMem_toDigits _

/-- An integer has nothing behind its digits, and a decimal has its exponent there. -/
theorem readDigits?_toDigits (negative : Bool) (n : Nat) {tail : List Char} {exponent : Int}
    (htail : tail = [] ∧ exponent = 0 ∨ tail = 'e' :: integerText exponent) :
    readDigits? negative (Nat.toDigits 10 n ++ tail)
      = if tail.isEmpty && !(negative && n == 0) then
          some (integer (if negative then -(n : Int) else n))
        else some (decimal negative n exponent) := by
  have hsplit : Decimal.splitMantissa (Nat.toDigits 10 n ++ tail)
      = (Nat.toDigits 10 n, [], tail) := by
    refine splitMantissa_toDigits n fun c hc => ?_
    rcases htail with ⟨rfl, -⟩ | rfl
    · cases hc
    · obtain rfl : 'e' = c := Option.some.inj hc
      decide
  have hexponent : Decimal.readExponent? tail = some exponent := by
    rcases htail with ⟨rfl, rfl⟩ | rfl
    · rfl
    · exact readExponent?_integerText exponent
  have hwhole : (!(Nat.toDigits 10 n).isEmpty
      && ((Nat.toDigits 10 n).length == 1 || (Nat.toDigits 10 n).head? != some '0')) = true := by
    rcases Nat.eq_zero_or_pos n with rfl | hpos
    · rfl
    · simp [Nat.toDigits_ne_nil, head?_toDigits_ne hpos]
  have hpoint : (Nat.toDigits 10 n ++ tail).contains '.' = false := by
    have htail : '.' ∉ tail := by
      rcases htail with ⟨rfl, -⟩ | rfl
      · exact List.not_mem_nil
      · simpa using point_notMem_integerText exponent
    simp [point_notMem_toDigits, htail]
  rw [readDigits?, hsplit]
  simp only [hwhole, hpoint, hexponent, List.append_nil, digitsValue_toDigits]
  show (if _ then _ else some (decimal negative n (exponent - 0))) = _
  rw [Int.sub_zero]
  rfl

/-- **A number** is read back. -/
theorem readNumeral?_integerText (n : Int) : readNumeral? (integerText n) = some (integer n) := by
  have hdigits (negative : Bool) := readDigits?_toDigits negative n.natAbs (.inl ⟨rfl, rfl⟩)
  rw [integerText]
  split
  · next hneg =>
    have hzero : (n.natAbs == 0) = false := by simpa using hneg.ne
    rw [readNumeral?, ← List.append_nil (Nat.toDigits _ _), hdigits, hzero]
    show some (integer (-(n.natAbs : Int))) = _
    congr
    omega
  · rw [← List.append_nil (Nat.toDigits _ _), readNumeral?_toDigits, hdigits]
    show some (integer (n.natAbs : Int)) = _
    congr
    omega

theorem readNumeral?_decimalText (negative : Bool) (digits : Nat) (exponent : Int) :
    readNumeral? (decimalText negative digits exponent)
      = some (decimal negative digits exponent) := by
  have hdigits :=
    readDigits?_toDigits negative digits (.inr rfl : _ ∨ _ = 'e' :: integerText exponent)
  cases negative with
  | true => exact hdigits
  | false => exact (readNumeral?_toDigits _ _).trans hdigits

/-! ### Values -/

theorem isNumeric_of_isDigit (h : c.isDigit = true) : isNumeric c = true := by
  simp [isNumeric, h]

theorem isNumeric_of_mem_integerText {n : Int} (h : c ∈ integerText n) : isNumeric c = true := by
  rw [integerText] at h
  split at h
  · rcases List.mem_cons.mp h with rfl | h
    · rfl
    · exact isNumeric_of_isDigit (isDigit_of_mem_toDigits h)
  · exact isNumeric_of_isDigit (isDigit_of_mem_toDigits h)

theorem isNumeric_of_mem_decimalText {negative : Bool} {digits : Nat} {exponent : Int}
    (h : c ∈ decimalText negative digits exponent) : isNumeric c = true := by
  rw [decimalText] at h
  rcases List.mem_append.mp h with h | h
  · rcases List.mem_append.mp h with h | h
    · cases negative <;> cases h
      · rfl
      · contradiction
    · exact isNumeric_of_isDigit (isDigit_of_mem_toDigits h)
  · rcases List.mem_cons.mp h with rfl | h
    · rfl
    · exact isNumeric_of_mem_integerText h

theorem integerText_ne_nil (n : Int) : integerText n ≠ [] := by
  rw [integerText]
  split
  · exact List.cons_ne_nil _ _
  · exact Nat.toDigits_ne_nil

theorem decimalText_ne_nil (negative : Bool) (digits : Nat) (exponent : Int) :
    decimalText negative digits exponent ≠ [] := by
  simp [decimalText]

/-- What follows does not go on with a number. -/
def Stops (cs : List Char) : Prop := ∀ c ∈ cs.head?, isNumeric c = false

theorem stops_nil : Stops [] := by
  rintro c ⟨⟩

theorem stops_cons (h : isNumeric c = false) (cs : List Char) : Stops (c :: cs) := by
  rintro d ⟨⟩
  exact h

theorem isSpace_of_isNumeric (h : isNumeric c = true) : isSpace c = false := by
  rw [Bool.eq_false_iff]
  intro hspace
  simp only [isSpace, Bool.or_eq_true, decide_eq_true_eq] at hspace
  rcases hspace with ((rfl | rfl) | rfl) | rfl <;> exact absurd h (by decide)

/-- A number ends where the text does not go on with one. -/
theorem readValue?_numeral {text : List Char} (hstart : text ≠ [])
    (htext : ∀ c ∈ text, isNumeric c = true) (hrest : Stops rest) (fuel : Nat) :
    readValue? (fuel + 1) (text ++ rest) = (readNumeral? text).map fun n => (n, rest) := by
  have hends : rest.takeWhile isNumeric = [] ∧ rest.dropWhile isNumeric = rest := by
    rcases rest with _ | ⟨c, cs⟩
    · exact ⟨rfl, rfl⟩
    · have hc := Bool.eq_false_iff.mp (hrest c rfl)
      exact ⟨List.takeWhile_cons_of_neg hc, List.dropWhile_cons_of_neg hc⟩
  have htake : (text ++ rest).takeWhile isNumeric = text := by
    rw [List.takeWhile_append_of_pos htext, hends.1, List.append_nil]
  have hdrop : (text ++ rest).dropWhile isNumeric = rest := by
    rw [List.dropWhile_append_of_pos htext, hends.2]
  obtain ⟨c, cs, rfl⟩ := List.exists_cons_of_ne_nil hstart
  have hc := htext c List.mem_cons_self
  rw [readValue?, List.cons_append, skipSpace_cons (isSpace_of_isNumeric hc)]
  -- no other value starts with a character of a number
  split
  iterate 6
    next heq =>
      cases heq
      exact absurd hc (by decide)
  · rw [← List.cons_append, htake, hdrop]

/-- A value starts with a character that is not white space and does not end an array. -/
theorem exists_compact_eq_cons (j : Json) :
    ∃ c cs, j.compact = c :: cs ∧ isSpace c = false ∧ c ≠ ']' := by
  have hnumeral {text : List Char} (hstart : text ≠ []) (htext : ∀ c ∈ text, isNumeric c = true) :
      ∃ c cs, text = c :: cs ∧ isSpace c = false ∧ c ≠ ']' := by
    obtain ⟨c, cs, rfl⟩ := List.exists_cons_of_ne_nil hstart
    have hc := htext c List.mem_cons_self
    refine ⟨c, cs, rfl, isSpace_of_isNumeric hc, ?_⟩
    rintro rfl
    exact absurd hc (by decide)
  cases j with
  | null => exact ⟨_, _, rfl, by decide, by decide⟩
  | bool b => cases b <;> exact ⟨_, _, rfl, by decide, by decide⟩
  | integer n =>
    rw [compact]
    exact hnumeral (integerText_ne_nil n) fun _ => isNumeric_of_mem_integerText
  | decimal negative digits exponent =>
    rw [compact]
    exact hnumeral (decimalText_ne_nil negative digits exponent)
      fun _ => isNumeric_of_mem_decimalText
  | string s => exact ⟨_, _, by rw [compact, quote, List.cons_append], by decide, by decide⟩
  | array items => exact ⟨_, _, by rw [compact, List.cons_append], by decide, by decide⟩
  | object members => exact ⟨_, _, by rw [compact, List.cons_append], by decide, by decide⟩

section Steps

variable {fuel : Nat} {tail : List Char} {name : String} {value : Json} {values : List Json}
  {members : List (String × Json)}

theorem readValue?_items (hspace : isSpace c = false) (hclose : c ≠ ']') (fuel : Nat)
    (cs : List Char) : readValue? (fuel + 1) ('[' :: c :: cs)
      = (readItems? fuel (c :: cs)).map fun (items, rest) => (array items, rest) := by
  rw [readValue?, skipSpace_cons rfl]
  simp only [skipSpace_cons hspace]
  split
  · next heq =>
    cases heq
    exact absurd rfl hclose
  · rfl

theorem readValue?_members (fuel : Nat) (cs : List Char) :
    readValue? (fuel + 1) ('\x7b' :: '"' :: cs)
      = (readMembers? fuel ('"' :: cs)).map fun (members, rest) => (object members, rest) := by
  rw [readValue?, skipSpace_cons rfl]
  simp only [skipSpace_cons (rfl : isSpace '"' = false)]
  rfl

theorem readItems?_last (h : readValue? fuel cs = some (value, ']' :: rest)) :
    readItems? (fuel + 1) cs = some ([value], rest) := by
  rw [readItems?, h]
  simp [skipSpace_cons (rfl : isSpace ']' = false)]

theorem readItems?_cons (h : readValue? fuel cs = some (value, ',' :: tail))
    (htail : readItems? fuel tail = some (values, rest)) :
    readItems? (fuel + 1) cs = some (value :: values, rest) := by
  rw [readItems?, h]
  simp [skipSpace_cons (rfl : isSpace ',' = false), htail]

theorem skipSpace_quote (s : String) (cs : List Char) :
    skipSpace (quote s ++ cs) = quote s ++ cs :=
  skipSpace_cons rfl _

theorem readMembers?_last (h : readValue? fuel cs = some (value, '\x7d' :: rest)) :
    readMembers? (fuel + 1) (quote name ++ ':' :: cs) = some ([(name, value)], rest) := by
  rw [readMembers?, skipSpace_quote, readString?_quote]
  simp [skipSpace_cons (rfl : isSpace ':' = false),
    skipSpace_cons (rfl : isSpace '\x7d' = false), h]

theorem readMembers?_cons (h : readValue? fuel cs = some (value, ',' :: tail))
    (htail : readMembers? fuel tail = some (members, rest)) :
    readMembers? (fuel + 1) (quote name ++ ':' :: cs) = some ((name, value) :: members, rest) := by
  rw [readMembers?, skipSpace_quote, readString?_quote]
  simp [skipSpace_cons (rfl : isSpace ':' = false), skipSpace_cons (rfl : isSpace ',' = false), h,
    htail]

end Steps

/-- Several items start with the first of them. -/
theorem exists_compactItems_eq_append (item : Json) (items : List Json) :
    ∃ more, compactItems (item :: items) = item.compact ++ more := by
  cases items with
  | nil => exact ⟨[], by simp only [compactItems, List.append_nil]⟩
  | cons other items => exact ⟨',' :: compactItems (other :: items), by simp only [compactItems]⟩

/-- Several members start with the name of the first of them. -/
theorem exists_compactMembers_eq_cons (member : String × Json) (members : List (String × Json)) :
    ∃ more, compactMembers (member :: members) = '"' :: more := by
  refine ⟨(compactMembers (member :: members)).tail, ?_⟩
  cases members with
  | nil => simp only [compactMembers, quote, List.cons_append, List.tail_cons]
  | cons other members => simp only [compactMembers, quote, List.cons_append, List.tail_cons]

theorem length_compact_pos (j : Json) : 0 < j.compact.length := by
  obtain ⟨c, cs, hstart, -⟩ := j.exists_compact_eq_cons
  rw [hstart]
  exact Nat.succ_pos _

mutual

/-- **The text of a value** is read as the value, with what follows it. -/
theorem readValue?_compact : (j : Json) → (rest : List Char) → Stops rest → (fuel : Nat) →
    j.compact.length ≤ fuel + 1 → readValue? (fuel + 1) (j.compact ++ rest) = some (j, rest)
  | null, rest, _, fuel, _ => by
    rw [compact, readValue?]
    rfl
  | bool true, rest, _, fuel, _ => by
    rw [compact, readValue?]
    rfl
  | bool false, rest, _, fuel, _ => by
    rw [compact, readValue?]
    rfl
  | integer n, rest, hrest, fuel, _ => by
    have hnumeral := readValue?_numeral (integerText_ne_nil n)
      (fun _ => isNumeric_of_mem_integerText) hrest fuel
    rw [readNumeral?_integerText] at hnumeral
    rwa [compact]
  | decimal negative digits exponent, rest, hrest, fuel, _ => by
    have hnumeral := readValue?_numeral (decimalText_ne_nil negative digits exponent)
      (fun _ => isNumeric_of_mem_decimalText) hrest fuel
    rw [readNumeral?_decimalText] at hnumeral
    rwa [compact]
  | string s, rest, _, fuel, _ => by
    rw [compact, quote_append, readValue?, skipSpace_cons rfl]
    show (readString? _).map _ = _
    rw [← quote_append, readString?_quote]
    rfl
  | array [], rest, _, fuel, _ => by
    rw [compact, compactItems, readValue?]
    rfl
  | array (item :: items), rest, _, fuel, hfuel => by
    rw [compact] at hfuel ⊢
    simp only [List.length_append, List.length_cons, List.length_nil] at hfuel
    obtain ⟨fuel, rfl⟩ := Nat.exists_eq_add_one_of_ne_zero (by omega : fuel ≠ 0)
    have hread := readItems?_compactItems (item :: items) (List.cons_ne_nil _ _) rest fuel
      (by omega)
    obtain ⟨c, cs, hstart, hspace, hclose⟩ := item.exists_compact_eq_cons
    obtain ⟨more, hitems⟩ := exists_compactItems_eq_append item items
    rw [hitems, hstart] at hread ⊢
    simp only [List.cons_append, List.append_assoc, List.nil_append] at hread ⊢
    rw [readValue?_items hspace hclose, hread]
    rfl
  | object [], rest, _, fuel, _ => by
    rw [compact, compactMembers, readValue?]
    rfl
  | object (member :: members), rest, _, fuel, hfuel => by
    rw [compact] at hfuel ⊢
    simp only [List.length_append, List.length_cons, List.length_nil] at hfuel
    obtain ⟨fuel, rfl⟩ := Nat.exists_eq_add_one_of_ne_zero (by omega : fuel ≠ 0)
    have hread := readMembers?_compactMembers (member :: members) (List.cons_ne_nil _ _) rest fuel
      (by omega)
    obtain ⟨more, hmembers⟩ := exists_compactMembers_eq_cons member members
    rw [hmembers] at hread ⊢
    simp only [List.cons_append, List.append_assoc, List.nil_append] at hread ⊢
    rw [readValue?_members, hread]
    rfl

theorem readItems?_compactItems : (items : List Json) → items ≠ [] → (rest : List Char) →
    (fuel : Nat) → (compactItems items).length ≤ fuel →
    readItems? (fuel + 1) (compactItems items ++ ']' :: rest) = some (items, rest)
  | [], hnil, _, _, _ => absurd rfl hnil
  | [item], _, rest, fuel, hfuel => by
    have hpos := item.length_compact_pos
    rw [compactItems] at hfuel ⊢
    obtain ⟨fuel, rfl⟩ := Nat.exists_eq_add_one_of_ne_zero (by omega : fuel ≠ 0)
    exact readItems?_last (readValue?_compact item _ (stops_cons rfl _) fuel hfuel)
  | item :: other :: items, _, rest, fuel, hfuel => by
    have hpos := item.length_compact_pos
    have htext : compactItems (item :: other :: items) ++ ']' :: rest
        = item.compact ++ ',' :: (compactItems (other :: items) ++ ']' :: rest) := by
      simp only [compactItems, List.append_assoc, List.cons_append]
    simp only [compactItems, List.length_append, List.length_cons] at hfuel
    obtain ⟨fuel, rfl⟩ := Nat.exists_eq_add_one_of_ne_zero (by omega : fuel ≠ 0)
    rw [htext]
    exact readItems?_cons (readValue?_compact item _ (stops_cons rfl _) fuel (by omega))
      (readItems?_compactItems (other :: items) (List.cons_ne_nil _ _) rest fuel (by omega))

theorem readMembers?_compactMembers : (members : List (String × Json)) → members ≠ [] →
    (rest : List Char) → (fuel : Nat) → (compactMembers members).length ≤ fuel →
    readMembers? (fuel + 1) (compactMembers members ++ '\x7d' :: rest) = some (members, rest)
  | [], hnil, _, _, _ => absurd rfl hnil
  | [(name, value)], _, rest, fuel, hfuel => by
    have htext : compactMembers [(name, value)] ++ '\x7d' :: rest
        = quote name ++ ':' :: (value.compact ++ '\x7d' :: rest) := by
      simp only [compactMembers, List.append_assoc, List.cons_append]
    simp only [compactMembers, List.length_append, List.length_cons] at hfuel
    obtain ⟨fuel, rfl⟩ := Nat.exists_eq_add_one_of_ne_zero (by omega : fuel ≠ 0)
    rw [htext]
    exact readMembers?_last (readValue?_compact value _ (stops_cons rfl _) fuel (by omega))
  | (name, value) :: other :: members, _, rest, fuel, hfuel => by
    have htext : compactMembers ((name, value) :: other :: members) ++ '\x7d' :: rest
        = quote name ++ ':' :: (value.compact
          ++ ',' :: (compactMembers (other :: members) ++ '\x7d' :: rest)) := by
      simp only [compactMembers, List.append_assoc, List.cons_append]
    simp only [compactMembers, List.length_append, List.length_cons] at hfuel
    obtain ⟨fuel, rfl⟩ := Nat.exists_eq_add_one_of_ne_zero (by omega : fuel ≠ 0)
    rw [htext]
    exact readMembers?_cons (readValue?_compact value _ (stops_cons rfl _) fuel (by omega))
      (readMembers?_compactMembers (other :: members) (List.cons_ne_nil _ _) rest fuel (by omega))

end

/-- **What has been written** is read back. -/
theorem read?_text (j : Json) : read? j.text = some j := by
  have hvalue := readValue?_compact j [] stops_nil (2 * j.compact.length) (by omega)
  rw [List.append_nil] at hvalue
  rw [read?, text, String.toList_ofList]
  show (readValue? (2 * j.compact.length + 1) j.compact >>= _) = _
  rw [hvalue]
  rfl

/-- No two values have the same text. -/
theorem text_injective : Function.Injective text := by
  intro i j h
  have hi := read?_text i
  rw [h, read?_text] at hi
  exact (Option.some.inj hi).symm

end IntentGrammar.Json
