import IntentGrammar.Grammar.Sentence
import Mathlib.Data.List.Basic

/-!
# Where brackets fit

Brackets fit in a text if every opening one follows the mark of a group and is closed before any
other opens, every closing one closes such a bracket, and what they enclose is what the mark allows
(`BracketsFit`).  This is said of all places in the text at once.

A text is read from left to right, so it is cut into characters and groups: the brackets of a text
fit if they fit in what is cut off and in the rest, wherever no bracket is torn from its mark or
from the one that closes it (**`bracketsFit_append_iff`**).
-/

namespace IntentGrammar

open Text

/-! ### Groups -/

/-- The text has no brackets. -/
def Plain (cs : List Char) : Prop := ∀ c ∈ cs, isPlain c = true

instance (cs : List Char) : Decidable (Plain cs) :=
  decidable_of_iff (cs.all isPlain = true) List.all_eq_true

namespace Mark

/-- The character of a mark. -/
def sigil : Mark → Char
  | .alias => '~'
  | slot => '@'
  | optional => '?'

/-- What may stand between the brackets of a group: a reference, or words. -/
def Allows (body : List Char) : Mark → Prop
  | .alias | slot => ∃ label, Label.read body = .ok label
  | optional => ∃ c ∈ body, isBlank c = false

/-- The characters of a group. -/
def group (mark : Mark) (body : List Char) : List Char := mark.sigil :: '[' :: body ++ [']']

theorem ofChar?_eq_some_iff {c : Char} {mark : Mark} : ofChar? c = some mark ↔ c = mark.sigil := by
  constructor
  · intro h
    rw [ofChar?] at h
    split at h
    · cases h
      assumption
    · split at h
      · cases h
        assumption
      · split at h
        · cases h
          assumption
        · cases h
  · rintro rfl
    cases mark <;> rfl

theorem isPlain_sigil (mark : Mark) : isPlain mark.sigil = true := by cases mark <;> rfl

theorem sigil_ne_of_not_plain (mark : Mark) {c : Char} (hc : isPlain c = false) :
    c ≠ mark.sigil := by
  rintro rfl
  rw [mark.isPlain_sigil] at hc
  cases hc

theorem sigil_injective : Function.Injective sigil := by
  intro mark mark' h
  cases mark <;> cases mark' <;> first | rfl | cases h

end Mark

theorem isPlain_eq_false_iff {c : Char} : isPlain c = false ↔ c = '[' ∨ c = ']' := by
  simp [isPlain, or_iff_not_imp_left]

theorem isPlain_iff {c : Char} : isPlain c = true ↔ c ≠ '[' ∧ c ≠ ']' := by
  simp [isPlain]

theorem Plain.notMem {cs : List Char} (h : Plain cs) {c : Char} (hc : isPlain c = false) :
    c ∉ cs := by
  intro hmem
  rw [h c hmem] at hc
  cases hc

theorem plain_cons {c : Char} {cs : List Char} : Plain (c :: cs) ↔ isPlain c = true ∧ Plain cs :=
  List.forall_mem_cons

theorem plain_append {xs ys : List Char} : Plain (xs ++ ys) ↔ Plain xs ∧ Plain ys :=
  List.forall_mem_append

theorem plain_of_notMem {cs : List Char} (hopen : '[' ∉ cs) (hclose : ']' ∉ cs) : Plain cs :=
  fun _ hc => isPlain_iff.mpr ⟨ne_of_mem_of_not_mem hc hopen, ne_of_mem_of_not_mem hc hclose⟩

/-! ### All places of a text -/

/-- The brackets in a text fit. -/
structure BracketsFit (cs : List Char) : Prop where
  /-- An opening bracket follows a mark, -/
  marked (before behind : List Char) : cs = before ++ '[' :: behind →
    ∃ front, ∃ mark : Mark, before = front ++ [mark.sigil]
  /-- and the next bracket closes it. -/
  closed (before behind : List Char) : cs = before ++ '[' :: behind →
    ∃ body rest, behind = body ++ ']' :: rest ∧ Plain body
  /-- A closing bracket closes such a bracket. -/
  opened (before behind : List Char) : cs = before ++ ']' :: behind →
    ∃ front body, before = front ++ '[' :: body ∧ Plain body
  /-- What they enclose is allowed. -/
  allowed (front : List Char) (mark : Mark) (body rest : List Char) :
    cs = front ++ (mark.group body ++ rest) → Plain body → mark.Allows body

/-- A place in two texts put together is one in the first or in the second. -/
theorem append_eq_append_cons_iff {α : Type} {xs ys before behind : List α} {x : α} :
    xs ++ ys = before ++ x :: behind ↔
      (∃ t, xs = before ++ x :: t ∧ behind = t ++ ys) ∨
        ∃ t, before = xs ++ t ∧ ys = t ++ x :: behind := by
  constructor
  · intro h
    rcases List.append_eq_append_iff.mp h with ⟨t, hbefore, hys⟩ | ⟨t, hxs, hbehind⟩
    · exact .inr ⟨t, hbefore, hys⟩
    · rcases t with _ | ⟨x', t⟩
      · rw [List.append_nil] at hxs
        exact .inr ⟨[], by rw [hxs, List.append_nil], hbehind.symm⟩
      · rw [List.cons_append] at hbehind
        obtain ⟨rfl, rfl⟩ := List.cons.inj hbehind
        exact .inl ⟨t, hxs, rfl⟩
  · rintro (⟨t, rfl, rfl⟩ | ⟨t, rfl, rfl⟩) <;> simp

/-- Behind plain text the first bracket can be told. -/
theorem eq_of_plain_append {bracket : Char} (hbracket : isPlain bracket = false)
    {text text' rest rest' : List Char} (htext : Plain text) (htext' : Plain text')
    (h : text ++ bracket :: rest = text' ++ bracket :: rest') : text = text' ∧ rest = rest' := by
  rcases append_eq_append_cons_iff.mp h with ⟨t, rfl, -⟩ | ⟨t, rfl, ht⟩
  · exact absurd (by simp) (htext.notMem hbracket)
  · rcases t with _ | ⟨c, t⟩
    · exact ⟨(List.append_nil text).symm, (List.cons.inj ht).2⟩
    · obtain ⟨rfl, -⟩ := List.cons.inj ht
      exact absurd (by simp) (htext'.notMem hbracket)

/-- A bracket is closed by the next closing one. -/
theorem body_eq_of_plain {body body' rest rest' : List Char} (hbody : Plain body)
    (hbody' : Plain body') (h : body ++ ']' :: rest = body' ++ ']' :: rest') :
    body = body' ∧ rest = rest' :=
  eq_of_plain_append rfl hbody hbody' h

/-- A text without brackets. -/
theorem bracketsFit_of_plain {cs : List Char} (h : Plain cs) : BracketsFit cs where
  marked := by
    rintro before behind rfl
    exact absurd (by simp) (h.notMem (c := '[') rfl)
  closed := by
    rintro before behind rfl
    exact absurd (by simp) (h.notMem (c := '[') rfl)
  opened := by
    rintro before behind rfl
    exact absurd (by simp) (h.notMem (c := ']') rfl)
  allowed := by
    rintro front mark body rest rfl
    exact absurd (by simp [Mark.group]) (h.notMem (c := '[') rfl)

section Append

variable {xs ys : List Char}
  (hclosed : ∀ before behind, xs = before ++ '[' :: behind →
    ∃ body rest, behind = body ++ ']' :: rest ∧ Plain body)
  (hseam : ∀ front (mark : Mark) rest, xs = front ++ [mark.sigil] → ys ≠ '[' :: rest)

include hclosed in
theorem BracketsFit.of_append_left (h : BracketsFit (xs ++ ys)) : BracketsFit xs where
  marked := by
    rintro before behind rfl
    exact h.marked before (behind ++ ys) (by simp)
  closed := hclosed
  opened := by
    rintro before behind rfl
    exact h.opened before (behind ++ ys) (by simp)
  allowed := by
    rintro front mark body rest rfl hbody
    exact h.allowed front mark body (rest ++ ys) (by simp) hbody

include hclosed hseam in
theorem BracketsFit.of_append_right (h : BracketsFit (xs ++ ys)) : BracketsFit ys where
  marked := by
    rintro before behind rfl
    obtain ⟨front, mark, hmark⟩ := h.marked (xs ++ before) behind (by simp)
    rcases List.eq_nil_or_concat before with rfl | ⟨before, c, rfl⟩
    · rw [List.append_nil] at hmark
      exact absurd rfl (hseam front mark behind hmark)
    · rw [List.concat_eq_append, ← List.append_assoc] at hmark
      obtain ⟨-, hc⟩ := List.append_inj' hmark rfl
      exact ⟨before, mark, by rw [List.concat_eq_append, hc]⟩
  closed := by
    rintro before behind rfl
    exact h.closed (xs ++ before) behind (by simp)
  opened := by
    rintro before behind rfl
    obtain ⟨front, body, hfront, hbody⟩ := h.opened (xs ++ before) behind (by simp)
    rcases append_eq_append_cons_iff.mp hfront with ⟨t, hxs, rfl⟩ | ⟨t, rfl, rfl⟩
    · -- a bracket of the first text is closed before this one
      obtain ⟨body', rest, rfl, -⟩ := hclosed front t hxs
      exact absurd (by simp) (hbody.notMem (c := ']') rfl)
    · exact ⟨t, body, rfl, hbody⟩
  allowed := by
    rintro front mark body rest rfl hbody
    exact h.allowed (xs ++ front) mark body rest (by simp) hbody

include hclosed hseam in
theorem BracketsFit.append (hxs : BracketsFit xs) (hys : BracketsFit ys) :
    BracketsFit (xs ++ ys) where
  marked := by
    intro before behind heq
    rcases append_eq_append_cons_iff.mp heq with ⟨t, hleft, -⟩ | ⟨t, rfl, hright⟩
    · exact hxs.marked before t hleft
    · obtain ⟨front, mark, rfl⟩ := hys.marked t behind hright
      exact ⟨xs ++ front, mark, by simp⟩
  closed := by
    intro before behind heq
    rcases append_eq_append_cons_iff.mp heq with ⟨t, hleft, rfl⟩ | ⟨t, -, hright⟩
    · obtain ⟨body, rest, rfl, hbody⟩ := hclosed before t hleft
      exact ⟨body, rest ++ ys, by simp, hbody⟩
    · exact hys.closed t behind hright
  opened := by
    intro before behind heq
    rcases append_eq_append_cons_iff.mp heq with ⟨t, hleft, -⟩ | ⟨t, rfl, hright⟩
    · exact hxs.opened before t hleft
    · obtain ⟨front, body, rfl, hbody⟩ := hys.opened t behind hright
      exact ⟨xs ++ front, body, by simp, hbody⟩
  allowed := by
    intro front mark body rest heq hbody
    have hbracket : xs ++ ys = (front ++ [mark.sigil]) ++ '[' :: (body ++ ']' :: rest) := by
      rw [heq]
      simp [Mark.group]
    rcases append_eq_append_cons_iff.mp hbracket with ⟨t, hleft, ht⟩ | ⟨t, hfront, hright⟩
    · -- the bracket is closed in the first text, and no other is in between
      obtain ⟨body', rest', rfl, hbody'⟩ := hclosed _ t hleft
      rw [List.append_assoc, List.cons_append] at ht
      obtain ⟨rfl, -⟩ := body_eq_of_plain hbody hbody' ht
      exact hxs.allowed front mark body rest' (by rw [hleft]; simp [Mark.group]) hbody
    · -- the mark stands before the bracket, and so in the same text
      rcases List.eq_nil_or_concat t with rfl | ⟨t, c, rfl⟩
      · rw [List.append_nil] at hfront
        exact absurd hright (hseam front mark _ hfront.symm)
      · rw [List.concat_eq_append, ← List.append_assoc] at hfront
        obtain ⟨-, hc⟩ := List.append_inj' hfront rfl
        obtain rfl := List.singleton_inj.mp hc
        exact hys.allowed t mark body rest (by rw [hright]; simp [Mark.group]) hbody

include hclosed hseam in
/-- **The brackets fit in two texts put together** if they fit in both, given that no opening
bracket of the first is closed in the second and none of the second has its mark in the first. -/
theorem bracketsFit_append_iff : BracketsFit (xs ++ ys) ↔ BracketsFit xs ∧ BracketsFit ys :=
  ⟨fun h => ⟨h.of_append_left hclosed, h.of_append_right hclosed hseam⟩,
    fun ⟨hxs, hys⟩ => hxs.append hclosed hseam hys⟩

end Append

/-! ### From left to right -/

/-- A character that is no bracket, and has none behind it. -/
theorem bracketsFit_cons_iff {c : Char} {rest : List Char} (hc : isPlain c = true)
    (hrest : rest.head? ≠ some '[') : BracketsFit (c :: rest) ↔ BracketsFit rest := by
  have hplain : Plain [c] := plain_cons.mpr ⟨hc, nofun⟩
  have hcut : BracketsFit ([c] ++ rest) ↔ BracketsFit [c] ∧ BracketsFit rest := by
    refine bracketsFit_append_iff ?_ ?_
    · exact (bracketsFit_of_plain hplain).closed
    · rintro front mark rest - rfl
      exact hrest rfl
  rw [List.singleton_append] at hcut
  rw [hcut, and_iff_right (bracketsFit_of_plain hplain)]

/-- A group has one opening bracket. -/
theorem eq_of_group_eq {mark : Mark} {body before behind : List Char} (hbody : Plain body)
    (h : mark.group body = before ++ '[' :: behind) :
    before = [mark.sigil] ∧ behind = body ++ [']'] := by
  have hmark : '[' ∉ [mark.sigil] := by
    rw [List.mem_singleton]
    exact mark.sigil_ne_of_not_plain rfl
  have hopen : '[' ∉ body ++ [']'] := by
    rw [List.mem_append, not_or]
    exact ⟨hbody.notMem rfl, by decide⟩
  have hsplit : [mark.sigil] ++ '[' :: (body ++ [']']) = before ++ '[' :: behind := h
  obtain ⟨hbefore, -, hbehind⟩ := (List.append_cons_inj_of_notMem hmark hopen).mp hsplit
  exact ⟨hbefore.symm, hbehind.symm⟩

theorem closed_of_group_eq {mark : Mark} {body before behind : List Char} (hbody : Plain body)
    (h : mark.group body = before ++ '[' :: behind) :
    ∃ body' rest, behind = body' ++ ']' :: rest ∧ Plain body' :=
  ⟨body, [], (eq_of_group_eq hbody h).2, hbody⟩

theorem bracketsFit_group {mark : Mark} {body : List Char} (hbody : Plain body)
    (hallows : mark.Allows body) : BracketsFit (mark.group body) where
  marked := by
    intro before behind heq
    exact ⟨[], mark, (eq_of_group_eq hbody heq).1⟩
  closed := by
    intro before behind heq
    exact closed_of_group_eq hbody heq
  opened := by
    intro before behind heq
    have hfront : ']' ∉ mark.sigil :: '[' :: body := by
      rw [List.mem_cons, List.mem_cons, not_or, not_or]
      exact ⟨mark.sigil_ne_of_not_plain rfl, by decide, hbody.notMem rfl⟩
    have hsplit : (mark.sigil :: '[' :: body) ++ ']' :: [] = before ++ ']' :: behind := heq
    obtain ⟨hbefore, -, -⟩ := (List.append_cons_inj_of_notMem hfront List.not_mem_nil).mp hsplit
    exact ⟨[mark.sigil], body, hbefore.symm, hbody⟩
  allowed := by
    intro front mark' body' rest heq hbody'
    have hbracket : mark.group body
        = (front ++ [mark'.sigil]) ++ '[' :: (body' ++ ']' :: rest) := by
      rw [heq]
      simp [Mark.group]
    -- there is only one group in it
    obtain ⟨hfront, hbehind⟩ := eq_of_group_eq hbody hbracket
    obtain ⟨rfl, -⟩ := body_eq_of_plain hbody hbody' hbehind.symm
    have hsigil : [mark'.sigil] = [mark.sigil] :=
      (List.append_inj' (hfront.trans (List.nil_append _).symm) rfl).2
    rwa [Mark.sigil_injective (List.singleton_inj.mp hsigil)]

/-- A group fits if its mark allows what it encloses. -/
theorem bracketsFit_group_iff {mark : Mark} {body : List Char} (hbody : Plain body) :
    BracketsFit (mark.group body) ↔ mark.Allows body :=
  ⟨fun h => h.allowed [] mark body [] (by simp) hbody, bracketsFit_group hbody⟩

/-- A group, and what follows it. -/
theorem bracketsFit_group_append_iff {mark : Mark} {body rest : List Char} (hbody : Plain body) :
    BracketsFit (mark.group body ++ rest) ↔ mark.Allows body ∧ BracketsFit rest := by
  have hcut : BracketsFit (mark.group body ++ rest) ↔
      BracketsFit (mark.group body) ∧ BracketsFit rest := by
    refine bracketsFit_append_iff (fun _ _ => closed_of_group_eq hbody) ?_
    rintro front mark' tail heq -
    have hends : (mark.sigil :: '[' :: body) ++ [']'] = front ++ [mark'.sigil] := heq
    obtain ⟨-, hlast⟩ := List.append_inj' hends rfl
    exact mark'.sigil_ne_of_not_plain rfl (List.singleton_inj.mp hlast)
  rw [hcut, bracketsFit_group_iff hbody]

end IntentGrammar
