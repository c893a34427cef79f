import Mathlib.Data.List.Basic
import Mathlib.Data.List.Perm.Basic

/-!
# Interleavings

To interleave lists is to take from the front of any of them as long as there is something left.
The members of each list stay in order, and nothing else is kept.

Suppose members of different lists can be told apart by a key.  Then each list can be read off from
all of them put together (`filter_flatMap_eq`) and from an interleaving (`Interleaves.filter_eq`),
and so can whatever is accumulated in steps whose order matters only between equal keys
(**`Interleaves.foldl_eq`**).
-/

namespace IntentGrammar

variable {α β κ : Type}

/-- A list takes the members of lists in turn, those of each list in order. -/
inductive Interleaves : List (List α) → List α → Prop
  | done {lists : List (List α)} : (∀ l ∈ lists, l = []) → Interleaves lists []
  | take {before after : List (List α)} {l log : List α} {a : α} :
      Interleaves (before ++ l :: after) log → Interleaves (before ++ (a :: l) :: after) (a :: log)

namespace Interleaves

variable {lists : List (List α)} {log : List α}

/-- Every member of a list is taken just once. -/
theorem perm (h : Interleaves lists log) : log.Perm lists.flatten := by
  induction h with
  | done hempty => rw [List.flatten_eq_nil_iff.mpr hempty]
  | @take before after l log a _ ih =>
    rw [List.flatten_append, List.flatten_cons] at ih ⊢
    exact (ih.cons a).trans List.perm_middle.symm

end Interleaves

/-! ### Members told apart by a key -/

theorem filter_key_eq_nil [DecidableEq κ] {key : α → κ} {k : κ} {as : List α}
    (h : ∀ a ∈ as, key a ≠ k) : as.filter (key · = k) = [] :=
  List.filter_eq_nil_iff.mpr fun a ha => by simpa using h a ha

/-- Of lists that are put together, each marked with a name of its own, the members with a name make
up one of the lists. -/
theorem filter_flatMap_eq [DecidableEq κ] (f : α → List β) (key : β → κ) (name : α → κ)
    {as : List α} (hkey : ∀ a ∈ as, ∀ b ∈ f a, key b = name a) (hnames : (as.map name).Nodup)
    {a : α} (ha : a ∈ as) : (as.flatMap f).filter (key · = name a) = f a := by
  induction as with
  | nil => cases ha
  | cons a' as ih =>
    rw [List.map_cons, List.nodup_cons] at hnames
    obtain ⟨hnew, hnames⟩ := hnames
    obtain ⟨hhead, htail⟩ := List.forall_mem_cons.mp hkey
    have hne : ∀ c ∈ as, name c ≠ name a' := fun c hc heq => hnew (heq ▸ List.mem_map_of_mem hc)
    rw [List.flatMap_cons, List.filter_append]
    rcases List.mem_cons.mp ha with rfl | ha
    · -- all of the first list have its name, and none of the others
      have hfirst : (f a).filter (key · = name a) = f a :=
        List.filter_eq_self.mpr fun b hb => by simpa using hhead b hb
      rw [hfirst, filter_key_eq_nil, List.append_nil]
      intro b hb
      obtain ⟨c, hc, hb⟩ := List.mem_flatMap.mp hb
      rw [htail c hc b hb]
      exact hne c hc
    · rw [filter_key_eq_nil, List.nil_append]
      · exact ih htail hnames ha
      · intro b hb
        rw [hhead b hb]
        exact (hne a ha).symm

/-- Members of different lists have different keys. -/
def Apart (key : α → κ) (lists : List (List α)) : Prop :=
  lists.Pairwise fun l l' => ∀ a ∈ l, ∀ b ∈ l', key a ≠ key b

variable {key : α → κ} {lists : List (List α)} {log : List α}

theorem Apart.tail {before after : List (List α)} {l : List α} {a : α}
    (h : Apart key (before ++ (a :: l) :: after)) : Apart key (before ++ l :: after) := by
  rw [Apart, List.pairwise_append, List.pairwise_cons] at h ⊢
  obtain ⟨hbefore, ⟨hl, hafter⟩, hacross⟩ := h
  refine ⟨hbefore, ⟨fun l' hl' b hb => hl l' hl' b (List.mem_cons_of_mem a hb), hafter⟩, ?_⟩
  intro l₁ hl₁ l₂ hl₂
  rcases List.mem_cons.mp hl₂ with rfl | hl₂
  · exact fun b hb c hc => hacross l₁ hl₁ _ List.mem_cons_self b hb c (List.mem_cons_of_mem a hc)
  · exact hacross l₁ hl₁ l₂ (List.mem_cons_of_mem _ hl₂)

/-- The next member of a list has another key than what the lists before have left. -/
theorem Apart.ne_of_mem_before {before after : List (List α)} {l : List α} {a : α}
    (h : Apart key (before ++ (a :: l) :: after)) : ∀ b ∈ before.flatten, key b ≠ key a := by
  intro b hb
  obtain ⟨l', hl', hb⟩ := List.mem_flatten.mp hb
  exact (List.pairwise_append.mp h).2.2 l' hl' _ List.mem_cons_self b hb a List.mem_cons_self

/-- A step can be put off until after steps with other keys. -/
theorem foldl_step_comm {f : β → α → β}
    (hf : ∀ s a b, key a ≠ key b → f (f s a) b = f (f s b) a) {a : α} {bs : List α}
    (hne : ∀ b ∈ bs, key b ≠ key a) (s : β) : bs.foldl f (f s a) = f (bs.foldl f s) a := by
  induction bs generalizing s with
  | nil => rfl
  | cons b bs ih =>
    obtain ⟨hb, hbs⟩ := List.forall_mem_cons.mp hne
    rw [List.foldl_cons, List.foldl_cons, hf s a b hb.symm, ih hbs]

/-- **What steps come to** that can be exchanged when their keys are different is the same for every
interleaving of lists that are apart. -/
theorem Interleaves.foldl_eq (h : Interleaves lists log) (hapart : Apart key lists)
    {f : β → α → β} (hf : ∀ s a b, key a ≠ key b → f (f s a) b = f (f s b) a) (s : β) :
    log.foldl f s = lists.flatten.foldl f s := by
  induction h generalizing s with
  | done hempty => rw [List.flatten_eq_nil_iff.mpr hempty]
  | @take before after l log a _ ih =>
    rw [List.foldl_cons, ih hapart.tail]
    -- the step for `a` goes behind those of the lists before
    simp only [List.flatten_append, List.flatten_cons, List.foldl_append, List.cons_append,
      List.foldl_cons]
    rw [foldl_step_comm hf hapart.ne_of_mem_before]

/-- The members with one key are the same in every interleaving. -/
theorem Interleaves.filter_eq [DecidableEq κ] (h : Interleaves lists log)
    (hapart : Apart key lists) (k : κ) :
    log.filter (key · = k) = lists.flatten.filter (key · = k) := by
  induction h with
  | done hempty => rw [List.flatten_eq_nil_iff.mpr hempty]
  | @take before after l log a _ ih =>
    simp only [List.flatten_append, List.flatten_cons, List.filter_append, List.cons_append] at ih ⊢
    by_cases hk : key a = k
    · -- nothing before has the key of `a`
      have hbefore : before.flatten.filter (key · = k) = [] :=
        filter_key_eq_nil fun b hb => hk ▸ hapart.ne_of_mem_before b hb
      rw [List.filter_cons_of_pos (by simpa using hk), List.filter_cons_of_pos (by simpa using hk),
        ih hapart.tail, hbefore, List.nil_append, List.nil_append, List.filter_append]
    · rw [List.filter_cons_of_neg (by simpa using hk), List.filter_cons_of_neg (by simpa using hk),
        ih hapart.tail, List.filter_append]

end IntentGrammar
