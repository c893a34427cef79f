import Mathlib

/-!
# Going through a list until something fails

To apply a function that may fail to all members of a list succeeds exactly if it does for each
member, and the results stand in the same order (`mapM_eq_ok_iff`).  If it fails, it is with the
failure of the first member that has one (`mapM_eq_error_iff`).  The same is said of vectors.
-/

namespace IntentGrammar

variable {ε α β : Type} {f : α → Except ε β} {e : ε}

/-! ### One thing after another -/

theorem bind_eq_ok_iff {m : Except ε α} {b : β} :
    m >>= f = .ok b ↔ ∃ a, m = .ok a ∧ f a = .ok b := by
  rcases m with e | a
  · exact ⟨nofun, nofun⟩
  · exact ⟨fun h => ⟨a, rfl, h⟩, fun ⟨_, ha, h⟩ => Except.ok.inj ha ▸ h⟩

theorem bind_eq_error_iff {m : Except ε α} :
    m >>= f = .error e ↔ m = .error e ∨ ∃ a, m = .ok a ∧ f a = .error e := by
  rcases m with e' | a
  · exact ⟨fun h => .inl (congrArg _ (Except.error.inj h)),
      fun h => h.elim (fun h => Except.error.inj h ▸ rfl) nofun⟩
  · exact ⟨fun h => .inr ⟨a, rfl, h⟩, fun h => h.elim nofun fun ⟨_, ha, h⟩ => Except.ok.inj ha ▸ h⟩

theorem ok_bind (a : α) (f : α → Except ε β) : (Except.ok a >>= f) = f a := rfl

theorem mapError_ok {ε' : Type} (g : ε → ε') (a : α) : (Except.ok a).mapError g = .ok a := rfl

theorem mapError_bind {ε' : Type} (g : ε → ε') (m : Except ε α) (f : α → Except ε β) :
    (m >>= f).mapError g = m.mapError g >>= fun a => (f a).mapError g := by
  rcases m with e | a
  · rfl
  · rfl

/-- Another wording of the failures does not change the results. -/
theorem mapError_eq_ok_iff {ε' : Type} {g : ε → ε'} {m : Except ε α} {a : α} :
    m.mapError g = .ok a ↔ m = .ok a := by
  rcases m with e | b
  · exact ⟨nofun, nofun⟩
  · exact ⟨fun h => congrArg _ (Except.ok.inj h), fun h => congrArg _ (Except.ok.inj h)⟩

theorem mapError_eq_error_iff {ε' : Type} {g : ε → ε'} {m : Except ε α} {e' : ε'} :
    m.mapError g = .error e' ↔ ∃ e, m = .error e ∧ g e = e' := by
  rcases m with e | a
  · exact ⟨fun h => ⟨e, rfl, Except.error.inj h⟩,
      fun ⟨_, he, h⟩ => by rw [← h, ← Except.error.inj he]; rfl⟩
  · exact ⟨nofun, nofun⟩

/-! ### Lists -/

theorem exists_right_of_forall₂ {R : α → β → Prop} {xs : List α} {ys : List β}
    (h : List.Forall₂ R xs ys) {x : α} (hx : x ∈ xs) : ∃ y ∈ ys, R x y := by
  induction h with
  | nil => exact absurd hx List.not_mem_nil
  | cons hxy _ ih =>
    rcases List.mem_cons.mp hx with rfl | hx
    · exact ⟨_, List.mem_cons_self, hxy⟩
    · obtain ⟨y, hy, hR⟩ := ih hx
      exact ⟨y, List.mem_cons_of_mem _ hy, hR⟩

theorem exists_left_of_forall₂ {R : α → β → Prop} {xs : List α} {ys : List β}
    (h : List.Forall₂ R xs ys) {y : β} (hy : y ∈ ys) : ∃ x ∈ xs, R x y :=
  exists_right_of_forall₂ h.flip hy

theorem mapM_eq_ok_iff {xs : List α} {ys : List β} :
    xs.mapM f = .ok ys ↔ List.Forall₂ (fun x y => f x = .ok y) xs ys := by
  induction xs generalizing ys with
  | nil =>
    rw [List.mapM_nil, List.forall₂_nil_left_iff]
    exact ⟨fun h => (Except.ok.inj h).symm, fun h => h ▸ rfl⟩
  | cons x xs ih =>
    rw [List.mapM_cons, bind_eq_ok_iff, List.forall₂_cons_left_iff]
    constructor
    · rintro ⟨y, hy, h⟩
      obtain ⟨zs, hzs, h⟩ := bind_eq_ok_iff.mp h
      obtain rfl : y :: zs = ys := Except.ok.inj h
      exact ⟨y, zs, hy, ih.mp hzs, rfl⟩
    · rintro ⟨y, zs, hy, hzs, rfl⟩
      exact ⟨y, hy, bind_eq_ok_iff.mpr ⟨zs, ih.mpr hzs, rfl⟩⟩

theorem mapM_eq_error_iff {xs : List α} :
    xs.mapM f = .error e ↔
      ∃ before x after, xs = before ++ x :: after ∧ (∀ y ∈ before, ∃ z, f y = .ok z) ∧
        f x = .error e := by
  induction xs with
  | nil =>
    rw [List.mapM_nil]
    refine ⟨nofun, ?_⟩
    rintro ⟨before, x, after, h, -⟩
    exact absurd h.symm (by simp)
  | cons x xs ih =>
    have hrest : ∀ y : β, (do let ys ← xs.mapM f; pure (y :: ys)) = Except.error e ↔
        xs.mapM f = .error e := fun y => bind_eq_error_iff.trans (or_iff_left nofun)
    rw [List.mapM_cons, bind_eq_error_iff]
    simp only [hrest, ih]
    constructor
    · rintro (hx | ⟨y, hy, before, x', after, rfl, hbefore, hx'⟩)
      · exact ⟨[], x, xs, rfl, nofun, hx⟩
      · refine ⟨x :: before, x', after, rfl, fun z hz => ?_, hx'⟩
        rcases List.mem_cons.mp hz with rfl | hz
        · exact ⟨y, hy⟩
        · exact hbefore z hz
    · rintro ⟨before, x', after, hsplit, hbefore, hx'⟩
      rcases before with _ | ⟨b, before⟩
      · obtain ⟨rfl, -⟩ := List.cons.inj hsplit
        exact .inl hx'
      · obtain ⟨rfl, rfl⟩ := List.cons.inj hsplit
        obtain ⟨y, hy⟩ := hbefore x List.mem_cons_self
        exact .inr ⟨y, hy, before, x', after, rfl,
          fun z hz => hbefore z (List.mem_cons_of_mem x hz), hx'⟩

theorem exists_mapM_eq_ok_iff {xs : List α} :
    (∃ ys, xs.mapM f = .ok ys) ↔ ∀ x ∈ xs, ∃ y, f x = .ok y := by
  constructor
  · rintro ⟨ys, h⟩ x hx
    obtain ⟨y, -, hy⟩ := exists_right_of_forall₂ (mapM_eq_ok_iff.mp h) hx
    exact ⟨y, hy⟩
  · intro h
    rcases hm : xs.mapM f with e | ys
    · obtain ⟨before, x, after, rfl, -, hx⟩ := mapM_eq_error_iff.mp hm
      obtain ⟨y, hy⟩ := h x (List.mem_append_right before List.mem_cons_self)
      rw [hx] at hy
      cases hy
    · exact ⟨ys, rfl⟩

/-- It is with the failure of some member that a traversal fails. -/
theorem exists_of_mapM_eq_error {xs : List α} (h : xs.mapM f = .error e) :
    ∃ x ∈ xs, f x = .error e := by
  obtain ⟨before, x, after, rfl, -, hx⟩ := mapM_eq_error_iff.mp h
  exact ⟨x, List.mem_append_right before List.mem_cons_self, hx⟩

/-! ### Vectors -/

variable {n : Nat} {xs : Vector α n} {ys : Vector β n}

/-- A traversal of a vector is one of its members in order. -/
theorem map_toList_mapM (f : α → Except ε β) (xs : Vector α n) :
    Vector.toList <$> xs.mapM f = xs.toList.mapM f := by
  have htoArray : Vector.toArray <$> xs.mapM f = xs.toArray.mapM f := Vector.toArray_mapM
  have h := congrArg (Array.toList <$> ·) htoArray
  simp only [Array.mapM_eq_mapM_toList, Functor.map_map, id_map'] at h
  exact h

theorem vector_mapM_eq_ok_iff : xs.mapM f = .ok ys ↔ xs.toList.mapM f = .ok ys.toList := by
  rw [← map_toList_mapM]
  rcases hm : xs.mapM f with e | zs
  · exact ⟨nofun, nofun⟩
  · constructor
    · intro h
      rw [Except.ok.inj h]
      rfl
    · intro h
      rw [Vector.toList_inj.mp (Except.ok.inj h)]

theorem vector_mapM_eq_error_iff : xs.mapM f = .error e ↔ xs.toList.mapM f = .error e := by
  rw [← map_toList_mapM]
  rcases hm : xs.mapM f with e' | zs
  · exact ⟨fun h => congrArg _ (Except.error.inj h), fun h => congrArg _ (Except.error.inj h)⟩
  · exact ⟨nofun, nofun⟩

/-- A traversal of a vector succeeds exactly if each member does. -/
theorem vector_mapM_eq_ok_iff_get :
    xs.mapM f = .ok ys ↔ ∀ i : Fin n, f (xs.get i) = .ok (ys.get i) := by
  rw [vector_mapM_eq_ok_iff, mapM_eq_ok_iff, List.forall₂_iff_get]
  constructor
  · rintro ⟨-, h⟩ i
    exact h i.val (by simp) (by simp)
  · intro h
    refine ⟨by simp, fun i hi _ => ?_⟩
    exact h ⟨i, by simpa using hi⟩

end IntentGrammar
