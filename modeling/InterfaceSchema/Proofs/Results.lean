import Mathlib.Data.List.Basic

/-!
# Results, or the first error

A loop that works out a result for each member of a list, and puts every result to what it has so
far, stops at the first error.  `collect g xs` keeps the two apart: it is each member beside its
result, or the first error.

* `foldlM_eq_collect`: such a loop is `collect` and then a plain fold.
* `collect_eq_ok_iff`, `exists_collect_iff`: there are results when each member has one.
* `collect_eq_error_iff`: the error is that of the first member without a result.
* `collect_map`: members changed one by one, whose results change alike.
-/

namespace InterfaceSchema
variable {α β γ ε : Type}

/-- A result that is changed comes from one that was there. -/
theorem map_eq_ok_iff {r : Except ε α} {f : α → β} {b : β} :
    r.map f = .ok b ↔ ∃ a, r = .ok a ∧ f a = b := by
  cases r <;> simp [Except.map]

/-- Errors are not changed. -/
theorem map_eq_error_iff {r : Except ε α} {f : α → β} {e : ε} :
    r.map f = .error e ↔ r = .error e := by
  cases r <;> simp [Except.map]

theorem exists_map_eq_ok_iff {r : Except ε α} {f : α → β} :
    (∃ b, r.map f = .ok b) ↔ ∃ a, r = .ok a := by
  cases r <;> simp [Except.map]

/-- Each member beside its result, or the first error. -/
def collect (g : α → Except ε γ) : List α → Except ε (List (α × γ))
  | []      => .ok []
  | x :: xs =>
    match g x with
    | .error e => .error e
    | .ok y => (collect g xs).map ((x, y) :: ·)

/-- **A loop is its results and then a fold**, if what a member comes to does not hang on what
the loop has so far, as long as that meets `Inv`. -/
theorem foldlM_eq_collect {f : β → α → Except ε β} (g : α → Except ε γ) (put : β → α → γ → β)
    (Inv : β → Prop) (hf : ∀ b x, Inv b → f b x = (g x).map (put b x))
    (hput : ∀ b x y, Inv b → Inv (put b x y)) {b : β} (hb : Inv b) (xs : List α) :
    xs.foldlM f b = (collect g xs).map (List.foldl (fun b p => put b p.1 p.2) b) := by
  induction xs generalizing b with
  | nil => rfl
  | cons x xs ih =>
      rw [List.foldlM_cons, hf b x hb, collect]
      cases g x with
      | error e => rfl
      | ok y =>
          show xs.foldlM f (put b x y) = _
          rw [ih (hput b x y hb)]
          cases collect g xs <;> rfl

/-- All results are there exactly if each step has one, and they stand in order. -/
theorem collect_eq_ok_iff {g : α → Except ε γ} {xs : List α} {ps : List (α × γ)} :
    collect g xs = .ok ps ↔ ps.map (·.1) = xs ∧ ∀ p ∈ ps, g p.1 = .ok p.2 := by
  induction xs generalizing ps with
  | nil => simp only [collect, Except.ok.injEq, List.map_eq_nil_iff]; aesop
  | cons x xs ih =>
      rw [collect]
      constructor
      · intro h
        cases hx : g x with
        | error e => simp [hx] at h
        | ok y =>
            cases hxs : collect g xs with
            | error e => simp [hx, hxs, Except.map] at h
            | ok qs =>
                obtain ⟨hmap, hall⟩ := ih.1 hxs
                obtain rfl : (x, y) :: qs = ps := by simpa [hx, hxs, Except.map] using h
                refine ⟨by simp [hmap], fun p hp => ?_⟩
                rcases List.mem_cons.1 hp with rfl | hp
                · exact hx
                · exact hall p hp
      · rintro ⟨hmap, hall⟩
        obtain ⟨⟨x', y⟩, qs, rfl, rfl, hqs⟩ := List.map_eq_cons_iff.1 hmap
        have hx : g x' = .ok y := hall (x', y) List.mem_cons_self
        have hxs := ih.2 ⟨hqs, fun p hp => hall p (List.mem_cons_of_mem _ hp)⟩
        simp [hx, hxs, Except.map]

/-- Some results are there if every step has one. -/
theorem exists_collect_iff {g : α → Except ε γ} {xs : List α} :
    (∃ ps, collect g xs = .ok ps) ↔ ∀ x ∈ xs, ∃ y, g x = .ok y := by
  constructor
  · rintro ⟨ps, h⟩ x hx
    obtain ⟨rfl, hall⟩ := collect_eq_ok_iff.1 h
    obtain ⟨p, hp, rfl⟩ := List.mem_map.1 hx
    exact ⟨p.2, hall p hp⟩
  · intro h
    induction xs with
    | nil => exact ⟨[], rfl⟩
    | cons x xs ih =>
        obtain ⟨y, hx⟩ := h x List.mem_cons_self
        obtain ⟨ps, hxs⟩ := ih fun z hz => h z (List.mem_cons_of_mem _ hz)
        exact ⟨(x, y) :: ps, by simp [collect, hx, hxs, Except.map]⟩

/-- The error is that of the first step that has one. -/
theorem collect_eq_error_iff {g : α → Except ε γ} {xs : List α} {e : ε} :
    collect g xs = .error e ↔ ∃ before x after, xs = before ++ x :: after ∧
      (∀ z ∈ before, ∃ y, g z = .ok y) ∧ g x = .error e := by
  induction xs with
  | nil => simp [collect]
  | cons x xs ih =>
      rw [collect]
      cases hx : g x with
      | error e' =>
          constructor
          · rintro ⟨⟩
            exact ⟨[], x, xs, rfl, by simp, hx⟩
          · rintro ⟨before, z, after, heq, hbefore, hz⟩
            cases before with
            | nil => cases heq; rw [← hx, hz]
            | cons w before =>
                cases heq
                obtain ⟨y, hy⟩ := hbefore x List.mem_cons_self
                rw [hx] at hy
                cases hy
      | ok y =>
          have hmap : (collect g xs).map ((x, y) :: ·) = .error e ↔ collect g xs = .error e := by
            cases collect g xs <;> simp [Except.map]
          rw [hmap, ih]
          constructor
          · rintro ⟨before, z, after, rfl, hbefore, hz⟩
            refine ⟨x :: before, z, after, rfl, fun w hw => ?_, hz⟩
            rcases List.mem_cons.1 hw with rfl | hw
            · exact ⟨y, hx⟩
            · exact hbefore w hw
          · rintro ⟨before, z, after, heq, hbefore, hz⟩
            cases before with
            | nil => cases heq; rw [hx] at hz; cases hz
            | cons w before =>
                cases heq
                exact ⟨before, z, after, rfl, fun v hv => hbefore v (List.mem_cons_of_mem _ hv), hz⟩

/-- **Where members change one by one and their results with them**, so does the whole. -/
theorem collect_map {α' γ' : Type} {g : α → Except ε γ} {g' : α' → Except ε γ'} {F : α → α'}
    {G : γ → γ'} {xs : List α} (h : ∀ x ∈ xs, g' (F x) = (g x).map G) :
    collect g' (xs.map F) = (collect g xs).map (List.map fun p => (F p.1, G p.2)) := by
  induction xs with
  | nil => rfl
  | cons x xs ih =>
      rw [List.map_cons, collect, collect, h x List.mem_cons_self,
        ih fun z hz => h z (List.mem_cons_of_mem x hz)]
      cases g x with
      | error e => rfl
      | ok y => cases collect g xs <;> rfl

end InterfaceSchema
