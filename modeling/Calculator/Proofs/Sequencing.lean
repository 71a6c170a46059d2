import Mathlib.Control.Basic

/-! Steps that may fail, one after the other. A sequence succeeds if each of its steps does,
and what every successful step preserves, a successful run preserves. Two runs whose steps end
alike end alike.
-/

namespace Calculator

variable {α β ε : Type}

@[simp]
theorem ok_bind (a : α) (f : α → Except ε β)
    : (Except.ok a >>= f) = f a :=
  rfl

@[simp]
theorem error_bind (e : ε) (f : α → Except ε β)
    : (Except.error e >>= f) = Except.error e :=
  rfl

@[simp]
theorem pure_eq_ok (a : α)
    : (pure a : Except ε α) = Except.ok a :=
  rfl

@[simp]
theorem throw_eq_error (e : ε)
    : (throw e : Except ε α) = Except.error e :=
  rfl

theorem bind_eq_ok_iff {x : Except ε α} {f : α → Except ε β} {b : β}
    : (x >>= f) = .ok b ↔ ∃ a, x = .ok a ∧ f a = .ok b := by
  cases x with
  | error e => simp
  | ok a => simp

theorem bind_eq_error_iff {x : Except ε α} {f : α → Except ε β} {e : ε}
    : (x >>= f) = .error e ↔ x = .error e ∨ ∃ a, x = .ok a ∧ f a = .error e := by
  cases x with
  | error e' => simp
  | ok a => simp

/-- What a successful step preserves between the items behind it and the state, a whole
successful run preserves. Witness: induction on the items still to come.
-/
theorem foldlM_preserves {step : β → α → Except ε β} {Holds : List α → β → Prop}
    (preserved : ∀ past item b next, Holds past b → step b item = .ok next
      → Holds (past ++ [item]) next)
    {past items : List α} {start final : β} (first : Holds past start)
    (run : items.foldlM step start = .ok final)
    : Holds (past ++ items) final := by
  induction items generalizing past start with
  | nil =>
      obtain rfl : start = final := by simpa using run
      simpa using first
  | cons item rest ih =>
      obtain ⟨next, stepped, run⟩ := bind_eq_ok_iff.mp (by simpa using run)
      simpa using ih (preserved past item start next first stepped) run

/-- What holds for the result of each item holds for all results. -/
theorem forall_mem_of_mapM {f : α → Except ε β} {Holds : β → Prop} {items : List α}
    (each : ∀ a ∈ items, ∀ b, f a = .ok b → Holds b) {results : List β}
    (run : items.mapM f = .ok results)
    : ∀ b ∈ results, Holds b := by
  induction items generalizing results with
  | nil =>
      cases run
      simp
  | cons item rest ih =>
      rw [List.mapM_cons] at run
      obtain ⟨b, first, run⟩ := bind_eq_ok_iff.mp run
      obtain ⟨later, others, same⟩ := bind_eq_ok_iff.mp run
      cases same
      obtain ⟨head, tail⟩ := List.forall_mem_cons.mp each
      exact List.forall_mem_cons.mpr ⟨head b first, ih tail others⟩

/-- A run over items fails as its first failing item does, by induction on the items. -/
theorem mapM_eq_error_iff {f : α → Except ε β} {items : List α} {e : ε}
    : items.mapM f = .error e
      ↔ ∃ before item after, items = before ++ item :: after
          ∧ (∀ earlier ∈ before, ∀ e', f earlier ≠ .error e') ∧ f item = .error e := by
  induction items with
  | nil => simp
  | cons first rest ih =>
      rw [List.mapM_cons, bind_eq_error_iff]
      constructor
      · rintro (failed | ⟨b, passed, failed⟩)
        · exact ⟨[], first, rest, rfl, by simp, failed⟩
        · obtain failed | ⟨_, _, impossible⟩ := bind_eq_error_iff.mp failed
          · obtain ⟨before, item, after, rfl, passes, failed⟩ := ih.mp failed
            refine ⟨first :: before, item, after, rfl, ?_, failed⟩
            exact List.forall_mem_cons.mpr ⟨by simp [passed], passes⟩
          · cases impossible
      · rintro ⟨before, item, after, same, passes, failed⟩
        cases before with
        | nil =>
            cases same
            exact .inl failed
        | cons _ before =>
            cases same
            obtain ⟨passed, passes⟩ := List.forall_mem_cons.mp passes
            cases result : f first with
            | error e' => exact absurd result (passed e')
            | ok b =>
                have later := ih.mpr ⟨before, item, after, rfl, passes, failed⟩
                exact .inr ⟨b, rfl, bind_eq_error_iff.mpr (.inl later)⟩

/-- A failure that no step has is not the failure of a run. -/
theorem foldlM_ne_error {step : β → α → Except ε β} {e : ε}
    (never : ∀ b item, step b item ≠ .error e) (items : List α) (start : β)
    : items.foldlM step start ≠ .error e := by
  induction items generalizing start with
  | nil => exact fun failed => nomatch failed
  | cons item rest ih =>
      intro failed
      rw [List.foldlM_cons] at failed
      rcases bind_eq_error_iff.mp failed with failed | ⟨next, _, failed⟩
      · exact never start item failed
      · exact ih next failed

/-- Every item of a successful run was met by a step that succeeded. -/
theorem exists_step_of_foldlM {step : β → α → Except ε β} {items : List α} {start final : β}
    (run : items.foldlM step start = .ok final) {item : α} (member : item ∈ items)
    : ∃ b next, step b item = .ok next := by
  induction items generalizing start with
  | nil => cases member
  | cons first rest ih =>
      obtain ⟨next, stepped, run⟩ := bind_eq_ok_iff.mp (by simpa using run)
      rcases List.mem_cons.mp member with rfl | member
      · exact ⟨start, next, stepped⟩
      · exact ih run member

/-- A failing run fails at one of its items, where everything holds that its steps preserve. -/
theorem exists_step_of_foldlM_error {step : β → α → Except ε β} {Holds : β → Prop}
    (preserved : ∀ b item next, Holds b → step b item = .ok next → Holds next)
    {items : List α} {start : β} {e : ε} (first : Holds start)
    (failed : items.foldlM step start = .error e)
    : ∃ item ∈ items, ∃ b, Holds b ∧ step b item = .error e := by
  induction items generalizing start with
  | nil => cases failed
  | cons item rest ih =>
      rw [List.foldlM_cons] at failed
      rcases bind_eq_error_iff.mp failed with failed | ⟨next, stepped, failed⟩
      · exact ⟨item, by simp, start, first, failed⟩
      · obtain ⟨later, member, b, holds, failed⟩ :=
          ih (preserved start item next first stepped) failed
        exact ⟨later, by simp [member], b, holds, failed⟩

--------------------------------------------------------------------------------
-- Two runs
--------------------------------------------------------------------------------

/-- Two runs end alike: with the same failure, or with results that are related. -/
inductive Alike {γ : Type} (related : α → γ → Prop) : Except ε α → Except ε γ → Prop where
  | ok {a : α} {c : γ} (both : related a c) : Alike related (.ok a) (.ok c)
  | error (e : ε) : Alike related (.error e) (.error e)

namespace Alike

variable {γ δ : Type} {related : α → γ → Prop} {x : Except ε α} {y : Except ε γ}

/-- The same result can only be related to itself. -/
theorem of_eq {related : α → α → Prop} (reflexive : ∀ a, related a a) (x : Except ε α)
    : Alike related x x := by
  cases x with
  | ok a => exact .ok (reflexive a)
  | error e => exact .error e

theorem eq {x y : Except ε α} (alike : Alike (· = ·) x y)
    : x = y := by
  cases alike with
  | ok both => rw [both]
  | error e => rfl

theorem bind {after : β → δ → Prop} {f : α → Except ε β} {g : γ → Except ε δ}
    (alike : Alike related x y) (next : ∀ a c, related a c → Alike after (f a) (g c))
    : Alike after (x >>= f) (y >>= g) := by
  cases alike with
  | ok both => exact next _ _ both
  | error e => exact .error e

/-- Two runs over the same items end alike if each step does. Witness: induction on the items. -/
theorem foldlM {ι : Type} {step : α → ι → Except ε α} {step' : γ → ι → Except ε γ}
    {items : List ι}
    (each : ∀ item ∈ items, ∀ a c, related a c → Alike related (step a item) (step' c item))
    {a : α} {c : γ} (both : related a c)
    : Alike related (items.foldlM step a) (items.foldlM step' c) := by
  induction items generalizing a c with
  | nil => exact .ok both
  | cons item rest ih =>
      obtain ⟨first, later⟩ := List.forall_mem_cons.mp each
      rw [List.foldlM_cons, List.foldlM_cons]
      exact (first a c both).bind fun _ _ between => ih later between

end Alike

end Calculator
