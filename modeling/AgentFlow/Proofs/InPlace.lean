/-!
# Work in place

Steps that change a state and may stop with a fault, run on a state.  What a step changed before the
fault is in the state that is left.

* `run_bind`: the next step starts from the state that the step before it left.
* `run_bind_eq_ok_iff`, `run_bind_eq_error_iff`: how two steps end.
* `run_tryCatch`: a fault is handled in the state that the work left.
* `run_get_bind`: reading the state changes nothing.
* `bind_eq_ok_iff`: what is made of a result that may be a fault.
-/

namespace AgentFlow.InPlace

variable {σ ε β γ : Type}

theorem run_bind (work : ExceptT ε (StateM σ) β) (next : β → ExceptT ε (StateM σ) γ) (s : σ) :
    (work >>= next).run s =
      match work.run s with
      | (.ok b, t) => (next b).run t
      | (.error e, t) => (.error e, t) := by
  show (match work.run s with | (r, t) => ExceptT.bindCont next r t : Except ε γ × σ) = _
  cases work.run s with
  | mk r t => cases r <;> rfl

/-- What came to its end did not stop at a fault. -/
theorem ok_ne_error {b : β} {e : ε} {s t : σ} :
    ((.ok b, s) : Except ε β × σ) ≠ (.error e, t) := by
  simp

/-- Two steps come to their end together if each of them does. -/
theorem run_bind_eq_ok_iff {work : ExceptT ε (StateM σ) β} {next : β → ExceptT ε (StateM σ) γ}
    {s u : σ} {c : γ} :
    (work >>= next).run s = (.ok c, u) ↔
      ∃ b t, work.run s = (.ok b, t) ∧ (next b).run t = (.ok c, u) := by
  rw [run_bind]
  constructor
  · intro h
    rcases hrun : work.run s with ⟨e | b, t⟩ <;> rw [hrun] at h
    · exact absurd h.symm ok_ne_error
    · exact ⟨b, t, rfl, h⟩
  · rintro ⟨b, t, hrun, h⟩
    rw [hrun]
    exact h

/-- Two steps stop at a fault if the first one does, or the second one after it. -/
theorem run_bind_eq_error_iff {work : ExceptT ε (StateM σ) β}
    {next : β → ExceptT ε (StateM σ) γ} {s u : σ} {e : ε} :
    (work >>= next).run s = (.error e, u) ↔
      work.run s = (.error e, u) ∨
        ∃ b t, work.run s = (.ok b, t) ∧ (next b).run t = (.error e, u) := by
  rw [run_bind]
  constructor
  · intro h
    rcases hrun : work.run s with ⟨e' | b, t⟩ <;> rw [hrun] at h
    · obtain rfl := Except.error.inj (congrArg Prod.fst h)
      obtain rfl := congrArg Prod.snd h
      exact .inl rfl
    · exact .inr ⟨b, t, rfl, h⟩
  · rintro (hrun | ⟨b, t, hrun, h⟩) <;> rw [hrun]
    exact h

/-- A fault is handled in the state that the work left. -/
theorem run_tryCatch (work : ExceptT ε (StateM σ) β) (handle : ε → ExceptT ε (StateM σ) β)
    (s : σ) :
    (tryCatch work handle).run s =
      match work.run s with
      | (.ok b, t) => (.ok b, t)
      | (.error e, t) => (handle e).run t := by
  show (match work.run s with
    | (r, t) => (match r with
      | .ok b => pure (.ok b)
      | .error e => handle e : StateM σ (Except ε β)) t : Except ε β × σ) = _
  cases work.run s with
  | mk r t => cases r <;> rfl

theorem run_get_bind (next : σ → ExceptT ε (StateM σ) γ) (s : σ) :
    (get >>= next).run s = (next s).run s := rfl

/-- One change of the state for each item. -/
theorem run_forM_modify (change : β → σ → σ) (items : List β) (s : σ) :
    (items.forM fun b => modify (change b) : ExceptT ε (StateM σ) Unit).run s =
      (.ok (), items.foldl (fun t b => change b t) s) := by
  induction items generalizing s with
  | nil => rfl
  | cons b rest ih => exact ih (change b s)

/-- Without a state: a result goes on to the next one if it is no fault. -/
theorem bind_eq_ok_iff {result : Except ε β} {next : β → Except ε γ} {c : γ} :
    (result >>= next) = .ok c ↔ ∃ b, result = .ok b ∧ next b = .ok c := by
  cases result <;> simp [bind, Except.bind]

end AgentFlow.InPlace
